import QuantWorkbench.Lib.JsonRoundTrip

/-!
What the text of a JSON value consists of, and the order of its keys. Outside
printable ASCII the text has exactly the characters of the strings and keys, and
sorting the keys changes neither the strings nor what can be read back.
-/

namespace QuantWorkbench.Lib.Json

mutual

/-- The strings and keys of a value. -/
def texts : Json → List Text
  | .str text => [text]
  | .arr items => textsOfItems items
  | .obj members => textsOfMembers members
  | _ => []

def textsOfItems : List Json → List Text
  | [] => []
  | item :: items => texts item ++ textsOfItems items

def textsOfMembers : List (Text × Json) → List Text
  | [] => []
  | (key, value) :: members => key :: (texts value ++ textsOfMembers members)

end

theorem mem_textsOfMembers {text : Text} {members : List (Text × Json)} :
    text ∈ textsOfMembers members ↔
      ∃ member ∈ members, text = member.1 ∨ text ∈ texts member.2 := by
  induction members with
  | nil => simp [textsOfMembers]
  | cons member members ih =>
      obtain ⟨key, value⟩ := member
      simp [textsOfMembers, ih, or_assoc]

/-! ### The characters of a written value -/

/-- A printable ASCII character. -/
def IsPlain (c : Char) : Prop := 0x20 ≤ c.toNat ∧ c.toNat < 0x7F

instance (c : Char) : Decidable (IsPlain c) := inferInstanceAs (Decidable (_ ∧ _))

theorem isPlain_of_isNumberChar {c : Char} (h : isNumberChar c = true) : IsPlain c := by
  simp only [isNumberChar, decide_eq_true_eq] at h
  rcases h with hdigit | hmem
  · rw [Char.isDigit, Bool.and_eq_true, decide_eq_true_eq, decide_eq_true_eq] at hdigit
    have hlow : 48 ≤ c.toNat := hdigit.1
    have hhigh : c.toNat ≤ 57 := hdigit.2
    exact ⟨by omega, by omega⟩
  · simp only [List.mem_cons, List.not_mem_nil, or_false] at hmem
    rcases hmem with rfl | rfl | rfl | rfl | rfl <;> decide

/-- A string character is written as itself or by printable characters. -/
theorem mem_escapeChar {c d : Char} (h : c ∈ escapeChar d) :
    IsPlain c ∨ c = d ∧ 0x20 ≤ c.toNat := by
  have hplain : ∀ {e f : Char}, IsPlain e → IsPlain f → c ∈ [e, f] → IsPlain c := by
    intro e f he hf hmem
    simp only [List.mem_cons, List.not_mem_nil, or_false] at hmem
    rcases hmem with rfl | rfl
    · exact he
    · exact hf
  unfold escapeChar at h
  split_ifs at h with hquote hslash hnewline hreturn htab hback hfeed hcontrol
  · exact .inl (hplain (by decide) (by decide) h)
  · exact .inl (hplain (by decide) (by decide) h)
  · exact .inl (hplain (by decide) (by decide) h)
  · exact .inl (hplain (by decide) (by decide) h)
  · exact .inl (hplain (by decide) (by decide) h)
  · exact .inl (hplain (by decide) (by decide) h)
  · exact .inl (hplain (by decide) (by decide) h)
  · left
    have hcode : d.toNat < 32 := hcontrol
    have hdigit : ∀ k : Fin 16, IsPlain (Nat.digitChar k) := by decide
    simp only [List.mem_cons, List.not_mem_nil, or_false] at h
    rcases h with rfl | rfl | rfl | rfl | rfl | rfl
    · decide
    · decide
    · decide
    · decide
    · exact hdigit ⟨d.toNat / 16, by omega⟩
    · exact hdigit ⟨d.toNat % 16, by omega⟩
  · right
    obtain rfl := List.mem_singleton.mp h
    refine ⟨rfl, ?_⟩
    have hcode : ¬ c.toNat < 32 := hcontrol
    omega

/-- Beyond ASCII every character of a string is written as it is. -/
theorem self_mem_escapeChar {c : Char} (h : 0x80 ≤ c.toNat) : c ∈ escapeChar c := by
  have hne : ∀ d : Char, d.toNat < 0x80 → c ≠ d := by
    rintro d hd rfl
    omega
  have hval : ∀ n : ℕ, n < 0x80 → c.val ≠ UInt32.ofNat n := by
    intro n hn heq
    have hnat : c.toNat = n := by
      change c.val.toNat = n
      rw [heq, UInt32.toNat_ofNat_of_lt' (hn.trans (by decide))]
    omega
  have hcontrol : ¬ c.val < 0x20 := by
    intro hlow
    have hnat : c.toNat < 32 := hlow
    omega
  have hback : c.val ≠ 0x8 := hval 8 (by decide)
  have hfeed : c.val ≠ 0xC := hval 12 (by decide)
  unfold escapeChar
  rw [if_neg (hne _ (by decide)), if_neg (hne _ (by decide)), if_neg (hne _ (by decide)),
    if_neg (hne _ (by decide)), if_neg (hne _ (by decide)), if_neg hback, if_neg hfeed,
    if_neg hcontrol]
  exact List.mem_singleton.mpr rfl

theorem mem_quote {c : Char} {text : Text} (h : c ∈ quote text) :
    IsPlain c ∨ c ∈ text ∧ 0x20 ≤ c.toNat := by
  simp only [quote, List.mem_cons, List.mem_append, List.mem_flatMap, List.not_mem_nil,
    or_false] at h
  rcases h with rfl | ⟨d, hd, hc⟩ | rfl
  · exact .inl (by decide)
  · rcases mem_escapeChar hc with hplain | ⟨rfl, hlow⟩
    · exact .inl hplain
    · exact .inr ⟨hd, hlow⟩
  · exact .inl (by decide)

theorem mem_quote_of_mem {c : Char} {text : Text} (h : c ∈ text) (hc : 0x80 ≤ c.toNat) :
    c ∈ quote text := by
  simp only [quote, List.mem_cons, List.mem_append, List.mem_flatMap]
  exact .inr (.inl ⟨c, h, self_mem_escapeChar hc⟩)

private theorem isPlain_of_mem_word {lexeme : Text} {value : Json}
    (h : (lexeme, value) ∈ literals) : ∀ c ∈ lexeme, IsPlain c := by
  simp only [literals, List.mem_cons, Prod.mk.injEq, List.not_mem_nil, or_false] at h
  rcases h with ⟨rfl, -⟩ | ⟨rfl, -⟩ | ⟨rfl, -⟩ | ⟨rfl, -⟩ | ⟨rfl, -⟩ | ⟨rfl, -⟩ <;> decide

mutual

/-- A written value has printable characters and characters of its strings. -/
theorem mem_encode {c : Char} (value : Json) (hwritable : value.Writable)
    (h : c ∈ encode value) : IsPlain c ∨ 0x20 ≤ c.toNat ∧ ∃ text ∈ texts value, c ∈ text := by
  cases value with
  | null =>
      rw [encode] at h
      exact .inl (isPlain_of_mem_word (by simp [literals] : (_, .null) ∈ literals) c h)
  | bool b =>
      left
      cases b with
      | true =>
          rw [encode] at h
          exact isPlain_of_mem_word (by simp [literals] : (_, .bool true) ∈ literals) c h
      | false =>
          rw [encode] at h
          exact isPlain_of_mem_word (by simp [literals] : (_, .bool false) ∈ literals) c h
  | int n =>
      rw [encode] at h
      exact .inl (isPlain_of_isNumberChar (List.all_eq_true.mp (intText_all n) c h))
  | float lexeme =>
      rw [encode] at h
      rw [Writable] at hwritable
      rcases hwritable with hfloat | hword
      · exact .inl (isPlain_of_isNumberChar
          (List.all_eq_true.mp (isFloatLexeme_all hfloat) c h))
      · exact .inl (isPlain_of_mem_word hword c h)
  | str text =>
      rw [encode] at h
      rcases mem_quote h with hplain | ⟨hmem, hlow⟩
      · exact .inl hplain
      · exact .inr ⟨hlow, text, by simp [texts], hmem⟩
  | arr items =>
      rw [Writable] at hwritable
      cases items with
      | nil =>
          rw [encode] at h
          simp only [List.mem_cons, List.not_mem_nil, or_false] at h
          rcases h with rfl | rfl <;> exact .inl (by decide)
      | cons item items =>
          rw [WritableItems] at hwritable
          simp only [encode, List.mem_cons, List.mem_append] at h
          simp only [texts, textsOfItems, List.mem_append]
          rcases h with rfl | h | h
          · exact .inl (by decide)
          · exact (mem_encode item hwritable.1 h).imp_right
              fun ⟨hlow, text, htext, hc⟩ => ⟨hlow, text, .inl htext, hc⟩
          · exact (mem_encodeItems items hwritable.2 h).imp_right
              fun ⟨hlow, text, htext, hc⟩ => ⟨hlow, text, .inr htext, hc⟩
  | obj members =>
      rw [Writable] at hwritable
      cases members with
      | nil =>
          rw [encode] at h
          simp only [List.mem_cons, List.not_mem_nil, or_false] at h
          rcases h with rfl | rfl <;> exact .inl (by decide)
      | cons member members =>
          obtain ⟨key, value⟩ := member
          rw [WritableMembers] at hwritable
          simp only [encode, List.mem_cons, List.mem_append] at h
          simp only [texts, textsOfMembers, List.mem_append, List.mem_cons]
          rcases h with rfl | h | rfl | h | h
          · exact .inl (by decide)
          · exact (mem_quote h).imp_right fun ⟨hc, hlow⟩ => ⟨hlow, key, .inl rfl, hc⟩
          · exact .inl (by decide)
          · exact (mem_encode value hwritable.2.1 h).imp_right
              fun ⟨hlow, text, htext, hc⟩ => ⟨hlow, text, .inr (.inl htext), hc⟩
          · exact (mem_encodeMembers members hwritable.2.2 h).imp_right
              fun ⟨hlow, text, htext, hc⟩ => ⟨hlow, text, .inr (.inr htext), hc⟩

theorem mem_encodeItems {c : Char} (items : List Json) (hwritable : WritableItems items)
    (h : c ∈ encodeItems items) :
    IsPlain c ∨ 0x20 ≤ c.toNat ∧ ∃ text ∈ textsOfItems items, c ∈ text := by
  cases items with
  | nil =>
      rw [encodeItems] at h
      obtain rfl := List.mem_singleton.mp h
      exact .inl (by decide)
  | cons item items =>
      rw [WritableItems] at hwritable
      simp only [encodeItems, List.mem_cons, List.mem_append] at h
      simp only [textsOfItems, List.mem_append]
      rcases h with rfl | h | h
      · exact .inl (by decide)
      · exact (mem_encode item hwritable.1 h).imp_right
          fun ⟨hlow, text, htext, hc⟩ => ⟨hlow, text, .inl htext, hc⟩
      · exact (mem_encodeItems items hwritable.2 h).imp_right
          fun ⟨hlow, text, htext, hc⟩ => ⟨hlow, text, .inr htext, hc⟩

theorem mem_encodeMembers {c : Char} (members : List (Text × Json))
    (hwritable : WritableMembers members) (h : c ∈ encodeMembers members) :
    IsPlain c ∨ 0x20 ≤ c.toNat ∧ ∃ text ∈ textsOfMembers members, c ∈ text := by
  cases members with
  | nil =>
      rw [encodeMembers] at h
      obtain rfl := List.mem_singleton.mp h
      exact .inl (by decide)
  | cons member members =>
      obtain ⟨key, value⟩ := member
      rw [WritableMembers] at hwritable
      simp only [encodeMembers, List.mem_cons, List.mem_append] at h
      simp only [textsOfMembers, List.mem_append, List.mem_cons]
      rcases h with rfl | h | rfl | h | h
      · exact .inl (by decide)
      · exact (mem_quote h).imp_right fun ⟨hc, hlow⟩ => ⟨hlow, key, .inl rfl, hc⟩
      · exact .inl (by decide)
      · exact (mem_encode value hwritable.1 h).imp_right
          fun ⟨hlow, text, htext, hc⟩ => ⟨hlow, text, .inr (.inl htext), hc⟩
      · exact (mem_encodeMembers members hwritable.2 h).imp_right
          fun ⟨hlow, text, htext, hc⟩ => ⟨hlow, text, .inr (.inr htext), hc⟩

end

mutual

/-- A character of a string beyond ASCII stands in the written value. -/
theorem mem_encode_of_mem {c : Char} {text : Text} (hc : 0x80 ≤ c.toNat) (hmem : c ∈ text)
    (value : Json) (h : text ∈ texts value) : c ∈ encode value := by
  cases value with
  | str t =>
      obtain rfl : text = t := by simpa [texts] using h
      rw [encode]
      exact mem_quote_of_mem hmem hc
  | arr items =>
      cases items with
      | nil => simp [texts, textsOfItems] at h
      | cons item items =>
          simp only [texts, textsOfItems, List.mem_append] at h
          simp only [encode, List.mem_cons, List.mem_append]
          rcases h with h | h
          · exact .inr (.inl (mem_encode_of_mem hc hmem item h))
          · exact .inr (.inr (mem_encodeItems_of_mem hc hmem items h))
  | obj members =>
      cases members with
      | nil => simp [texts, textsOfMembers] at h
      | cons member members =>
          obtain ⟨key, value⟩ := member
          simp only [texts, textsOfMembers, List.mem_append, List.mem_cons] at h
          simp only [encode, List.mem_cons, List.mem_append]
          rcases h with rfl | h | h
          · exact .inr (.inl (mem_quote_of_mem hmem hc))
          · exact .inr (.inr (.inr (.inl (mem_encode_of_mem hc hmem value h))))
          · exact .inr (.inr (.inr (.inr (mem_encodeMembers_of_mem hc hmem members h))))
  | _ => simp [texts] at h

theorem mem_encodeItems_of_mem {c : Char} {text : Text} (hc : 0x80 ≤ c.toNat) (hmem : c ∈ text)
    (items : List Json) (h : text ∈ textsOfItems items) : c ∈ encodeItems items := by
  cases items with
  | nil => simp [textsOfItems] at h
  | cons item items =>
      simp only [textsOfItems, List.mem_append] at h
      simp only [encodeItems, List.mem_cons, List.mem_append]
      rcases h with h | h
      · exact .inr (.inl (mem_encode_of_mem hc hmem item h))
      · exact .inr (.inr (mem_encodeItems_of_mem hc hmem items h))

theorem mem_encodeMembers_of_mem {c : Char} {text : Text} (hc : 0x80 ≤ c.toNat)
    (hmem : c ∈ text) (members : List (Text × Json)) (h : text ∈ textsOfMembers members) :
    c ∈ encodeMembers members := by
  cases members with
  | nil => simp [textsOfMembers] at h
  | cons member members =>
      obtain ⟨key, value⟩ := member
      simp only [textsOfMembers, List.mem_append, List.mem_cons] at h
      simp only [encodeMembers, List.mem_cons, List.mem_append]
      rcases h with rfl | h | h
      · exact .inr (.inl (mem_quote_of_mem hmem hc))
      · exact .inr (.inr (.inr (.inl (mem_encode_of_mem hc hmem value h))))
      · exact .inr (.inr (.inr (.inr (mem_encodeMembers_of_mem hc hmem members h))))

end

/-! ### The order of keys -/

instance : Std.Total inKeyOrder := ⟨fun a b => le_total a.1 b.1⟩

instance : IsTrans (Text × Json) inKeyOrder := ⟨fun _ _ _ hab hbc => @le_trans Text _ _ _ _ hab hbc⟩

theorem sortedMembers_eq_map (members : List (Text × Json)) :
    sortedMembers members = members.map fun member => (member.1, sorted member.2) := by
  induction members with
  | nil => rfl
  | cons member members ih =>
      obtain ⟨key, value⟩ := member
      rw [sortedMembers, ih]
      rfl

theorem sorted_obj (members : List (Text × Json)) :
    sorted (.obj members) = .obj ((sortedMembers members).insertionSort inKeyOrder) := by
  rw [sorted]

theorem mem_sortMembers {member : Text × Json} {members : List (Text × Json)} :
    member ∈ (sortedMembers members).insertionSort inKeyOrder ↔
      ∃ m ∈ members, (m.1, sorted m.2) = member := by
  rw [List.mem_insertionSort, sortedMembers_eq_map, List.mem_map]

mutual

/-- Sorting the keys a second time changes nothing. -/
theorem sorted_sorted (value : Json) : sorted (sorted value) = sorted value := by
  cases value with
  | arr items => rw [sorted, sorted, sortedItems_sortedItems items]
  | obj members =>
      have hvalues : sortedMembers ((sortedMembers members).insertionSort inKeyOrder) =
          (sortedMembers members).insertionSort inKeyOrder := by
        rw [sortedMembers_eq_map]
        refine (List.map_congr_left ?_).trans (List.map_id _)
        intro member hmember
        obtain ⟨m, hm, rfl⟩ := mem_sortMembers.mp hmember
        rw [sorted_of_mem members m hm]
        rfl
      rw [sorted_obj, sorted_obj, hvalues,
        (List.pairwise_insertionSort inKeyOrder _).insertionSort_eq]
  | _ => rw [sorted, sorted]

theorem sortedItems_sortedItems (items : List Json) :
    sortedItems (sortedItems items) = sortedItems items := by
  cases items with
  | nil => rw [sortedItems, sortedItems]
  | cons item items =>
      rw [sortedItems, sortedItems, sorted_sorted item, sortedItems_sortedItems items]

theorem sorted_of_mem (members : List (Text × Json)) (member : Text × Json)
    (h : member ∈ members) : sorted (sorted member.2) = sorted member.2 := by
  cases members with
  | nil => simp at h
  | cons head rest =>
      obtain ⟨key, value⟩ := head
      rcases List.mem_cons.mp h with rfl | h
      · exact sorted_sorted value
      · exact sorted_of_mem rest member h

end

theorem writableMembers_iff {members : List (Text × Json)} :
    WritableMembers members ↔ ∀ member ∈ members, member.2.Writable := by
  induction members with
  | nil => simp [WritableMembers]
  | cons member members ih =>
      obtain ⟨key, value⟩ := member
      simp [WritableMembers, ih]

mutual

/-- Sorting the keys keeps them distinct. -/
theorem sorted_writable (value : Json) (h : value.Writable) : (sorted value).Writable := by
  cases value with
  | arr items =>
      rw [Writable] at h
      rw [sorted, Writable]
      exact sortedItems_writable items h
  | obj members =>
      rw [Writable] at h
      rw [sorted_obj, Writable]
      refine ⟨?_, writableMembers_iff.mpr ?_⟩
      · have hkeys : ((sortedMembers members).map (·.1)) = members.map (·.1) := by
          rw [sortedMembers_eq_map, List.map_map]
          rfl
        have hperm := (List.perm_insertionSort inKeyOrder (sortedMembers members)).map (·.1)
        rw [hkeys] at hperm
        exact hperm.nodup_iff.mpr h.1
      · intro member hmember
        obtain ⟨m, hm, rfl⟩ := mem_sortMembers.mp hmember
        exact sorted_writable_of_mem members h.2 m hm
  | float lexeme => rwa [sorted]
  | null => rwa [sorted]
  | bool b => rwa [sorted]
  | int n => rwa [sorted]
  | str text => rwa [sorted]

theorem sortedItems_writable (items : List Json) (h : WritableItems items) :
    WritableItems (sortedItems items) := by
  cases items with
  | nil => rwa [sortedItems]
  | cons item items =>
      rw [WritableItems] at h
      rw [sortedItems, WritableItems]
      exact ⟨sorted_writable item h.1, sortedItems_writable items h.2⟩

theorem sorted_writable_of_mem (members : List (Text × Json)) (h : WritableMembers members)
    (member : Text × Json) (hmember : member ∈ members) : (sorted member.2).Writable := by
  cases members with
  | nil => simp at hmember
  | cons head rest =>
      obtain ⟨key, value⟩ := head
      rw [WritableMembers] at h
      rcases List.mem_cons.mp hmember with rfl | hmember
      · exact sorted_writable value h.1
      · exact sorted_writable_of_mem rest h.2 member hmember

end

mutual

/-- Sorting the keys keeps the strings and keys. -/
theorem mem_texts_sorted {text : Text} (value : Json) :
    text ∈ texts (sorted value) ↔ text ∈ texts value := by
  cases value with
  | arr items =>
      rw [sorted, texts, texts]
      exact mem_textsOfItems_sorted items
  | obj members =>
      rw [sorted_obj, texts, texts, mem_textsOfMembers, mem_textsOfMembers]
      constructor
      · rintro ⟨member, hmember, htext⟩
        obtain ⟨m, hm, rfl⟩ := mem_sortMembers.mp hmember
        exact ⟨m, hm, htext.imp_right (mem_texts_sorted_of_mem members m hm).mp⟩
      · rintro ⟨m, hm, htext⟩
        exact ⟨(m.1, sorted m.2), mem_sortMembers.mpr ⟨m, hm, rfl⟩,
          htext.imp_right (mem_texts_sorted_of_mem members m hm).mpr⟩
  | _ => rw [sorted]

theorem mem_textsOfItems_sorted {text : Text} (items : List Json) :
    text ∈ textsOfItems (sortedItems items) ↔ text ∈ textsOfItems items := by
  cases items with
  | nil => rw [sortedItems]
  | cons item items =>
      rw [sortedItems, textsOfItems, textsOfItems, List.mem_append, List.mem_append,
        mem_texts_sorted item, mem_textsOfItems_sorted items]

theorem mem_texts_sorted_of_mem {text : Text} (members : List (Text × Json))
    (member : Text × Json) (h : member ∈ members) :
    text ∈ texts (sorted member.2) ↔ text ∈ texts member.2 := by
  cases members with
  | nil => simp at h
  | cons head rest =>
      obtain ⟨key, value⟩ := head
      rcases List.mem_cons.mp h with rfl | h
      · exact mem_texts_sorted value
      · exact mem_texts_sorted_of_mem rest member h

end

/-- `loads` reads back what `dumps` wrote, with the keys in order. -/
theorem loads_dumps {value : Json} (h : value.Writable) : loads (dumps value) = some value.sorted :=
  loads_encode (sorted_writable value h)

theorem loads_dumps_newline {value : Json} (h : value.Writable) :
    loads (dumps value ++ ['\n']) = some value.sorted :=
  loads_encode_append (sorted_writable value h) (by simp [Ends]; decide) (by decide)

/-! ### Members of a sorted object -/

theorem find?_key_eq_some_iff {members : List (Text × Json)} (h : (members.map (·.1)).Nodup)
    {key : Text} {member : Text × Json} :
    members.find? (fun m => m.1 = key) = some member ↔ member ∈ members ∧ member.1 = key := by
  induction members with
  | nil => simp
  | cons head rest ih =>
      rw [List.map_cons, List.nodup_cons] at h
      rw [List.find?_cons]
      by_cases hhead : head.1 = key
      · simp only [hhead, decide_true, Option.some.injEq, List.mem_cons]
        constructor
        · rintro rfl
          exact ⟨.inl rfl, hhead⟩
        · rintro ⟨rfl | hmem, hkey⟩
          · rfl
          · exact absurd (List.mem_map.mpr ⟨member, hmem, hkey.trans hhead.symm⟩) h.1
      · simp only [hhead, decide_false, ih h.2, List.mem_cons]
        constructor
        · rintro ⟨hmem, hkey⟩
          exact ⟨.inr hmem, hkey⟩
        · rintro ⟨rfl | hmem, hkey⟩
          · exact absurd hkey hhead
          · exact ⟨hmem, hkey⟩

theorem member?_sorted {members : List (Text × Json)} (h : (members.map (·.1)).Nodup)
    (key : Text) :
    (sorted (.obj members)).member? key = ((Json.obj members).member? key).map sorted := by
  have hkeys : ((sortedMembers members).map (·.1)) = members.map (·.1) := by
    rw [sortedMembers_eq_map, List.map_map]
    rfl
  have hperm := List.perm_insertionSort inKeyOrder (sortedMembers members)
  have hnodup : (((sortedMembers members).insertionSort inKeyOrder).map (·.1)).Nodup := by
    rw [(hperm.map (·.1)).nodup_iff, hkeys]
    exact h
  rw [sorted_obj]
  change Option.map _ (List.find? _ ((sortedMembers members).insertionSort inKeyOrder)) =
    Option.map sorted (Option.map _ (List.find? _ members))
  cases hfound : members.find? (fun m => m.1 = key) with
  | some member =>
      obtain ⟨hmem, hkey⟩ := (find?_key_eq_some_iff h).mp hfound
      have hsorted : ((sortedMembers members).insertionSort inKeyOrder).find?
          (fun m => m.1 = key) = some (member.1, sorted member.2) :=
        (find?_key_eq_some_iff hnodup).mpr ⟨mem_sortMembers.mpr ⟨member, hmem, rfl⟩, hkey⟩
      rw [hsorted]
      rfl
  | none =>
      have hsorted : ((sortedMembers members).insertionSort inKeyOrder).find?
          (fun m => m.1 = key) = none := by
        rw [List.find?_eq_none] at hfound ⊢
        intro member hmember
        obtain ⟨m, hm, rfl⟩ := mem_sortMembers.mp hmember
        exact hfound m hm
      rw [hsorted]
      rfl

theorem mem_keys_sorted {members : List (Text × Json)} {key : Text} :
    key ∈ (sorted (.obj members)).keys ↔ key ∈ members.map (·.1) := by
  rw [sorted_obj]
  simp only [keys, List.mem_map]
  constructor
  · rintro ⟨member, hmember, rfl⟩
    obtain ⟨m, hm, rfl⟩ := mem_sortMembers.mp hmember
    exact ⟨m, hm, rfl⟩
  · rintro ⟨m, hm, rfl⟩
    exact ⟨(m.1, sorted m.2), mem_sortMembers.mpr ⟨m, hm, rfl⟩, rfl⟩

theorem hasKeys_sorted {required : List Text} {members : List (Text × Json)}
    (h : members.map (·.1) = required) : hasKeys required (sorted (.obj members)) = true := by
  subst h
  simp only [hasKeys, Bool.and_eq_true, List.all_eq_true, decide_eq_true_eq]
  refine ⟨?_, ?_⟩
  · intro key hkey
    exact mem_keys_sorted.mpr hkey
  · intro key hkey
    exact mem_keys_sorted.mp hkey

end QuantWorkbench.Lib.Json
