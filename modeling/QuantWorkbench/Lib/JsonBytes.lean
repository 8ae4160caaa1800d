import QuantWorkbench.Lib.JsonLocality
import QuantWorkbench.Lib.JsonRecords

/-!
Files of bytes with one JSON value a line, in UTF-8. What a cut leaves of such a file are whole
lines and a beginning of the next one, and that beginning is read only if it is the whole value.
-/

namespace QuantWorkbench.Lib

namespace Text

def decodeUtf8 (bytes : List UInt8) : Option Text :=
  bytes.toByteArray.utf8Decode?.map Array.toList

@[simp] theorem decodeUtf8_utf8 (t : Text) : decodeUtf8 (utf8 t) = some t := by
  have h : (utf8 t).toByteArray = t.utf8Encode := rfl
  rw [decodeUtf8, h, List.utf8Decode?_utf8Encode]
  rfl

theorem utf8_of_decodeUtf8 {bytes : List UInt8} {t : Text} (h : decodeUtf8 bytes = some t) :
    utf8 t = bytes := by
  obtain ⟨chars, hchars, rfl⟩ := Option.map_eq_some_iff.mp h
  have hsome : bytes.toByteArray.utf8Decode?.isSome := by rw [hchars]; rfl
  have hencoded : (bytes.toByteArray.utf8Decode?.get hsome).toList.utf8Encode =
      bytes.toByteArray := ByteArray.utf8Encode_get_utf8Decode?
  simp only [hchars, Option.get_some] at hencoded
  exact List.toByteArray_inj.mp hencoded

theorem utf8_append (t u : Text) : utf8 (t ++ u) = utf8 t ++ utf8 u :=
  List.flatMap_append

/-- The encoding of a character is not the beginning of that of another one. -/
theorem eq_of_utf8EncodeChar_prefix {c d : Char} {rest more : List UInt8}
    (h : String.utf8EncodeChar c ++ rest = String.utf8EncodeChar d ++ more) : c = d := by
  have hbytes : (String.utf8EncodeChar c).toByteArray ++ rest.toByteArray =
      (String.utf8EncodeChar d).toByteArray ++ more.toByteArray := by
    rw [← List.toByteArray_append, ← List.toByteArray_append, h]
  have hfirst := ByteArray.utf8DecodeChar?_utf8EncodeChar_append (b := rest.toByteArray) (c := c)
  rw [hbytes, ByteArray.utf8DecodeChar?_utf8EncodeChar_append] at hfirst
  exact (Option.some.inj hfirst).symm

/-- What decodes to a text at the beginning of a file is the beginning of its text. -/
theorem prefixed_of_utf8 : ∀ {t u : Text}, utf8 t <+: utf8 u → t <+: u
  | [], u, _ => List.nil_prefix
  | c :: t, [], h => by
      have hlength := h.length_le
      have hc := Char.utf8Size_pos c
      simp [utf8] at hlength
      omega
  | c :: t, d :: u, h => by
      obtain ⟨rest, hrest⟩ := h
      rw [utf8, utf8, List.flatMap_cons, List.flatMap_cons, List.append_assoc] at hrest
      obtain rfl := eq_of_utf8EncodeChar_prefix hrest
      have htail : utf8 t <+: utf8 u := ⟨rest, List.append_cancel_left hrest⟩
      exact (List.prefix_cons_inj c).mpr (prefixed_of_utf8 htail)

/-- The line boundaries of `bytes.splitlines`. -/
def byteEnds : Line.Breaks UInt8 where
  isBreak b := b = 10 ∨ b = 13
  cr := 13
  lf := 10

theorem isBreak_of_mem_utf8 {t : Text} {b : UInt8} (h : b ∈ utf8 t)
    (hb : byteEnds.isBreak b = true) :
    ∃ c ∈ t, Json.lineEnds.isBreak c = true := by
  obtain ⟨c, hc, hmem⟩ := List.mem_flatMap.mp h
  have hends : b = 10 ∨ b = 13 := of_decide_eq_true hb
  have hlow : b.toNat = 10 ∨ b.toNat = 13 := by
    rcases hends with rfl | rfl
    · exact Or.inl rfl
    · exact Or.inr rfl
  -- only a character of one byte has a byte below 128
  have hval : c.val.toNat = b.toNat := by
    have hbyte (n : ℕ) (heq : b = UInt8.ofNat n) : b.toNat = n % 256 := by
      rw [heq, UInt8.toNat_ofNat']
    unfold String.utf8EncodeChar at hmem
    dsimp only at hmem
    split_ifs at hmem
    · have := hbyte _ (List.mem_singleton.mp hmem)
      omega
    · simp only [List.mem_cons, List.not_mem_nil, or_false] at hmem
      rcases hmem with heq | heq <;> have := hbyte _ heq <;> omega
    · simp only [List.mem_cons, List.not_mem_nil, or_false] at hmem
      rcases hmem with heq | heq | heq <;> have := hbyte _ heq <;> omega
    · simp only [List.mem_cons, List.not_mem_nil, or_false] at hmem
      rcases hmem with heq | heq | heq | heq <;> have := hbyte _ heq <;> omega
  refine ⟨c, hc, decide_eq_true ?_⟩
  rw [← hval] at hlow
  rcases hlow with hten | hthirteen
  · exact Or.inl (Char.ext (UInt32.toNat_inj.mp hten))
  · exact Or.inr (Char.ext (UInt32.toNat_inj.mp hthirteen))

end Text

/-! ### Lists -/

namespace Json

/-! ### Lines -/

/-- The value that a line of bytes is read as. -/
def ofBytes? (bytes : List UInt8) : Option Json := (Text.decodeUtf8 bytes).bind loads

def lineBytes (value : Json) : List UInt8 := (dumps value).utf8

theorem utf8_line (value : Json) : (dumps value ++ ['\n']).utf8 = value.lineBytes ++ [10] :=
  Text.utf8_append _ _

theorem lineBytes_noBreak {value : Json} (h : value.Writable) :
    ∀ b ∈ value.lineBytes, Text.byteEnds.isBreak b = false := by
  intro b hb
  by_contra hbreak
  obtain ⟨c, hc, hend⟩ := Text.isBreak_of_mem_utf8 hb (by simpa using hbreak)
  rw [dumps_no_lineEnd h hc] at hend
  cases hend

/-! ### Cuts -/

/-! ### Items in order -/

/-- The items of a dictionary in the order in which they are written. -/
structure Ordered (members : List (Text × Json)) : Prop where
  order : (members.map (·.1)).Pairwise (· < ·)
  values : ∀ member ∈ members, member.2.Canonical

theorem Ordered.canonical {members : List (Text × Json)} (h : Ordered members) :
    (Json.obj members).Canonical :=
  Canonical.obj _ rfl h.order h.values

/-- One more item. -/
def insertMember (key : String) (value : Json) (members : List (Text × Json)) :
    List (Text × Json) :=
  members.orderedInsert inKeyOrder (key.toList, value)

section

variable {key : String} {value : Json} {members : List (Text × Json)}

theorem mem_insertMember {member : Text × Json} :
    member ∈ insertMember key value members ↔ member = (key.toList, value) ∨ member ∈ members :=
  List.mem_orderedInsert _

theorem Ordered.insertMember (h : Ordered members) (hvalue : value.Canonical)
    (hnew : key.toList ∉ members.map (·.1)) : Ordered (insertMember key value members) := by
  constructor
  · have hle : members.Pairwise inKeyOrder := by
      have horder := h.order
      rw [List.pairwise_map] at horder
      exact horder.imp fun hlt => le_of_lt hlt
    have hsorted : (Json.insertMember key value members).Pairwise inKeyOrder :=
      hle.orderedInsert _ _
    have hdistinct : ((Json.insertMember key value members).map (·.1)).Nodup := by
      have hperm := (List.perm_orderedInsert inKeyOrder (key.toList, value) members).map (·.1)
      rw [Json.insertMember, hperm.nodup_iff, List.map_cons, List.nodup_cons]
      exact ⟨hnew, h.order.imp fun hlt => ne_of_lt hlt⟩
    rw [List.Nodup, List.pairwise_map] at hdistinct
    rw [List.pairwise_map]
    exact hsorted.imp₂ (fun _ _ hle hne => lt_of_le_of_ne hle hne) hdistinct
  · intro member hmember
    rcases mem_insertMember.mp hmember with rfl | hmember
    · exact hvalue
    · exact h.values member hmember

/-- The item that was put in. -/
theorem member?_insertMember (hnew : key.toList ∉ members.map (·.1)) :
    (Json.obj (insertMember key value members)).member? key.toList = some value := by
  induction members with
  | nil => simp [insertMember, member?]
  | cons member rest ih =>
      rw [List.map_cons, List.mem_cons, not_or] at hnew
      have hrest := ih hnew.2
      simp only [insertMember, List.orderedInsert_cons] at hrest ⊢
      split
      · simp [member?]
      · simpa [member?, Ne.symm hnew.1] using hrest

/-- Taking out an item that is not there changes nothing. -/
theorem without_of_notMem (hnew : key.toList ∉ members.map (·.1)) :
    (Json.obj members).without key = .obj members := by
  rw [without, List.filter_eq_self.mpr]
  intro member hmember
  have hne : member.1 ≠ key.toList := fun heq => hnew (heq ▸ List.mem_map_of_mem hmember)
  simpa using hne

/-- An item that is put in and taken out again. -/
theorem without_insertMember (hnew : key.toList ∉ members.map (·.1)) :
    (Json.obj (insertMember key value members)).without key = .obj members := by
  rw [← without_of_notMem hnew]
  simp only [without, obj.injEq]
  clear hnew
  induction members with
  | nil => simp [insertMember]
  | cons member rest ih =>
      simp only [insertMember, List.orderedInsert_cons] at ih ⊢
      split
      · rw [List.filter_cons, if_neg (by simp)]
      · rw [List.filter_cons, List.filter_cons, ih]

end

end Json

end QuantWorkbench.Lib
