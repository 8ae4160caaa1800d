import QuantWorkbench.Lib.JsonText

/-!
What is read from any text can be written again, and two values that are written alike are equal
but for the order of their keys.
-/

namespace QuantWorkbench.Lib.Json

/-! ### Dictionaries -/

theorem keys_setMember (members : List (Text × Json)) (member : Text × Json) :
    (setMember members member).map (·.1) =
      if member.1 ∈ members.map (·.1) then members.map (·.1)
      else members.map (·.1) ++ [member.1] := by
  have hany : (members.any fun other => other.1 = member.1) = true ↔
      member.1 ∈ members.map (·.1) := by
    simp [List.any_eq_true, List.mem_map]
  unfold setMember
  by_cases hmem : member.1 ∈ members.map (·.1)
  · rw [if_pos (hany.mpr hmem), if_pos hmem, List.map_map]
    apply List.map_congr_left
    intro other _
    by_cases hkey : other.1 = member.1
    · simp [hkey]
    · simp [hkey]
  · rw [if_neg (mt hany.mp hmem), if_neg hmem, List.map_append]
    rfl

theorem nodup_keys_setMember {members : List (Text × Json)} (member : Text × Json)
    (h : (members.map (·.1)).Nodup) : ((setMember members member).map (·.1)).Nodup := by
  rw [keys_setMember]
  split
  · exact h
  · rename_i hnew
    exact List.nodup_append.mpr ⟨h, List.nodup_singleton _, fun key hkey other hother heq =>
      hnew (List.mem_singleton.mp hother ▸ heq ▸ hkey)⟩

theorem mem_setMember {members : List (Text × Json)} {member other : Text × Json}
    (h : other ∈ setMember members member) : other ∈ members ∨ other = member := by
  unfold setMember at h
  split at h
  · obtain ⟨old, hold, hother⟩ := List.mem_map.mp h
    by_cases hkey : old.1 = member.1
    · rw [if_pos hkey] at hother
      exact .inr hother.symm
    · rw [if_neg hkey] at hother
      exact .inl (hother ▸ hold)
  · exact (List.mem_append.mp h).imp_right List.mem_singleton.mp

theorem ofPairs_writable {pairs : List (Text × Json)} (h : ∀ pair ∈ pairs, pair.2.Writable) :
    (ofPairs pairs).Writable := by
  have hfold : ∀ members : List (Text × Json), (members.map (·.1)).Nodup →
      (∀ member ∈ members, member.2.Writable) →
        (Json.obj (pairs.foldl setMember members)).Writable := by
    induction pairs with
    | nil => exact fun members hnodup hvalues => ⟨hnodup, writableMembers_iff.mpr hvalues⟩
    | cons pair rest ih =>
        intro members hnodup hvalues
        apply ih (fun other hother => h other (List.mem_cons_of_mem _ hother))
        · exact nodup_keys_setMember pair hnodup
        · intro member hmember
          rcases mem_setMember hmember with hold | rfl
          · exact hvalues member hold
          · exact h member List.mem_cons_self
  exact hfold [] List.nodup_nil fun member hmember => absurd hmember List.not_mem_nil

/-! ### Parsed values -/

theorem writableItems_iff {items : List Json} :
    WritableItems items ↔ ∀ item ∈ items, item.Writable := by
  induction items with
  | nil => simp [WritableItems]
  | cons item items ih => simp [WritableItems, ih]

theorem ofNumberLexeme_writable {lexeme : Text} {value : Json}
    (h : ofNumberLexeme lexeme = some value) : value.Writable := by
  unfold ofNumberLexeme at h
  split at h
  · cases h
    trivial
  · split at h
    · rename_i hfloat
      cases h
      exact .inl hfloat
    · cases h

theorem scanScalar_writable {text : Text} {result : Json × Text}
    (h : scanScalar text = some result) : result.1.Writable := by
  rcases Option.or_eq_some_iff.mp h with hword | ⟨-, hnumber⟩
  · obtain ⟨lexeme, hmem, -⟩ := scanLiteral_ok hword
    have hwords : ∀ literal ∈ literals, literal.2.Writable := by
      simp [literals, Writable]
    exact hwords _ hmem
  · obtain ⟨value, hvalue, rfl⟩ := Option.map_eq_some_iff.mp hnumber
    exact ofNumberLexeme_writable hvalue

/-- What the parsers return within their fuel can be written. -/
structure ParsesWritable (fuel : ℕ) : Prop where
  value : ∀ {text result}, parseValue fuel text = some result → result.1.Writable
  object : ∀ {text result}, parseObject fuel text = some result → result.1.Writable
  array : ∀ {text result}, parseArray fuel text = some result → result.1.Writable
  items : ∀ {text result}, parseItems fuel text = some result →
    ∀ item ∈ result.1, item.Writable
  member : ∀ {text result}, parseMember fuel text = some result → result.1.2.Writable
  members : ∀ {text result}, parseMembers fuel text = some result →
    ∀ member ∈ result.1, member.2.Writable

theorem parsesWritable_zero : ParsesWritable 0 where
  value h := by cases h
  object h := by cases h
  array h := by cases h
  items h := by cases h
  member h := by cases h
  members h := by cases h

theorem ParsesWritable.succ {fuel : ℕ} (ih : ParsesWritable fuel) : ParsesWritable (fuel + 1) where
  value := by
    intro text result h
    cases text with
    | nil => cases h
    | cons c rest =>
        rw [parseValue] at h
        split_ifs at h
        · obtain ⟨_, _, rfl⟩ := Option.map_eq_some_iff.mp h
          trivial
        · exact ih.object h
        · exact ih.array h
        · exact scanScalar_writable h
  object := by
    intro text result h
    cases text with
    | nil => cases h
    | cons c rest =>
        rw [parseObject] at h
        split_ifs at h
        · cases h
          exact ⟨List.nodup_nil, trivial⟩
        · obtain ⟨first, hfirst, hothers⟩ := Option.bind_eq_some_iff.mp h
          obtain ⟨others, hparsed, rfl⟩ := Option.map_eq_some_iff.mp hothers
          apply ofPairs_writable
          intro pair hpair
          rcases List.mem_cons.mp hpair with rfl | hpair
          · exact ih.member hfirst
          · exact ih.members hparsed pair hpair
  array := by
    intro text result h
    cases text with
    | nil => cases h
    | cons c rest =>
        rw [parseArray] at h
        split_ifs at h
        · cases h
          trivial
        · obtain ⟨first, hfirst, hothers⟩ := Option.bind_eq_some_iff.mp h
          obtain ⟨others, hparsed, rfl⟩ := Option.map_eq_some_iff.mp hothers
          exact writableItems_iff.mpr (List.forall_mem_cons.mpr ⟨ih.value hfirst, ih.items hparsed⟩)
  items := by
    intro text result h
    cases text with
    | nil => cases h
    | cons c rest =>
        rw [parseItems] at h
        split_ifs at h
        · cases h
          exact fun item hitem => absurd hitem List.not_mem_nil
        · obtain ⟨first, hfirst, hothers⟩ := Option.bind_eq_some_iff.mp h
          obtain ⟨others, hparsed, rfl⟩ := Option.map_eq_some_iff.mp hothers
          exact List.forall_mem_cons.mpr ⟨ih.value hfirst, ih.items hparsed⟩
  member := by
    intro text result h
    rw [parseMember] at h
    obtain ⟨key, _, hvalue⟩ := Option.bind_eq_some_iff.mp h
    split at hvalue
    · cases hvalue
    · split_ifs at hvalue
      obtain ⟨value, hparsed, rfl⟩ := Option.map_eq_some_iff.mp hvalue
      exact ih.value hparsed
  members := by
    intro text result h
    cases text with
    | nil => cases h
    | cons c rest =>
        rw [parseMembers] at h
        split_ifs at h
        · cases h
          exact fun member hmember => absurd hmember List.not_mem_nil
        · split at h
          · cases h
          · split_ifs at h
            obtain ⟨first, hfirst, hothers⟩ := Option.bind_eq_some_iff.mp h
            obtain ⟨others, hparsed, rfl⟩ := Option.map_eq_some_iff.mp hothers
            exact List.forall_mem_cons.mpr ⟨ih.member hfirst, ih.members hparsed⟩

theorem parsesWritable (fuel : ℕ) : ParsesWritable fuel := by
  induction fuel with
  | zero => exact parsesWritable_zero
  | succ fuel ih => exact ih.succ

/-- What is read can be written. -/
theorem loads_writable {text : Text} {value : Json} (h : loads text = some value) :
    value.Writable := by
  unfold loads at h
  split at h
  · cases h
  · rename_i parsed rest hparsed
    split_ifs at h
    cases h
    exact (parsesWritable _).value hparsed

theorem scanScalar_ne_obj {text rest : Text} {members : List (Text × Json)} :
    scanScalar text ≠ some (.obj members, rest) := by
  intro h
  rcases Option.or_eq_some_iff.mp h with hword | ⟨-, hnumber⟩
  · obtain ⟨lexeme, hmem, -⟩ := scanLiteral_ok hword
    simp [literals] at hmem
  · obtain ⟨value, hvalue, hpair⟩ := Option.map_eq_some_iff.mp hnumber
    cases hpair
    unfold ofNumberLexeme at hvalue
    split_ifs at hvalue
    · cases hvalue
    · cases hvalue

/-- A line that is read as an object has a brace in it. -/
theorem brace_mem_of_loads {line : Text} {members : List (Text × Json)}
    (h : loads line = some (.obj members)) : '{' ∈ line := by
  unfold loads at h
  split at h
  · cases h
  rename_i parsed rest hparsed
  split_ifs at h
  cases h
  cases htext : skipBlank line with
  | nil =>
      rw [htext] at hparsed
      cases hparsed
  | cons c tail =>
      have hmem : c ∈ line := by
        apply (List.dropWhile_suffix isBlank).subset
        change c ∈ skipBlank line
        rw [htext]
        exact List.mem_cons_self
      rw [htext, parseValue] at hparsed
      split_ifs at hparsed with hquote hbrace hbracket
      · obtain ⟨_, _, hpair⟩ := Option.map_eq_some_iff.mp hparsed
        cases hpair
      · exact hbrace ▸ hmem
      · cases hfuel : 2 * line.length with
        | zero =>
            rw [hfuel] at hparsed
            cases hparsed
        | succ fuel =>
            rw [hfuel] at hparsed
            cases hblank : skipBlank tail with
            | nil =>
                rw [hblank] at hparsed
                cases hparsed
            | cons d others =>
                rw [hblank, parseArray] at hparsed
                split_ifs at hparsed
                · cases hparsed
                · obtain ⟨_, _, hmap⟩ := Option.bind_eq_some_iff.mp hparsed
                  obtain ⟨_, _, hpair⟩ := Option.map_eq_some_iff.mp hmap
                  cases hpair
      · exact absurd hparsed scanScalar_ne_obj

/-! ### Equality up to the order of keys -/

theorem mem_keys_of_member? {members : List (Text × Json)} {key : Text} {value : Json}
    (h : (Json.obj members).member? key = some value) : key ∈ members.map (·.1) := by
  obtain ⟨member, hfound, _⟩ := Option.map_eq_some_iff.mp h
  have hkey : member.1 = key := by simpa using List.find?_some hfound
  exact List.mem_map.mpr ⟨member, List.mem_of_find?_eq_some hfound, hkey⟩

theorem member?_eq_none {members : List (Text × Json)} {key : Text}
    (h : key ∉ members.map (·.1)) : (Json.obj members).member? key = none := by
  cases hmember : (Json.obj members).member? key with
  | none => rfl
  | some value => exact absurd (mem_keys_of_member? hmember) h

/-- Values that are written alike are the same. -/
theorem sorted_eq_of_dumps_eq {value other : Json} (hvalue : value.Writable)
    (hother : other.Writable) (h : dumps value = dumps other) : value.sorted = other.sorted := by
  apply Option.some.inj
  rw [← loads_dumps hvalue, ← loads_dumps hother, h]

theorem mem_sortedMembers_iff {members : List (Text × Json)} (h : (members.map (·.1)).Nodup)
    {key : Text} {value : Json} :
    (key, value) ∈ sortedMembers members ↔
      ((Json.obj members).member? key).map sorted = some value := by
  rw [sortedMembers_eq_map, List.mem_map, Option.map_eq_some_iff]
  constructor
  · rintro ⟨member, hmember, hpair⟩
    cases hpair
    exact ⟨member.2, Option.map_eq_some_iff.mpr
      ⟨member, (find?_key_eq_some_iff h).mpr ⟨hmember, rfl⟩, rfl⟩, rfl⟩
  · rintro ⟨inner, hinner, rfl⟩
    obtain ⟨member, hfound, rfl⟩ := Option.map_eq_some_iff.mp hinner
    obtain ⟨hmember, rfl⟩ := (find?_key_eq_some_iff h).mp hfound
    exact ⟨member, hmember, rfl⟩

theorem nodup_keys_sortedMembers {members : List (Text × Json)}
    (h : (members.map (·.1)).Nodup) : ((sortedMembers members).map (·.1)).Nodup := by
  rw [sortedMembers_eq_map, List.map_map]
  exact h

/-- Objects with the same value under every key. -/
theorem sorted_eq_of_member? {members others : List (Text × Json)}
    (hmembers : (members.map (·.1)).Nodup) (hothers : (others.map (·.1)).Nodup)
    (h : ∀ key, ((Json.obj members).member? key).map sorted =
      ((Json.obj others).member? key).map sorted) :
    (Json.obj members).sorted = (Json.obj others).sorted := by
  have hperm : (sortedMembers members).Perm (sortedMembers others) := by
    rw [List.perm_ext_iff_of_nodup (nodup_keys_sortedMembers hmembers).of_map
      (nodup_keys_sortedMembers hothers).of_map]
    rintro ⟨key, value⟩
    rw [mem_sortedMembers_iff hmembers, mem_sortedMembers_iff hothers, h]
  rw [sorted_obj, sorted_obj]
  congr 1
  have hsorted : ((sortedMembers members).insertionSort inKeyOrder).Perm
      ((sortedMembers others).insertionSort inKeyOrder) :=
    (List.perm_insertionSort _ _).trans (hperm.trans (List.perm_insertionSort _ _).symm)
  -- keys that are not smaller than one another are equal, and a key is there once
  have hantisymm : ∀ a b, a ∈ (sortedMembers members).insertionSort inKeyOrder →
      b ∈ (sortedMembers others).insertionSort inKeyOrder →
        inKeyOrder a b → inKeyOrder b a → a = b := by
    rintro ⟨key, value⟩ ⟨key', value'⟩ hleft hright hle hge
    obtain rfl : key = key' := le_antisymm hle hge
    rw [List.mem_insertionSort, mem_sortedMembers_iff hmembers] at hleft
    rw [List.mem_insertionSort, mem_sortedMembers_iff hothers, ← h, hleft] at hright
    rw [Option.some.inj hright]
  exact hsorted.eq_of_pairwise hantisymm (List.pairwise_insertionSort _ _)
    (List.pairwise_insertionSort _ _)

end QuantWorkbench.Lib.Json
