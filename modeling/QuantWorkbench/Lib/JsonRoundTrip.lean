import QuantWorkbench.Lib.JsonScan

/-!
What is written is read back: `loads` inverts `encode` on every value without
repeated keys.
-/

namespace QuantWorkbench.Lib.Json

mutual

/-- The floats are texts of floats, and no object has a key twice. -/
def Writable : Json → Prop
  | .float lexeme => isFloatLexeme lexeme = true ∨ (lexeme, .float lexeme) ∈ literals
  | .arr items => WritableItems items
  | .obj members => (members.map (·.1)).Nodup ∧ WritableMembers members
  | _ => True

def WritableItems : List Json → Prop
  | [] => True
  | item :: items => Writable item ∧ WritableItems items

def WritableMembers : List (Text × Json) → Prop
  | [] => True
  | (_, value) :: members => Writable value ∧ WritableMembers members

end

theorem setMember_new {members : List (Text × Json)} {member : Text × Json}
    (h : member.1 ∉ members.map (·.1)) : setMember members member = members ++ [member] := by
  unfold setMember
  rw [if_neg]
  intro hany
  obtain ⟨other, hother, hkey⟩ := List.any_eq_true.mp hany
  exact h (List.mem_map.mpr ⟨other, hother, by simpa using hkey⟩)

/-- Pairs with distinct keys are the members of their dictionary. -/
theorem ofPairs_of_nodup {pairs : List (Text × Json)} (h : (pairs.map (·.1)).Nodup) :
    ofPairs pairs = .obj pairs := by
  have hfold : ∀ (done rest : List (Text × Json)), ((done ++ rest).map (·.1)).Nodup →
      rest.foldl setMember done = done ++ rest := by
    intro done rest
    induction rest generalizing done with
    | nil => simp
    | cons member rest ih =>
        intro hnodup
        have hnew : member.1 ∉ done.map (·.1) := by
          intro hmem
          rw [List.map_append, List.nodup_append] at hnodup
          exact hnodup.2.2 member.1 hmem member.1 (by simp) rfl
        rw [List.foldl_cons, setMember_new hnew, ih _ (by simpa using hnodup)]
        simp
  rw [ofPairs, hfold [] pairs (by simpa using h), List.nil_append]

theorem skipBlank_cons {c : Char} (rest : Text) (hc : isBlank c = false) :
    skipBlank (c :: rest) = c :: rest := by
  simp [skipBlank, hc]

theorem ends_cons {c : Char} {rest : Text} (hc : isNumberChar c = false) : Ends (c :: rest) := by
  intro d hd
  obtain rfl : c = d := by simpa using hd
  exact hc

/-- The text after an item continues no number and begins without a blank. -/
theorem encodeItems_follows (items : List Json) (rest : Text) :
    Ends (encodeItems items ++ rest) ∧
      skipBlank (encodeItems items ++ rest) = encodeItems items ++ rest := by
  cases items with
  | nil =>
      rw [encodeItems]
      exact ⟨ends_cons (by decide), skipBlank_cons _ (by decide)⟩
  | cons item items =>
      rw [encodeItems]
      exact ⟨ends_cons (by decide), skipBlank_cons _ (by decide)⟩

theorem encodeMembers_follows (members : List (Text × Json)) (rest : Text) :
    Ends (encodeMembers members ++ rest) ∧
      skipBlank (encodeMembers members ++ rest) = encodeMembers members ++ rest := by
  cases members with
  | nil =>
      rw [encodeMembers]
      exact ⟨ends_cons (by decide), skipBlank_cons _ (by decide)⟩
  | cons member members =>
      obtain ⟨key, value⟩ := member
      rw [encodeMembers]
      exact ⟨ends_cons (by decide), skipBlank_cons _ (by decide)⟩

/-- A scalar value is read back in front of a text that does not continue a number. -/
theorem scanScalar_encode {value : Json} {rest : Text} (hwritable : value.Writable)
    (hends : Ends rest)
    (hscalar : (∃ b, value = .bool b) ∨ value = .null ∨ (∃ n, value = .int n) ∨
      ∃ lexeme, value = .float lexeme) :
    scanScalar (encode value ++ rest) = some (value, rest) := by
  have hword : ∀ {lexeme : Text} {v : Json}, (lexeme, v) ∈ literals →
      scanScalar (lexeme ++ rest) = some (v, rest) := by
    intro lexeme v hmem
    rw [scanScalar, scanLiteral_word rest hmem]
    rfl
  have hnumber : ∀ {lexeme : Text} {v : Json}, lexeme.all isNumberChar = true →
      ofNumberLexeme lexeme = some v → scanScalar (lexeme ++ rest) = some (v, rest) := by
    intro lexeme v hall hvalue
    rw [scanScalar, scanLiteral_number rest hvalue, scanNumber_run hall hends, hvalue]
    rfl
  rcases hscalar with ⟨b, rfl⟩ | rfl | ⟨n, rfl⟩ | ⟨lexeme, rfl⟩
  · cases b with
    | true =>
        rw [encode]
        exact hword (by simp [literals])
    | false =>
        rw [encode]
        exact hword (by simp [literals])
  · rw [encode]
    exact hword (by simp [literals])
  · rw [encode]
    exact hnumber (intText_all n) (ofNumberLexeme_intText n)
  · rw [encode]
    rw [Writable] at hwritable
    rcases hwritable with hfloat | hmem
    · exact hnumber (isFloatLexeme_all hfloat) (ofNumberLexeme_float hfloat)
    · exact hword hmem

theorem encode_obj (members : List (Text × Json)) :
    ∃ rest, encode (.obj members) = '{' :: rest := by
  cases members with
  | nil => exact ⟨_, by rw [encode]⟩
  | cons member members =>
      obtain ⟨key, value⟩ := member
      exact ⟨_, by rw [encode]⟩

/-- A value begins with a character that is neither a blank nor a bracket that
closes. -/
theorem encode_cons {value : Json} (h : value.Writable) :
    ∃ c rest, encode value = c :: rest ∧ isBlank c = false ∧ c ≠ ']' := by
  have hscalar : ∀ {v : Json}, scanScalar (encode v ++ []) = some (v, []) →
      ∃ c rest, encode v = c :: rest ∧ isBlank c = false ∧ c ≠ ']' := by
    intro v hscan
    rw [List.append_nil] at hscan
    cases htext : encode v with
    | nil =>
        rw [htext] at hscan
        cases hscan
    | cons c rest =>
        rw [htext] at hscan
        have hhead := scanScalar_head hscan
        refine ⟨c, rest, rfl, ?_, ne_of_scalarHead hhead (by decide) (by decide)⟩
        simp only [isBlank, decide_eq_false_iff_not, not_or]
        exact ⟨ne_of_scalarHead hhead (by decide) (by decide),
          ne_of_scalarHead hhead (by decide) (by decide),
          ne_of_scalarHead hhead (by decide) (by decide),
          ne_of_scalarHead hhead (by decide) (by decide)⟩
  have hends : Ends [] := by simp [Ends]
  cases value with
  | null => exact hscalar (scanScalar_encode h hends (.inr (.inl rfl)))
  | bool b => exact hscalar (scanScalar_encode h hends (.inl ⟨b, rfl⟩))
  | int n => exact hscalar (scanScalar_encode h hends (.inr (.inr (.inl ⟨n, rfl⟩))))
  | float lexeme =>
      exact hscalar (scanScalar_encode h hends (.inr (.inr (.inr ⟨lexeme, rfl⟩))))
  | str text => exact ⟨'"', _, by rw [encode, quote], by decide, by decide⟩
  | arr items =>
      cases items with
      | nil => exact ⟨'[', _, by rw [encode], by decide, by decide⟩
      | cons item items => exact ⟨'[', _, by rw [encode], by decide, by decide⟩
  | obj members =>
      obtain ⟨rest, htext⟩ := encode_obj members
      exact ⟨'{', rest, htext, by decide, by decide⟩

theorem skipBlank_encode {value : Json} (h : value.Writable) (rest : Text) :
    skipBlank (encode value ++ rest) = encode value ++ rest := by
  obtain ⟨c, tail, hcons, hblank, -⟩ := encode_cons h
  rw [hcons, List.cons_append, skipBlank_cons _ hblank]

theorem quote_append (key rest : Text) :
    quote key ++ rest = '"' :: (key.flatMap escapeChar ++ '"' :: rest) := by
  simp [quote]

theorem quote_length (key : Text) : 2 ≤ (quote key).length := by
  simp [quote]

/-- A written member is read back after its opening quote. -/
theorem parseMember_encode (key : Text) {value : Json} {rest : Text} {fuel : ℕ}
    (hwritable : value.Writable)
    (hvalue : parseValue fuel (encode value ++ rest) = some (value, rest)) :
    parseMember (fuel + 1) (key.flatMap escapeChar ++ '"' :: ':' :: (encode value ++ rest)) =
      some ((key, value), rest) := by
  rw [parseMember, scanString_quote]
  simp only [Option.bind_some, skipBlank_cons _ (by decide : isBlank ':' = false), if_true,
    skipBlank_encode hwritable, hvalue, Option.map_some]

mutual

/-- What `encode` writes is read back, with any text after it that does not
continue a number. -/
theorem parseValue_encode (value : Json) (rest : Text) (fuel : ℕ)
    (hwritable : value.Writable) (hends : Ends rest)
    (hfuel : 2 * (encode value).length < fuel) :
    parseValue fuel (encode value ++ rest) = some (value, rest) := by
  obtain ⟨fuel, rfl⟩ : ∃ n, fuel = n + 1 := ⟨fuel - 1, by omega⟩
  cases value with
  | null => exact parseValue_scalar fuel (scanScalar_encode hwritable hends (.inr (.inl rfl)))
  | bool b => exact parseValue_scalar fuel (scanScalar_encode hwritable hends (.inl ⟨b, rfl⟩))
  | int n =>
      exact parseValue_scalar fuel (scanScalar_encode hwritable hends (.inr (.inr (.inl ⟨n, rfl⟩))))
  | float lexeme =>
      exact parseValue_scalar fuel
        (scanScalar_encode hwritable hends (.inr (.inr (.inr ⟨lexeme, rfl⟩))))
  | str text =>
      rw [encode, quote_append, parseValue, if_pos rfl, scanString_quote]
      rfl
  | arr items =>
      cases items with
      | nil =>
          rw [encode] at hfuel ⊢
          obtain ⟨fuel, rfl⟩ : ∃ n, fuel = n + 1 := ⟨fuel - 1, by simp at hfuel; omega⟩
          simp [parseValue, parseArray, skipBlank, isBlank]
      | cons item items =>
          rw [Writable, WritableItems] at hwritable
          rw [encode] at hfuel ⊢
          simp only [List.length_cons, List.length_append] at hfuel
          obtain ⟨fuel, rfl⟩ : ∃ n, fuel = n + 1 := ⟨fuel - 1, by omega⟩
          obtain ⟨c, tail, hcons, hblank, hclose⟩ := encode_cons hwritable.1
          obtain ⟨hnext, hskip⟩ := encodeItems_follows items rest
          have hitem := parseValue_encode item (encodeItems items ++ rest) fuel hwritable.1 hnext
            (by omega)
          have hitems := parseItems_encode items rest fuel hwritable.2 (by omega)
          rw [List.cons_append, List.append_assoc, parseValue, if_neg (by decide),
            if_neg (by decide), if_pos rfl]
          rw [hcons, List.cons_append] at hitem ⊢
          rw [skipBlank_cons _ hblank, parseArray, if_neg hclose, hitem]
          simp only [Option.bind_some, hskip, hitems, Option.map_some]
  | obj members =>
      cases members with
      | nil =>
          rw [encode] at hfuel ⊢
          obtain ⟨fuel, rfl⟩ : ∃ n, fuel = n + 1 := ⟨fuel - 1, by simp at hfuel; omega⟩
          simp [parseValue, parseObject, skipBlank, isBlank]
      | cons member members =>
          obtain ⟨key, value⟩ := member
          rw [Writable, WritableMembers] at hwritable
          obtain ⟨hkeys, hvalue, hmembers⟩ := hwritable
          have hquote := quote_length key
          rw [encode] at hfuel ⊢
          simp only [List.length_cons, List.length_append] at hfuel
          obtain ⟨fuel, rfl⟩ : ∃ n, fuel = n + 1 := ⟨fuel - 1, by omega⟩
          obtain ⟨inner, rfl⟩ : ∃ n, fuel = n + 1 := ⟨fuel - 1, by omega⟩
          obtain ⟨hnext, hskip⟩ := encodeMembers_follows members rest
          have hfirst := parseMember_encode key hvalue
            (parseValue_encode value (encodeMembers members ++ rest) inner hvalue hnext (by omega))
          have hothers := parseMembers_encode members rest (inner + 1) hmembers (by omega)
          rw [List.cons_append, List.append_assoc, List.cons_append, List.append_assoc,
            parseValue, if_neg (by decide), if_pos rfl, quote_append,
            skipBlank_cons _ (by decide), parseObject, if_neg (by decide), if_pos rfl, hfirst]
          simp only [Option.bind_some, hskip, hothers, Option.map_some, ofPairs_of_nodup hkeys]

theorem parseItems_encode (items : List Json) (rest : Text) (fuel : ℕ)
    (hwritable : WritableItems items) (hfuel : 2 * (encodeItems items).length < fuel) :
    parseItems fuel (encodeItems items ++ rest) = some (items, rest) := by
  obtain ⟨fuel, rfl⟩ : ∃ n, fuel = n + 1 := ⟨fuel - 1, by omega⟩
  cases items with
  | nil => simp [encodeItems, parseItems]
  | cons item items =>
      rw [WritableItems] at hwritable
      rw [encodeItems] at hfuel ⊢
      simp only [List.length_cons, List.length_append] at hfuel
      obtain ⟨hnext, hskip⟩ := encodeItems_follows items rest
      rw [List.cons_append, List.append_assoc, parseItems, if_neg (by decide), if_pos rfl,
        skipBlank_encode hwritable.1, parseValue_encode item _ fuel hwritable.1 hnext (by omega)]
      simp only [Option.bind_some, hskip,
        parseItems_encode items rest fuel hwritable.2 (by omega), Option.map_some]

theorem parseMembers_encode (members : List (Text × Json)) (rest : Text) (fuel : ℕ)
    (hwritable : WritableMembers members) (hfuel : 2 * (encodeMembers members).length < fuel) :
    parseMembers fuel (encodeMembers members ++ rest) = some (members, rest) := by
  obtain ⟨fuel, rfl⟩ : ∃ n, fuel = n + 1 := ⟨fuel - 1, by omega⟩
  cases members with
  | nil => simp [encodeMembers, parseMembers]
  | cons member members =>
      obtain ⟨key, value⟩ := member
      rw [WritableMembers] at hwritable
      have hquote := quote_length key
      rw [encodeMembers] at hfuel ⊢
      simp only [List.length_cons, List.length_append] at hfuel
      obtain ⟨inner, rfl⟩ : ∃ n, fuel = n + 1 := ⟨fuel - 1, by omega⟩
      obtain ⟨hnext, hskip⟩ := encodeMembers_follows members rest
      have hfirst := parseMember_encode key hwritable.1
        (parseValue_encode value (encodeMembers members ++ rest) inner hwritable.1 hnext
          (by omega))
      rw [List.cons_append, List.append_assoc, List.cons_append, List.append_assoc,
        parseMembers, if_neg (by decide), if_pos rfl, quote_append,
        skipBlank_cons _ (by decide)]
      simp only [if_true, hfirst, Option.bind_some, hskip,
        parseMembers_encode members rest (inner + 1) hwritable.2 (by omega), Option.map_some]

end

/-- `loads` reads back what `encode` wrote, with blanks after it. -/
theorem loads_encode_append {value : Json} {blanks : Text} (h : value.Writable)
    (hends : Ends blanks) (hblanks : skipBlank blanks = []) :
    loads (encode value ++ blanks) = some value := by
  have hparse := parseValue_encode value blanks (2 * (encode value ++ blanks).length + 1) h hends
    (by rw [List.length_append]; omega)
  rw [loads, skipBlank_encode h, hparse]
  simp only [hblanks, if_true]

theorem loads_encode {value : Json} (h : value.Writable) : loads (encode value) = some value := by
  have hloads := @loads_encode_append value [] h (by simp [Ends]) rfl
  rwa [List.append_nil] at hloads

end QuantWorkbench.Lib.Json
