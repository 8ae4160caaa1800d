import QuantWorkbench.Lib.JsonRoundTrip

/-!
Reading looks no further than the value it reads. So a value that is read at the
beginning of a text is read there in every longer text, and the text of an
object that is cut anywhere is not the text of a value.
-/

namespace QuantWorkbench.Lib.Json

theorem skipBlank_append {text : Text} (more : Text) (h : skipBlank text ≠ []) :
    skipBlank (text ++ more) = skipBlank text ++ more := by
  unfold skipBlank at h ⊢
  rw [List.dropWhile_append, if_neg]
  simpa using h

theorem scanNumber_append {text rest : Text} {value : Json} (more : Text)
    (h : scanNumber text = some (value, rest)) (hrest : rest ≠ [] ∨ more = []) :
    scanNumber (text ++ more) = some (value, rest ++ more) := by
  rcases hrest with hrest | rfl
  · obtain ⟨v, hvalue, heq⟩ := Option.map_eq_some_iff.mp h
    cases heq
    have hstop : ¬ (text.takeWhile isNumberChar).length = text.length := by
      intro hall
      have hlength := congrArg List.length
        (List.takeWhile_append_dropWhile (p := isNumberChar) (l := text))
      rw [List.length_append, hall] at hlength
      exact hrest (List.length_eq_zero_iff.mp (by omega))
    have hempty : ¬ (text.dropWhile isNumberChar).isEmpty = true := by
      simpa using hrest
    rw [scanNumber, List.takeWhile_append, if_neg hstop, List.dropWhile_append, if_neg hempty,
      hvalue]
    rfl
  · simpa using h

/-- A scalar that is followed by something is read the same in a longer text. -/
theorem scanScalar_append {text rest : Text} {value : Json} (more : Text)
    (h : scanScalar text = some (value, rest)) (hrest : rest ≠ [] ∨ more = []) :
    scanScalar (text ++ more) = some (value, rest ++ more) := by
  rcases Option.or_eq_some_iff.mp h with hword | ⟨-, hnumber⟩
  · obtain ⟨word, hmem, rfl⟩ := scanLiteral_ok hword
    rw [List.append_assoc, scanScalar, scanLiteral_word _ hmem]
    rfl
  · have hlonger := scanNumber_append more hnumber hrest
    obtain ⟨v, hvalue, -⟩ := Option.map_eq_some_iff.mp hlonger
    have hnone : scanLiteral (text ++ more) = none := by
      have := scanLiteral_number ((text ++ more).dropWhile isNumberChar) hvalue
      rwa [List.takeWhile_append_dropWhile] at this
    rw [scanScalar, hnone, hlonger]
    rfl

/-- The parsers with `fuel` give the same results in a longer text and with more
fuel; a value may end with the text only when nothing is added. -/
structure Local (more : Text) (fuel fuel' : ℕ) : Prop where
  value : ∀ {text value rest}, parseValue fuel text = some (value, rest) →
    (rest ≠ [] ∨ more = []) → parseValue fuel' (text ++ more) = some (value, rest ++ more)
  object : ∀ {text value rest}, parseObject fuel text = some (value, rest) →
    parseObject fuel' (text ++ more) = some (value, rest ++ more)
  array : ∀ {text value rest}, parseArray fuel text = some (value, rest) →
    parseArray fuel' (text ++ more) = some (value, rest ++ more)
  items : ∀ {text values rest}, parseItems fuel text = some (values, rest) →
    parseItems fuel' (text ++ more) = some (values, rest ++ more)
  member : ∀ {text pair rest}, parseMember fuel text = some (pair, rest) →
    (rest ≠ [] ∨ more = []) → parseMember fuel' (text ++ more) = some (pair, rest ++ more)
  members : ∀ {text pairs rest}, parseMembers fuel text = some (pairs, rest) →
    parseMembers fuel' (text ++ more) = some (pairs, rest ++ more)

section

variable {more : Text} {fuel fuel' : ℕ}

/-- A parser of a list reads nothing from the empty text, so blanks were followed
by something. -/
theorem skipBlank_ne_nil_of_items {text : Text} {result : List Json × Text}
    (h : parseItems fuel (skipBlank text) = some result) : skipBlank text ≠ [] := by
  intro hempty
  rw [hempty] at h
  cases fuel <;> cases h

theorem skipBlank_ne_nil_of_members {text : Text} {result : List (Text × Json) × Text}
    (h : parseMembers fuel (skipBlank text) = some result) : skipBlank text ≠ [] := by
  intro hempty
  rw [hempty] at h
  cases fuel <;> cases h

theorem skipBlank_ne_nil_of_value {text : Text} {result : Json × Text}
    (h : parseValue fuel (skipBlank text) = some result) : skipBlank text ≠ [] := by
  intro hempty
  rw [hempty] at h
  cases fuel <;> cases h

theorem ne_nil_of_skipBlank {text : Text} (h : skipBlank text ≠ []) : text ≠ [] := by
  rintro rfl
  exact h rfl

theorem Local.value_succ (ih : Local more fuel fuel') {text rest : Text} {value : Json}
    (h : parseValue (fuel + 1) text = some (value, rest)) (hrest : rest ≠ [] ∨ more = []) :
    parseValue (fuel' + 1) (text ++ more) = some (value, rest ++ more) := by
  cases text with
  | nil => cases h
  | cons c tail =>
      rw [parseValue] at h
      rw [List.cons_append, parseValue]
      split_ifs at h ⊢ with hquote hbrace hbracket
      · obtain ⟨⟨inner, rest'⟩, hinner, heq⟩ := Option.map_eq_some_iff.mp h
        cases heq
        rw [scanString_append more hinner]
        rfl
      · have hne : skipBlank tail ≠ [] := by
          intro hempty
          rw [hempty] at h
          cases fuel <;> cases h
        rw [skipBlank_append more hne]
        exact ih.object h
      · have hne : skipBlank tail ≠ [] := by
          intro hempty
          rw [hempty] at h
          cases fuel <;> cases h
        rw [skipBlank_append more hne]
        exact ih.array h
      · exact scanScalar_append more h hrest

theorem Local.object_succ (ih : Local more fuel fuel') {text rest : Text} {value : Json}
    (h : parseObject (fuel + 1) text = some (value, rest)) :
    parseObject (fuel' + 1) (text ++ more) = some (value, rest ++ more) := by
  cases text with
  | nil => cases h
  | cons c tail =>
      rw [parseObject] at h
      rw [List.cons_append, parseObject]
      split_ifs at h ⊢ with hclose hquote
      · cases h
        rfl
      · obtain ⟨⟨first, afterFirst⟩, hfirst, hothers⟩ := Option.bind_eq_some_iff.mp h
        obtain ⟨⟨others, rest'⟩, hmembers, heq⟩ := Option.map_eq_some_iff.mp hothers
        cases heq
        have hne := skipBlank_ne_nil_of_members hmembers
        have hfirst' := ih.member hfirst (.inl (ne_nil_of_skipBlank hne))
        have hmembers' := ih.members hmembers
        simp only [hfirst', Option.bind_some, skipBlank_append more hne, hmembers',
          Option.map_some]

theorem Local.array_succ (ih : Local more fuel fuel') {text rest : Text} {value : Json}
    (h : parseArray (fuel + 1) text = some (value, rest)) :
    parseArray (fuel' + 1) (text ++ more) = some (value, rest ++ more) := by
  cases text with
  | nil => cases h
  | cons c tail =>
      rw [parseArray] at h
      rw [List.cons_append, parseArray]
      split_ifs at h ⊢ with hclose
      · cases h
        rfl
      · obtain ⟨⟨first, afterFirst⟩, hfirst, hothers⟩ := Option.bind_eq_some_iff.mp h
        obtain ⟨⟨others, rest'⟩, hitems, heq⟩ := Option.map_eq_some_iff.mp hothers
        cases heq
        have hne := skipBlank_ne_nil_of_items hitems
        have hfirst' := ih.value hfirst (.inl (ne_nil_of_skipBlank hne))
        have hitems' := ih.items hitems
        rw [List.cons_append] at hfirst'
        simp only [hfirst', Option.bind_some, skipBlank_append more hne, hitems',
          Option.map_some]

theorem Local.items_succ (ih : Local more fuel fuel') {text rest : Text} {values : List Json}
    (h : parseItems (fuel + 1) text = some (values, rest)) :
    parseItems (fuel' + 1) (text ++ more) = some (values, rest ++ more) := by
  cases text with
  | nil => cases h
  | cons c tail =>
      rw [parseItems] at h
      rw [List.cons_append, parseItems]
      split_ifs at h ⊢ with hclose hcomma
      · cases h
        rfl
      · obtain ⟨⟨item, afterItem⟩, hitem, hothers⟩ := Option.bind_eq_some_iff.mp h
        obtain ⟨⟨others, rest'⟩, hitems, heq⟩ := Option.map_eq_some_iff.mp hothers
        cases heq
        have hne := skipBlank_ne_nil_of_items hitems
        have hitem' := ih.value hitem (.inl (ne_nil_of_skipBlank hne))
        have hitems' := ih.items hitems
        simp only [skipBlank_append more (skipBlank_ne_nil_of_value hitem), hitem',
          Option.bind_some, skipBlank_append more hne, hitems', Option.map_some]

theorem Local.member_succ (ih : Local more fuel fuel') {text rest : Text} {pair : Text × Json}
    (h : parseMember (fuel + 1) text = some (pair, rest)) (hrest : rest ≠ [] ∨ more = []) :
    parseMember (fuel' + 1) (text ++ more) = some (pair, rest ++ more) := by
  rw [parseMember] at h ⊢
  obtain ⟨⟨key, afterKey⟩, hkey, hvalue⟩ := Option.bind_eq_some_iff.mp h
  simp only [scanString_append more hkey, Option.bind_some]
  cases hskip : skipBlank afterKey with
  | nil => simp [hskip] at hvalue
  | cons c tail =>
      have hne : skipBlank afterKey ≠ [] := by simp [hskip]
      simp only [hskip] at hvalue
      simp only [skipBlank_append more hne, hskip, List.cons_append]
      split_ifs at hvalue ⊢ with hcolon
      obtain ⟨⟨value, rest'⟩, hparse, heq⟩ := Option.map_eq_some_iff.mp hvalue
      cases heq
      simp only [skipBlank_append more (skipBlank_ne_nil_of_value hparse),
        ih.value hparse hrest, Option.map_some]

theorem Local.members_succ (ih : Local more fuel fuel') {text rest : Text}
    {pairs : List (Text × Json)} (h : parseMembers (fuel + 1) text = some (pairs, rest)) :
    parseMembers (fuel' + 1) (text ++ more) = some (pairs, rest ++ more) := by
  cases text with
  | nil => cases h
  | cons c tail =>
      rw [parseMembers] at h
      rw [List.cons_append, parseMembers]
      split_ifs at h ⊢ with hclose hcomma
      · cases h
        rfl
      · cases hskip : skipBlank tail with
        | nil => simp [hskip] at h
        | cons d tail' =>
            have hne : skipBlank tail ≠ [] := by simp [hskip]
            simp only [hskip] at h
            simp only [skipBlank_append more hne, hskip, List.cons_append]
            split_ifs at h ⊢ with hquote
            obtain ⟨⟨first, afterFirst⟩, hfirst, hothers⟩ := Option.bind_eq_some_iff.mp h
            obtain ⟨⟨others, rest'⟩, hmembers, heq⟩ := Option.map_eq_some_iff.mp hothers
            cases heq
            have hnext := skipBlank_ne_nil_of_members hmembers
            have hfirst' := ih.member hfirst (.inl (ne_nil_of_skipBlank hnext))
            have hmembers' := ih.members hmembers
            simp only [hfirst', Option.bind_some, skipBlank_append more hnext, hmembers',
              Option.map_some]

theorem local_of_le (more : Text) (hle : fuel ≤ fuel') : Local more fuel fuel' := by
  induction fuel generalizing fuel' with
  | zero =>
      constructor <;>
      · intro text result rest h
        cases h
  | succ fuel ih =>
      obtain ⟨fuel', rfl⟩ : ∃ n, fuel' = n + 1 := ⟨fuel' - 1, by omega⟩
      have hlocal := @ih fuel' (by omega)
      exact ⟨hlocal.value_succ, hlocal.object_succ, hlocal.array_succ, hlocal.items_succ,
        hlocal.member_succ, hlocal.members_succ⟩

end

/-- The text of an object that is cut anywhere is not the text of a value. -/
theorem loads_eq_none_of_cut {members : List (Text × Json)} {front back : Text}
    (hwritable : Writable (.obj members)) (htext : encode (.obj members) = front ++ back)
    (hback : back ≠ []) : loads front = none := by
  cases hfront : loads front with
  | none => rfl
  | some value =>
      exfalso
      have hwhole := parseValue_encode (.obj members) [] (2 * (front ++ back).length + 1)
        hwritable (by simp [Ends]) (by rw [htext]; omega)
      rw [List.append_nil, htext] at hwhole
      cases front with
      | nil => cases hfront
      | cons c tail =>
          obtain rfl : c = '{' := by
            obtain ⟨rest, hobject⟩ := encode_obj members
            rw [hobject, List.cons_append] at htext
            exact (List.cons.inj htext).1.symm
          rw [loads, skipBlank_cons _ (by decide), parseValue, if_neg (by decide),
            if_pos rfl] at hfront
          rw [List.cons_append, parseValue, if_neg (by decide), if_pos rfl] at hwhole
          cases hobject : parseObject (2 * ('{' :: tail).length) (skipBlank tail) with
          | none =>
              rw [hobject] at hfront
              cases hfront
          | some result =>
              have hne : skipBlank tail ≠ [] := by
                intro hempty
                rw [hempty] at hobject
                cases hobject
              have hlonger := (local_of_le back (by simp :
                2 * ('{' :: tail).length ≤ 2 * ('{' :: (tail ++ back)).length)).object hobject
              rw [skipBlank_append back hne, hlonger] at hwhole
              have hrest : result.2 ++ back = [] :=
                congrArg Prod.snd (Option.some.inj hwhole)
              exact hback (List.append_eq_nil_iff.mp hrest).2

end QuantWorkbench.Lib.Json
