import Mathlib.Data.List.Infix
import QuantWorkbench.Lib.Text

/-!
Patterns made of literals and gaps, searched for in a text and taken out of it. A gap takes
as few characters as it can and none that ends a line.
-/

namespace QuantWorkbench.Lib

inductive Piece where
  | literal (text : Text)
  /-- `.*?`, or `.{0,limit}`. -/
  | gap (limit : Option ℕ)
  deriving DecidableEq

/-- What one branch of a pattern asks for, from left to right. -/
abbrev Branch := List Piece

/-- Alternatives, none of which starts right after `notAfter` if that is not empty. -/
structure Pattern where
  notAfter : Text
  branches : List Branch

namespace Pattern

/-- The characters a gap and the pieces behind it take. -/
def lazyGap (next : Text → Option ℕ) : Option ℕ → Text → Option ℕ
  | _, [] => next []
  | limit, c :: rest =>
      (next (c :: rest)).or
        (if c = '\n' ∨ limit = some 0 then none
          else (lazyGap next (limit.map Nat.pred) rest).map Nat.succ)

/-- How many characters a branch takes at the front of a text. -/
def branchLength : Branch → Text → Option ℕ
  | [], _ => some 0
  | .literal text :: later, front =>
      if text.isPrefixOf front then
        (branchLength later (front.drop text.length)).map (text.length + ·)
      else none
  | .gap limit :: later, front => lazyGap (branchLength later) limit front

/-- How many characters the pattern takes between what was passed, the last character first,
and the rest of the text. -/
def matchLength (pattern : Pattern) (passed rest : Text) : Option ℕ :=
  if pattern.notAfter ≠ [] ∧ pattern.notAfter.reverse.isPrefixOf passed then none
  else pattern.branches.findSome? fun branch => branchLength branch rest

def searchFrom (pattern : Pattern) (passed : Text) : Text → Bool
  | [] => (pattern.matchLength passed []).isSome
  | c :: rest => (pattern.matchLength passed (c :: rest)).isSome ||
      searchFrom pattern (c :: passed) rest

/-- `pattern.search(text)`, as a truth value. -/
def search (pattern : Pattern) (text : Text) : Bool := pattern.searchFrom [] text

end Pattern

/-- Takes out each match, the leftmost first; `skip` characters belong to the one before. -/
def removeFrom (matchLength : Text → Text → Option ℕ) (passed : Text) (skip : ℕ) : Text → Text
  | [] => []
  | c :: rest =>
      match skip with
      | skip + 1 => removeFrom matchLength (c :: passed) skip rest
      | 0 =>
          match matchLength passed (c :: rest) with
          | some (length + 1) => removeFrom matchLength (c :: passed) length rest
          | _ => c :: removeFrom matchLength (c :: passed) 0 rest

def Pattern.remove (pattern : Pattern) (text : Text) : Text :=
  removeFrom pattern.matchLength [] 0 text

/-!
Where a pattern matches, said without the order in which places are tried: the languages of pieces
and branches, the places of a text, and what is left of a text when the leftmost places are taken
out of it, the shortest one where several begin together.
-/

/-! ### Languages -/

def Piece.Takes : Piece → Text → Prop
  | .literal text, taken => taken = text
  | .gap limit, taken => '\n' ∉ taken ∧ ∀ most ∈ limit, taken.length ≤ most

namespace Pattern

def BranchTakes : Branch → Text → Prop
  | [], taken => taken = []
  | piece :: later, taken => ∃ first rest, taken = first ++ rest ∧ piece.Takes first ∧
      BranchTakes later rest

/-- The pattern matches a text that stands behind another one. -/
structure Occurs (pattern : Pattern) (before found : Text) : Prop where
  allowed : ¬ (pattern.notAfter ≠ [] ∧ pattern.notAfter <:+ before)
  takes : ∃ branch ∈ pattern.branches, BranchTakes branch found

/-- The pattern matches somewhere in the text. -/
def Named (pattern : Pattern) (text : Text) : Prop :=
  ∃ before found after, text = before ++ found ++ after ∧ pattern.Occurs before found

theorem lazyGap_isSome_iff {next : Text → Option ℕ} :
    ∀ (limit : Option ℕ) (text : Text), (lazyGap next limit text).isSome = true ↔
      ∃ gap rest, text = gap ++ rest ∧ (Piece.gap limit).Takes gap ∧ (next rest).isSome = true
  | limit, [] => by
      rw [lazyGap]
      constructor
      · intro h
        exact ⟨[], [], rfl, ⟨List.not_mem_nil, fun _ _ => Nat.zero_le _⟩, h⟩
      · rintro ⟨gap, rest, htext, _, h⟩
        obtain ⟨rfl, rfl⟩ := List.append_eq_nil_iff.mp htext.symm
        exact h
  | limit, c :: later => by
      rw [lazyGap, Option.isSome_or, Bool.or_eq_true]
      have hlater : (if c = '\n' ∨ limit = some 0 then none
          else (lazyGap next (limit.map Nat.pred) later).map Nat.succ).isSome = true ↔
          ∃ gap rest, c :: later = (c :: gap) ++ rest ∧ (Piece.gap limit).Takes (c :: gap) ∧
            (next rest).isSome = true := by
        split
        · rename_i hend
          simp only [Option.isSome_none, Bool.false_eq_true, false_iff]
          rintro ⟨gap, rest, _, ⟨hline, hmost⟩, _⟩
          rcases hend with rfl | rfl
          · exact hline List.mem_cons_self
          · exact absurd (hmost 0 rfl) (by simp)
        · rename_i hgoes
          obtain ⟨hchar, hlimit⟩ := not_or.mp hgoes
          rw [Option.isSome_map, lazyGap_isSome_iff (limit.map Nat.pred) later]
          have htakes : ∀ gap, (Piece.gap (limit.map Nat.pred)).Takes gap ↔
              (Piece.gap limit).Takes (c :: gap) := by
            intro gap
            unfold Piece.Takes
            refine and_congr ?_ ?_
            · rw [List.mem_cons, not_or]
              exact (and_iff_right (Ne.symm hchar)).symm
            · cases limit with
              | none => simp
              | some most =>
                  have hpos : most ≠ 0 := fun h => hlimit (h ▸ rfl)
                  simp
                  omega
          constructor
          · rintro ⟨gap, rest, rfl, hgap, hnext⟩
            exact ⟨gap, rest, rfl, (htakes gap).mp hgap, hnext⟩
          · rintro ⟨gap, rest, htext, hgap, hnext⟩
            exact ⟨gap, rest, (List.cons.inj htext).2, (htakes gap).mpr hgap, hnext⟩
      rw [hlater]
      constructor
      · rintro (h | ⟨gap, rest, htext, hgap, hnext⟩)
        · exact ⟨[], c :: later, rfl, ⟨List.not_mem_nil, fun _ _ => Nat.zero_le _⟩, h⟩
        · exact ⟨c :: gap, rest, htext, hgap, hnext⟩
      · rintro ⟨gap, rest, htext, hgap, hnext⟩
        cases gap with
        | nil =>
            rw [List.nil_append] at htext
            exact Or.inl (htext ▸ hnext)
        | cons first gap =>
            obtain ⟨rfl, _⟩ := List.cons.inj htext
            exact Or.inr ⟨gap, rest, htext, hgap, hnext⟩

theorem branchLength_isSome_iff (branch : Branch) (front : Text) :
    (branchLength branch front).isSome = true ↔
      ∃ found after, front = found ++ after ∧ BranchTakes branch found := by
  induction branch generalizing front with
  | nil => exact ⟨fun _ => ⟨[], front, rfl, rfl⟩, fun _ => rfl⟩
  | cons piece later ih =>
      have hsplit : (∃ found after, front = found ++ after ∧ BranchTakes (piece :: later) found) ↔
          ∃ first rest, front = first ++ rest ∧ piece.Takes first ∧
            ∃ found after, rest = found ++ after ∧ BranchTakes later found := by
        constructor
        · rintro ⟨_, after, hfront, first, rest, rfl, hfirst, hrest⟩
          refine ⟨first, rest ++ after, ?_, hfirst, rest, after, rfl, hrest⟩
          rw [hfront, List.append_assoc]
        · rintro ⟨first, _, rfl, hfirst, found, after, rfl, hfound⟩
          refine ⟨first ++ found, after, ?_, first, found, rfl, hfirst, hfound⟩
          rw [List.append_assoc]
      rw [hsplit]
      cases piece with
      | literal text =>
          rw [branchLength]
          split
          · rename_i hprefix
            obtain ⟨rest, rfl⟩ := List.isPrefixOf_iff_prefix.mp hprefix
            rw [Option.isSome_map, ih, List.drop_left]
            constructor
            · exact fun h => ⟨text, rest, rfl, rfl, h⟩
            · rintro ⟨first, rest', hfront, hfirst, h⟩
              change first = text at hfirst
              subst hfirst
              rwa [List.append_cancel_left hfront]
          · rename_i hprefix
            simp only [Option.isSome_none, Bool.false_eq_true, false_iff]
            rintro ⟨first, rest, hfront, hfirst, _⟩
            change first = text at hfirst
            subst hfirst
            exact hprefix (List.isPrefixOf_iff_prefix.mpr ⟨rest, hfront.symm⟩)
      | gap limit =>
          rw [branchLength, lazyGap_isSome_iff]
          simp only [ih]

theorem matchLength_isSome_iff (pattern : Pattern) (before rest : Text) :
    (pattern.matchLength before.reverse rest).isSome = true ↔
      ∃ found after, rest = found ++ after ∧ pattern.Occurs before found := by
  have hafter : pattern.notAfter.reverse.isPrefixOf before.reverse = true ↔
      pattern.notAfter <:+ before := by
    rw [List.isPrefixOf_iff_prefix, List.reverse_prefix]
  unfold matchLength
  split
  · rename_i hbehind
    simp only [Option.isSome_none, Bool.false_eq_true, false_iff]
    rintro ⟨_, _, _, hoccurs⟩
    exact hoccurs.allowed ⟨hbehind.1, hafter.mp hbehind.2⟩
  · rename_i hallowed
    rw [List.findSome?_isSome_iff]
    simp only [branchLength_isSome_iff]
    constructor
    · rintro ⟨branch, hbranch, found, after, hrest, htakes⟩
      refine ⟨found, after, hrest, fun hbehind => hallowed ?_, branch, hbranch, htakes⟩
      exact ⟨hbehind.1, hafter.mpr hbehind.2⟩
    · rintro ⟨found, after, hrest, _, branch, hbranch, htakes⟩
      exact ⟨branch, hbranch, found, after, hrest, htakes⟩

theorem searchFrom_iff (pattern : Pattern) : ∀ text passed : Text,
    pattern.searchFrom passed.reverse text = true ↔
      ∃ before found after, text = before ++ found ++ after ∧
        pattern.Occurs (passed ++ before) found
  | [], passed => by
      rw [searchFrom, matchLength_isSome_iff]
      constructor
      · rintro ⟨found, after, htext, hoccurs⟩
        exact ⟨[], found, after, htext, by rwa [List.append_nil]⟩
      · rintro ⟨before, found, after, htext, hoccurs⟩
        obtain ⟨hfront, rfl⟩ := List.append_eq_nil_iff.mp htext.symm
        obtain ⟨rfl, rfl⟩ := List.append_eq_nil_iff.mp hfront
        rw [List.append_nil] at hoccurs
        exact ⟨[], [], rfl, hoccurs⟩
  | c :: rest, passed => by
      have hpassed : c :: passed.reverse = (passed ++ [c]).reverse := by simp
      rw [searchFrom, Bool.or_eq_true, matchLength_isSome_iff, hpassed,
        searchFrom_iff pattern rest (passed ++ [c])]
      constructor
      · rintro (⟨found, after, htext, hoccurs⟩ | ⟨before, found, after, rfl, hoccurs⟩)
        · exact ⟨[], found, after, htext, by rwa [List.append_nil]⟩
        · refine ⟨c :: before, found, after, rfl, ?_⟩
          rwa [List.append_assoc] at hoccurs
      · rintro ⟨before, found, after, htext, hoccurs⟩
        cases before with
        | nil =>
            rw [List.append_nil] at hoccurs
            exact Or.inl ⟨found, after, htext, hoccurs⟩
        | cons first before =>
            obtain ⟨rfl, rfl⟩ := List.cons.inj htext
            refine Or.inr ⟨before, found, after, rfl, ?_⟩
            rwa [List.append_assoc]

/-- A pattern is found exactly if it matches somewhere. -/
theorem search_iff (pattern : Pattern) (text : Text) :
    pattern.search text = true ↔ pattern.Named text :=
  searchFrom_iff pattern text []

/-! ### Places taken out -/

/-- What is left of a text behind another one when each place at which the pattern matches is taken
out: the leftmost places, and of those that begin together the shortest. -/
inductive Removes (pattern : Pattern) : Text → Text → Text → Prop
  | done (before : Text) : Removes pattern before [] []
  | keep {before rest left : Text} {c : Char}
      (hnone : ∀ found after, c :: rest = found ++ after → ¬ pattern.Occurs before found)
      (hrest : Removes pattern (before ++ [c]) rest left) :
      Removes pattern before (c :: rest) (c :: left)
  | cut {before found after text left : Text} (htext : text = found ++ after)
      (hsome : found ≠ []) (hoccurs : pattern.Occurs before found)
      (hshortest : ∀ other later, text = other ++ later → pattern.Occurs before other →
        found.length ≤ other.length)
      (hrest : Removes pattern (before ++ found) after left) : Removes pattern before text left

theorem Removes.unique {pattern : Pattern} {before text left left' : Text}
    (h : Removes pattern before text left) (h' : Removes pattern before text left') :
    left = left' := by
  induction h generalizing left' with
  | done before =>
      cases h' with
      | done => rfl
      | cut htext hsome hoccurs hshortest hrest =>
          exact absurd (List.append_eq_nil_iff.mp htext.symm).1 hsome
  | keep hnone hrest ih =>
      cases h' with
      | keep hnone' hrest' => rw [ih hrest']
      | cut htext hsome hoccurs hshortest hrest' => exact absurd hoccurs (hnone _ _ htext)
  | cut htext hsome hoccurs hshortest hrest ih =>
      cases h' with
      | done => exact absurd (List.append_eq_nil_iff.mp htext.symm).1 hsome
      | keep hnone hrest' => exact absurd hoccurs (hnone _ _ htext)
      | cut htext' hsome' hoccurs' hshortest' hrest' =>
          have hlength := le_antisymm (hshortest _ _ htext' hoccurs')
            (hshortest' _ _ htext hoccurs)
          obtain ⟨rfl, rfl⟩ := List.append_inj (htext.symm.trans htext') hlength
          exact ih hrest'

def TakesShortest (pattern : Pattern) : Prop :=
  ∀ before rest length, pattern.matchLength before.reverse rest = some length →
    ∃ found after, rest = found ++ after ∧ found.length = length ∧ found ≠ [] ∧
      pattern.Occurs before found ∧
      ∀ other later, rest = other ++ later → pattern.Occurs before other → length ≤ other.length

end Pattern

theorem removeFrom_skip (matchLength : Text → Text → Option ℕ) (text : Text) :
    ∀ passed skip, removeFrom matchLength passed skip text =
      removeFrom matchLength ((text.take skip).reverse ++ passed) 0 (text.drop skip) := by
  induction text with
  | nil =>
      intro passed skip
      cases skip <;> rfl
  | cons c rest ih =>
      intro passed skip
      cases skip with
      | zero => rfl
      | succ skip =>
          rw [removeFrom, ih, List.take_succ_cons, List.drop_succ_cons, List.reverse_cons,
            List.append_assoc, List.singleton_append]

namespace Pattern

theorem removes_removeFrom {pattern : Pattern} (h : pattern.TakesShortest) (before text : Text) :
    Removes pattern before text (removeFrom pattern.matchLength before.reverse 0 text) := by
  induction hlength : text.length using Nat.strong_induction_on generalizing before text with
  | _ length ih =>
      cases text with
      | nil => exact Removes.done before
      | cons c rest =>
          have hpassed : c :: before.reverse = (before ++ [c]).reverse := by simp
          rw [removeFrom]
          cases hmatch : pattern.matchLength before.reverse (c :: rest) with
          | none =>
              have hnone : ∀ found after, c :: rest = found ++ after →
                  ¬ pattern.Occurs before found := by
                intro found after htext hoccurs
                have hsome := (pattern.matchLength_isSome_iff before (c :: rest)).mpr
                  ⟨found, after, htext, hoccurs⟩
                rw [hmatch] at hsome
                cases hsome
              rw [hpassed]
              exact Removes.keep hnone (ih rest.length (by rw [← hlength]; simp) _ rest rfl)
          | some taken =>
              obtain ⟨found, after, htext, htaken, hsome, hoccurs, hshortest⟩ :=
                h before (c :: rest) taken hmatch
              cases found with
              | nil => exact absurd rfl hsome
              | cons first found =>
                  have hfirst : c = first := (List.cons.inj htext).1
                  have hrest : rest = found ++ after := (List.cons.inj htext).2
                  subst hfirst hrest
                  rw [← htaken, List.length_cons]
                  simp only
                  have hreversed : found.reverse ++ c :: before.reverse =
                      (before ++ c :: found).reverse := by simp
                  rw [removeFrom_skip, List.take_left, List.drop_left, hreversed]
                  refine Removes.cut htext hsome hoccurs ?_
                    (ih after.length (by rw [← hlength]; simp) _ after rfl)
                  rwa [htaken]

/-- What the removal of a pattern leaves. -/
theorem removes_iff {pattern : Pattern} (h : pattern.TakesShortest) {text left : Text} :
    Removes pattern [] text left ↔ left = pattern.remove text := by
  have hremoves : Removes pattern [] text (pattern.remove text) := removes_removeFrom h [] text
  constructor
  · exact fun hleft => hleft.unique hremoves
  · rintro rfl
    exact hremoves

/-! ### Patterns of one branch -/

theorem lazyGap_shortest {next : Text → Option ℕ} :
    ∀ {limit : Option ℕ} {text : Text} {length : ℕ}, lazyGap next limit text = some length →
      ∃ gap rest taken, text = gap ++ rest ∧ (Piece.gap limit).Takes gap ∧
        next rest = some taken ∧ length = gap.length + taken ∧
        ∀ other later, text = other ++ later → (next later).isSome = true →
          gap.length ≤ other.length
  | limit, [], length, h => by
      rw [lazyGap] at h
      exact ⟨[], [], length, rfl, ⟨List.not_mem_nil, fun _ _ => Nat.zero_le _⟩, h,
        (Nat.zero_add _).symm, fun _ _ _ _ => Nat.zero_le _⟩
  | limit, c :: later, length, h => by
      rw [lazyGap] at h
      cases hnow : next (c :: later) with
      | some taken =>
          rw [hnow] at h
          cases h
          exact ⟨[], c :: later, length, rfl, ⟨List.not_mem_nil, fun _ _ => Nat.zero_le _⟩, hnow,
            (Nat.zero_add _).symm, fun _ _ _ _ => Nat.zero_le _⟩
      | none =>
          rw [hnow, Option.none_or] at h
          split at h
          · cases h
          · rename_i hgoes
            obtain ⟨hchar, hlimit⟩ := not_or.mp hgoes
            obtain ⟨inner, hinner, rfl⟩ := Option.map_eq_some_iff.mp h
            obtain ⟨gap, rest, taken, rfl, ⟨hline, hmost⟩, hnext, rfl, hshortest⟩ :=
              lazyGap_shortest hinner
            refine ⟨c :: gap, rest, taken, rfl, ⟨?_, ?_⟩, hnext, ?_, ?_⟩
            · rw [List.mem_cons, not_or]
              exact ⟨Ne.symm hchar, hline⟩
            · rintro most rfl
              have hle := hmost (most - 1) rfl
              have hpos : most ≠ 0 := fun hzero => hlimit (hzero ▸ rfl)
              rw [List.length_cons]
              omega
            · rw [List.length_cons]
              omega
            · rintro other after htext hsome
              cases other with
              | nil =>
                  rw [List.nil_append] at htext
                  rw [← htext, hnow] at hsome
                  cases hsome
              | cons first other =>
                  have hinside := hshortest other after (List.cons.inj htext).2 hsome
                  simpa using hinside

theorem takesShortest_single {notAfter : Text} {branch : Branch}
    (h : ∀ front length, branchLength branch front = some length →
      ∃ found after, front = found ++ after ∧ found.length = length ∧ found ≠ [] ∧
        BranchTakes branch found ∧
        ∀ other later, front = other ++ later → BranchTakes branch other →
          length ≤ other.length) : TakesShortest ⟨notAfter, [branch]⟩ := by
  intro before rest length hmatch
  have hsome : (Pattern.matchLength ⟨notAfter, [branch]⟩ before.reverse rest).isSome = true := by
    rw [hmatch]
    rfl
  obtain ⟨_, _, _, ⟨hallowed, _⟩⟩ := (matchLength_isSome_iff _ before rest).mp hsome
  have hlength : branchLength branch rest = some length := by
    unfold matchLength at hmatch
    split at hmatch
    · cases hmatch
    · cases hbranch : branchLength branch rest with
      | none => simp [hbranch] at hmatch
      | some taken => simpa [hbranch] using hmatch
  obtain ⟨found, after, hrest, hfound, hne, htakes, hshortest⟩ := h rest length hlength
  refine ⟨found, after, hrest, hfound, hne, ?_, ?_⟩
  · exact ⟨hallowed, branch, List.mem_singleton_self _, htakes⟩
  rintro other later hother ⟨_, other', hmem, hothers⟩
  rw [List.mem_singleton.mp hmem] at hothers
  exact hshortest other later hother hothers

theorem takesShortest_word {notAfter text : Text} (h : text ≠ []) :
    TakesShortest ⟨notAfter, [[.literal text]]⟩ := by
  apply takesShortest_single
  intro front length hlength
  rw [branchLength] at hlength
  split at hlength
  · rename_i hprefix
    obtain ⟨rest, rfl⟩ := List.isPrefixOf_iff_prefix.mp hprefix
    cases hlength
    refine ⟨text, rest, rfl, rfl, h, ⟨text, [], (List.append_nil _).symm, rfl, rfl⟩, ?_⟩
    rintro other later _ ⟨first, rest', rfl, hfirst, _⟩
    change first = text at hfirst
    rw [hfirst]
    simp
  · cases hlength

/-- Of the texts from a word to another one on its line the first is the shortest. -/
theorem takesShortest_spaced {notAfter first second : Text} {limit : Option ℕ} (h : first ≠ []) :
    TakesShortest ⟨notAfter, [[.literal first, .gap limit, .literal second]]⟩ := by
  apply takesShortest_single
  intro front length hlength
  rw [branchLength] at hlength
  split at hlength
  · rename_i hprefix
    obtain ⟨rest, rfl⟩ := List.isPrefixOf_iff_prefix.mp hprefix
    rw [List.drop_left] at hlength
    obtain ⟨inner, hinner, rfl⟩ := Option.map_eq_some_iff.mp hlength
    obtain ⟨gap, ending, taken, rfl, hgap, hending, rfl, hshortest⟩ := lazyGap_shortest hinner
    rw [branchLength] at hending
    split at hending
    · rename_i hsecond
      obtain ⟨after, rfl⟩ := List.isPrefixOf_iff_prefix.mp hsecond
      cases hending
      refine ⟨first ++ (gap ++ second), after, by simp, by simp, by simp [h],
        ⟨first, gap ++ second, rfl, rfl, gap, second, rfl, hgap, second, [],
          (List.append_nil _).symm, rfl, rfl⟩, ?_⟩
      rintro other later hother ⟨first', rest', rfl, hfirst, gap', ending', rfl, hgap', second',
        nothing, rfl, hsecond', hnothing⟩
      change first' = first at hfirst
      change second' = second at hsecond'
      change nothing = [] at hnothing
      subst hfirst hsecond' hnothing
      have hinside : gap ++ (second' ++ after) = gap' ++ (second' ++ later) := by
        simpa using hother
      have hends : (branchLength [.literal second'] (second' ++ later)).isSome = true :=
        (branchLength_isSome_iff _ _).mpr
          ⟨second', later, rfl, second', [], (List.append_nil _).symm, rfl, rfl⟩
      have hle := hshortest gap' (second' ++ later) hinside hends
      simp only [List.length_append, List.length_nil]
      omega
    · cases hending
  · cases hlength

end Pattern

end QuantWorkbench.Lib
