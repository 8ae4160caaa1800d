import QuantWorkbench.Lib.Tables

/-!
The latest row of each group of a table: the one that a stable sort by group and order puts last,
where `drop_duplicates(keep="last")` finds it.
-/

namespace QuantWorkbench.Lib

section Kept

variable {α β κ : Type*} [DecidableEq κ] {key : α → κ}

/-- Rows that are made from others keep their last ones. -/
theorem keepLast_map {make : β → α} (rows : List β) :
    keepLast key (rows.map make) = (keepLast (fun row => key (make row)) rows).map make := by
  induction rows with
  | nil => rfl
  | cons row rest ih =>
      have hkeys : (rest.map make).map key = rest.map fun row => key (make row) := List.map_map
      rw [List.map_cons, keepLast, keepLast, hkeys, ih]
      split
      · rfl
      · rfl

theorem keepLast_sublist (rows : List α) : (keepLast key rows).Sublist rows := by
  induction rows with
  | nil => exact List.Sublist.refl []
  | cons row rest ih =>
      rw [keepLast]
      split
      · exact ih.cons row
      · exact ih.cons_cons row

end Kept

section Latest

variable {α β σ τ : Type*} [LinearOrder τ] {group : α → σ} {order : α → τ}

/-- A row behind which its group has none, in the given order and then in that of the table. -/
def LatestOf (group : α → σ) (order : α → τ) (rows : List α) (row : α) : Prop :=
  ∃ before after, rows = before ++ row :: after ∧
    (∀ other ∈ before, group other = group row → order other ≤ order row) ∧
    ∀ other ∈ after, group other = group row → order other < order row

theorem latestOf_cons_iff {first row : α} {rest : List α} :
    LatestOf group order (first :: rest) row ↔
      (row = first ∧ ∀ other ∈ rest, group other = group first → order other < order first) ∨
        (group first = group row → order first ≤ order row) ∧ LatestOf group order rest row := by
  constructor
  · rintro ⟨before, after, heq, hbefore, hafter⟩
    cases before with
    | nil =>
        obtain ⟨rfl, rfl⟩ := List.cons.inj heq
        exact Or.inl ⟨rfl, hafter⟩
    | cons head others =>
        obtain ⟨rfl, rfl⟩ := List.cons.inj heq
        refine Or.inr ⟨hbefore _ List.mem_cons_self, others, after, rfl, ?_, hafter⟩
        exact fun other hother => hbefore other (List.mem_cons_of_mem _ hother)
  · rintro (⟨rfl, hafter⟩ | ⟨hfirst, before, after, rfl, hbefore, hafter⟩)
    · exact ⟨[], rest, rfl, fun _ hother => absurd hother List.not_mem_nil, hafter⟩
    · refine ⟨first :: before, after, rfl, fun other hother => ?_, hafter⟩
      rcases List.mem_cons.mp hother with rfl | hother
      · exact hfirst
      · exact hbefore other hother

theorem LatestOf.mem {rows : List α} {row : α} (h : LatestOf group order rows row) :
    row ∈ rows := by
  obtain ⟨before, after, rfl, _⟩ := h
  exact List.mem_append_right _ List.mem_cons_self

theorem LatestOf.unique {rows : List α} {row other : α} (h : LatestOf group order rows row)
    (h' : LatestOf group order rows other) (hgroup : group row = group other) : row = other := by
  induction rows with
  | nil => exact absurd h.mem List.not_mem_nil
  | cons first rest ih =>
      rcases latestOf_cons_iff.mp h with ⟨rfl, hbehind⟩ | ⟨hfirst, hrest⟩
      · rcases latestOf_cons_iff.mp h' with ⟨rfl, _⟩ | ⟨hle, hlater⟩
        · rfl
        · exact absurd (hle hgroup) (not_le.mpr (hbehind other hlater.mem hgroup.symm))
      · rcases latestOf_cons_iff.mp h' with ⟨rfl, hbehind⟩ | ⟨_, hlater⟩
        · exact absurd (hfirst hgroup.symm) (not_le.mpr (hbehind row hrest.mem hgroup))
        · exact ih hrest hlater

variable [LinearOrder σ]

/-- The last row of a group in a sorted sequence, after one more row was put in its place. -/
theorem lastOf_orderedInsert_iff {first row : α} {rows : List α}
    (h : rows.Pairwise fun a b => toLex (group a, order a) ≤ toLex (group b, order b)) :
    Keyed.LastOf group (rows.orderedInsert
        (fun a b => toLex (group a, order a) ≤ toLex (group b, order b)) first) row ↔
      (row = first ∧ ∀ other ∈ rows, group other = group first → order other < order first) ∨
        (group first = group row → order first ≤ order row) ∧ Keyed.LastOf group rows row := by
  have hle : ∀ a b : α, toLex (group a, order a) ≤ toLex (group b, order b) ↔
      group a < group b ∨ group a = group b ∧ order a ≤ order b :=
    fun a b => Prod.Lex.toLex_le_toLex
  induction rows with
  | nil => simp [Keyed.LastOf]
  | cons second rest ih =>
      obtain ⟨hsecond, hrest⟩ := List.pairwise_cons.mp h
      rw [List.orderedInsert_cons]
      split
      · rename_i hbefore
        have hfirst : ∀ other ∈ second :: rest, group other = group first →
            order first ≤ order other := by
          intro other hother hsame
          have hkey : toLex (group first, order first) ≤ toLex (group other, order other) := by
            rcases List.mem_cons.mp hother with rfl | hother
            · exact hbefore
            · exact hbefore.trans (hsecond other hother)
          rcases (hle _ _).mp hkey with hlt | ⟨_, horder⟩
          · exact absurd hsame hlt.ne'
          · exact horder
        rw [Keyed.LastOf, or_comm]
        refine or_congr (and_congr_right fun hrow => ?_) ?_
        · subst hrow
          simp only [List.mem_map, not_exists, not_and]
          refine forall₂_congr fun other hother => ?_
          exact ⟨fun hnot hsame => absurd hsame hnot,
            fun hlt hsame => absurd (hfirst other hother hsame) (not_le.mpr (hlt hsame))⟩
        · refine ⟨fun hlast => ⟨fun hsame => ?_, hlast⟩, fun hboth => hboth.2⟩
          exact hfirst row hlast.mem hsame.symm
      · rename_i hbehind
        have hlt : group second = group first → order second < order first := by
          intro hsame
          by_contra hnot
          exact hbehind ((hle _ _).mpr (Or.inr ⟨hsame.symm, not_lt.mp hnot⟩))
        have hnone : row = second → (group row ∉ (rest.orderedInsert (fun a b =>
            toLex (group a, order a) ≤ toLex (group b, order b)) first).map group ↔
            (group first = group row → order first ≤ order row) ∧ group row ∉ rest.map group) := by
          rintro rfl
          rw [((List.perm_orderedInsert _ _ _).map group).mem_iff, List.map_cons, List.mem_cons,
            not_or]
          refine and_congr_left fun _ => ?_
          exact ⟨fun hne hsame => absurd hsame.symm hne,
            fun himp hsame => absurd (himp hsame.symm) (not_le.mpr (hlt hsame))⟩
        have hall : (∀ other ∈ second :: rest, group other = group first →
            order other < order first) ↔
              ∀ other ∈ rest, group other = group first → order other < order first := by
          rw [List.forall_mem_cons]
          exact and_iff_right hlt
        refine (or_congr (ih hrest) (and_congr_right hnone)).trans ?_
        rw [hall, Keyed.LastOf]
        constructor
        · rintro ((hfirst | ⟨hlater, hlast⟩) | ⟨hsame, hlater, hlast⟩)
          · exact Or.inl hfirst
          · exact Or.inr ⟨hlater, Or.inl hlast⟩
          · exact Or.inr ⟨hlater, Or.inr ⟨hsame, hlast⟩⟩
        · rintro (hfirst | ⟨hlater, hlast | ⟨hsame, hlast⟩⟩)
          · exact Or.inl (Or.inl hfirst)
          · exact Or.inl (Or.inr ⟨hlater, hlast⟩)
          · exact Or.inr ⟨hsame, hlater, hlast⟩

theorem lastOf_sortValues_iff {rows : List α} {row : α} :
    Keyed.LastOf group (sortValues (fun row => toLex (group row, order row)) rows) row ↔
      LatestOf group order rows row := by
  induction rows with
  | nil => simp [sortValues, Keyed.LastOf, LatestOf]
  | cons first rest ih =>
      rw [latestOf_cons_iff, ← ih]
      have hsorted := @pairwise_sortValues _ _ _ (fun row => toLex (group row, order row)) rest
      refine (lastOf_orderedInsert_iff hsorted).trans ?_
      simp only [mem_sortValues]

end Latest

end QuantWorkbench.Lib
