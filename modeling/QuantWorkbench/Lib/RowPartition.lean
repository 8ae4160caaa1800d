import Mathlib.Data.List.Forall2
import Mathlib.Tactic

/-!
Numbered rows that are accepted or rejected one by one. A loop partitions them if the values it
makes and the numbers it rejects use up each row number once.
-/

namespace QuantWorkbench.Lib

variable {α β : Type}

/-- The values come from some of the rows, in their order, and the numbers of these and the
rejected ones are all the row numbers from the first. -/
def PartitionedFrom (read : ℕ → α → β → Prop) (first : ℕ) (rows : List α) (made : List β)
    (rejected : List ℕ) : Prop :=
  ∃ accepted : List (α × ℕ), accepted.Sublist (rows.zipIdx first) ∧
    (accepted.map (·.2) ++ rejected).Perm (List.range' first rows.length) ∧
    List.Forall₂ (fun entry value => read entry.2 entry.1 value) accepted made

variable {read : ℕ → α → β → Prop} {first : ℕ} {row : α} {rest rows : List α} {made : List β}
  {rejected : List ℕ}

theorem partitionedFrom_nil : PartitionedFrom read first [] [] [] :=
  ⟨[], List.Sublist.refl _, List.Perm.refl _, .nil⟩

theorem PartitionedFrom.accept {value : β} (hread : read first row value)
    (h : PartitionedFrom read (first + 1) rest made rejected) :
    PartitionedFrom read first (row :: rest) (value :: made) rejected := by
  obtain ⟨accepted, hsublist, hperm, hmade⟩ := h
  refine ⟨(row, first) :: accepted, ?_, ?_, .cons hread hmade⟩
  · rw [List.zipIdx_cons]
    exact hsublist.cons_cons _
  · rw [List.map_cons, List.cons_append, List.length_cons, List.range'_succ]
    exact hperm.cons _

theorem PartitionedFrom.reject (h : PartitionedFrom read (first + 1) rest made rejected) :
    PartitionedFrom read first (row :: rest) made (first :: rejected) := by
  obtain ⟨accepted, hsublist, hperm, hmade⟩ := h
  refine ⟨accepted, ?_, ?_, hmade⟩
  · rw [List.zipIdx_cons]
    exact hsublist.cons _
  · rw [List.length_cons, List.range'_succ]
    exact List.perm_middle.trans (hperm.cons _)

/-- Each row is accepted or rejected, and none is both. -/
theorem PartitionedFrom.length (h : PartitionedFrom read first rows made rejected) :
    made.length + rejected.length = rows.length := by
  obtain ⟨accepted, _, hperm, hmade⟩ := h
  have hlength := hperm.length_eq
  rw [List.length_append, List.length_map, List.length_range', hmade.length_eq] at hlength
  exact hlength

/-- Some row has the property after the rows in front of it. -/
def AmongRows (holds : List α → α → Prop) (earlier rows : List α) : Prop :=
  ∃ before row later, rows = before ++ row :: later ∧ holds (earlier ++ before) row

variable {holds : List α → α → Prop} {earlier : List α}

theorem not_amongRows_nil : ¬ AmongRows holds earlier [] := by
  rintro ⟨before, _, _, hrows, _⟩
  cases before <;> cases hrows

theorem amongRows_cons :
    AmongRows holds earlier (row :: rest) ↔
      holds earlier row ∨ AmongRows holds (earlier ++ [row]) rest := by
  constructor
  · rintro ⟨before, other, later, hrows, hholds⟩
    cases before with
    | nil =>
        cases hrows
        rw [List.append_nil] at hholds
        exact .inl hholds
    | cons head tail =>
        cases hrows
        exact .inr ⟨tail, other, later, rfl, by rwa [List.append_assoc]⟩
  · rintro (hholds | ⟨before, other, later, rfl, hholds⟩)
    · exact ⟨[], row, rest, rfl, by rwa [List.append_nil]⟩
    · exact ⟨row :: before, other, later, rfl, by rwa [List.append_assoc] at hholds⟩

end QuantWorkbench.Lib
