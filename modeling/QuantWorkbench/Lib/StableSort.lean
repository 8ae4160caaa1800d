import Mathlib.Data.List.Sort
import Mathlib.Tactic

/-!
Where an element stands in a list after a stable sort: behind those that come before it in
the order, and behind the equal ones that stood before it.
-/

namespace QuantWorkbench.Lib

variable {α : Type*} (r : α → α → Prop) [DecidableRel r]

theorem orderedInsert_front {x a : α} (h : r x a) (front back : List α) :
    (front ++ a :: back).orderedInsert r x = front.orderedInsert r x ++ a :: back := by
  induction front with
  | nil => exact List.orderedInsert_cons_of_le r back h
  | cons b rest ih =>
      rw [List.cons_append, List.orderedInsert_cons, List.orderedInsert_cons]
      split
      · rfl
      · rw [ih, List.cons_append]

theorem orderedInsert_back {x a : α} (h : ¬ r x a) {front : List α} (hfront : ∀ b ∈ front, ¬ r x b)
    (back : List α) :
    (front ++ a :: back).orderedInsert r x = front ++ a :: back.orderedInsert r x := by
  induction front with
  | nil => exact List.orderedInsert_of_not_le r back h
  | cons b rest ih =>
      obtain ⟨hb, hrest⟩ := List.forall_mem_cons.mp hfront
      rw [List.cons_append, List.orderedInsert_of_not_le r _ hb, ih hrest, List.cons_append]

variable [IsTrans α r]

/-- The elements of a sorted list that do not come after `a` are its beginning. -/
theorem takeWhile_of_pairwise {l : List α} (h : l.Pairwise r) (a : α) :
    l.takeWhile (fun b => decide ¬ r a b) = l.filter fun b => decide ¬ r a b := by
  induction l with
  | nil => rfl
  | cons b rest ih =>
      obtain ⟨hb, hrest⟩ := List.pairwise_cons.mp h
      by_cases hab : r a b
      · rw [List.takeWhile_cons_of_neg (by simpa using hab), List.filter_cons_of_neg (by simpa using hab)]
        refine (List.filter_eq_nil_iff.mpr ?_).symm
        intro c hc
        simpa using IsTrans.trans _ _ _ hab (hb c hc)
      · rw [List.takeWhile_cons_of_pos (by simpa using hab), List.filter_cons_of_pos (by simpa using hab),
          ih hrest]

variable [Std.Total r]

/-- How many elements stand before an element of the sorted list. -/
theorem insertionSort_split (before : List α) (a : α) (after : List α) :
    ∃ front back, (before ++ a :: after).insertionSort r = front ++ a :: back ∧
      front.length = (before.filter fun b => r b a).length +
        (after.filter fun b => ¬ r a b).length ∧ ∀ b ∈ front, r b a := by
  induction before with
  | nil =>
      have hsorted := List.pairwise_insertionSort r after
      refine ⟨(after.insertionSort r).takeWhile fun b => decide ¬ r a b,
        (after.insertionSort r).dropWhile fun b => decide ¬ r a b, ?_, ?_, ?_⟩
      · rw [List.nil_append, List.insertionSort_cons, List.orderedInsert_eq_take_drop]
      · rw [takeWhile_of_pairwise r hsorted,
          ((List.perm_insertionSort r after).filter _).length_eq]
        simp
      · intro b hb
        rw [takeWhile_of_pairwise r hsorted] at hb
        have hnot := of_decide_eq_true (List.mem_filter.mp hb).2
        exact (Std.Total.total a b).resolve_left hnot
  | cons x rest ih =>
      obtain ⟨front, back, hsorted, hlength, hfront⟩ := ih
      rw [List.cons_append, List.insertionSort_cons, hsorted]
      by_cases hx : r x a
      · refine ⟨front.orderedInsert r x, back, orderedInsert_front r hx front back, ?_, ?_⟩
        · rw [List.orderedInsert_length, hlength, List.filter_cons_of_pos (by simpa using hx),
            List.length_cons]
          omega
        · intro b hb
          rcases (List.mem_orderedInsert r).mp hb with rfl | hb
          · exact hx
          · exact hfront b hb
      · have hpass : ∀ b ∈ front, ¬ r x b := fun b hb hxb => hx (IsTrans.trans _ _ _ hxb (hfront b hb))
        refine ⟨front, back.orderedInsert r x, orderedInsert_back r hx hpass back, ?_, hfront⟩
        rw [hlength, List.filter_cons_of_neg (by simpa using hx)]

/-- An element is among the first ones exactly if few stand before it. -/
theorem mem_take_insertionSort (before : List α) (a : α) (after : List α) {n : ℕ}
    (h : (before.filter fun b => r b a).length + (after.filter fun b => ¬ r a b).length < n) :
    a ∈ ((before ++ a :: after).insertionSort r).take n := by
  obtain ⟨front, back, hsorted, hlength, _⟩ := insertionSort_split r before a after
  rw [hsorted, List.take_append, List.mem_append]
  right
  obtain ⟨m, hm⟩ : ∃ m, n - front.length = m + 1 := ⟨n - front.length - 1, by omega⟩
  rw [hm, List.take_succ_cons]
  exact List.mem_cons_self

end QuantWorkbench.Lib
