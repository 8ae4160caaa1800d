import Mathlib.Algebra.Order.BigOperators.Group.List
import Mathlib.Algebra.BigOperators.Ring.List
import Mathlib.Tactic

/-!
Shares of a budget in proportion to weights, none above a cap.
-/

namespace QuantWorkbench.Lib.Shares

variable {K : Type*} [Field K] [LinearOrder K] [IsStrictOrderedRing K]

omit [LinearOrder K] [IsStrictOrderedRing K] in
/-- The shares use the budget up. -/
theorem sum_scaled (weights : List K) (budget : K) (h : weights.sum ≠ 0) :
    (weights.map (· * (budget / weights.sum))).sum = budget := by
  rw [List.sum_map_mul_right, List.map_id']
  exact mul_div_cancel₀ budget h

theorem sum_capped_le (weights : List K) (cap scale : K) :
    (weights.map fun w => min cap (w * scale)).sum ≤ (weights.map (· * scale)).sum := by
  apply List.sum_le_sum
  intro w _
  exact min_le_right _ _

theorem sum_capped_shares_le (weights : List K) (cap budget : K) (h : weights.sum ≠ 0) :
    (weights.map fun w => min cap (w * (budget / weights.sum))).sum ≤ budget :=
  (sum_capped_le weights cap _).trans_eq (sum_scaled weights budget h)

theorem capped_share_pos {cap budget total w : K} (hcap : 0 < cap) (hbudget : 0 < budget)
    (htotal : 0 < total) (hw : 0 < w) : 0 < min cap (w * (budget / total)) :=
  lt_min hcap (mul_pos hw (div_pos hbudget htotal))

/-- Scaling down to a budget below the total lowers every weight. -/
theorem scaled_le {budget total w : K} (htotal : 0 < total) (hbudget : budget ≤ total)
    (hw : 0 ≤ w) : w * (budget / total) ≤ w :=
  mul_le_of_le_one_right hw ((div_le_one htotal).mpr hbudget)

omit [IsStrictOrderedRing K] in
/-- Weights of zero add nothing. -/
theorem sum_filter_pos {weights : List K} (h : ∀ w ∈ weights, 0 ≤ w) :
    (weights.filter (0 < ·)).sum = weights.sum := by
  induction weights with
  | nil => rfl
  | cons w rest ih =>
      obtain ⟨hw, hrest⟩ := List.forall_mem_cons.mp h
      by_cases hpos : 0 < w
      · rw [List.filter_cons_of_pos (by simpa using hpos), List.sum_cons, List.sum_cons, ih hrest]
      · have hzero : w = 0 := le_antisymm (not_lt.mp hpos) hw
        rw [List.filter_cons_of_neg (by simpa using hpos), List.sum_cons, ih hrest, hzero, zero_add]

end QuantWorkbench.Lib.Shares
