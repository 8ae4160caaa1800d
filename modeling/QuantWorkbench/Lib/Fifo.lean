import Mathlib.Algebra.Order.BigOperators.Group.List
import Mathlib.Tactic

/-!
Drawing an amount from a list of pools in order: each eligible pool gives what
it holds until nothing is needed any more. What is drawn in total depends on
the eligible amounts only through their sum.
-/

namespace QuantWorkbench.Lib.Fifo

variable {α : Type*} (eligible : α → Bool) (held : α → ℤ)

/-- What one pool gives towards `need`. -/
def drawOne (pool : α) (need : ℤ) : ℤ :=
  if eligible pool then min (held pool) need else 0

/-- The amount drawn from each pool, in the order of the pools. -/
def draw : List α → ℤ → List ℤ
  | [], _ => []
  | pool :: rest, need =>
      drawOne eligible held pool need ::
        draw rest (need - drawOne eligible held pool need)

def eligibleTotal (pools : List α) : ℤ :=
  ((pools.filter eligible).map held).sum

theorem drawOne_nonneg (pool : α) {need : ℤ} (hheld : 0 ≤ held pool)
    (hneed : 0 ≤ need) : 0 ≤ drawOne eligible held pool need := by
  unfold drawOne
  split
  · exact le_min hheld hneed
  · exact le_rfl

theorem drawOne_le_held (pool : α) (need : ℤ) (hheld : 0 ≤ held pool) :
    drawOne eligible held pool need ≤ held pool := by
  unfold drawOne
  split
  · exact min_le_left _ _
  · exact hheld

theorem drawOne_le_need (pool : α) {need : ℤ} (hneed : 0 ≤ need) :
    drawOne eligible held pool need ≤ need := by
  unfold drawOne
  split
  · exact min_le_right _ _
  · exact hneed

theorem eligibleTotal_nonneg {pools : List α} (hheld : ∀ pool ∈ pools, 0 ≤ held pool) :
    0 ≤ eligibleTotal eligible held pools := by
  apply List.sum_nonneg
  intro amount hamount
  obtain ⟨pool, hpool, rfl⟩ := List.mem_map.mp hamount
  exact hheld pool (List.mem_filter.mp hpool).1

theorem eligibleTotal_cons (pool : α) (rest : List α) :
    eligibleTotal eligible held (pool :: rest) =
      (if eligible pool then held pool else 0) + eligibleTotal eligible held rest := by
  unfold eligibleTotal
  by_cases h : eligible pool <;> simp [h]

theorem eligibleTotal_mono {other : α → Bool} {pools : List α}
    (hheld : ∀ pool ∈ pools, 0 ≤ held pool)
    (himp : ∀ pool, eligible pool = true → other pool = true) :
    eligibleTotal eligible held pools ≤ eligibleTotal other held pools := by
  induction pools with
  | nil => exact le_rfl
  | cons pool rest ih =>
      have hpool := hheld pool (by simp)
      have hrest := ih fun p hp => hheld p (by simp [hp])
      rw [eligibleTotal_cons, eligibleTotal_cons]
      by_cases heligible : eligible pool = true
      · rw [if_pos heligible, if_pos (himp pool heligible)]
        omega
      · rw [if_neg heligible]
        split <;> omega

/-- The pools give the whole need, or everything eligible when that is less. -/
theorem sum_draw (pools : List α) (need : ℤ) (hneed : 0 ≤ need)
    (hheld : ∀ pool ∈ pools, 0 ≤ held pool) :
    (draw eligible held pools need).sum =
      min (eligibleTotal eligible held pools) need := by
  induction pools generalizing need with
  | nil => simp [draw, eligibleTotal, hneed]
  | cons pool rest ih =>
      have hpool := hheld pool (by simp)
      have hrest : ∀ p ∈ rest, 0 ≤ held p := fun p hp => hheld p (by simp [hp])
      have htotal := eligibleTotal_nonneg eligible held hrest
      have hle := drawOne_le_need eligible held pool hneed
      rw [draw, List.sum_cons, ih _ (by omega) hrest, eligibleTotal_cons]
      unfold drawOne
      split <;> omega

end QuantWorkbench.Lib.Fifo
