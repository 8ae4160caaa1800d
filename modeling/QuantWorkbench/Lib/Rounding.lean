import Mathlib.Data.Rat.Floor
import Mathlib.Tactic

/-!
Rounding of exact rationals to a decimal grid of step `1 / scale`. The modes are
the ones of general decimal arithmetic: half up (ties go away from zero), half
even and down (towards zero). A value already on the grid is its own rounding,
so sums and differences of quantized values never need rounding again.
-/

namespace QuantWorkbench.Lib.Rounding

/-- The nearest integer, ties away from zero. -/
def halfUp (x : ℚ) : ℤ :=
  if 0 ≤ x then ⌊x + 1 / 2⌋ else -⌊-x + 1 / 2⌋

/-- The integer part, towards zero. -/
def truncate (x : ℚ) : ℤ :=
  if 0 ≤ x then ⌊x⌋ else -⌊-x⌋

/-- The nearest integer, ties to the even one. -/
def halfEven (x : ℚ) : ℤ :=
  if x - ⌊x⌋ < 1 / 2 then ⌊x⌋
  else if 1 / 2 < x - ⌊x⌋ then ⌊x⌋ + 1
  else if ⌊x⌋ % 2 = 0 then ⌊x⌋
  else ⌊x⌋ + 1

def quantizeHalfUp (scale : ℕ) (x : ℚ) : ℚ :=
  (halfUp (x * scale) : ℚ) / scale

def quantizeHalfEven (scale : ℕ) (x : ℚ) : ℚ :=
  (halfEven (x * scale) : ℚ) / scale

def quantizeDown (scale : ℕ) (x : ℚ) : ℚ :=
  (truncate (x * scale) : ℚ) / scale

/-- `x` is a whole number of steps of the grid. -/
def OnGrid (scale : ℕ) (x : ℚ) : Prop :=
  ∃ steps : ℤ, x = (steps : ℚ) / scale

@[simp] theorem halfUp_intCast (n : ℤ) : halfUp (n : ℚ) = n := by
  have hhalf : ∀ m : ℤ, ⌊(m : ℚ) + 1 / 2⌋ = m := by
    intro m
    rw [Int.floor_eq_iff]
    constructor <;> linarith
  unfold halfUp
  split
  · exact hhalf n
  · have h := hhalf (-n)
    push_cast at h
    rw [h, neg_neg]

theorem halfUp_nonneg {x : ℚ} (hx : 0 ≤ x) : 0 ≤ halfUp x := by
  rw [halfUp, if_pos hx]
  apply Int.floor_nonneg.mpr
  linarith

theorem halfUp_nonpos {x : ℚ} (hx : x ≤ 0) : halfUp x ≤ 0 := by
  rcases hx.eq_or_lt with hzero | hneg
  · subst hzero
    exact (halfUp_intCast 0).le
  · rw [halfUp, if_neg (not_le.mpr hneg)]
    have h : 0 ≤ ⌊-x + 1 / 2⌋ := Int.floor_nonneg.mpr (by linarith)
    omega

theorem halfUp_mono {x y : ℚ} (hxy : x ≤ y) : halfUp x ≤ halfUp y := by
  by_cases hx : 0 ≤ x
  · have hy : 0 ≤ y := hx.trans hxy
    rw [halfUp, halfUp, if_pos hx, if_pos hy]
    exact Int.floor_le_floor (by linarith)
  · by_cases hy : 0 ≤ y
    · exact (halfUp_nonpos (not_le.mp hx).le).trans (halfUp_nonneg hy)
    · rw [halfUp, halfUp, if_neg hx, if_neg hy]
      have h : ⌊-y + 1 / 2⌋ ≤ ⌊-x + 1 / 2⌋ := Int.floor_le_floor (by linarith)
      omega

@[simp] theorem halfEven_intCast (n : ℤ) : halfEven (n : ℚ) = n := by
  simp [halfEven]

theorem floor_le_halfEven (x : ℚ) : ⌊x⌋ ≤ halfEven x := by
  unfold halfEven
  split_ifs <;> omega

theorem abs_halfEven_sub_le (x : ℚ) : |(halfEven x : ℚ) - x| ≤ 1 / 2 := by
  have hfloor := Int.floor_le x
  have hnext := Int.lt_floor_add_one x
  rw [abs_le, halfEven]
  split_ifs <;> push_cast <;> constructor <;> linarith

theorem truncate_of_nonneg {x : ℚ} (hx : 0 ≤ x) : truncate x = ⌊x⌋ :=
  if_pos hx

theorem OnGrid.add {scale : ℕ} {x y : ℚ} (hx : OnGrid scale x)
    (hy : OnGrid scale y) : OnGrid scale (x + y) := by
  obtain ⟨m, rfl⟩ := hx
  obtain ⟨n, rfl⟩ := hy
  exact ⟨m + n, by push_cast; ring⟩

theorem OnGrid.neg {scale : ℕ} {x : ℚ} (hx : OnGrid scale x) :
    OnGrid scale (-x) := by
  obtain ⟨m, rfl⟩ := hx
  exact ⟨-m, by push_cast; ring⟩

theorem OnGrid.sub {scale : ℕ} {x y : ℚ} (hx : OnGrid scale x)
    (hy : OnGrid scale y) : OnGrid scale (x - y) := by
  rw [sub_eq_add_neg]
  exact hx.add hy.neg

theorem onGrid_zero (scale : ℕ) : OnGrid scale 0 := ⟨0, by simp⟩

theorem OnGrid.sum {α : Type*} {scale : ℕ} (value : α → ℚ) (items : List α)
    (h : ∀ item ∈ items, OnGrid scale (value item)) :
    OnGrid scale (items.map value).sum := by
  induction items with
  | nil => exact onGrid_zero scale
  | cons item rest ih =>
      rw [List.map_cons, List.sum_cons]
      exact (h item (by simp)).add (ih fun x hx => h x (by simp [hx]))

theorem quantizeHalfUp_onGrid (scale : ℕ) (x : ℚ) :
    OnGrid scale (quantizeHalfUp scale x) := ⟨_, rfl⟩

/-- A value of the grid is its own rounding: quantizing twice, or quantizing a
sum of quantized values, changes nothing. -/
theorem quantizeHalfUp_of_onGrid {scale : ℕ} (hscale : 0 < scale) {x : ℚ}
    (hx : OnGrid scale x) : quantizeHalfUp scale x = x := by
  obtain ⟨steps, rfl⟩ := hx
  have hne : (scale : ℚ) ≠ 0 := by exact_mod_cast hscale.ne'
  rw [quantizeHalfUp, div_mul_cancel₀ _ hne, halfUp_intCast]

theorem quantizeHalfUp_mono {scale : ℕ} {x y : ℚ} (hxy : x ≤ y) :
    quantizeHalfUp scale x ≤ quantizeHalfUp scale y := by
  have hscale : (0 : ℚ) ≤ scale := Nat.cast_nonneg scale
  have h := halfUp_mono (mul_le_mul_of_nonneg_right hxy hscale)
  exact div_le_div_of_nonneg_right (by exact_mod_cast h) hscale

theorem quantizeHalfUp_nonneg {scale : ℕ} {x : ℚ} (hx : 0 ≤ x) :
    0 ≤ quantizeHalfUp scale x := by
  have hscale : (0 : ℚ) ≤ scale := Nat.cast_nonneg scale
  have h := halfUp_nonneg (mul_nonneg hx hscale)
  exact div_nonneg (by exact_mod_cast h) hscale

end QuantWorkbench.Lib.Rounding
