import Mathlib.Data.Int.Log
import QuantWorkbench.Lib.Rounding

/-!
General decimal arithmetic. A finite number is its exact value, and the result of an operation
is rounded half even to the digits of a context. A result past the largest exponent is an error,
and one with digits below the smallest step loses them.
-/

namespace QuantWorkbench.Lib

inductive Decimal where
  | finite (value : ℚ)
  | infinite (negative : Bool)
  | nan
  deriving DecidableEq

namespace Decimal

def finite? : Decimal → Option ℚ
  | finite value => some value
  | infinite _ => none
  | nan => none

/-- Whether one number is greater than the other, which is an error for one that is not a number. -/
def greater? : Decimal → Decimal → Option Bool
  | nan, _ => none
  | _, nan => none
  | infinite negative, infinite other => some (!negative && other)
  | infinite negative, finite _ => some (!negative)
  | finite _, infinite negative => some negative
  | finite value, finite other => some (decide (other < value))

@[simp] theorem finite?_eq_some_iff {number : Decimal} {value : ℚ} :
    number.finite? = some value ↔ number = finite value := by
  cases number <;> simp [finite?]

end Decimal

/-- The digits of a result, the exponent of the smallest step and the largest exponent of a
leading digit. -/
structure DecimalContext where
  precision : ℕ
  lowest : ℤ
  highest : ℤ

namespace DecimalContext

/-- The context that arithmetic has unless it is given another one. -/
def default : DecimalContext := ⟨28, -1000026, 999999⟩

variable (context : DecimalContext)

/-- The exponent of the last digit that a result near the value keeps. -/
def step (x : ℚ) : ℤ :=
  max (Int.log 10 |x| + 1 - context.precision) context.lowest

def round (x : ℚ) : ℚ :=
  Rounding.halfEven (x / 10 ^ context.step x) * 10 ^ context.step x

/-- The rounded value, unless it overflows. -/
def result? (x : ℚ) : Option ℚ :=
  if context.round x = 0 ∨ Int.log 10 |context.round x| ≤ context.highest then
    some (context.round x)
  else none

/-- The value has no more digits than a result keeps. -/
def Representable (x : ℚ) : Prop :=
  ∃ (coefficient : ℤ) (exponent : ℤ), context.lowest ≤ exponent ∧
    exponent + context.precision ≤ context.highest + 1 ∧
    |(coefficient : ℚ)| < 10 ^ context.precision ∧ x = coefficient * 10 ^ exponent

variable {context}

theorem Representable.abs_lt {coefficient : ℤ} {exponent : ℤ}
    (h : |(coefficient : ℚ)| < 10 ^ context.precision) :
    |(coefficient * 10 ^ exponent : ℚ)| < 10 ^ (exponent + context.precision) := by
  have hpos : (0 : ℚ) < 10 ^ exponent := by positivity
  rw [abs_mul, abs_of_pos hpos, add_comm, zpow_add₀ (by norm_num), zpow_natCast]
  exact mul_lt_mul_of_pos_right h hpos

theorem step_le {coefficient : ℤ} {exponent : ℤ} (hlowest : context.lowest ≤ exponent)
    (h : |(coefficient : ℚ)| < 10 ^ context.precision) (hne : (coefficient : ℚ) ≠ 0) :
    context.step (coefficient * 10 ^ exponent) ≤ exponent := by
  have hvalue : (0 : ℚ) < |(coefficient * 10 ^ exponent : ℚ)| :=
    abs_pos.mpr (mul_ne_zero hne (by positivity))
  have hlog : Int.log 10 |(coefficient * 10 ^ exponent : ℚ)| < exponent + context.precision :=
    (Int.lt_zpow_iff_log_lt (by norm_num) hvalue).mp (by exact_mod_cast Representable.abs_lt h)
  exact max_le (by omega) hlowest

theorem round_of_representable {x : ℚ} (h : context.Representable x) : context.round x = x := by
  obtain ⟨coefficient, exponent, hlowest, _, hdigits, rfl⟩ := h
  by_cases hzero : (coefficient : ℚ) = 0
  · simp [round, hzero, Rounding.halfEven]
  have hstep := step_le hlowest hdigits hzero
  set step := context.step (coefficient * 10 ^ exponent) with hdef
  have hpos : (10 : ℚ) ^ step ≠ 0 := by positivity
  obtain ⟨shift, hshift⟩ := Int.eq_ofNat_of_zero_le (sub_nonneg.mpr hstep)
  have hexponent : exponent = shift + step := by omega
  have hscaled : (coefficient * 10 ^ exponent : ℚ) / 10 ^ step = (coefficient * 10 ^ shift : ℤ) := by
    rw [hexponent, zpow_add₀ (by norm_num), ← mul_assoc, mul_div_cancel_right₀ _ hpos]
    push_cast
    rfl
  rw [round, ← hdef, hscaled, Rounding.halfEven_intCast, ← hscaled, div_mul_cancel₀ _ hpos]

theorem result?_of_representable {x : ℚ} (h : context.Representable x) :
    context.result? x = some x := by
  have hround := round_of_representable h
  obtain ⟨coefficient, exponent, _, hhighest, hdigits, rfl⟩ := h
  have hbound : |(coefficient * 10 ^ exponent : ℚ)| < 10 ^ (context.highest + 1) :=
    (Representable.abs_lt hdigits).trans_le (zpow_le_zpow_right₀ (by norm_num) hhighest)
  have hfits : (coefficient * 10 ^ exponent : ℚ) = 0 ∨
      Int.log 10 |(coefficient * 10 ^ exponent : ℚ)| ≤ context.highest := by
    by_cases hzero : (coefficient * 10 ^ exponent : ℚ) = 0
    · exact .inl hzero
    · have hlog : Int.log 10 |(coefficient * 10 ^ exponent : ℚ)| < context.highest + 1 :=
        (Int.lt_zpow_iff_log_lt (by norm_num) (abs_pos.mpr hzero)).mp (by exact_mod_cast hbound)
      exact .inr (by omega)
  rw [result?, hround, if_pos hfits]

/-- Rounding does not go below a number of the context that is not above the value. -/
theorem le_round {lower x : ℚ} (hlower : context.Representable lower) (hnonneg : 0 ≤ lower)
    (hdigits : 0 < context.precision) (h : lower ≤ x) : lower ≤ context.round x := by
  rcases (hnonneg.trans h).eq_or_lt with hzero | hx
  · have hsame : lower = x := le_antisymm h (hzero ▸ hnonneg)
    rw [← hsame, round_of_representable hlower]
  obtain ⟨coefficient, exponent, hlowest, _, hcoefficient, rfl⟩ := hlower
  have hpos : (0 : ℚ) < 10 ^ context.step x := by positivity
  have hfloor : ∀ steps : ℤ, steps * 10 ^ context.step x ≤ x →
      steps * 10 ^ context.step x ≤ context.round x := by
    intro steps hsteps
    have hle : steps ≤ ⌊x / 10 ^ context.step x⌋ := Int.le_floor.mpr ((le_div_iff₀ hpos).mpr hsteps)
    exact mul_le_mul_of_nonneg_right (Int.cast_le.mpr (hle.trans (Rounding.floor_le_halfEven _)))
      hpos.le
  by_cases hfine : context.step x ≤ exponent
  · -- the number is a whole count of the steps that are kept
    obtain ⟨shift, hshift⟩ := Int.eq_ofNat_of_zero_le (sub_nonneg.mpr hfine)
    have hexponent : exponent = shift + context.step x := by omega
    have hsteps : (coefficient * 10 ^ exponent : ℚ) =
        (coefficient * 10 ^ shift : ℤ) * 10 ^ context.step x := by
      rw [hexponent, zpow_add₀ (by norm_num), ← mul_assoc]
      push_cast
      rfl
    rw [hsteps] at h ⊢
    exact hfloor _ h
  · -- the number is below the power of ten that the value starts with
    have hlog : context.step x = Int.log 10 x + 1 - context.precision := by
      unfold step at hfine ⊢
      rw [abs_of_pos hx] at hfine ⊢
      omega
    have hstart : ((10 ^ (context.precision - 1) : ℤ) : ℚ) * 10 ^ context.step x =
        10 ^ Int.log 10 x := by
      push_cast
      rw [← zpow_natCast, ← zpow_add₀ (by norm_num)]
      congr 1
      omega
    have hleading : ((10 ^ (context.precision - 1) : ℤ) : ℚ) * 10 ^ context.step x ≤ x := by
      rw [hstart]
      exact_mod_cast Int.zpow_log_le_self (by norm_num) hx
    have hbelow : (coefficient * 10 ^ exponent : ℚ) ≤ 10 ^ Int.log 10 x := by
      apply (le_abs_self _).trans
      apply (Representable.abs_lt hcoefficient).le.trans
      apply zpow_le_zpow_right₀ (by norm_num)
      omega
    exact (hbelow.trans hstart.ge).trans (hfloor _ hleading)

theorem le_of_result? {lower x y : ℚ} (hlower : context.Representable lower)
    (hnonneg : 0 ≤ lower) (hdigits : 0 < context.precision) (h : lower ≤ x)
    (hresult : context.result? x = some y) : lower ≤ y := by
  unfold result? at hresult
  split at hresult
  · cases hresult
    exact le_round hlower hnonneg hdigits h
  · cases hresult

/-- Twenty-eight digits down to any usual exponent are kept. -/
theorem default_representable (coefficient : ℤ) (places : ℕ) (hplaces : places ≤ 1000000)
    (hdigits : |coefficient| < 10 ^ 28) :
    default.Representable (coefficient / 10 ^ places) := by
  refine ⟨coefficient, -places, ?_, ?_, ?_, ?_⟩
  · change (-1000026 : ℤ) ≤ _
    omega
  · change -(places : ℤ) + (28 : ℕ) ≤ 999999 + 1
    omega
  · exact_mod_cast hdigits
  · rw [zpow_neg, zpow_natCast, div_eq_mul_inv]

end DecimalContext

end QuantWorkbench.Lib
