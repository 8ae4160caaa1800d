import QuantWorkbench.Lib.Fallible
import QuantWorkbench.Lib.Floats
import QuantWorkbench.Lib.SlidingWindows

/-!
The splits of `experiments/splits.py`: one fixed split by ratios and splits that are moved on over
the dates. Ratios are floats, whose arithmetic rounds exact results; how it rounds is a parameter.
-/

namespace QuantWorkbench.Experiments

open Lib

/-- What `pd.to_datetime` reads dates from. -/
class SplitDate (V : Type) where
  /-- The date of `pd.to_datetime(value, errors="coerce")`, if that is one. -/
  date? : V → Option Date
  repr : V → String

instance : SplitDate Date where
  date? day := some day
  repr day := s!"datetime.date({day.year}, {day.month}, {day.day})"

structure TimeSplit where
  train : Date × Date
  validation : Date × Date
  test : Date × Date
  deriving DecidableEq

variable {V : Type} [SplitDate V]

def normalizeDates (values : List V) : Except String (List Date) := do
  let parsed ← values.mapM fun value =>
    orRaise (SplitDate.date? value) ("invalid split date: " ++ SplitDate.repr value)
  return sortedSet parsed

/-! ### Ratios -/

section Ratios

variable (round : ℚ → Number)

namespace Ratio

def add : Number → Number → Number
  | .finite a, .finite b => round (a + b)
  | .nan, _ => .nan
  | _, .nan => .nan
  | .infinite a, .infinite b => if a = b then .infinite a else .nan
  | .infinite a, .finite _ => .infinite a
  | .finite _, .infinite b => .infinite b

def abs : Number → Number
  | .finite a => .finite |a|
  | .infinite _ => .infinite false
  | .nan => .nan

/-- A whole number of dates times a ratio. -/
def scale (count : ℕ) : Number → Number
  | .finite a => round (count * a)
  | .infinite negative => if count = 0 then .nan else .infinite negative
  | .nan => .nan

/-- `int`, which cuts off what follows the point. -/
def toInt : Number → Except String ℤ
  | .finite a => .ok (if 0 ≤ a then ⌊a⌋ else ⌈a⌉)
  | .infinite _ => .error "cannot convert float infinity to integer"
  | .nan => .error "cannot convert float NaN to integer"

/-- `min` of two floats, which keeps the first one unless the second one is less. -/
def least (a b : Number) : Number := if Number.less b a then b else a

end Ratio

def validateRatios (train validation test : Number) : Except String Unit :=
  let total := Ratio.add round (Ratio.add round train validation) test
  let excess := Ratio.abs (Ratio.add round total (.finite (-1)))
  require (¬ (Number.atMost (Ratio.least (Ratio.least train validation) test) .zero = true ∨
    Number.less (round (1 / 10 ^ 9)) excess = true))
    "time split ratios must be positive and sum to 1"

end Ratios

/-! ### The fixed split -/

/-- The six dates of a split that trains from the first date on. -/
def splitAt {normalized : List Date} (cuts : Cuts normalized.length) : TimeSplit where
  train := (normalized.get ⟨0, Nat.zero_lt_of_lt cuts.validationEnd_lt⟩, cuts.windows.trainEnd)
  validation := (cuts.windows.validationStart, cuts.windows.validationEnd)
  test := (cuts.windows.testStart, cuts.windows.testEnd)

/-- The cuts for so many dates of training and of validation. -/
def fixedCuts {size : ℕ} (hsize : 3 ≤ size) (train validation : ℤ) : Cuts size :=
  let trainEnd := max 1 train.toNat
  let validationEnd := trainEnd + max 1 validation.toNat
  have htrain : 1 ≤ trainEnd := Nat.le_max_left 1 _
  have hvalidation : 1 ≤ max 1 validation.toNat := Nat.le_max_left 1 _
  if hlong : size ≤ validationEnd then
    { trainEnd := min trainEnd (size - 1 - 1)
      validationEnd := size - 1
      testStart := size - 1
      testEnd := size
      train_pos := by omega
      validation_pos := by omega
      embargo_nonneg := Nat.le_refl _
      test_pos := by omega
      testEnd_le := Nat.le_refl _ }
  else
    { trainEnd := trainEnd
      validationEnd := validationEnd
      testStart := validationEnd
      testEnd := size
      train_pos := htrain
      validation_pos := Nat.lt_add_of_pos_right hvalidation
      embargo_nonneg := Nat.le_refl _
      test_pos := Nat.lt_of_not_le hlong
      testEnd_le := Nat.le_refl _ }

def fixedTimeSplit (round : ℚ → Number) (dates : List V)
    (trainRatio validationRatio testRatio : Number) : Except String TimeSplit := do
  let normalized ← normalizeDates dates
  validateRatios round trainRatio validationRatio testRatio
  if hsize : 3 ≤ normalized.length then
    let train ← Ratio.toInt (Ratio.scale round normalized.length trainRatio)
    let validation ← Ratio.toInt (Ratio.scale round normalized.length validationRatio)
    return splitAt (fixedCuts hsize train validation)
  else
    throw "fixed time split requires at least three dates"

/-! ### Splits that move on -/

/-- The loop of `rolling_walk_forward`. -/
def splitsFrom (sizes : WindowSizes) (normalized : List Date) (start : ℕ) : List TimeSplit :=
  if h : start + sizes.span ≤ normalized.length then
    splitAt (sizes.cuts h) :: splitsFrom sizes normalized (start + sizes.step)
  else []
termination_by normalized.length + 1 - start
decreasing_by
  have := sizes.step_pos
  omega

def rollingWalkForward (dates : List V)
    (minTrainDates validationDates testDates stepDates : ℤ) : Except String (List TimeSplit) := do
  let normalized ← normalizeDates dates
  if h : minTrainDates < 1 ∨ validationDates < 1 ∨ testDates < 1 ∨ stepDates < 1 then
    throw "Walk-Forward window sizes must be positive"
  else
    let sizes : WindowSizes :=
      { train := minTrainDates.toNat
        validation := validationDates.toNat
        embargo := 0
        test := testDates.toNat
        step := stepDates.toNat
        train_pos := by omega
        validation_pos := by omega
        test_pos := by omega
        step_pos := by omega }
    return splitsFrom sizes normalized 0

/-! ### Windows of a split -/

def TimeSplit.windows (split : TimeSplit) : Windows Date where
  trainEnd := split.train.2
  validationStart := split.validation.1
  validationEnd := split.validation.2
  testStart := split.test.1
  testEnd := split.test.2

/-- What lies within the three windows of a split. -/
def TimeSplit.parts (split : TimeSplit) (days : List Date) : List (Finset Date) :=
  [within days split.train.1 split.train.2, within days split.validation.1 split.validation.2,
    within days split.test.1 split.test.2]

theorem increasing_normalizeDates {dates : List V} {days : List Date}
    (h : normalizeDates dates = .ok days) : days.Pairwise (· < ·) := by
  obtain ⟨parsed, _, hdays⟩ := bind_eq_ok_iff.mp h
  cases hdays
  exact increasing_sortedSet parsed

section Cuts

variable {days : List Date} (cuts : Cuts days.length)

@[simp] theorem windows_splitAt : (splitAt cuts).windows = cuts.windows := rfl

theorem trainStart_splitAt (hdays : days.Pairwise (· < ·)) :
    (splitAt cuts).train.1 ∈ days ∧ (splitAt cuts).train.1 ≤ (splitAt cuts).train.2 :=
  ⟨List.get_mem _ _, (strictMono_get hdays).monotone (Fin.mk_le_mk.mpr (Nat.zero_le _))⟩

/-- Without an embargo, and up to the last date, a date is in one window. -/
theorem countP_parts_splitAt (hdays : days.Pairwise (· < ·))
    (hembargo : cuts.testStart = cuts.validationEnd) (hend : cuts.testEnd = days.length) {day : Date}
    (hday : day ∈ days) : ((splitAt cuts).parts days).countP (fun part => day ∈ part) = 1 := by
  have hmono := strictMono_get hdays
  have htrain := cuts.train_pos
  have hvalidation := cuts.validation_pos
  have htest := cuts.test_pos
  obtain ⟨i, rfl⟩ := List.mem_iff_get.mp hday
  have hi := i.isLt
  have hparts : ((splitAt cuts).parts days).map (fun part => decide (days.get i ∈ part)) =
      [decide (i.val < cuts.trainEnd), decide (cuts.trainEnd ≤ i.val ∧ i.val < cuts.validationEnd),
        decide (cuts.validationEnd ≤ i.val)] := by
    simp only [TimeSplit.parts, splitAt, Cuts.windows, List.map_cons, List.map_nil, mem_within,
      List.get_mem, true_and, hmono.le_iff_le, Fin.le_def, List.cons.injEq, decide_eq_decide,
      and_true]
    omega
  have hcount := congrArg (List.countP id) hparts
  rw [List.countP_map] at hcount
  refine hcount.trans ?_
  rcases Nat.lt_or_ge i.val cuts.trainEnd with hin | hafter
  · have hbefore : ¬ cuts.validationEnd ≤ i.val := by omega
    simp [hin, hbefore, Nat.not_le.mpr hin]
  · rcases Nat.lt_or_ge i.val cuts.validationEnd with hin | hlater
    · simp [hin, hafter, Nat.not_lt.mpr hafter, Nat.not_le.mpr hin]
    · simp [hafter, hlater, Nat.not_lt.mpr hafter, Nat.not_lt.mpr hlater]

theorem fixedCuts_embargo {size : ℕ} (hsize : 3 ≤ size) (train validation : ℤ) :
    (fixedCuts hsize train validation).testStart =
      (fixedCuts hsize train validation).validationEnd := by
  unfold fixedCuts
  dsimp only
  split <;> rfl

theorem fixedCuts_testEnd {size : ℕ} (hsize : 3 ≤ size) (train validation : ℤ) :
    (fixedCuts hsize train validation).testEnd = size := by
  unfold fixedCuts
  dsimp only
  split <;> rfl

end Cuts

/-- A fixed split is made at cuts that leave nothing between its windows. -/
theorem fixedTimeSplit_eq_ok {round : ℚ → Number} {dates : List V}
    {trainRatio validationRatio testRatio : Number} {split : TimeSplit}
    (h : fixedTimeSplit round dates trainRatio validationRatio testRatio = .ok split) :
    ∃ days, normalizeDates dates = .ok days ∧ ∃ cuts : Cuts days.length,
      split = splitAt cuts ∧ cuts.testStart = cuts.validationEnd ∧
        cuts.testEnd = days.length := by
  obtain ⟨days, hdays, h⟩ := bind_eq_ok_iff.mp h
  obtain ⟨_, _, h⟩ := bind_eq_ok_iff.mp h
  refine ⟨days, hdays, ?_⟩
  split at h
  · rename_i hsize
    obtain ⟨train, _, h⟩ := bind_eq_ok_iff.mp h
    obtain ⟨validation, _, h⟩ := bind_eq_ok_iff.mp h
    cases h
    exact ⟨fixedCuts hsize train validation, rfl, fixedCuts_embargo hsize train validation,
      fixedCuts_testEnd hsize train validation⟩
  · cases h

theorem windows_splitsFrom (sizes : WindowSizes) (days : List Date) (start : ℕ) :
    (splitsFrom sizes days start).map TimeSplit.windows = sizes.slide days start := by
  induction start using splitsFrom.induct sizes days with
  | case1 start hspan ih =>
      rw [splitsFrom, dif_pos hspan, WindowSizes.slide, dif_pos hspan, List.map_cons, ih]
      rfl
  | case2 start hshort =>
      rw [splitsFrom, dif_neg hshort, WindowSizes.slide, dif_neg hshort, List.map_nil]

theorem trainStart_splitsFrom {sizes : WindowSizes} {days : List Date}
    (hdays : days.Pairwise (· < ·)) {start : ℕ} {split : TimeSplit}
    (h : split ∈ splitsFrom sizes days start) :
    split.train.1 ∈ days ∧ split.train.1 ≤ split.train.2 := by
  induction start using splitsFrom.induct sizes days with
  | case1 start hspan ih =>
      rw [splitsFrom, dif_pos hspan] at h
      rcases List.mem_cons.mp h with rfl | h
      · exact trainStart_splitAt _ hdays
      · exact ih h
  | case2 start hshort =>
      rw [splitsFrom, dif_neg hshort] at h
      cases h

/-- The splits that move on are those of sizes without an embargo. -/
theorem rollingWalkForward_eq_ok {dates : List V}
    {minTrainDates validationDates testDates stepDates : ℤ} {splits : List TimeSplit}
    (h : rollingWalkForward dates minTrainDates validationDates testDates stepDates = .ok splits) :
    ∃ days, normalizeDates dates = .ok days ∧ ∃ sizes : WindowSizes,
      splits = splitsFrom sizes days 0 ∧ sizes.validation = validationDates.toNat ∧
        sizes.embargo = 0 ∧ sizes.test = testDates.toNat := by
  obtain ⟨days, hdays, h⟩ := bind_eq_ok_iff.mp h
  refine ⟨days, hdays, ?_⟩
  split at h
  · cases h
  · cases h
    exact ⟨_, rfl, rfl, rfl, rfl⟩

end QuantWorkbench.Experiments
