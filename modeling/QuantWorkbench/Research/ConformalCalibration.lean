import QuantWorkbench.Lib.Fields
import QuantWorkbench.Lib.Floats
import QuantWorkbench.Lib.SlidingWindows

/-!
The rolling conformal calibration of `research/calibration.py`. A radius is an empirical quantile of
the absolute residuals that had matured by a cutoff, on the 252 last dates on which any of them did.
How the columns of a table are converted and how a quantile is read off a sample are parameters.
-/

namespace QuantWorkbench.Research

open Lib

/-! ### Residuals -/

/-- How `pandas` converts the cells of the four columns. -/
class CalibrationCells (V : Type) where
  /-- `to_datetime(utc=True)`, in nanoseconds; a missing one is `none`. -/
  instant : V → Except String (Option ℤ)
  /-- The date of `to_datetime`. -/
  date : V → Except String (Option Date)
  /-- `to_numeric`. -/
  number : V → Except String Number
  /-- `astype(int)`. -/
  int : V → Except String ℤ

structure ResidualRow (V : Type) where
  absoluteResidual : V
  horizonDays : V
  maturedAt : V
  maturityDate : V

/-- A row whose cells have been converted. -/
structure ConvertedRow where
  absoluteResidual : Number
  horizonDays : ℤ
  maturedAt : Option ℤ
  maturityDate : Option Date
  deriving DecidableEq

/-- What `fit` is given: a table with the columns that it has, or plain residuals. -/
inductive Residuals (V : Type) where
  | table (columns : List Text) (rows : List (ResidualRow V))
  | values (residuals : List Number)

variable {V : Type} [CalibrationCells V]

def ResidualRow.convert (row : ResidualRow V) : Except String ConvertedRow := do
  let maturedAt ← CalibrationCells.instant row.maturedAt
  let maturityDate ← CalibrationCells.date row.maturityDate
  let absoluteResidual ← CalibrationCells.number row.absoluteResidual
  let horizonDays ← CalibrationCells.int row.horizonDays
  return { absoluteResidual, horizonDays, maturedAt, maturityDate }

def nanoseconds (t : UtcDateTime) : ℤ := 1000 * t.microseconds

def ConvertedRow.matured (horizon : ℤ) (cutoff : UtcDateTime) (row : ConvertedRow) : Bool :=
  row.horizonDays = horizon &&
    row.maturedAt.any (fun instant => instant ≤ nanoseconds cutoff) &&
    row.maturityDate.any (fun date => date ≤ cutoff.date)

def ConvertedRow.residual? (row : ConvertedRow) : Option (ℚ × Date) :=
  match row.absoluteResidual, row.maturityDate with
  | .finite value, some date => if 0 ≤ value then some (value, date) else none
  | _, _ => none

def requiredColumns : List Text :=
  ["absolute_residual".toList, "horizon_days".toList, "matured_at".toList, "maturity_date".toList]

def finiteVector (residuals : List Number) : Except String (List ℚ) := do
  require (residuals ≠ []) "residuals must contain finite values"
  residuals.mapM fun
    | .finite value => .ok value
    | _ => .error "residuals must contain finite values"

def missingColumns (columns : List Text) : List Text := requiredColumns.filter (· ∉ columns)

def convertTable (columns : List Text) (rows : List (ResidualRow V)) :
    Except String (List ConvertedRow) := do
  require (missingColumns columns = [])
    ("missing calibration columns: [" ++ ", ".intercalate
      ((missingColumns columns).map fun name => "'" ++ String.ofList name ++ "'") ++ "]")
  rows.mapM ResidualRow.convert

def eligibleResiduals (residuals : Residuals V) (horizon : ℤ) (cutoff : UtcDateTime) :
    Except String (List (ℚ × Date)) :=
  match residuals with
  | .table columns rows => do
      let converted ← convertTable columns rows
      return (converted.filter (·.matured horizon cutoff)).filterMap ConvertedRow.residual?
  | .values residuals => do
      let values ← finiteVector residuals
      return values.map fun value => (|value|, cutoff.date)

/-! ### Calibration -/

inductive CalibrationStatus where
  | calibrated
  | uncalibrated
  deriving DecidableEq

structure IntervalCalibration where
  status : CalibrationStatus
  sampleCount : ℕ
  radius : Option ℚ
  horizonDays : ℤ
  asOf : UtcDateTime
  deriving DecidableEq

structure RollingConformalCalibrator where
  minimumSamples : ℕ
  quantile : ℚ
  minimumSamples_pos : 1 ≤ minimumSamples
  quantile_range : 0 < quantile ∧ quantile < 1

def recentResiduals (eligible : List (ℚ × Date)) : List (ℚ × Date) :=
  let dates := sortedSet (eligible.map Prod.snd)
  if 252 < dates.length then
    eligible.filter fun row => row.2 ∈ dates.drop (dates.length - 252)
  else eligible

namespace RollingConformalCalibrator

variable (empiricalQuantile : List ℚ → ℚ → ℚ) (calibrator : RollingConformalCalibrator)

/-- `fit`, with the instant of a cutoff that is given in a time zone. -/
def fit (residuals : Residuals V) (horizon : ℤ) (asOf : Option UtcDateTime) :
    Except String IntervalCalibration := do
  require (horizon ∈ [5, 10, 20]) "horizon must be one of 5, 10, or 20"
  let cutoff ← orRaise asOf "as_of must be timezone-aware"
  let eligible ← eligibleResiduals residuals horizon cutoff
  let uncalibrated (sampleCount : ℕ) : IntervalCalibration :=
    { status := .uncalibrated
      sampleCount := sampleCount
      radius := none
      horizonDays := horizon
      asOf := cutoff }
  if eligible.length < calibrator.minimumSamples then
    return uncalibrated eligible.length
  let recent := recentResiduals eligible
  if recent.length < calibrator.minimumSamples then
    return uncalibrated recent.length
  return {
    status := .calibrated
    sampleCount := recent.length
    radius := some (empiricalQuantile (recent.map Prod.fst) calibrator.quantile)
    horizonDays := horizon
    asOf := cutoff }

end RollingConformalCalibrator

/-- `quantile(interpolation="higher")`: the value at the first whole position of the sorted sample
that is not before the quantile's own. -/
def TakesHigher (empiricalQuantile : List ℚ → ℚ → ℚ) : Prop :=
  ∀ (values : List ℚ) (q : ℚ), values ≠ [] → 0 < q → q < 1 →
    (values.insertionSort (· ≤ ·))[⌈(values.length - 1 : ℚ) * q⌉.toNat]? =
      some (empiricalQuantile values q)

/-! ### Coverage -/

/-- In a sorted sample, the value at a position is no less than those up to it. -/
theorem lt_countP_of_getElem? {sorted : List ℚ} (hsorted : sorted.Pairwise (· ≤ ·)) {k : ℕ}
    {value : ℚ} (h : sorted[k]? = some value) :
    k < sorted.countP (fun other => other ≤ value) := by
  obtain ⟨hk, rfl⟩ := List.getElem?_eq_some_iff.mp h
  have hsplit := @List.countP_append _ (fun other => decide (other ≤ sorted[k]))
    (sorted.take (k + 1)) (sorted.drop (k + 1))
  rw [List.take_append_drop] at hsplit
  have hall : (sorted.take (k + 1)).countP (fun other => decide (other ≤ sorted[k])) =
      (sorted.take (k + 1)).length := by
    rw [List.countP_eq_length]
    intro other hother
    obtain ⟨i, hi, rfl⟩ := List.getElem_of_mem hother
    rw [List.length_take] at hi
    rw [List.getElem_take]
    refine decide_eq_true ?_
    rcases Nat.lt_or_ge i k with hlt | hge
    · exact List.pairwise_iff_getElem.mp hsorted i k _ hk hlt
    · have heq : i = k := by omega
      subst heq
      exact le_rfl
  rw [hsplit, hall, List.length_take]
  omega

/-- As many values as the quantile asks for are no greater than it. -/
theorem TakesHigher.covers {empiricalQuantile : List ℚ → ℚ → ℚ} (h : TakesHigher empiricalQuantile)
    {values : List ℚ} {q : ℚ} (hvalues : values ≠ []) (hpos : 0 < q) (hlt : q < 1) :
    q * values.length ≤ values.countP (fun value => value ≤ empiricalQuantile values q) := by
  have hcount := lt_countP_of_getElem? (List.pairwise_insertionSort _ values)
    (h values q hvalues hpos hlt)
  rw [(List.perm_insertionSort _ values).countP_eq] at hcount
  have hceil : ((values.length : ℚ) - 1) * q ≤ ⌈(values.length - 1 : ℚ) * q⌉.toNat :=
    (Int.le_ceil _).trans (by exact_mod_cast Int.self_le_toNat _)
  have hsucc : (⌈(values.length - 1 : ℚ) * q⌉.toNat : ℚ) + 1 ≤
      values.countP (fun value => value ≤ empiricalQuantile values q) := by
    exact_mod_cast hcount
  linarith

/-! ### The window of dates -/

def laterDates (eligible : List (ℚ × Date)) (date : Date) : Finset Date :=
  (distinct (eligible.map Prod.snd)).filter fun other => date < other

section Positions

variable {κ : Type*} [LinearOrder κ] {ordered : List κ}

theorem card_later (hordered : ordered.Pairwise (· < ·)) (i : Fin ordered.length) :
    ((distinct ordered).filter fun other => ordered.get i < other).card =
      ordered.length - 1 - i := by
  have hmono := strictMono_get hordered
  have himage : ((distinct ordered).filter fun other => ordered.get i < other) =
      (Finset.Ioi i).image ordered.get := by
    rw [distinct_eq_image_get, Finset.filter_image]
    congr 1
    ext k
    simp only [Finset.mem_filter, Finset.mem_univ, true_and, Finset.mem_Ioi, hmono.lt_iff_lt]
  rw [himage, Finset.card_image_of_injective _ hmono.injective, Fin.card_Ioi]

theorem get_mem_drop_iff (hordered : ordered.Pairwise (· < ·)) (i : Fin ordered.length) (m : ℕ) :
    ordered.get i ∈ ordered.drop m ↔ m ≤ i := by
  constructor
  · intro h
    obtain ⟨j, hj, heq⟩ := List.getElem_of_mem h
    rw [List.length_drop] at hj
    rw [List.getElem_drop] at heq
    have hindex : (⟨m + j, by omega⟩ : Fin ordered.length) = i :=
      (strictMono_get hordered).injective heq
    have hval := congrArg Fin.val hindex
    dsimp only at hval
    omega
  · intro h
    have hi := i.isLt
    refine List.mem_of_getElem? (i := i.val - m) ?_
    rw [List.getElem?_drop, show m + (i.val - m) = i.val by omega]
    exact List.getElem?_eq_getElem i.isLt

end Positions

/-- What the window keeps has fewer than 252 later dates in the sample. -/
theorem recentResiduals_eq (eligible : List (ℚ × Date)) :
    recentResiduals eligible =
      eligible.filter fun row => (laterDates eligible row.2).card < 252 := by
  have hordered := increasing_sortedSet (eligible.map Prod.snd)
  have hlater : ∀ row ∈ eligible, ∃ i : Fin (sortedSet (eligible.map Prod.snd)).length,
      (sortedSet (eligible.map Prod.snd)).get i = row.2 ∧
        (laterDates eligible row.2).card =
          (sortedSet (eligible.map Prod.snd)).length - 1 - i := by
    intro row hrow
    obtain ⟨i, hi⟩ := List.mem_iff_get.mp
      (mem_sortedSet.mpr (List.mem_map_of_mem (f := Prod.snd) hrow))
    refine ⟨i, hi, ?_⟩
    rw [← card_later hordered i, hi]
    unfold laterDates
    congr 1
    ext a
    simp only [distinct, Finset.mem_filter, List.mem_toFinset, mem_sortedSet]
  unfold recentResiduals
  dsimp only
  split
  · rename_i hmany
    refine List.filter_congr fun row hrow => ?_
    obtain ⟨i, hi, hcard⟩ := hlater row hrow
    have hlt := i.isLt
    rw [hcard, ← hi, decide_eq_decide, get_mem_drop_iff hordered]
    omega
  · rename_i hfew
    refine (List.filter_eq_self.mpr fun row hrow => decide_eq_true ?_).symm
    obtain ⟨i, _, hcard⟩ := hlater row hrow
    have hlt := i.isLt
    omega

/-! ### Calibrated intervals -/

def maturedResiduals (horizon : ℤ) (cutoff : UtcDateTime) (rows : List ConvertedRow) :
    List (ℚ × Date) :=
  (rows.filter (·.matured horizon cutoff)).filterMap ConvertedRow.residual?

def sampleOf (horizon : ℤ) (cutoff : UtcDateTime) (rows : List ConvertedRow) : List (ℚ × Date) :=
  (maturedResiduals horizon cutoff rows).filter fun row =>
    (laterDates (maturedResiduals horizon cutoff rows) row.2).card < 252

namespace RollingConformalCalibrator

variable {empiricalQuantile : List ℚ → ℚ → ℚ} {calibrator : RollingConformalCalibrator}
  {columns : List Text} {rows : List (ResidualRow V)} {horizon : ℤ} {asOf : Option UtcDateTime}
  {result : IntervalCalibration}

/-- What is known of a table that is accepted. -/
theorem fit_eq_ok (h : calibrator.fit empiricalQuantile (.table columns rows) horizon asOf =
    .ok result) :
    ∃ cutoff converted, asOf = some cutoff ∧ convertTable columns rows = .ok converted ∧
      (result.status = .calibrated →
        result.sampleCount = (sampleOf horizon cutoff converted).length ∧
          calibrator.minimumSamples ≤ (sampleOf horizon cutoff converted).length ∧
          result.radius = some (empiricalQuantile
            ((sampleOf horizon cutoff converted).map Prod.fst) calibrator.quantile)) := by
  obtain ⟨_, _, h⟩ := bind_eq_ok_iff.mp h
  obtain ⟨cutoff, hcutoff, h⟩ := bind_eq_ok_iff.mp h
  obtain ⟨eligible, heligible, h⟩ := bind_eq_ok_iff.mp h
  obtain ⟨converted, hconverted, hmatured⟩ := bind_eq_ok_iff.mp heligible
  cases hmatured
  refine ⟨cutoff, converted, orRaise_eq_ok_iff.mp hcutoff, hconverted, fun hstatus => ?_⟩
  have hsample : recentResiduals (maturedResiduals horizon cutoff converted) =
      sampleOf horizon cutoff converted := recentResiduals_eq _
  change (if (maturedResiduals horizon cutoff converted).length < _ then _ else _) = _ at h
  split at h
  · cases h
    cases hstatus
  change (if (recentResiduals (maturedResiduals horizon cutoff converted)).length < _
    then _ else _) = _ at h
  split at h
  · cases h
    cases hstatus
  · rename_i hmany
    rw [hsample, not_lt] at hmany
    cases h
    refine ⟨congrArg List.length hsample, hmany, ?_⟩
    rw [← hsample]
    rfl

/-- Tables with the same matured rows of the horizon are calibrated alike. -/
theorem fit_congr {columns' : List Text} {rows' : List (ResidualRow V)} {cutoff : UtcDateTime}
    {converted converted' : List ConvertedRow}
    (hconverted : convertTable columns rows = .ok converted)
    (hconverted' : convertTable columns' rows' = .ok converted')
    (h : converted.filter (·.matured horizon cutoff) =
      converted'.filter (·.matured horizon cutoff)) :
    calibrator.fit empiricalQuantile (.table columns rows) horizon (some cutoff) =
      calibrator.fit empiricalQuantile (.table columns' rows') horizon (some cutoff) := by
  have heligible : eligibleResiduals (.table columns rows) horizon cutoff =
      eligibleResiduals (.table columns' rows') horizon cutoff := by
    dsimp only [eligibleResiduals]
    rw [hconverted, hconverted']
    exact congrArg (fun matured => Except.ok (List.filterMap ConvertedRow.residual? matured)) h
  unfold fit
  refine congrArg (bind _) (funext fun _ => ?_)
  change (eligibleResiduals _ _ _ >>= _) = (eligibleResiduals _ _ _ >>= _)
  rw [heligible]

/-- A calibrated radius covers as much of its sample as the quantile asks for, and rows of another
horizon or not yet matured have no part in it. -/
theorem calibrated_covers (hhigher : TakesHigher empiricalQuantile)
    (calibrator : RollingConformalCalibrator) (columns : List Text) (rows : List (ResidualRow V))
    (horizon : ℤ) (asOf : Option UtcDateTime) (result : IntervalCalibration)
    (hfit : calibrator.fit empiricalQuantile (.table columns rows) horizon asOf = .ok result) :
    ∃ cutoff converted, asOf = some cutoff ∧ convertTable columns rows = .ok converted ∧
      (result.status = .calibrated → ∃ radius, result.radius = some radius ∧
        calibrator.quantile * result.sampleCount ≤
          (sampleOf horizon cutoff converted).countP (fun row => row.1 ≤ radius) ∧
        result.sampleCount = (sampleOf horizon cutoff converted).length ∧
        calibrator.minimumSamples ≤ result.sampleCount) ∧
      ∀ (columns' : List Text) (rows' : List (ResidualRow V)) (converted' : List ConvertedRow),
        convertTable columns' rows' = .ok converted' →
        converted'.filter (·.matured horizon cutoff) =
          converted.filter (·.matured horizon cutoff) →
        calibrator.fit empiricalQuantile (.table columns' rows') horizon asOf = .ok result := by
  obtain ⟨cutoff, converted, rfl, hconverted, hcalibrated⟩ := fit_eq_ok hfit
  refine ⟨cutoff, converted, rfl, hconverted, fun hstatus => ?_, ?_⟩
  · obtain ⟨hcount, hminimum, hradius⟩ := hcalibrated hstatus
    have hsome : (sampleOf horizon cutoff converted).map Prod.fst ≠ [] := by
      intro hnil
      have hlength := calibrator.minimumSamples_pos.trans hminimum
      rw [← List.length_map (f := Prod.fst), hnil] at hlength
      exact absurd hlength (by decide)
    have hcovers := hhigher.covers hsome calibrator.quantile_range.1 calibrator.quantile_range.2
    rw [List.length_map, List.countP_map] at hcovers
    refine ⟨_, hradius, ?_, hcount, hcount ▸ hminimum⟩
    rw [hcount]
    exact hcovers
  · intro columns' rows' converted' hconverted' hsame
    rw [fit_congr hconverted' hconverted hsame, hfit]

end RollingConformalCalibrator

/-! ### A small table -/

/-- The value of the sorted sample at the position of the quantile, rounded up. -/
def higherValue (values : List ℚ) (q : ℚ) : ℚ :=
  (values.insertionSort (· ≤ ·)).getD ⌈(values.length - 1 : ℚ) * q⌉.toNat 0

theorem takesHigher_higherValue : TakesHigher higherValue := by
  intro values q hvalues hpos hlt
  have hlength : 0 < values.length := List.length_pos_iff.mpr hvalues
  have hsample : (0 : ℚ) ≤ values.length - 1 := by
    have hone : (1 : ℚ) ≤ values.length := by exact_mod_cast hlength
    linarith
  have hceil : ⌈(values.length - 1 : ℚ) * q⌉ ≤ (values.length : ℤ) - 1 := by
    rw [Int.ceil_le]
    push_cast
    exact mul_le_of_le_one_right hsample hlt.le
  have hindex : ⌈(values.length - 1 : ℚ) * q⌉.toNat < (values.insertionSort (· ≤ ·)).length := by
    rw [List.length_insertionSort]
    omega
  rw [higherValue, List.getD_eq_getElem?_getD, List.getElem?_eq_getElem hindex]
  rfl

/-- Cells that need no conversion. -/
inductive PlainCell where
  | instant (value : Option ℤ)
  | date (value : Option Date)
  | number (value : Number)
  | int (value : ℤ)

instance : CalibrationCells PlainCell where
  instant
    | .instant value => .ok value
    | _ => .error "not a time"
  date
    | .date value => .ok value
    | _ => .error "not a date"
  number
    | .number value => .ok value
    | _ => .error "not a number"
  int
    | .int value => .ok value
    | _ => .error "not an integer"

def dayStart (n : ℕ) (h : 1 ≤ n ∧ n ≤ 31) : UtcDateTime where
  date := ⟨2026, 1, n, year2026_range, january_range, h⟩
  hour := 0
  minute := 0
  second := 0
  microsecond := 0

def plainRow (residual : ℚ) (horizon : ℤ) (t : UtcDateTime) : ResidualRow PlainCell where
  absoluteResidual := .number (.finite residual)
  horizonDays := .int horizon
  maturedAt := .instant (some (nanoseconds t))
  maturityDate := .date (some t.date)

open RollingConformalCalibrator in
/-- Two matured residuals of the horizon are a sample, which a residual of the next day is no part
of. -/
theorem two_residuals_covered :
    let calibrator : RollingConformalCalibrator := ⟨2, 1 / 2, by decide, by norm_num⟩
    let first := dayStart 1 (by decide)
    let second := dayStart 2 (by decide)
    let third := dayStart 3 (by decide)
    ∃ radius, calibrator.fit higherValue (.table requiredColumns
        [plainRow 3 5 first, plainRow 9 10 first, plainRow 1 5 second, plainRow 7 5 third]) 5
        (some second) = .ok ⟨.calibrated, 2, some radius, 5, second⟩ ∧
      calibrator.fit higherValue (.table requiredColumns
        [plainRow 3 5 first, plainRow 1 5 second]) 5 (some second) =
          .ok ⟨.calibrated, 2, some radius, 5, second⟩ := by
  intro calibrator first second third
  have hfit : calibrator.fit higherValue (.table requiredColumns
      [plainRow 3 5 first, plainRow 9 10 first, plainRow 1 5 second, plainRow 7 5 third]) 5
      (some second) = .ok ⟨.calibrated, 2, some 3, 5, second⟩ := by decide +kernel
  obtain ⟨cutoff, converted, hcutoff, hconverted, _, hothers⟩ :=
    calibrated_covers takesHigher_higherValue calibrator _ _ _ _ _ hfit
  cases hcutoff
  refine ⟨3, hfit, hothers _ _ _ rfl ?_⟩
  cases hconverted
  decide +kernel

end QuantWorkbench.Research
