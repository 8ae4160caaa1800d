import QuantWorkbench.Data.Normalization
import QuantWorkbench.Lib.Calendar
import QuantWorkbench.Lib.Fallible
import QuantWorkbench.Lib.Keyed

/-!
The contracts of `strategies/contracts.py` and `contracts/stage3.py` that the portfolio strategies
read and write: signals in, target weights out. Numbers are exact rationals, or one of the three
floats that are none.
-/

namespace QuantWorkbench.Strategies

open Lib Data

/-- A float: a number, or one that is not finite. -/
inductive Number where
  | nan
  | posInf
  | negInf
  | finite (value : ℚ)
  deriving DecidableEq

/-- The value, if `math.isfinite` holds. -/
def Number.finite? : Number → Option ℚ
  | .finite value => some value
  | _ => none

/-- An identifier in any spelling that `normalize_symbol` accepts. -/
structure SymbolText where
  text : Text
  symbol : Symbol
  normalized : normalizeSymbol text = some symbol

/-! ### Signals -/

/-- The columns of a signal row that the strategies read. A date that cannot be read is `none`,
and so is a flag that is missing. -/
structure SignalRow where
  date : Option Date
  symbol : SymbolText
  rawScore : Number
  isSuspended : Option Bool
  isTradable : Option Bool

/-- A frame of signals with the columns of the contract; the two flags are optional columns. -/
structure SignalFrame where
  rows : List SignalRow
  hasSuspended : Bool
  hasTradable : Bool

/-- The dates of an `ExecutionSpec`. -/
structure ExecutionSpec where
  signalDate : Date
  executionDate : Date

/-! ### Portfolio specifications -/

inductive RankMode where
  | linear
  | inverseRank
  deriving DecidableEq

def RankMode.value : RankMode → Text
  | .linear => "linear".toList
  | .inverseRank => "inverse_rank".toList

def RankMode.ofText? (text : Text) : Option RankMode :=
  if text = "linear".toList then some .linear
  else if text = "inverse_rank".toList then some .inverseRank
  else none

@[simp] theorem RankMode.ofText?_value (mode : RankMode) : ofText? mode.value = some mode := by
  cases mode
  · rfl
  · rfl

/-- The tolerance with which exposure and cash must fit into the capital. -/
def capitalTolerance : ℚ := 1 / 10 ^ 12

structure PortfolioSpec where
  topK : ℕ
  targetGrossExposure : ℚ
  maxSinglePosition : ℚ
  maxPositions : ℕ
  cashBuffer : ℚ
  rankWeightMode : RankMode
  nDrop : ℕ
  topK_pos : 0 < topK
  maxPositions_pos : 0 < maxPositions
  exposure_range : 0 ≤ targetGrossExposure ∧ targetGrossExposure ≤ 1
  single_range : 0 < maxSinglePosition ∧ maxSinglePosition ≤ 1
  cash_range : 0 ≤ cashBuffer ∧ cashBuffer ≤ 1
  fits : targetGrossExposure + cashBuffer ≤ 1 + capitalTolerance

namespace PortfolioSpec

def limit (spec : PortfolioSpec) : ℕ := min spec.topK spec.maxPositions

def checkShare (name : String) (value : Number) :
    Except String {share : ℚ // 0 ≤ share ∧ share ≤ 1} :=
  match value with
  | .finite share =>
      if h : 0 ≤ share ∧ share ≤ 1 then .ok ⟨share, h⟩
      else .error s!"{name} must be between 0 and 1"
  | _ => .error s!"{name} must be between 0 and 1"

/-- `PortfolioSpec.__post_init__`. -/
def make (topK : ℤ) (targetGrossExposure maxSinglePosition : Number) (maxPositions : ℤ)
    (cashBuffer : Number) (rankWeightMode : Text) (nDrop : ℤ) : Except String PortfolioSpec := do
  if hcounts : topK < 1 ∨ maxPositions < 1 then
    .error "top_k and max_positions must be positive"
  else if nDrop < 0 then
    .error "n_drop must be non-negative"
  else
    let exposure ← checkShare "target_gross_exposure" targetGrossExposure
    let single ← checkShare "max_single_position" maxSinglePosition
    let cash ← checkShare "cash_buffer" cashBuffer
    if hfits : 1 + capitalTolerance < exposure.1 + cash.1 then
      .error "target_gross_exposure and cash_buffer exceed total capital"
    else if hsingle : single.1 ≤ 0 then
      .error "max_single_position must be positive"
    else
      let mode ← orRaise (RankMode.ofText? rankWeightMode)
        "rank_weight_mode must be linear or inverse_rank"
      .ok {
        topK := topK.toNat
        targetGrossExposure := exposure.1
        maxSinglePosition := single.1
        maxPositions := maxPositions.toNat
        cashBuffer := cash.1
        rankWeightMode := mode
        nDrop := nDrop.toNat
        topK_pos := by omega
        maxPositions_pos := by omega
        exposure_range := exposure.2
        single_range := ⟨not_le.mp hsingle, single.2.2⟩
        cash_range := cash.2
        fits := not_lt.mp hfits }

theorem checkShare_ok {name : String} {share : ℚ} (h : 0 ≤ share ∧ share ≤ 1) :
    checkShare name (.finite share) = .ok ⟨share, h⟩ := by
  rw [checkShare, dif_pos h]

/-- The same specification with another exposure, and the rest of the capital as cash. -/
theorem make_remaining (spec : PortfolioSpec) {remaining : ℚ} (h : 0 ≤ remaining ∧ remaining ≤ 1) :
    ∃ inner : PortfolioSpec, make spec.topK (.finite remaining) (.finite spec.maxSinglePosition)
        spec.maxPositions (.finite (max 0 (1 - remaining))) spec.rankWeightMode.value spec.nDrop =
          .ok inner ∧
      inner.targetGrossExposure = remaining ∧
        inner.maxSinglePosition = spec.maxSinglePosition := by
  have hcash : max 0 (1 - remaining) = 1 - remaining := max_eq_right (by linarith [h.2])
  have hcounts : ¬ ((spec.topK : ℤ) < 1 ∨ (spec.maxPositions : ℤ) < 1) := by
    have htop := spec.topK_pos
    have hmax := spec.maxPositions_pos
    omega
  have hdrop : ¬ ((spec.nDrop : ℤ) < 0) := by omega
  have hshare : 0 ≤ 1 - remaining ∧ 1 - remaining ≤ 1 := ⟨by linarith [h.2], by linarith [h.1]⟩
  have hsingle := spec.single_range
  have hfits : ¬ (1 + capitalTolerance < remaining + (1 - remaining)) := by
    unfold capitalTolerance
    norm_num
  rw [hcash, make, dif_neg hcounts, if_neg hdrop, checkShare_ok h,
    checkShare_ok ⟨hsingle.1.le, hsingle.2⟩, checkShare_ok hshare]
  simp only [bind, Except.bind, RankMode.ofText?_value, orRaise, dif_neg hfits,
    dif_neg (not_le.mpr hsingle.1)]
  exact ⟨_, rfl, rfl, rfl⟩

end PortfolioSpec

/-! ### Targets -/

structure PortfolioTarget where
  date : Date
  symbol : Symbol
  targetWeight : ℚ
  sourceStrategy : String
  rebalanceReason : String
  deriving DecidableEq

/-- `PortfolioTarget.__post_init__`; a symbol that is normalized stays as it is. -/
def PortfolioTarget.make (date : Date) (symbol : Symbol) (targetWeight : ℚ)
    (sourceStrategy rebalanceReason : String) : Except String PortfolioTarget := do
  require (sourceStrategy ≠ "" ∧ rebalanceReason ≠ "")
    "source_strategy and rebalance_reason are required"
  require (0 ≤ targetWeight ∧ targetWeight ≤ 1) "target_weight must be between 0 and 1"
  .ok ⟨date, symbol, targetWeight, sourceStrategy, rebalanceReason⟩

end QuantWorkbench.Strategies
