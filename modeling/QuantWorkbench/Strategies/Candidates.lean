import QuantWorkbench.Lib.Shares
import QuantWorkbench.Strategies.Contracts

/-!
The portfolio strategies of `strategies/candidates.py`. They rank the signals of a day alike and
differ in how they allot the exposure to what is ranked.
-/

namespace QuantWorkbench.Strategies

open Lib Data

/-! ### Candidates -/

structure Candidate where
  symbol : Symbol
  rawScore : ℚ
  deriving DecidableEq

/-- The best score comes first; equal scores are ordered by their symbols. -/
def ranksBefore (a b : Candidate) : Prop :=
  b.rawScore < a.rawScore ∨ a.rawScore = b.rawScore ∧ a.symbol.text ≤ b.symbol.text

instance : DecidableRel ranksBefore := fun a b =>
  inferInstanceAs (Decidable (b.rawScore < a.rawScore ∨
    a.rawScore = b.rawScore ∧ a.symbol.text ≤ b.symbol.text))

/-- The filters of `_candidate_frame` after the one for the date. -/
def SignalFrame.accepts (frame : SignalFrame) (row : SignalRow) : Bool :=
  row.rawScore.finite?.isSome && (!frame.hasSuspended || !row.isSuspended.getD false) &&
    (!frame.hasTradable || row.isTradable.getD false)

/-- `drop_duplicates("symbol", keep="first")`. -/
def keepFirst (candidates : List Candidate) : Keyed Candidate.symbol :=
  candidates.foldl (fun kept candidate =>
    if candidate.symbol ∈ kept.keys then kept else kept.put candidate) .empty

def SignalRow.candidate? (row : SignalRow) : Option Candidate :=
  row.rawScore.finite?.map fun score => ⟨row.symbol.symbol, score⟩

def candidateFrame (frame : SignalFrame) (execution : ExecutionSpec) (spec : PortfolioSpec) :
    Except String (List Candidate) := do
  let selected := frame.rows.filter fun row => row.date = some execution.signalDate
  require (selected ≠ []) "signal frame has no rows for execution_spec.signal_date"
  let active := (selected.filter frame.accepts).filterMap SignalRow.candidate?
  .ok (((keepFirst active).values.insertionSort ranksBefore).take spec.limit)

/-! ### Allocations -/

/-- A dictionary of weights by symbol. -/
abbrev Allocation := Keyed (Prod.fst : Symbol × ℚ → Symbol)

def Allocation.ofPairs (pairs : List (Symbol × ℚ)) : Allocation := pairs.foldl Keyed.put .empty

namespace Allocation

def total (allocation : Allocation) : ℚ := (allocation.values.map (·.2)).sum

/-- The positive weights. -/
def clean (allocation : Allocation) : Allocation := allocation.filter fun entry => 0 < entry.2

/-- Another weight for each symbol. -/
def mapWeights (f : ℚ → ℚ) (allocation : Allocation) : Allocation :=
  allocation.map (fun entry => (entry.1, f entry.2)) fun _ => rfl

end Allocation

/-- `_capped_weights`. Its symbols are normalized already. -/
def cappedWeights (allocation : Allocation) (spec : PortfolioSpec) : Allocation :=
  if allocation.clean.values = [] ∨ spec.targetGrossExposure = 0 then .empty
  else
    allocation.clean.mapWeights fun weight => min spec.maxSinglePosition
      (weight * (spec.targetGrossExposure / allocation.clean.total))

def inSymbolOrder (a b : Symbol) : Prop := a.text ≤ b.text

instance : DecidableRel inSymbolOrder := fun a b => inferInstanceAs (Decidable (a.text ≤ b.text))

def strategyVersion : String := "stage3b-v1"

def makeTargets (weights : Allocation) (execution : ExecutionSpec) (strategyId reason : String) :
    Except String (List PortfolioTarget) :=
  ((weights.values.insertionSort fun a b => inSymbolOrder a.1 b.1).filter fun entry => 0 < entry.2).mapM fun entry =>
    PortfolioTarget.make execution.executionDate entry.1 entry.2
      s!"{strategyId}:{strategyVersion}" reason

/-! ### Strategies -/

def topKEqualWeight (frame : SignalFrame) (spec : PortfolioSpec) (execution : ExecutionSpec) :
    Except String (List PortfolioTarget) := do
  let candidates ← candidateFrame frame execution spec
  let allocation := Allocation.ofPairs (candidates.map fun candidate => (candidate.symbol, 1))
  makeTargets (cappedWeights allocation spec) execution "topk_equal_weight" "top_k_equal_weight"

/-- `np.clip(score, -1e12, 1e12)`. -/
def clipScore (score : ℚ) : ℚ := min (max score (-10 ^ 12)) (10 ^ 12)

/-- The positive weights that are proportional to the scores. `np.min` raises on no scores. -/
def stableScores (rawScores : List ℚ) : Except String (List ℚ) := do
  let scores := rawScores.map clipScore
  let lowest ← orRaise scores.min?
    "zero-size array to reduction operation minimum which has no identity"
  let shifted := scores.map (· - lowest)
  let span ← orRaise shifted.max?
    "zero-size array to reduction operation maximum which has no identity"
  if span ≤ 1 / 10 ^ 12 then .ok (scores.map fun _ => 1)
  else .ok (shifted.map (· + max (span * (1 / 10 ^ 6)) (1 / 10 ^ 12)))

def topKScoreWeight (frame : SignalFrame) (spec : PortfolioSpec) (execution : ExecutionSpec) :
    Except String (List PortfolioTarget) := do
  let candidates ← candidateFrame frame execution spec
  let scores ← stableScores (candidates.map (·.rawScore))
  let allocation := Allocation.ofPairs ((candidates.map (·.symbol)).zip scores)
  makeTargets (cappedWeights allocation spec) execution "topk_score_weight" "top_k_score_weight"

def RankMode.weight (mode : RankMode) (count index : ℕ) : ℚ :=
  match mode with
  | .linear => ((count - index : ℕ) : ℚ)
  | .inverseRank => 1 / (index + 1)

def effectiveMode (weightMode : Option Text) (spec : PortfolioSpec) : Text :=
  match weightMode with
  | none | some [] => spec.rankWeightMode.value
  | some mode => mode

def rankWeighted (weightMode : Option Text) (frame : SignalFrame) (spec : PortfolioSpec)
    (execution : ExecutionSpec) : Except String (List PortfolioTarget) := do
  let candidates ← candidateFrame frame execution spec
  let mode ← orRaise (RankMode.ofText? (effectiveMode weightMode spec))
    "weight_mode must be linear or inverse_rank"
  let weights := (List.range candidates.length).map (mode.weight candidates.length)
  let allocation := Allocation.ofPairs ((candidates.map (·.symbol)).zip weights)
  makeTargets (cappedWeights allocation spec) execution "rank_weighted"
    s!"rank_weighted_{String.ofList mode.value}"

/-! ### Dropout -/

/-- The positions in force: the positive finite ones. -/
def currentPositions (positions : List (SymbolText × Number)) : Allocation :=
  Allocation.ofPairs (positions.filterMap fun entry =>
    match entry.2.finite? with
    | some weight => if 0 < weight then some (entry.1.symbol, weight) else none
    | none => none)

def Allocation.weight (allocation : Allocation) (symbol : Symbol) : ℚ :=
  ((allocation.get? symbol).map (·.2)).getD 0

/-- The order of `key=lambda symbol: (-current[symbol], symbol)`. -/
def heavierFirst (current : Allocation) (a b : Symbol) : Prop :=
  current.weight b < current.weight a ∨ current.weight a = current.weight b ∧ a.text ≤ b.text

/-- The order of `key=lambda symbol: (current[symbol], symbol)`. -/
def lighterFirst (current : Allocation) (a b : Symbol) : Prop :=
  current.weight a < current.weight b ∨ current.weight a = current.weight b ∧ a.text ≤ b.text

instance (current : Allocation) : DecidableRel (heavierFirst current) := fun a b =>
  inferInstanceAs (Decidable (current.weight b < current.weight a ∨
    current.weight a = current.weight b ∧ a.text ≤ b.text))

instance (current : Allocation) : DecidableRel (lighterFirst current) := fun a b =>
  inferInstanceAs (Decidable (current.weight a < current.weight b ∨
    current.weight a = current.weight b ∧ a.text ≤ b.text))

/-- The heaviest positions, as many as the limit allows. -/
def heldSymbols (spec : PortfolioSpec) (current : Allocation) : List Symbol :=
  if spec.limit < current.keys.length then
    (current.keys.insertionSort (heavierFirst current)).take spec.limit
  else current.keys

def staleSymbols (spec : PortfolioSpec) (current : Allocation) (ranked : List Symbol) :
    List Symbol :=
  ((heldSymbols spec current).filter fun symbol => symbol ∉ ranked).insertionSort
    (lighterFirst current)

/-- The held symbols without those that are dropped. -/
def keptSymbols (spec : PortfolioSpec) (current : Allocation) (ranked : List Symbol) :
    List Symbol :=
  if spec.limit ≤ (heldSymbols spec current).length then
    (heldSymbols spec current).filter fun symbol =>
      symbol ∉ (staleSymbols spec current ranked).take
        (min spec.nDrop (staleSymbols spec current ranked).length)
  else heldSymbols spec current

def fillPlaces (limit : ℕ) : List Symbol → List Symbol → List Symbol
  | desired, [] => desired
  | desired, symbol :: ranked =>
      if limit ≤ desired.length then desired else fillPlaces limit (desired.insert symbol) ranked

/-- The weights of the desired symbols that are held already. The order in which a set is gone
through does not matter: the weights are summed and sorted. -/
def retainedWeights (spec : PortfolioSpec) (current : Allocation) (desired : List Symbol) :
    Allocation :=
  Allocation.mapWeights (min · spec.maxSinglePosition)
    (current.filter fun entry => entry.1 ∈ desired)

/-- The retained weights, scaled down to the exposure if they exceed it. -/
def fittedWeights (spec : PortfolioSpec) (retained : Allocation) : Allocation :=
  if spec.targetGrossExposure < retained.total ∧ 0 < retained.total then
    retained.mapWeights (· * (spec.targetGrossExposure / retained.total))
  else retained

def newWeights (spec : PortfolioSpec) (retained : Allocation) (desired : List Symbol) :
    Except String Allocation := do
  let newSymbols := (desired.filter fun symbol => symbol ∉ retained.keys).insertionSort
    inSymbolOrder
  let remaining := max 0 (spec.targetGrossExposure - retained.total)
  if newSymbols = [] then .ok .empty
  else
    let inner ← PortfolioSpec.make spec.topK (.finite remaining) (.finite spec.maxSinglePosition)
      spec.maxPositions (.finite (max 0 (1 - remaining))) spec.rankWeightMode.value spec.nDrop
    .ok (cappedWeights (Allocation.ofPairs (newSymbols.map fun symbol => (symbol, 1))) inner)

def topKDropout (frame : SignalFrame) (spec : PortfolioSpec) (execution : ExecutionSpec)
    (positions : List (SymbolText × Number)) : Except String (List PortfolioTarget) := do
  let candidates ← candidateFrame frame execution spec
  let ranked := candidates.map (·.symbol)
  let current := currentPositions positions
  let desired := fillPlaces spec.limit (keptSymbols spec current ranked) ranked
  let retained := fittedWeights spec (retainedWeights spec current desired)
  let added ← newWeights spec retained desired
  makeTargets (added.values.foldl Keyed.put retained) execution "topk_dropout" "top_k_dropout"

/-- The strategies with what they are made with. -/
inductive PortfolioStrategy where
  | topKEqualWeight
  | topKScoreWeight
  | rankWeighted (weightMode : Option Text)
  | topKDropout

def PortfolioStrategy.generateTargets (strategy : PortfolioStrategy) (frame : SignalFrame)
    (spec : PortfolioSpec) (execution : ExecutionSpec) (positions : List (SymbolText × Number)) :
    Except String (List PortfolioTarget) :=
  match strategy with
  | .topKEqualWeight => Strategies.topKEqualWeight frame spec execution
  | .topKScoreWeight => Strategies.topKScoreWeight frame spec execution
  | .rankWeighted weightMode => Strategies.rankWeighted weightMode frame spec execution
  | .topKDropout => Strategies.topKDropout frame spec execution positions

end QuantWorkbench.Strategies
