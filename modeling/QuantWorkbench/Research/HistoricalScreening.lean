import QuantWorkbench.Backtest.ReferenceEngine
import QuantWorkbench.Lib.Columns
import QuantWorkbench.Research.ScreeningInputs

/-!
The historical screen. A candidate is scored on the validation and the test window of each fold,
from the features of the window and the training rows of the fold whose labels had matured.
-/

namespace QuantWorkbench.Research.Screening

open Lib
open Backtest (CostModel)

structure ScreeningConfig where
  trainSessions : ℕ
  validationSessions : ℕ
  embargoSessions : ℕ
  testSessions : ℕ
  minimumOosWindows : ℕ
  roundTripCost : ℚ
  topK : ℕ
  trainSessions_pos : 0 < trainSessions
  validationSessions_pos : 0 < validationSessions
  embargoSessions_pos : 0 < embargoSessions
  testSessions_pos : 0 < testSessions
  minimumOosWindows_min : 3 ≤ minimumOosWindows
  roundTripCost_nonneg : 0 ≤ roundTripCost
  topK_pos : 0 < topK

/-! ### Folds -/

structure ScreeningFold where
  index : ℕ
  trainStart : Date
  trainEnd : Date
  validationStart : Date
  validationEnd : Date
  embargoStart : Date
  embargoEnd : Date
  testStart : Date
  testEnd : Date

def ScreeningConfig.span (config : ScreeningConfig) : ℕ :=
  config.trainSessions + config.validationSessions + config.embargoSessions + config.testSessions

def foldAt (config : ScreeningConfig) (ordered : List Date) (start index : ℕ)
    (h : start + config.span ≤ ordered.length) : ScreeningFold :=
  have hspan : start + (config.trainSessions + config.validationSessions + config.embargoSessions +
    config.testSessions) ≤ ordered.length := h
  have htrain := config.trainSessions_pos
  have hvalidation := config.validationSessions_pos
  have hembargo := config.embargoSessions_pos
  have htest := config.testSessions_pos
  let trainEnd := start + config.trainSessions
  let validationEnd := trainEnd + config.validationSessions
  let embargoEnd := validationEnd + config.embargoSessions
  { index
    trainStart := ordered.get ⟨start, by omega⟩
    trainEnd := ordered.get ⟨trainEnd - 1, by omega⟩
    validationStart := ordered.get ⟨trainEnd, by omega⟩
    validationEnd := ordered.get ⟨validationEnd - 1, by omega⟩
    embargoStart := ordered.get ⟨validationEnd, by omega⟩
    embargoEnd := ordered.get ⟨embargoEnd - 1, by omega⟩
    testStart := ordered.get ⟨embargoEnd, by omega⟩
    testEnd := ordered.get ⟨start + (config.trainSessions + config.validationSessions +
      config.embargoSessions + config.testSessions) - 1, by omega⟩ }

/-- The loop of `_make_folds`. -/
def foldsFrom (config : ScreeningConfig) (ordered : List Date) (start index : ℕ) :
    List ScreeningFold :=
  if h : start + config.span ≤ ordered.length then
    foldAt config ordered start index h ::
      foldsFrom config ordered (start + config.testSessions) (index + 1)
  else []
termination_by ordered.length + 1 - start
decreasing_by
  have := config.testSessions_pos
  omega

def makeFolds (config : ScreeningConfig) (dates : List Date) : List ScreeningFold :=
  foldsFrom config (sortedSet dates) 0 0

/-! ### Candidates -/

/-- A cell of a merged frame. -/
inductive Cell where
  | raw (cell : RawCell)
  | text (value : Text)
  | day (value : Option Date)
  | number (value : ℚ)
  | flag (value : Bool)

def Cell.reading : Cell → Reading
  | raw cell => cell.number
  | number value => .finite value
  | flag value => .finite (if value then 1 else 0)
  | text _ => .missing
  | day _ => .missing

/-- What a scorer is given: the names of the columns, and the cells of each row in their order. -/
structure VisibleFrame where
  columns : List Text
  rows : List (List Cell)

/-- A scorer, by the number of its parameters, with the series made of what it returns. -/
inductive Scorer where
  | ofTarget (score : VisibleFrame → Except String (List Reading))
  | ofBoth (score : VisibleFrame → VisibleFrame → Except String (List Reading))

structure HistoricalCandidate where
  modelFamily : Text
  /-- The number in `parameters["direction"]`, or 1.0. -/
  direction : Except String Reading
  scoreColumn : Option Text
  scorer : Option Scorer

def ruleFamilies : List Text := ["rule-baseline".toList, "rule".toList, "momentum".toList]

def logisticFamilies : List Text :=
  ["sklearn-logistic".toList, "logistic".toList, "portable-logistic".toList]

def optionalFamilies : List Text :=
  ["lightgbm".toList, "qlib".toList, "qlib-double-ensemble".toList]

def callScorer (scorer : Scorer) (target train : VisibleFrame) : Except String (List Reading) :=
  match scorer with
  | .ofTarget score => score target
  | .ofBoth score => score target train

/-! ### Merged frames -/

structure MergedRow where
  symbol : Text
  session : Option Date
  cells : Text → RawCell
  label : ℚ
  maturity : Maturity

structure MergedFrame where
  columns : List Text
  numeric : Text → Bool
  rows : List MergedRow

def symbolColumn : Text := "symbol".toList
def sessionColumn : Text := "_session_date".toList
def labelColumn : Text := "_label".toList
def maturityColumn : Text := "_maturity_date".toList
def errorColumn : Text := "_maturity_error".toList
def closeColumn : Text := "close".toList

def MergedRow.cell (row : MergedRow) (column : Text) : Cell :=
  if column = symbolColumn then .text row.symbol
  else if column = sessionColumn then .day row.session
  else if column = labelColumn then .number row.label
  else if column = maturityColumn then .day row.maturity.date
  else if column = errorColumn then .flag row.maturity.error
  else .raw (row.cells column)

/-- The columns that `_feature_columns` leaves out by their names. -/
def blockedColumns : List Text :=
  [symbolColumn, "date".toList, "signal_date".toList, "available_at".toList, sessionColumn,
    labelColumn] ++ realizedLabelColumns

def featureColumns (columns : List Text) (numeric : Text → Bool)
    (candidate : HistoricalCandidate) : Except String (List Text) :=
  match candidate.scoreColumn with
  | some column => do
      require (column ∈ columns) "missing score column"
      require (isRealizedLabelColumn column = false) "score column cannot be a realized label"
      return [column]
  | none => do
      let named := columns.filter fun column =>
        column ∉ blockedColumns ∧ isRealizedLabelColumn column = false ∧
          ¬ "forward_".toList <+: column ∧ ¬ "label".toList <+: column
      let found := (sortValues id named).filter numeric
      require (found ≠ []) "features contain no numeric feature columns"
      return found

def joined (labels : List LabelRow) (row : FeatureRow) : Option MergedRow :=
  (labels.find? fun label => label.key = row.key).map fun label =>
    ⟨row.symbol, row.session, row.cells, label.label, label.maturity⟩

/-- A column that both sides of a merge have gets a suffix. -/
def suffixed (suffix : Text) (others : List Text) (column : Text) : Text :=
  if column ∈ others then column ++ suffix else column

def MergedRow.sessionOrder (row : MergedRow) : WithTop Date := row.session

def MergedRow.order (row : MergedRow) : WithTop Date ×ₗ Text := toLex (row.sessionOrder, row.symbol)

def MergedRow.scoreOrder (entry : MergedRow × ℚ) : WithTop Date ×ₗ (ℚ ×ₗ Text) :=
  toLex (entry.1.sessionOrder, toLex (-entry.2, entry.1.symbol))

def mergeFeaturesLabels (features : Features) (labels : List LabelRow)
    (candidate : HistoricalCandidate) : Except String MergedFrame := do
  let found ← featureColumns (features.columns ++ [sessionColumn]) features.numeric candidate
  let merged := if closeColumn ∈ features.columns ∧ closeColumn ∉ found then
    found ++ [closeColumn] else found
  if labels = [] then return ⟨[], fun _ => false, []⟩
  require (symbolColumn ∉ merged) "The column label 'symbol' is not unique."
  require (sessionColumn ∉ merged) "The column label '_session_date' is not unique."
  require ((features.rows.map FeatureRow.key).Nodup)
    "Merge keys are not unique in left dataset; not a one-to-one merge"
  require ((labels.map LabelRow.key).Nodup)
    "Merge keys are not unique in right dataset; not a one-to-one merge"
  let right := [labelColumn, maturityColumn, errorColumn]
  return {
    columns := [symbolColumn, sessionColumn] ++ merged.map (suffixed "_x".toList right) ++
      right.map (suffixed "_y".toList merged)
    numeric := fun column => column = labelColumn ∨ column = errorColumn ∨
      (column ∈ merged ∧ features.numeric column)
    rows := sortValues MergedRow.order (features.rows.filterMap (joined labels)) }

/-- `between(start, end, inclusive="both")`. -/
def MergedRow.inWindow (first last : Date) (row : MergedRow) : Bool :=
  row.session.any fun session => first ≤ session ∧ session ≤ last

def matureTrainingLabels (columns : List Text) (rows : List MergedRow) (trainEnd : Date) :
    Except String (List MergedRow) := do
  require (maturityColumn ∈ columns) "'_maturity_date'"
  require (errorColumn ∈ columns) "'_maturity_error'"
  require (∀ row ∈ rows, row.maturity.error = false ∧ row.maturity.date.isSome)
    "unknown label maturity at training boundary"
  return rows.filter fun row => row.maturity.date.any fun date => date ≤ trainEnd

def withoutRealizedLabels (columns : List Text) (rows : List MergedRow) : VisibleFrame :=
  let visible := columns.filter fun column => isRealizedLabelColumn column = false
  ⟨visible, rows.map fun row => visible.map row.cell⟩

/-! ### Scores -/

section Scores

variable [SquareRoot ℚ]

/-- A column of the target on the scale of the training column. A column of the training rows with
an infinite value has no scale. -/
def standardized (train target : List Reading) : List (Option ℚ) :=
  match train.mapM Reading.finite? with
  | none => target.map fun _ => none
  | some values =>
      let scale := if std 0 values = 0 then 1 else std 0 values
      target.map fun reading => reading.finite?.map fun value => (value - mean values) / scale

def readings (found : List Text) (rows : List MergedRow) : List (List Reading) :=
  found.map fun column => rows.map fun row => (row.cell column).reading

/-- Columns on the scale of the training columns, if each value is finite. -/
def standardizedColumns (train target : List (List Reading)) : Option (List (List ℚ)) :=
  (List.zipWith standardized train target).mapM fun column => column.mapM id

/-- The product with the direction of a rule. -/
def directed (direction : Reading) (value : Option ℚ) : Reading :=
  match direction, value with
  | .finite direction, some value => .finite (value * direction)
  | _, _ => .missing

/-- A fitted classifier: the probabilities of the rows of some columns. -/
abbrev Classifier := List (List ℚ) → List Reading

variable (fit : ℕ → List (List ℚ) → List Bool → Except String Classifier)

def rawScores (candidate : HistoricalCandidate) (columns found : List Text)
    (train target : List MergedRow) (seed : ℕ) : Except String (List Reading) :=
  match candidate.scorer with
  | some scorer => do
      let values ← callScorer scorer (withoutRealizedLabels columns target)
        (withoutRealizedLabels columns train)
      let repeatValues ← callScorer scorer (withoutRealizedLabels columns target)
        (withoutRealizedLabels columns train)
      require (values = repeatValues) "reproducibility failure"
      return values
  | none =>
      if candidate.modelFamily ∈ ruleFamilies then do
        let direction ← candidate.direction
        let first := (List.zipWith standardized (readings found train) (readings found target))
          |>.headD []
        return first.map (directed direction)
      else if candidate.modelFamily ∈ logisticFamilies then do
        let trainColumns ← orRaise
          (standardizedColumns (readings found train) (readings found train))
          "Input X contains infinity or a value too large for dtype('float64')."
        let model ← fit seed trainColumns (train.map fun row => decide (0 < row.label))
        let targetColumns ← orRaise
          (standardizedColumns (readings found train) (readings found target))
          "Input X contains infinity or a value too large for dtype('float64')."
        return model targetColumns
      else if candidate.modelFamily ∈ optionalFamilies then
        .error "optional adapter is not enabled in this lightweight screen"
      else .error "unsupported model family"

def scores (candidate : HistoricalCandidate) (frame : MergedFrame) (train target : List MergedRow)
    (seed : ℕ) : Except String (List ℚ) := do
  require (target ≠ []) "evaluation window has no rows"
  require (train ≠ []) "training labels are unavailable"
  let found ← featureColumns frame.columns frame.numeric candidate
  require (∀ column ∈ readings found train ++ readings found target, ∀ reading ∈ column,
    reading ≠ .missing) "feature contains non-numeric or missing values"
  let values ← rawScores fit candidate frame.columns found train target seed
  require (values.length = target.length) "candidate produced invalid scores"
  orRaise (values.mapM Reading.finite?) "candidate produced invalid scores"

/-! ### Costs -/

/-- The rows of the test window with the best scores of each session. -/
def selectedRows (topK : ℕ) (rows : List (MergedRow × ℚ)) : List (MergedRow × ℚ) :=
  let sorted := sortValues MergedRow.scoreOrder rows
  (sorted.map fun entry => entry.1.session).dedup.flatMap fun session =>
    (sorted.filter fun entry => entry.1.session = session).take topK

/-- A number above zero, or infinity. -/
def Reading.positive : Reading → Bool
  | .finite value => 0 < value
  | .infinite negative => !negative
  | .missing => false

def rowCostRate (config : ScreeningConfig) (costModel : CostModel) (price quantity : Reading) :
    Except String ℚ := do
  require (price.positive ∧ quantity.positive)
    "cost data unavailable: invalid unadjusted price or quantity"
  let quantity ← orRaise quantity.finite? "quantity must be finite and non-negative"
  let filled ← costModel.fillableQuantity quantity
  let price ← orRaise price.finite? "price must be finite and positive"
  let buy ← costModel.estimate .buy price (max costModel.lotSize filled)
  let sell ← costModel.estimate .sell price (max costModel.lotSize filled)
  return max config.roundTripCost
    ((buy.total + sell.total) / (price * (max costModel.lotSize filled : ℤ)))

def selectedCostRates (config : ScreeningConfig) (costModel : CostModel) (columns : List Text)
    (selected : List (MergedRow × ℚ)) : Except String (List ℚ) := do
  let priceColumn ← orRaise (["price".toList, closeColumn].find? (· ∈ columns))
    "cost data unavailable: missing unadjusted price or close"
  let quantityColumn :=
    ["quantity".toList, "shares".toList, "position_size".toList].find? (· ∈ columns)
  selected.mapM fun entry => rowCostRate config costModel (entry.1.cell priceColumn).reading
    (match quantityColumn with
      | some column => (entry.1.cell column).reading
      | none => .finite costModel.lotSize)

/-! ### Trials -/

inductive Window where
  | validation
  | test
  deriving DecidableEq

/-- The scores of one window of a fold. -/
structure Scored where
  fold : ℕ
  window : Window
  scores : List ℚ

/-- What a run has scored before it ended, and what it raised. -/
structure Trace where
  scored : List Scored
  error : Option String

def errorOf {α : Type} : Except String α → Option String
  | .ok _ => none
  | .error error => some error

def trainingRows (frame : MergedFrame) (fold : ScreeningFold) : Except String (List MergedRow) :=
  matureTrainingLabels frame.columns
    (frame.rows.filter (MergedRow.inWindow fold.trainStart fold.trainEnd)) fold.trainEnd

/-- One pass of the loop over the folds. -/
def runFold (config : ScreeningConfig) (costModel : CostModel) (candidate : HistoricalCandidate)
    (frame : MergedFrame) (seed : ℕ) (fold : ScreeningFold) : Trace :=
  let validation := frame.rows.filter (MergedRow.inWindow fold.validationStart fold.validationEnd)
  let test := frame.rows.filter (MergedRow.inWindow fold.testStart fold.testEnd)
  match trainingRows frame fold with
  | .error error => ⟨[], some error⟩
  | .ok train =>
      match scores fit candidate frame train validation (seed + fold.index) with
      | .error error => ⟨[], some error⟩
      | .ok validationScores =>
          match scores fit candidate frame train test (seed + fold.index) with
          | .error error => ⟨[⟨fold.index, .validation, validationScores⟩], some error⟩
          | .ok testScores =>
              ⟨[⟨fold.index, .validation, validationScores⟩, ⟨fold.index, .test, testScores⟩],
                errorOf (selectedCostRates config costModel frame.columns
                  (selectedRows (max 1 (min config.topK test.length)) (test.zip testScores)))⟩

/-- The loop over the folds, which ends with the first error. -/
def runFolds (config : ScreeningConfig) (costModel : CostModel) (candidate : HistoricalCandidate)
    (frame : MergedFrame) (seed : ℕ) : List ScreeningFold → Trace
  | [] => ⟨[], none⟩
  | fold :: rest =>
      let current := runFold fit config costModel candidate frame seed fold
      match current.error with
      | some error => ⟨current.scored, some error⟩
      | none =>
          let later := runFolds config costModel candidate frame seed rest
          ⟨current.scored ++ later.scored, later.error⟩

def runTrial (config : ScreeningConfig) (costModel : CostModel) (candidate : HistoricalCandidate)
    (features : Features) (labels : List LabelRow) (folds : List ScreeningFold) (seed : ℕ)
    (baseLeakage : List String) : Trace :=
  match baseLeakage with
  | flag :: _ => ⟨[], some flag⟩
  | [] =>
      -- `_optional_available` always answers no.
      if candidate.modelFamily ∈ optionalFamilies then ⟨[], some "UNAVAILABLE_DEPENDENCY"⟩
      else match mergeFeaturesLabels features labels candidate with
        | .error error => ⟨[], some error⟩
        | .ok frame =>
            if frame.rows = [] then ⟨[], some "missing_or_invalid_labels"⟩
            else runFolds fit config costModel candidate frame seed folds

/-- `HistoricalEngineeringScreen.run` for one of its candidates. -/
def run (config : ScreeningConfig) (costModel : CostModel) (snapshot : Snapshot)
    (candidate : HistoricalCandidate) (seed : ℕ) : Except String Trace := do
  let (features, labels, leakage) ← prepareInputs snapshot
  let folds := makeFolds config features.sessions
  require (config.minimumOosWindows ≤ folds.length)
    "historical data does not make enough out-of-sample windows"
  return runTrial fit config costModel candidate features labels folds seed leakage

end Scores

end QuantWorkbench.Research.Screening
