import QuantWorkbench.Lib.Fallible
import QuantWorkbench.Lib.Tables

/-!
The inputs of a historical screen: the frames of a snapshot, prepared with a session for each row
and a maturity for each finite label.
-/

namespace QuantWorkbench.Research.Screening

open Lib

/-! ### Frames -/

/-- What `to_numeric(errors="coerce")` makes of a cell. -/
inductive Reading where
  | finite (value : ℚ)
  | infinite (negative : Bool)
  | missing
  deriving DecidableEq

def Reading.finite? : Reading → Option ℚ
  | finite value => some value
  | _ => none

/-- A cell of a given frame, by what is read from it. -/
structure RawCell where
  text : Text
  day : DateCell
  number : Reading

/-- A frame of a snapshot: the names of its columns, those with a numeric type, and its rows. -/
structure GivenFrame where
  columns : List Text
  nodup : columns.Nodup
  numeric : Text → Bool
  rows : List (Text → RawCell)

structure Snapshot where
  features : GivenFrame
  labels : Option GivenFrame
  /-- `signal_cutoff` or `signal_date`. -/
  signalCutoff : Option Date

def labelColumns : List Text :=
  ["forward_excess_return_5".toList, "excess_return_5".toList, "forward_excess_return".toList,
    "research_return".toList, "forward_return_5".toList, "forward_return".toList,
    "return".toList, "label".toList]

def realizedLabelColumns : List Text :=
  labelColumns ++ ["_label".toList, "label".toList, "excess_return".toList,
    "forward_excess_return".toList, "forward_return".toList]

def dateColumns : List Text :=
  ["trading_date".toList, "session_date".toList, "date".toList, "signal_date".toList,
    "available_at".toList]

def firstDateColumn (columns : List Text) : Except String Text :=
  orRaise (dateColumns.find? (· ∈ columns)) "research frame requires a date column"

def isRealizedLabelColumn (column : Text) : Bool :=
  let normalized := (Text.strip column).map Char.toLower
  normalized ∈ realizedLabelColumns ||
    ["forward_".toList, "excess_return".toList, "research_return".toList, "future_return".toList,
      "target_".toList, "label_".toList].any fun start => start.isPrefixOf normalized

/-! ### Prepared inputs -/

structure FeatureRow where
  symbol : Text
  /-- `_session_date`, missing if it is no date. -/
  session : Option Date
  cells : Text → RawCell

structure Features where
  columns : List Text
  numeric : Text → Bool
  rows : List FeatureRow

/-- `_maturity_date` with `_maturity_error`. -/
structure Maturity where
  date : Option Date
  error : Bool
  deriving DecidableEq

structure LabelRow where
  symbol : Text
  session : Option Date
  maturity : Maturity
  label : ℚ
  deriving DecidableEq

def Features.sessions (features : Features) : List Date :=
  sortedSet (features.rows.filterMap FeatureRow.session)

def FeatureRow.key (row : FeatureRow) : Text × Option Date := (row.symbol, row.session)

def LabelRow.key (row : LabelRow) : Text × Option Date := (row.symbol, row.session)

def snapshotCutoff (snapshot : Snapshot) : Except String Date :=
  match snapshot.signalCutoff with
  | some cutoff => .ok cutoff
  | none => do
      let column ← firstDateColumn snapshot.features.columns
      let days ← (snapshot.features.rows.filter fun row => (row column).day ≠ .blank).mapM
        fun row => orRaise (row column).day.day? "invalid date"
      orRaise (sortedSet days).getLast? "max() arg is an empty sequence"

/-- The date of a cell that is later than another date. -/
def laterThan (day other : Option Date) : Bool :=
  day.any fun day => other.any fun other => other < day

def availableAt : Text := "available_at".toList

def prepareFeatures (frame : GivenFrame) (cutoff : Date) :
    Except String (Features × List String) := do
  require ("symbol".toList ∈ frame.columns) "features requires symbol"
  let featureDate ← firstDateColumn frame.columns
  let rows := frame.rows.map fun row =>
    { symbol := zfill 6 (row "symbol".toList).text
      session := (row featureDate).day.day?
      cells := row : FeatureRow }
  let available := fun row : FeatureRow => (row.cells availableAt).day.day?
  let invalidDate := if rows.any fun row => row.session.isNone then
    ["invalid_feature_date"] else []
  let futureAvailable := if availableAt ∈ frame.columns ∧ rows.any fun row =>
      (available row).isNone || laterThan (available row) row.session then
    ["future_feature_available_at"] else []
  let futureCutoff := if availableAt ∈ frame.columns ∧ rows.any fun row =>
      laterThan (available row) (some cutoff) then ["future_feature_cutoff"] else []
  let duplicates := if (rows.map FeatureRow.key).Nodup then [] else ["duplicate_feature_session"]
  return (⟨frame.columns, frame.numeric, rows⟩,
    invalidDate ++ futureAvailable ++ futureCutoff ++ duplicates)

def statedMaturity (cell : RawCell) (session : Option Date) : Maturity :=
  let date := cell.day.day?
  ⟨date, date.isNone || date.any fun date => session.any fun session => date ≤ session⟩

def validHorizon (cell : RawCell) : Option ℕ :=
  match cell.number with
  | .finite value => [5, 10, 20].find? fun days : ℕ => (days : ℚ) = value
  | _ => none

/-- The maturity a number of sessions after the session of a row. The index of a session that no
feature has is -1. -/
def horizonMaturity (sessions : List Date) (cell : RawCell) (session : Option Date) : Maturity :=
  let dateIndex : ℤ := match session.bind fun session => sessions.idxOf? session with
    | some index => index
    | none => -1
  match validHorizon cell with
  | none => ⟨none, true⟩
  | some days =>
      let maturityIndex := dateIndex + days
      if maturityIndex < 0 then ⟨none, true⟩
      else match sessions[maturityIndex.toNat]? with
        | some date => ⟨some date, false⟩
        | none => ⟨none, true⟩

def rowMaturity (columns : List Text) (sessions : List Date) (row : Text → RawCell)
    (session : Option Date) : Maturity :=
  match ["label_available_at".toList, "maturity_date".toList].find? (· ∈ columns) with
  | some column => statedMaturity (row column) session
  | none =>
      if "horizon_days".toList ∈ columns then
        horizonMaturity sessions (row "horizon_days".toList) session
      else ⟨none, true⟩

def prepareLabels (features : Features) (labels : Option GivenFrame) :
    Except String (List LabelRow) :=
  match labels with
  | none => .ok []
  | some frame =>
      if frame.rows = [] then .ok []
      else do
        require ("symbol".toList ∈ frame.columns) "labels requires symbol"
        let labelDate ← firstDateColumn frame.columns
        let labelColumn ← orRaise (labelColumns.find? (· ∈ frame.columns))
          "labels requires a forward return label"
        return frame.rows.filterMap fun row => (row labelColumn).number.finite?.map fun label =>
          { symbol := zfill 6 (row "symbol".toList).text
            session := (row labelDate).day.day?
            maturity := rowMaturity frame.columns features.sessions row (row labelDate).day.day?
            label }

def prepareInputs (snapshot : Snapshot) :
    Except String (Features × List LabelRow × List String) := do
  require (snapshot.features.rows ≠ []) "snapshot.features cannot be empty"
  let cutoff ← snapshotCutoff snapshot
  let (features, leakage) ← prepareFeatures snapshot.features cutoff
  let labels ← prepareLabels features snapshot.labels
  let invalidMaturity := if labels.any fun row => row.maturity.error then
    ["invalid_label_maturity"] else []
  return (features, labels, leakage ++ invalidMaturity)

end QuantWorkbench.Research.Screening
