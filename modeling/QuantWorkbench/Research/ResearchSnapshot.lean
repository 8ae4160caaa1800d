import QuantWorkbench.Lib.Fallible
import QuantWorkbench.Lib.IsoText
import QuantWorkbench.Lib.Tables

/-!
Point-in-time research snapshots: the universe as it was known on a cutoff, the symbols of it that
may be traded, and the features that were available.
-/

namespace QuantWorkbench.Research

open Lib

/-! ### Cells -/

/-- A cell of a status column: missing, a truth value, or what is shown of anything else. -/
inductive StatusCell where
  | missing
  | bool (value : Bool)
  | text (shown : Text)
  deriving DecidableEq

def StatusCell.known? (yes no : List String) : StatusCell → Option Bool
  | missing => none
  | bool value => some value
  | text shown =>
      let word := String.ofList ((Text.strip shown).map Char.toLower)
      if word ∈ yes then some true else if word ∈ no then some false else none

def knownBool : StatusCell → Option Bool :=
  StatusCell.known? ["1", "true", "yes", "y", "st", "是", "正常"] ["0", "false", "no", "n", "非st", "否"]

def knownTradeStatus : StatusCell → Option Bool :=
  StatusCell.known? ["1", "true", "yes", "y", "trade", "trading", "tradable", "正常", "交易"]
    ["0", "false", "no", "n", "suspend", "suspended", "停牌", "不可交易"]

def symbolText (cell : Option Text) : Text := Text.strip (cell.getD [])

/-- `_date_column`. -/
def checkDates (field : String) (required : Bool) (cells : List DateCell) : Except String Unit :=
  require (∀ cell ∈ cells, cell ≠ .invalid ∧ (required = true → cell ≠ .blank))
    s!"invalid {field} in research snapshot artifact"

/-! ### Tables -/

/-- A row of the universe, with the columns that the snapshot does not look at as they are. -/
structure UniverseRow (O : Type) where
  symbol : Option Text
  listedDate : DateCell
  delistedDate : DateCell
  asOf : DateCell
  tradeStatus : StatusCell
  tradable : StatusCell
  isSuspended : StatusCell
  isSt : StatusCell
  isDelistingRisk : StatusCell
  others : O

/-- The columns that a table of the universe has. -/
structure UniverseColumns where
  symbol : Bool
  listedDate : Bool
  delistedDate : Bool
  asOf : Bool
  tradeStatus : Bool
  tradable : Bool
  isSuspended : Bool
  isSt : Bool
  isDelistingRisk : Bool
  deriving DecidableEq

structure UniverseFrame (O : Type) where
  columns : UniverseColumns
  rows : List (UniverseRow O)

structure FeatureRow (O : Type) where
  symbol : Option Text
  availableAt : DateCell
  others : O

structure FeatureFrame (O : Type) where
  hasSymbol : Bool
  hasAvailableAt : Bool
  rows : List (FeatureRow O)

variable {O P : Type}

/-! ### The universe -/

/-- A row of the universe whose symbol and dates are read. -/
structure PreparedRow (O : Type) where
  symbol : Text
  listedDate : Date
  delistedDate : Option Date
  asOf : Date
  tradeStatus : StatusCell
  tradable : StatusCell
  isSuspended : StatusCell
  isSt : StatusCell
  isDelistingRisk : StatusCell
  others : O

/-- The row with its dates, if it has the listing date. Without an own date it is of that one. -/
def UniverseRow.prepared (columns : UniverseColumns) (row : UniverseRow O) :
    Option (PreparedRow O) :=
  row.listedDate.day?.map fun listedDate => {
    symbol := symbolText row.symbol
    listedDate
    delistedDate := if columns.delistedDate then row.delistedDate.day? else none
    asOf := if columns.asOf then row.asOf.day?.getD listedDate else listedDate
    tradeStatus := row.tradeStatus
    tradable := row.tradable
    isSuspended := row.isSuspended
    isSt := row.isSt
    isDelistingRisk := row.isDelistingRisk
    others := row.others }

namespace UniverseFrame

def prepared (frame : UniverseFrame O) : List (PreparedRow O) :=
  frame.rows.filterMap (UniverseRow.prepared frame.columns)

/-- The checks of `_build_point_in_time_universe`. -/
def check (frame : UniverseFrame O) : Except String Unit := do
  require (frame.columns.listedDate = true ∧ frame.columns.symbol = true)
    "universe artifact missing required fields"
  require (∀ row ∈ frame.rows, symbolText row.symbol ≠ [])
    "universe artifact contains an empty symbol"
  checkDates "listed_date" true (frame.rows.map UniverseRow.listedDate)
  if frame.columns.delistedDate then
    checkDates "delisted_date" false (frame.rows.map UniverseRow.delistedDate)
  if frame.columns.asOf then checkDates "as_of" false (frame.rows.map UniverseRow.asOf)

end UniverseFrame

/-- Why a symbol is left out. -/
inductive ExclusionReason where
  | notYetListed
  | delisted
  | unknownTradeStatus
  | notTradable
  | st
  | suspended
  | delistingRisk
  deriving DecidableEq

def ExclusionReason.text : ExclusionReason → Text
  | notYetListed => "NOT_YET_LISTED".toList
  | delisted => "DELISTED".toList
  | unknownTradeStatus => "UNKNOWN_TRADE_STATUS".toList
  | notTradable => "NOT_TRADABLE".toList
  | st => "ST".toList
  | suspended => "SUSPENDED".toList
  | delistingRisk => "DELISTING_RISK".toList

structure Exclusion where
  symbol : Text
  reason : ExclusionReason
  deriving DecidableEq

abbrev Exclusions := Keyed Exclusion.symbol

namespace PreparedRow

/-- A cell of a column that the table may not have. -/
def cell (present : Bool) (value : StatusCell) : StatusCell := if present then value else .missing

def rowTradeStatus (columns : UniverseColumns) (row : PreparedRow O) : Option Bool :=
  if columns.tradeStatus then knownTradeStatus row.tradeStatus
  else if columns.tradable then knownBool row.tradable
  else if columns.isSuspended then (knownBool row.isSuspended).map (! ·)
  else none

/-- Why the row is left out on the cutoff, or nothing. -/
def exclusion? (columns : UniverseColumns) (cutoff : Date) (row : PreparedRow O) :
    Option ExclusionReason :=
  if cutoff < row.listedDate then some .notYetListed
  else if ∃ day ∈ row.delistedDate, day ≤ cutoff then some .delisted
  else match row.rowTradeStatus columns, knownBool (cell columns.isSt row.isSt) with
    | some true, some false =>
        if knownBool (cell columns.isSuspended row.isSuspended) = some true then some .suspended
        else if knownBool (cell columns.isDelistingRisk row.isDelistingRisk) = some true then
          some .delistingRisk
        else none
    | some true, some true => some .st
    | some false, some _ => some .notTradable
    | _, _ => some .unknownTradeStatus

def isListed (cutoff : Date) (row : PreparedRow O) : Bool :=
  decide (row.listedDate ≤ cutoff) && decide (∀ day ∈ row.delistedDate, cutoff < day)

end PreparedRow

def notYetListed (cutoff : Date) (rows : List (PreparedRow O)) : List Text :=
  (sortValues id (rows.map PreparedRow.symbol).dedup).filter fun symbol =>
    decide (∀ row ∈ rows, row.symbol = symbol → cutoff < row.listedDate)

/-- The newest row of each symbol that was known on the cutoff. -/
def visibleUniverse (cutoff : Date) (rows : List (PreparedRow O)) : List (PreparedRow O) :=
  keepLast PreparedRow.symbol ((sortValues
    (fun row : PreparedRow O × ℕ => toLex (toLex (row.1.symbol, row.1.asOf), row.2))
    (rows.zipIdx.filter fun row => row.1.asOf ≤ cutoff)).map Prod.fst)

def exclusionsOf (columns : UniverseColumns) (cutoff : Date) (unlisted : List Text)
    (visible : List (PreparedRow O)) : Exclusions :=
  visible.foldl
    (fun exclusions row =>
      match row.exclusion? columns cutoff with
      | some reason => exclusions.put ⟨row.symbol, reason⟩
      | none => exclusions)
    (unlisted.foldl (fun exclusions symbol => exclusions.put ⟨symbol, .notYetListed⟩) Keyed.empty)

/-- What `_build_point_in_time_universe` returns. -/
structure PointInTimeUniverse (O : Type) where
  universeRows : List (PreparedRow O)
  eligible : List Text
  exclusions : List Exclusion

def buildPointInTimeUniverse (frame : UniverseFrame O) (cutoff : Date) :
    Except String (PointInTimeUniverse O) := do
  frame.check
  let result := frame.prepared
  let visible := visibleUniverse cutoff result
  let exclusions := exclusionsOf frame.columns cutoff (notYetListed cutoff result) visible
  let kept := visible.filter fun row => row.exclusion? frame.columns cutoff = none
  let audited := visible.filter fun row =>
    decide (row.exclusion? frame.columns cutoff = none ∨ row.symbol ∈ exclusions.keys)
  return {
    universeRows := sortValues PreparedRow.symbol (audited.filter fun row => row.isListed cutoff)
    eligible := sortValues id (kept.map PreparedRow.symbol)
    exclusions := sortValues Exclusion.symbol exclusions.values }

/-! ### Features and labels -/

/-- A feature whose symbol and date are read. -/
structure VisibleFeature (O : Type) where
  symbol : Text
  availableAt : Date
  others : O

def FeatureRow.prepared (row : FeatureRow O) : Option (VisibleFeature O) :=
  row.availableAt.day?.map fun day => ⟨symbolText row.symbol, day, row.others⟩

/-- The checks of `_build_visible_features`. -/
def FeatureFrame.check (frame : FeatureFrame O) : Except String Unit := do
  require (frame.hasSymbol = true ∧ frame.hasAvailableAt = true)
    "features artifact requires symbol and available_at"
  checkDates "available_at" true (frame.rows.map FeatureRow.availableAt)

def buildVisibleFeatures (frame : FeatureFrame O) (cutoff : Date) (eligible : List Text) :
    Except String (List (VisibleFeature O)) := do
  frame.check
  let result := (frame.rows.filterMap FeatureRow.prepared).filter fun row =>
    decide (row.availableAt ≤ cutoff ∧ row.symbol ∈ eligible)
  return sortValues (fun row => toLex (row.symbol, row.availableAt)) result

/-- The point-in-time part of a research snapshot. -/
structure ResearchSnapshot (O P : Type) where
  signalCutoff : Date
  universeRows : List (PreparedRow O)
  features : List (VisibleFeature P)
  eligibleSymbols : List Text
  exclusions : List Exclusion

/-- `build` on tables that are verified, up to the labels. -/
def buildSnapshot (cutoff : Date) (instruments : UniverseFrame O) (features : FeatureFrame P) :
    Except String (ResearchSnapshot O P) := do
  let prepared ← buildPointInTimeUniverse instruments cutoff
  let visible ← buildVisibleFeatures features cutoff prepared.eligible
  return {
    signalCutoff := cutoff
    universeRows := prepared.universeRows
    features := visible
    eligibleSymbols := prepared.eligible
    exclusions := prepared.exclusions }

end QuantWorkbench.Research
