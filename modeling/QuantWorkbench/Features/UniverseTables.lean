import QuantWorkbench.Features.HistoricalUniverse
import QuantWorkbench.Lib.LatestRows

/-!
The universe with its thresholds of liquidity, over tables of which a flag cell holds a boolean, one
of the integers 0 and 1, or nothing. A flag is read from the text of its cell, and the text depends
on the column: one of integers with missing cells is a column of floats.
-/

namespace QuantWorkbench.Features

open Lib
open Data (normalizeSymbol)

/-! ### Source tables -/

/-- A cell of a flag column. The integers are 0 and 1. -/
inductive FlagCell where
  | boolean (value : Bool)
  | integer (one : Bool)
  | missing
  deriving DecidableEq

def FlagCell.truthy : FlagCell → Bool
  | .boolean value => value
  | .integer one => one
  | .missing => false

/-- `astype(str)` of a cell, in a column of floats or in another one. -/
def FlagCell.shown (isFloat : Bool) : FlagCell → Text
  | .boolean true => "True".toList
  | .boolean false => "False".toList
  | .integer true => if isFloat then "1.0".toList else "1".toList
  | .integer false => if isFloat then "0.0".toList else "0".toList
  | .missing => "nan".toList

/-- The cells of a row as date parsers and `astype(str)` see them, its flags, and what
`to_numeric` makes of its cells. -/
structure SourceRow (V : Type) where
  cells : Text → InstrumentCell
  flags : Text → FlagCell
  numbers : Text → Option V

structure SourceTable (V : Type) where
  columns : List Text
  rows : List (SourceRow V)

def flagColumns : List Text :=
  ["is_st".toList, "is_delisting_risk".toList, "is_suspended".toList]

def SourceRow.shownBy {V : Type} (isFloat : Text → Bool) (row : SourceRow V) :
    Text → InstrumentCell := fun name =>
  if name ∈ flagColumns then
    { row.cells name with text := (row.flags name).shown (isFloat name) }
  else row.cells name

/-- A row of the universe. `rowOrder` is its place in the table. -/
structure Listing (V : Type) where
  instrument : Instrument
  averageAmount : Option V
  averageTurnoverPct : Option V
  rowOrder : ℕ

structure LiquidityRow (V : Type) where
  symbol : Text
  asOf : Date
  averageAmount : Option V
  averageTurnoverPct : Option V

namespace SourceTable

variable {V : Type} (table : SourceTable V)

/-- The column holds integers and missing cells only, and both. Without integers it does not
matter what it is. -/
def isFloat (name : Text) : Bool :=
  (table.rows.any fun row => row.flags name = .missing) ∧
    table.rows.all fun row => ∀ value, row.flags name ≠ .boolean value

/-- The table as its columns show it. -/
def frame : InstrumentFrame :=
  ⟨table.columns, table.rows.map (SourceRow.shownBy table.isFloat)⟩

/-- `_numeric_series` at a row. -/
def numberOf (names : List String) (row : SourceRow V) : Option V :=
  (names.find? fun name => name.toList ∈ table.columns).bind fun name => row.numbers name.toList

/-- `_prepare_universe_frame` at a row, with its flags shown in columns of the given kinds. -/
def listingOf (isFloat : Text → Bool) (entry : SourceRow V × ℕ) : Except String (Listing V) := do
  let instrument ← table.frame.instrumentOf (entry.1.shownBy isFloat)
  return {
    instrument
    averageAmount :=
      table.numberOf ["average_amount", "avg_amount", "min_average_amount"] entry.1
    averageTurnoverPct := table.numberOf
      ["average_turnover_pct", "avg_turnover_pct", "min_average_turnover_pct"] entry.1
    rowOrder := entry.2 }

/-- `_prepare_universe_frame`. -/
def preparedUniverse : Except String (List (Listing V)) := do
  require ("symbol".toList ∈ table.columns) "missing required universe column: symbol"
  require ("listed_date".toList ∈ table.columns) "missing required universe column: listed_date"
  table.rows.zipIdx.mapM (table.listingOf table.isFloat)

def liquidityOf (row : SourceRow V) : Except String (LiquidityRow V) := do
  let symbol ← orRaise (normalizeSymbol (row.cells "symbol".toList).text) "invalid symbol"
  let date ← table.frame.dateOf ["as_of", "trade_date"] "liquidity.as_of" row.cells
  let asOf ← orRaise date "liquidity.as_of cannot be null"
  return {
    symbol := symbol.text
    asOf
    averageAmount := table.numberOf ["average_amount", "avg_amount", "amount"] row
    averageTurnoverPct :=
      table.numberOf ["average_turnover_pct", "avg_turnover_pct", "turnover_pct"] row }

/-- `_prepare_liquidity_frame`. -/
def preparedLiquidity : Except String (List (LiquidityRow V)) := do
  require ("symbol".toList ∈ table.columns) "missing required liquidity column: symbol"
  require ("as_of".toList ∈ table.columns ∨ "trade_date".toList ∈ table.columns)
    "liquidity requires as_of or trade_date"
  table.rows.mapM table.liquidityOf

end SourceTable

/-! ### The universe -/

def latestRows {α : Type} (symbol : α → Text) (asOf : α → Date) (requested : Date)
    (rows : List α) : List α :=
  keepLast symbol (sortValues (fun row => toLex (symbol row, asOf row))
    (rows.filter fun row => asOf row ≤ requested))

structure UniverseSettings (V : Type) where
  excludeNewDays : ℤ
  minAverageAmount : Option V
  minAverageTurnoverPct : Option V

/-- A returned row. -/
structure TradableRow (V : Type) where
  listing : Listing V
  listingAgeDays : ℤ
  universeDate : Date

structure HistoricalUniverse (V : Type) extends UniverseSettings V where
  frame : List (Listing V)

def Listing.symbol {V : Type} (row : Listing V) : Text := row.instrument.symbol

def Listing.asOf {V : Type} (row : Listing V) : Date := row.instrument.asOf

section Universe

variable {V : Type} [LinearOrder V]

/-- `_merge_liquidity` at a row: a left join. -/
def Listing.merged (liquidity : List (LiquidityRow V)) (row : Listing V) : Listing V :=
  let found := liquidity.find? fun other => other.symbol = row.symbol
  { row with
    averageAmount := found.bind LiquidityRow.averageAmount
    averageTurnoverPct := found.bind LiquidityRow.averageTurnoverPct }

/-- `ge` of a threshold, which a missing value does not meet. -/
def reaches (threshold value : Option V) : Bool :=
  threshold.all fun least => value.any fun value => least ≤ value

namespace HistoricalUniverse

/-- The constructor. -/
def create [Zero V] (settings : UniverseSettings V) (table : SourceTable V) :
    Except String (HistoricalUniverse V) := do
  require (0 ≤ settings.excludeNewDays) "exclude_new_days cannot be negative"
  require (∀ least ∈ settings.minAverageAmount, 0 ≤ least) "min_average_amount cannot be negative"
  require (∀ least ∈ settings.minAverageTurnoverPct, 0 ≤ least)
    "min_average_turnover_pct cannot be negative"
  let frame ← table.preparedUniverse
  return { settings with frame }

variable (history : HistoricalUniverse V)

def mergeLiquidity (requested : Date) (rows : List (Listing V)) :
    Option (SourceTable V) → Except String (List (Listing V))
  | none => .ok rows
  | some table => do
      let prepared ← table.preparedLiquidity
      let latest := latestRows LiquidityRow.symbol LiquidityRow.asOf requested prepared
      return rows.map (Listing.merged latest)

/-- The thresholds of liquidity. -/
def liquid (row : Listing V) : Bool :=
  reaches history.minAverageAmount row.averageAmount &&
    reaches history.minAverageTurnoverPct row.averageTurnoverPct

def tradableUniverse (requested : Date) (liquidity : Option (SourceTable V)) :
    Except String (List (TradableRow V)) := do
  let visible := latestRows Listing.symbol Listing.asOf requested history.frame
  if visible = [] then return []
  let eligible := visible.filter fun row =>
    row.instrument.eligible history.excludeNewDays requested
  let merged ← mergeLiquidity requested eligible liquidity
  return (merged.filter history.liquid).map fun row => {
    listing := row
    listingAgeDays :=
      Day.toordinal requested - Day.toordinal row.instrument.listedDate
    universeDate := requested }

end HistoricalUniverse

end Universe

end QuantWorkbench.Features
