import QuantWorkbench.Data.Normalization
import QuantWorkbench.Lib.Fields
import QuantWorkbench.Lib.Tables

/-!
The universe of instruments as it was known on a date: each row of a table of snapshots holds from
its date until a later one of the same symbol.
-/

namespace QuantWorkbench.Features

open Lib
open Data (normalizeSymbol)

/-! ### Tables -/

/-- A cell of a table of instruments: the text shown of it, and what a date parser makes of it. -/
structure InstrumentCell where
  text : Text
  day : DateCell

structure InstrumentFrame where
  columns : List Text
  rows : List (Text → InstrumentCell)

/-- A prepared row. -/
structure Instrument where
  symbol : Text
  listedDate : Date
  delistedDate : Option Date
  asOf : Date
  isSt : Bool
  isDelistingRisk : Bool
  isSuspended : Bool
  stEffectiveDate : Option Date
  stEndDate : Option Date
  suspensionEffectiveDate : Option Date
  suspensionEndDate : Option Date

namespace InstrumentFrame

variable (frame : InstrumentFrame)

def cellOf (names : List String) (row : Text → InstrumentCell) : Option InstrumentCell :=
  (names.find? fun name => name.toList ∈ frame.columns).map fun name => row name.toList

/-- `_date_series` at a row: a column that is missing has no dates. -/
def dateOf (names : List String) (field : String) (row : Text → InstrumentCell) :
    Except String (Option Date) :=
  match (frame.cellOf names row).map InstrumentCell.day with
  | none => .ok none
  | some .blank => .ok none
  | some (.date day) => .ok (some day)
  | some .invalid => .error s!"invalid {field} value"

/-- `_bool_series` at a row. -/
def flagOf (name : String) (row : Text → InstrumentCell) : Bool :=
  (frame.cellOf [name] row).any fun cell =>
    (Text.strip cell.text).map Char.toLower ∈
      ["1".toList, "true".toList, "yes".toList, "y".toList]

/-- `_prepare_universe_frame` at a row. -/
def instrumentOf (row : Text → InstrumentCell) : Except String Instrument := do
  let symbol ← orRaise (normalizeSymbol (row "symbol".toList).text) "invalid symbol"
  let listed ← frame.dateOf ["listed_date"] "listed_date" row
  let listedDate ← orRaise listed "listed_date cannot be null"
  let delistedDate ← frame.dateOf ["delisted_date"] "delisted_date" row
  let asOf ← frame.dateOf ["as_of", "snapshot_date"] "as_of" row
  let stEffectiveDate ←
    frame.dateOf ["st_effective_date", "st_start_date"] "st_effective_date" row
  let stEndDate ← frame.dateOf ["st_end_date"] "st_end_date" row
  let suspensionEffectiveDate ← frame.dateOf
    ["suspension_effective_date", "suspended_effective_date", "suspension_start_date"]
    "suspension_effective_date" row
  let suspensionEndDate ← frame.dateOf
    ["suspension_end_date", "suspended_end_date", "suspension_stop_date"]
    "suspension_end_date" row
  return {
    symbol := symbol.text
    listedDate
    delistedDate
    asOf := asOf.getD listedDate
    isSt := frame.flagOf "is_st" row || (frame.cellOf ["name"] row).any fun cell =>
      "ST".toList <:+: Text.upper cell.text
    isDelistingRisk := frame.flagOf "is_delisting_risk" row
    isSuspended := frame.flagOf "is_suspended" row
    stEffectiveDate
    stEndDate
    suspensionEffectiveDate
    suspensionEndDate }

/-- `_prepare_universe_frame`. -/
def prepared : Except String (List Instrument) := do
  require ("symbol".toList ∈ frame.columns) "missing required universe column: symbol"
  require ("listed_date".toList ∈ frame.columns) "missing required universe column: listed_date"
  frame.rows.mapM frame.instrumentOf

end InstrumentFrame

/-! ### The universe of a date -/

def activeInterval (start last : Option Date) (requested : Date) : Bool :=
  start.any fun start => start ≤ requested ∧ ∀ finish ∈ last, requested < finish

def Instrument.eligible (excludeNewDays : ℤ) (requested : Date) (row : Instrument) : Bool :=
  row.listedDate ≤ requested ∧
    excludeNewDays ≤ Day.toordinal requested - Day.toordinal row.listedDate ∧
    (∀ delisted ∈ row.delistedDate, requested < delisted) ∧ row.isSt = false ∧
    row.isDelistingRisk = false ∧ row.isSuspended = false ∧
    activeInterval row.stEffectiveDate row.stEndDate requested = false ∧
    activeInterval row.suspensionEffectiveDate row.suspensionEndDate requested = false

def visibleInstruments (requested : Date) (rows : List Instrument) : List Instrument :=
  keepLast Instrument.symbol (sortValues (fun row => toLex (row.symbol, row.asOf))
    (rows.filter fun row => row.asOf ≤ requested))

/-- `tradable_universe` without thresholds of liquidity. -/
def tradableUniverse (excludeNewDays : ℤ) (requested : Date) (rows : List Instrument) :
    List Instrument :=
  (visibleInstruments requested rows).filter (Instrument.eligible excludeNewDays requested)

end QuantWorkbench.Features
