import QuantWorkbench.Data.Normalization
import QuantWorkbench.Lib.Fallible
import QuantWorkbench.Lib.IsoText
import QuantWorkbench.Lib.LastByKey

/-!
Frames of daily bars and `normalize_daily_bars`, which makes canonical bars of them. A frame has
its columns and, for each row, a cell in each column.
-/

namespace QuantWorkbench.Data

open Lib

/-! ### Frames -/

/-- The numbers of a column; one that is missing is no number. -/
abbrev Numeric := WithBot (WithTop ℚ)

inductive Cell where
  | null
  | number (value : Numeric)
  | day (value : Date)
  | object (text : Text)
  deriving DecidableEq

/-- What the data library reads from cells. Dates that are dates already are read as they are,
whatever other cells a column has. -/
class CellReader where
  /-- `to_numeric` of a text. -/
  number : Text → Option Numeric
  /-- `str` of a number. -/
  text : Numeric → Text
  /-- `to_datetime` of a column, if no cell of it is invalid. -/
  dates : List Cell → Option (List Date)
  length_dates : ∀ cells found, dates cells = some found → found.length = cells.length
  dates_days : ∀ days cells found, dates (days.map Cell.day ++ cells) = some found →
    found.take days.length = days

abbrev Row := Text → Cell

structure Frame where
  columns : List Text
  rows : List Row
  outside : ∀ row ∈ rows, ∀ column ∉ columns, row column = .null

namespace Frame

def Empty (frame : Frame) : Prop := frame.columns = [] ∨ frame.rows = []

instance (frame : Frame) : Decidable frame.Empty := by
  unfold Empty
  infer_instance

/-- The rows of a frame that pass. -/
def restrict (frame : Frame) (keep : Row → Bool) : Frame where
  columns := frame.columns
  rows := frame.rows.filter keep
  outside row hrow := frame.outside row (List.mem_of_mem_filter hrow)

def concat (frame other : Frame) : Frame where
  columns := frame.columns ++ other.columns.filter fun column => column ∉ frame.columns
  rows := frame.rows ++ other.rows
  outside := by
    intro row hrow column hcolumn
    rw [List.mem_append, List.mem_filter, decide_eq_true_iff, not_or, not_and, not_not] at hcolumn
    rcases List.mem_append.mp hrow with hfirst | hsecond
    · exact frame.outside row hfirst column hcolumn.1
    · exact other.outside row hsecond column fun hother =>
        hcolumn.1 (hcolumn.2 hother)

end Frame

/-! ### Columns -/

/-- The fields of a bar that are read from a frame. -/
inductive DailyField where
  | date
  | opening
  | high
  | low
  | close
  | volume
  | amount
  | amplitudePct
  | changePct
  | changeAmount
  | turnoverPct
  deriving DecidableEq

namespace DailyField

/-- The canonical name of the column. -/
def name : DailyField → Text
  | date => "date".toList
  | opening => "open".toList
  | high => "high".toList
  | low => "low".toList
  | close => "close".toList
  | volume => "volume".toList
  | amount => "amount".toList
  | amplitudePct => "amplitude_pct".toList
  | changePct => "change_pct".toList
  | changeAmount => "change_amount".toList
  | turnoverPct => "turnover_pct".toList

def otherNames : DailyField → List Text
  | date => ["日期".toList, "交易日期".toList, "trade_date".toList]
  | opening => ["开盘".toList, "开盘价".toList]
  | high => ["最高".toList, "最高价".toList]
  | low => ["最低".toList, "最低价".toList]
  | close => ["收盘".toList, "收盘价".toList]
  | volume => ["成交量".toList, "vol".toList]
  | amount => ["成交额".toList, "成交金额".toList]
  | amplitudePct => ["振幅".toList]
  | changePct => ["涨跌幅".toList, "pct_chg".toList]
  | changeAmount => ["涨跌额".toList]
  | turnoverPct => ["换手率".toList, "turnover_rate".toList]

def findColumn (field : DailyField) (columns : List Text) : Option Text :=
  (field.name :: field.otherNames).find? fun title => title ∈ columns

def required : List DailyField := [date, opening, high, low, close, volume, amount]

end DailyField

variable [CellReader]

namespace Cell

def number? : Cell → Option Numeric
  | number value => some value
  | object text => CellReader.number text
  | _ => none

/-- `str` of a cell with a value. -/
def text? : Cell → Option Text
  | null => none
  | number value => some (CellReader.text value)
  | day value => some value.isoformat
  | object text => some text

end Cell

/-! ### Bars -/

structure DailyBar where
  symbol : Symbol
  date : Date
  opening : Numeric
  high : Numeric
  low : Numeric
  close : Numeric
  volume : Numeric
  amount : Numeric
  amplitudePct : Option Numeric
  changePct : Option Numeric
  changeAmount : Option Numeric
  turnoverPct : Option Numeric
  source : Text
  fetchedAt : Text
  dataVersion : Text

/-- Where the bars of a call come from. -/
structure Provenance where
  source : Text
  fetchedAt : Text
  dataVersion : Text

def Row.value (row : Row) (columns : List Text) (field : DailyField) : Option Numeric :=
  (field.findColumn columns).bind fun column => (row column).number?

def Frame.requireNumbers (frame : Frame) (field : DailyField) : Except String Unit := do
  let column ← orRaise (field.findColumn frame.columns)
    ("missing required columns: " ++ String.ofList field.name)
  require (∀ row ∈ frame.rows, ((row column).number?).isSome = true)
    ("invalid numeric values: " ++ String.ofList field.name)

def Row.bar (row : Row) (columns : List Text) (symbol : Symbol) (provenance : Provenance)
    (date : Date) : DailyBar where
  symbol := symbol
  date := date
  opening := (row.value columns .opening).getD 0
  high := (row.value columns .high).getD 0
  low := (row.value columns .low).getD 0
  close := (row.value columns .close).getD 0
  volume := (row.value columns .volume).getD 0
  amount := (row.value columns .amount).getD 0
  amplitudePct := row.value columns .amplitudePct
  changePct := row.value columns .changePct
  changeAmount := row.value columns .changeAmount
  turnoverPct := row.value columns .turnoverPct
  source := provenance.source
  fetchedAt := provenance.fetchedAt
  dataVersion := provenance.dataVersion

/-- The numbers of a bar are those of a market. -/
structure DailyBar.InRange (bar : DailyBar) : Prop where
  prices : 0 < bar.opening ∧ 0 < bar.high ∧ 0 < bar.low ∧ 0 < bar.close
  amounts : 0 ≤ bar.volume ∧ 0 ≤ bar.amount
  highest : max bar.opening bar.close ≤ bar.high ∧ bar.low ≤ min bar.opening bar.close

/-- The bars of a frame in the order of its rows, before those of one date are dropped. -/
def readBars (raw : Frame) (symbol : Symbol) (provenance : Provenance) :
    Except String (List DailyBar) := do
  let missing := DailyField.required.filter fun field => field.findColumn raw.columns = none
  require (missing = []) ("missing required columns: " ++
    ", ".intercalate (missing.map fun field => String.ofList field.name))
  let column ← orRaise (DailyField.date.findColumn raw.columns) "missing required columns: date"
  let dates ← orRaise (CellReader.dates (raw.rows.map fun row => row column)) "invalid date value"
  raw.requireNumbers .opening
  raw.requireNumbers .high
  raw.requireNumbers .low
  raw.requireNumbers .close
  raw.requireNumbers .volume
  raw.requireNumbers .amount
  return List.zipWith (fun row date => row.bar raw.columns symbol provenance date) raw.rows dates

/-- `normalize_daily_bars`. The volumes keep their values when they become integers. -/
def normalizeDailyBars (raw : Frame) (symbol : Symbol) (provenance : Provenance) :
    Except String (List DailyBar) := do
  if raw.Empty then
    return []
  let bars ← readBars raw symbol provenance
  require (∀ bar ∈ bars, 0 < bar.opening ∧ 0 < bar.high ∧ 0 < bar.low ∧ 0 < bar.close)
    "prices must be positive"
  require (∀ bar ∈ bars, 0 ≤ bar.volume ∧ 0 ≤ bar.amount) "volume and amount cannot be negative"
  require (∀ bar ∈ bars, max bar.opening bar.close ≤ bar.high ∧
    bar.low ≤ min bar.opening bar.close) "invalid OHLC range"
  return lastByKey DailyBar.date bars

/-! ### Stored bars as rows -/

def Cell.optional : Option Numeric → Cell
  | none => .null
  | some value => .number value

/-- The cells of a bar, by the canonical names of their columns. -/
def DailyBar.cells (bar : DailyBar) : List (Text × Cell) :=
  [("symbol".toList, .object bar.symbol.text), ("date".toList, .day bar.date),
    ("open".toList, .number bar.opening), ("high".toList, .number bar.high),
    ("low".toList, .number bar.low), ("close".toList, .number bar.close),
    ("volume".toList, .number bar.volume), ("amount".toList, .number bar.amount),
    ("amplitude_pct".toList, Cell.optional bar.amplitudePct),
    ("change_pct".toList, Cell.optional bar.changePct),
    ("change_amount".toList, Cell.optional bar.changeAmount),
    ("turnover_pct".toList, Cell.optional bar.turnoverPct), ("source".toList, .object bar.source),
    ("fetched_at".toList, .object bar.fetchedAt), ("data_version".toList, .object bar.dataVersion)]

def canonicalDailyColumns : List Text :=
  ["symbol".toList, "date".toList, "open".toList, "high".toList, "low".toList, "close".toList,
    "volume".toList, "amount".toList, "amplitude_pct".toList, "change_pct".toList,
    "change_amount".toList, "turnover_pct".toList, "source".toList, "fetched_at".toList,
    "data_version".toList]

def DailyBar.row (bar : DailyBar) : Row := fun column => (bar.cells.lookup column).getD .null

omit [CellReader] in
theorem lookup_eq_none {α : Type} {cells : List (Text × α)} {column : Text}
    (h : column ∉ cells.map Prod.fst) : cells.lookup column = none := by
  induction cells with
  | nil => rfl
  | cons cell rest ih =>
      rw [List.map_cons, List.mem_cons, not_or] at h
      rw [List.lookup_cons, beq_false_of_ne h.1]
      exact ih h.2

/-! ### Groups of rows -/

def Frame.lastText (group : Frame) (column : Text) : Option Text :=
  (group.rows.filterMap fun row => (row column).text?).getLast?

/-- The symbols of a frame, each once, in order. Rows without one are in no group. -/
def Frame.symbols (frame : Frame) : List Text :=
  (frame.rows.filterMap fun row => (row "symbol".toList).text?).dedup.insertionSort (· ≤ ·)

def Frame.group (frame : Frame) (symbol : Text) : Frame :=
  frame.restrict fun row => (row "symbol".toList).text? = some symbol

/-! ### What is read -/

omit [CellReader] in
theorem DailyField.findColumn_name {field : DailyField} {columns : List Text}
    (h : field.name ∈ columns) : field.findColumn columns = some field.name := by
  rw [findColumn, List.find?_cons_of_pos]
  exact decide_eq_true h

theorem Frame.requireNumbers_ok {frame : Frame} {field : DailyField}
    (h : frame.requireNumbers field = .ok ()) {row : Row} (hrow : row ∈ frame.rows) :
    ∃ value, row.value frame.columns field = some value := by
  obtain ⟨column, hcolumn, h⟩ := bind_eq_ok_iff.mp h
  have hsome := require_eq_ok_iff.mp h row hrow
  obtain ⟨value, hvalue⟩ := Option.isSome_iff_exists.mp hsome
  refine ⟨value, ?_⟩
  rw [Row.value, orRaise_eq_ok_iff.mp hcolumn]
  exact hvalue

def Frame.dates (raw : Frame) : Option (List Date) :=
  (DailyField.date.findColumn raw.columns).bind fun column =>
    CellReader.dates (raw.rows.map fun row => row column)

/-- What is known of a frame whose bars are read. -/
structure ReadsBars (raw : Frame) (symbol : Symbol) (provenance : Provenance)
    (bars : List DailyBar) : Prop where
  numbers : ∀ field ∈ DailyField.required, field ≠ .date → ∀ row ∈ raw.rows,
    ∃ value, row.value raw.columns field = some value
  bars_eq : ∃ dates, raw.dates = some dates ∧ bars =
    List.zipWith (fun row date => row.bar raw.columns symbol provenance date) raw.rows dates

theorem readBars_ok {raw : Frame} {symbol : Symbol} {provenance : Provenance}
    {bars : List DailyBar} (h : readBars raw symbol provenance = .ok bars) :
    ReadsBars raw symbol provenance bars := by
  obtain ⟨_, _, h⟩ := bind_eq_ok_iff.mp h
  obtain ⟨column, hcolumn, h⟩ := bind_eq_ok_iff.mp h
  obtain ⟨dates, hdates, h⟩ := bind_eq_ok_iff.mp h
  obtain ⟨_, hopening, h⟩ := bind_eq_ok_iff.mp h
  obtain ⟨_, hhigh, h⟩ := bind_eq_ok_iff.mp h
  obtain ⟨_, hlow, h⟩ := bind_eq_ok_iff.mp h
  obtain ⟨_, hclose, h⟩ := bind_eq_ok_iff.mp h
  obtain ⟨_, hvolume, h⟩ := bind_eq_ok_iff.mp h
  obtain ⟨_, hamount, h⟩ := bind_eq_ok_iff.mp h
  cases h
  refine ⟨fun field hfield hdate row hrow => ?_, dates, ?_, rfl⟩
  · simp only [DailyField.required, List.mem_cons, List.not_mem_nil, or_false] at hfield
    rcases hfield with rfl | rfl | rfl | rfl | rfl | rfl | rfl
    · exact absurd rfl hdate
    · exact Frame.requireNumbers_ok hopening hrow
    · exact Frame.requireNumbers_ok hhigh hrow
    · exact Frame.requireNumbers_ok hlow hrow
    · exact Frame.requireNumbers_ok hclose hrow
    · exact Frame.requireNumbers_ok hvolume hrow
    · exact Frame.requireNumbers_ok hamount hrow
  · rw [Frame.dates, orRaise_eq_ok_iff.mp hcolumn]
    exact orRaise_eq_ok_iff.mp hdates

theorem ReadsBars.mem {raw : Frame} {symbol : Symbol} {provenance : Provenance}
    {bars : List DailyBar} (h : ReadsBars raw symbol provenance bars) {bar : DailyBar}
    (hbar : bar ∈ bars) :
    ∃ row ∈ raw.rows, ∃ date, bar = row.bar raw.columns symbol provenance date := by
  obtain ⟨dates, _, rfl⟩ := h.bars_eq
  obtain ⟨index, hindex, hget⟩ := List.mem_iff_getElem.mp hbar
  rw [List.getElem_zipWith] at hget
  exact ⟨_, List.getElem_mem _, _, hget.symm⟩

/-- What a normalized frame has. -/
theorem normalizeDailyBars_ok {raw : Frame} {symbol : Symbol} {provenance : Provenance}
    {bars : List DailyBar} (h : normalizeDailyBars raw symbol provenance = .ok bars) :
    raw.Empty ∧ bars = [] ∨
      ∃ read, ReadsBars raw symbol provenance read ∧ bars = lastByKey DailyBar.date read ∧
        ∀ bar ∈ read, bar.InRange := by
  rw [normalizeDailyBars] at h
  by_cases hempty : raw.Empty
  · rw [if_pos hempty] at h
    cases h
    exact Or.inl ⟨hempty, rfl⟩
  · rw [if_neg hempty] at h
    obtain ⟨read, hread, h⟩ := bind_eq_ok_iff.mp h
    obtain ⟨_, hprices, h⟩ := bind_eq_ok_iff.mp h
    obtain ⟨_, hamounts, h⟩ := bind_eq_ok_iff.mp h
    obtain ⟨_, hhighest, h⟩ := bind_eq_ok_iff.mp h
    cases h
    refine Or.inr ⟨read, readBars_ok hread, rfl, fun bar hbar => ?_⟩
    exact ⟨require_eq_ok_iff.mp hprices bar hbar, require_eq_ok_iff.mp hamounts bar hbar,
      require_eq_ok_iff.mp hhighest bar hbar⟩

end QuantWorkbench.Data
