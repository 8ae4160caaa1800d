import QuantWorkbench.Data.Normalization
import QuantWorkbench.Lib.Tables
import QuantWorkbench.Market.TradingCalendar

/-!
The point-in-time feature store: a feature row may be seen from its effective date on, which is
found from its announcement, and the newest row that may be seen answers a query.
-/

namespace QuantWorkbench.Features

open Lib Data Market

/-! ### Tables -/

structure PITConfig where
  announcementDayPolicy : String := "next_trading_day"
  allowSameDayAnnouncement : Bool := false
  unknownAnnouncementDate : String := "reject"

/-- A row may be seen on the day of its announcement. -/
def PITConfig.SameDay (config : PITConfig) : Prop :=
  config.allowSameDayAnnouncement = true ∨ config.announcementDayPolicy = "same_day"

instance (config : PITConfig) : Decidable config.SameDay :=
  inferInstanceAs (Decidable (_ ∨ _))

/-- A row of features with instants of type `T`. A column that the table does not have is blank. -/
structure PitRow (T O : Type) where
  symbol : Text
  tradeDate : DateCell
  reportPeriod : DateCell
  announcementDate : DateCell
  ingestTime : Option T
  effectiveDate : DateCell
  source : Option Text
  dataVersion : Option Text
  features : O

structure PitFrame (T O : Type) where
  columns : List String
  rows : List (PitRow T O)

/-- A row of the normalized table. -/
structure StoredRow (T O : Type) where
  symbol : Symbol
  tradeDate : Option Date
  reportPeriod : Date
  announcementDate : Option Date
  effectiveDate : Option Date
  ingestTime : T
  source : Text
  dataVersion : Text
  features : O

variable {T O : Type}

/-! ### Trading days -/

def bisectRight (calendar : List Date) (current : Date) : ℕ :=
  (calendar.takeWhile fun day => day ≤ current).length

/-- The loop over weekends of `_next_trading_day`. -/
def skipWeekend : ℕ → Date → Except String Date
  | 0, _ => .error "date value out of range"
  | fuel + 1, candidate =>
      if 5 ≤ weekday candidate then do
        skipWeekend fuel (← orRaise candidate.next? "date value out of range")
      else .ok candidate

def nextTradingDay (calendar : List Date) (current : Date) : Except String Date :=
  let shown := String.ofList current.isoformat
  if calendar ≠ [] then
    orRaise calendar[bisectRight calendar current]? s!"trading calendar has no date after {shown}"
  else do skipWeekend 3 (← orRaise current.next? "date value out of range")

def normalizeCalendar (values : List Date) : List Date := sortValues id values.dedup

/-! ### Preparation -/

/-- The first day on which an announcement may be seen. -/
def minimumEffective (config : PITConfig) (calendar : List Date) (announcement : Date) :
    Except String Date :=
  if config.SameDay then .ok announcement else nextTradingDay calendar announcement

def resolveEffectiveDate (config : PITConfig) (calendar : List Date) (announcement : Option Date)
    (explicit : Option Date) : Except String (Option Date) :=
  match announcement with
  | none =>
      if config.unknownAnnouncementDate = "reject" then
        .error "announcement_date is required for PIT visibility"
      else .ok none
  | some announcement => do
      let minimum ← minimumEffective config calendar announcement
      match explicit with
      | some explicit =>
          require (¬ explicit < announcement) "effective_date cannot precede announcement_date"
          return some (max explicit minimum)
      | none => return some minimum

/-- A column of dates is read. -/
def checkDateColumn (field : String) (cells : List DateCell) : Except String Unit :=
  require (∀ cell ∈ cells, cell ≠ .invalid) s!"invalid {field} value"

def storedRow (config : PITConfig) (calendar : List Date) (row : PitRow T O) :
    Except String (StoredRow T O) := do
  let symbol ← checkSymbol row.symbol
  let reportPeriod ← orRaise row.reportPeriod.day? "report_period cannot be null"
  let ingestTime ← orRaise row.ingestTime "invalid ingest_time value"
  let effectiveDate ←
    resolveEffectiveDate config calendar row.announcementDate.day? row.effectiveDate.day?
  return {
    symbol
    tradeDate := row.tradeDate.day?
    reportPeriod
    announcementDate := row.announcementDate.day?
    effectiveDate
    ingestTime
    source := row.source.getD "unknown".toList
    dataVersion := row.dataVersion.getD "pit-v1".toList
    features := row.features }

def requiredColumns : List String := ["symbol", "report_period", "announcement_date", "ingest_time"]

def prepare (config : PITConfig) (calendar : List Date) (frame : PitFrame T O) :
    Except String (List (StoredRow T O)) := do
  let missing := requiredColumns.filter (· ∉ frame.columns)
  let named := ", ".intercalate missing
  require (missing = []) s!"missing required PIT columns: {named}"
  let _ ← frame.rows.mapM fun row => checkSymbol row.symbol
  checkDateColumn "trade_date" (frame.rows.map PitRow.tradeDate)
  checkDateColumn "report_period" (frame.rows.map PitRow.reportPeriod)
  require (∀ row ∈ frame.rows, row.reportPeriod ≠ .blank) "report_period cannot be null"
  checkDateColumn "announcement_date" (frame.rows.map PitRow.announcementDate)
  require (∀ row ∈ frame.rows, row.ingestTime.isSome = true) "invalid ingest_time value"
  checkDateColumn "effective_date" (frame.rows.map PitRow.effectiveDate)
  let policy := config.announcementDayPolicy
  require (policy = "next_trading_day" ∨ policy = "same_day")
    s!"unsupported announcement day policy: {policy}"
  let unknownPolicy := config.unknownAnnouncementDate
  require (unknownPolicy = "reject" ∨ unknownPolicy = "exclude")
    s!"unsupported unknown announcement policy: {unknownPolicy}"
  frame.rows.mapM (storedRow config calendar)

/-! ### Queries -/

/-- The store of a normalized table. -/
structure PITFeatureStore (T O : Type) where
  rows : List (StoredRow T O)

/-- The constructor. -/
def PITFeatureStore.create (frame : PitFrame T O) (config : PITConfig)
    (tradingCalendar : List Date) : Except String (PITFeatureStore T O) :=
  (prepare config (normalizeCalendar tradingCalendar) frame).map PITFeatureStore.mk

/-- A date in a column that is sorted with missing ones last. -/
def missingLast : Option Date → WithTop Date
  | some day => day
  | none => ⊤

namespace StoredRow

def visibleOn (asOf : Date) (symbol : Symbol) (row : StoredRow T O) : Bool :=
  decide (row.symbol = symbol) && row.effectiveDate.any fun day => day ≤ asOf

def sortColumns (row : StoredRow T O) :
    WithTop Date ×ₗ WithTop Date ×ₗ T ×ₗ Date ×ₗ WithTop Date :=
  toLex (missingLast row.effectiveDate, toLex (missingLast row.announcementDate,
    toLex (row.ingestTime, toLex (row.reportPeriod, missingLast row.tradeDate))))

end StoredRow

namespace PITFeatureStore

variable [LinearOrder T]

def newestVisible (store : PITFeatureStore T O) (symbol : Symbol) (asOf : Date) :
    List (StoredRow T O) :=
  let visible := sortValues StoredRow.sortColumns
    (store.rows.filter (StoredRow.visibleOn asOf symbol))
  visible.drop (visible.length - 1)

def getFeaturesAsof (store : PITFeatureStore T O) (symbol : Text) (asOf : Date) :
    Except String (List (StoredRow T O)) := do
  return store.newestVisible (← checkSymbol symbol) asOf

def getAllFeaturesAsof (store : PITFeatureStore T O) (asOf : Date) : List (StoredRow T O) :=
  (fromKeys (store.rows.map StoredRow.symbol)).flatMap fun symbol => store.newestVisible symbol asOf

end PITFeatureStore

end QuantWorkbench.Features
