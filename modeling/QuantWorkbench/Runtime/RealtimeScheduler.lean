import QuantWorkbench.Data.RealtimeQuality
import QuantWorkbench.Lib.Calendar

/-!
The real-time scheduler. A tick asks for the priority quotes, takes a full-market
snapshot that a worker thread has delivered since the last tick, and otherwise
starts the worker or fetches a snapshot itself. What a provider call gives is an
input of the tick; an exception is the name of its type.
-/

namespace QuantWorkbench.Runtime

open QuantWorkbench.Lib QuantWorkbench.Data

inductive MarketSession where
  | preMarket
  | isOpen
  | lunchBreak
  | closed
  | nonTrading
  deriving DecidableEq

def MarketSession.nonOpenReason : MarketSession → String
  | .preMarket => "MARKET_NOT_OPEN"
  | .lunchBreak => "MARKET_LUNCH_BREAK"
  | .closed => "MARKET_CLOSED"
  | .nonTrading => "MARKET_CLOSED"
  | .isOpen => ""

/-- Times of day in microseconds. -/
structure MarketHours where
  preMarketStart : ℕ := 32400000000
  openStart : ℕ := 34200000000
  morningEnd : ℕ := 41400000000
  afternoonStart : ℕ := 46800000000
  closeEnd : ℕ := 54000000000
  deriving DecidableEq

/-- The calendar answers `none` where it raises `CalendarUnavailableError`. -/
structure SchedulerSettings where
  hours : MarketHours
  isTradingDay : Date → Option Bool
  localDate : Timestamp → Date
  localTime : Timestamp → ℕ
  symbols : List Text
  fullMarketIntervalSeconds : ℚ
  staleAfterSeconds : ℚ
  interval_ge : 60 ≤ fullMarketIntervalSeconds

structure MinuteBar where
  symbol : Symbol
  timestamp : Timestamp
  frequency : Text
  deriving DecidableEq

abbrev BarKey := Symbol × Text × Timestamp

structure RealTimeStore where
  quotes : AList fun _ : Symbol => RealTimeQuote
  provisional : AList fun _ : BarKey => MinuteBar

structure SchedulerTick where
  timestamp : Timestamp
  session : MarketSession
  requested : Bool
  updated : Bool
  quoteCount : ℕ := 0
  barCount : ℕ := 0
  qualityStatus : Option DataQualityStatus := none
  skipReason : String := ""
  error : String := ""
  priorityOnly : Bool := false
  deriving DecidableEq

abbrev Provided (α : Type) := Except String α

/-- The worker is alive until some time after it has delivered. -/
inductive FullMarketThread where
  | idle
  | fetching
  | delivered
  deriving DecidableEq

structure SchedulerWorld where
  prioritySymbols : List Text
  expectedSymbols : List Text
  store : RealTimeStore
  timestampTracker : TimestampTracker
  circuitOpen : Bool
  lastFullMarketAt : Option ℚ
  pendingFullSnapshot : Option (List RealTimeQuote)
  pendingFullError : Option String
  fullMarketThread : FullMarketThread

/-- What the clocks and the provider give a tick. `minuteBars` are asked for after the
snapshot of the worker, `fetchedBars` after one the tick has fetched itself. `late` is
what the worker delivers, if it ends after the tick has looked for its result. -/
structure TickInput where
  now : Timestamp
  priorityQuotes : Provided (List RealTimeQuote)
  monotonic : ℚ
  marketSnapshot : Provided (List RealTimeQuote)
  minuteBars : Provided (List MinuteBar)
  fetchedBars : Provided (List MinuteBar)
  late : Option (Provided (List RealTimeQuote))

namespace RealTimeStore

def putQuote (quotes : AList fun _ : Symbol => RealTimeQuote) (quote : RealTimeQuote) :
    AList fun _ : Symbol => RealTimeQuote :=
  match quotes.lookup quote.symbol with
  | some previous =>
      if previous.timestampReceived ≤ quote.timestampReceived then
        quotes.insert quote.symbol quote
      else quotes
  | none => quotes.insert quote.symbol quote

def putQuotes (store : RealTimeStore) (quotes : List RealTimeQuote) : RealTimeStore :=
  { store with quotes := quotes.foldl putQuote store.quotes }

/-- The complete market generation is replaced and vanished rows are not retained. -/
def replaceQuoteSnapshot (store : RealTimeStore) (quotes : List RealTimeQuote) :
    RealTimeStore :=
  { store with quotes := quotes.foldl (fun all quote => all.insert quote.symbol quote) ∅ }

def putMinuteBars (store : RealTimeStore) (bars : List MinuteBar) : RealTimeStore :=
  let keep := fun (all : AList fun _ : BarKey => MinuteBar) (bar : MinuteBar) =>
    all.insert (bar.symbol, bar.frequency, bar.timestamp) bar
  { store with provisional := bars.foldl keep store.provisional }

end RealTimeStore

def observeQuote (now : Timestamp) (tracker : TimestampTracker) (quote : RealTimeQuote) :
    TimestampTracker × RealTimeQuote × Bool :=
  match tracker.observe 0 quote.symbol.text quote.timestampExchange now with
  | .ok observed => (observed, quote, false)
  | .error _ => (tracker, quote.quarantined, true)

/-- A batch in order: the tracker after it, the quotes as they are left, and whether
one was quarantined. -/
def observeQuotes (now : Timestamp) :
    TimestampTracker → List RealTimeQuote → TimestampTracker × List RealTimeQuote × Bool
  | tracker, [] => (tracker, [], false)
  | tracker, quote :: rest =>
      let observed := observeQuote now tracker quote
      let others := observeQuotes now observed.1 rest
      (others.1, observed.2.1 :: others.2.1, observed.2.2 || others.2.2)

namespace SchedulerSettings

variable (c : SchedulerSettings)

def resolve (now : Timestamp) : Option MarketSession :=
  match c.isTradingDay (c.localDate now) with
  | none => none
  | some false => some .nonTrading
  | some true =>
      let current := c.localTime now
      if current < c.hours.preMarketStart ∨ c.hours.closeEnd ≤ current then some .closed
      else if current < c.hours.openStart then some .preMarket
      else if current < c.hours.morningEnd then some .isOpen
      else if current < c.hours.afternoonStart then some .lunchBreak
      else if current < c.hours.closeEnd then some .isOpen
      else some .closed

/-- The quotes are observed whether or not the report can be made. -/
def checkQuotes (quotes : List RealTimeQuote) (now : Timestamp) (w : SchedulerWorld) :
    SchedulerWorld × Provided (QuoteQualityReport × Bool) :=
  let observed := observeQuotes now w.timestampTracker quotes
  let w := { w with timestampTracker := observed.1 }
  match assessQuoteQuality observed.2.1 w.expectedSymbols now c.staleAfterSeconds with
  | .error name => (w, .error name)
  | .ok report =>
      ({ w with circuitOpen := circuitState report.status }, .ok (report, observed.2.2))

/-- The report of the priority quotes, how many were stored and what went wrong. -/
structure PriorityOutcome where
  report : Option QuoteQualityReport
  count : ℕ
  error : Option String

def noPriority : PriorityOutcome := ⟨none, 0, none⟩

def PriorityOutcome.usable (outcome : PriorityOutcome) : Option QuoteQualityReport :=
  outcome.report.filter (·.isUsable)

def priorityPass (input : TickInput) (w : SchedulerWorld) : SchedulerWorld × PriorityOutcome :=
  if w.prioritySymbols = [] then (w, noPriority)
  else
    match input.priorityQuotes with
    | .error name => (w, ⟨none, 0, some name⟩)
    | .ok quotes =>
        match c.checkQuotes quotes input.now w with
        | (w, .error name) => (w, ⟨none, 0, some name⟩)
        | (w, .ok (report, _)) =>
            if report.isUsable then
              let usablePriority := freshQuotes report.quotes
              ({ w with store := w.store.putQuotes usablePriority },
                ⟨some report, usablePriority.length, none⟩)
            else (w, ⟨some report, 0, some "RuntimeError"⟩)

def openTick (input : TickInput) (updated : Bool) : SchedulerTick :=
  { timestamp := input.now, session := .isOpen, requested := true, updated := updated }

def priorityTick (input : TickInput) (report : QuoteQualityReport) (count : ℕ)
    (error : String) (priorityOnly : Bool) : SchedulerTick :=
  { openTick input true with
    quoteCount := count
    qualityStatus := some report.status
    error := error
    priorityOnly := priorityOnly }

def processFullSnapshot (quotes : List RealTimeQuote) (minuteBars : Provided (List MinuteBar))
    (input : TickInput) (priority : PriorityOutcome) (w : SchedulerWorld) :
    SchedulerWorld × Provided SchedulerTick :=
  match c.checkQuotes quotes input.now w with
  | (w, .error name) => (w, .error name)
  | (w, .ok (report, timestampQuarantined)) =>
      if report.isUsable then
        let usableQuotes := freshQuotes report.quotes
        let w := { w with store := w.store.replaceQuoteSnapshot usableQuotes }
        match (if c.symbols = [] then .ok [] else minuteBars) with
        | .error name => (w, .error name)
        | .ok bars =>
            ({ w with store := w.store.putMinuteBars bars },
              .ok { openTick input true with
                quoteCount := usableQuotes.length
                barCount := bars.length
                qualityStatus := some report.status
                error := if timestampQuarantined then "PARTIAL_DATA_STALE" else "" })
      else
        match priority.usable with
        | some usable =>
            (w, .ok (priorityTick input usable priority.count "FULL_MARKET_DATA_STALE" false))
        | none =>
            (w, .ok { openTick input false with
              qualityStatus := some report.status
              error := "DATA_STALE" })

def deliver (result : Provided (List RealTimeQuote)) (w : SchedulerWorld) : SchedulerWorld :=
  match result with
  | .ok snapshot => { w with pendingFullSnapshot := some snapshot, pendingFullError := none }
  | .error name => { w with pendingFullSnapshot := none, pendingFullError := some name }

/-- The worker may deliver and end before its thread is looked at. -/
def endLate (input : TickInput) (w : SchedulerWorld) : SchedulerWorld :=
  match input.late with
  | some result =>
      if w.fullMarketThread = .fetching then
        { deliver result w with fullMarketThread := .idle }
      else w
  | none => w

def startAsyncFullMarketRefresh (w : SchedulerWorld) : SchedulerWorld :=
  if w.fullMarketThread = .idle then { w with fullMarketThread := .fetching } else w

def fullMarketDue (monotonic : ℚ) (w : SchedulerWorld) : Bool :=
  match w.lastFullMarketAt with
  | none => true
  | some last => c.fullMarketIntervalSeconds ≤ monotonic - last

/-- The rest of a tick in which no snapshot of the worker was used up. -/
def continueTick (input : TickInput) (priority : PriorityOutcome) (w : SchedulerWorld) :
    SchedulerWorld × SchedulerTick :=
  if w.prioritySymbols ≠ [] ∧ c.fullMarketDue input.monotonic w = false then
    match priority.usable with
    | some report => (w, priorityTick input report priority.count "" true)
    | none =>
        (w, { openTick input false with
          qualityStatus := some .failed
          error := priority.error.getD "DATA_STALE" })
  else
    let w := { w with lastFullMarketAt := some input.monotonic }
    match (if w.prioritySymbols = [] then none else priority.usable) with
    | some report =>
        (startAsyncFullMarketRefresh w, priorityTick input report priority.count "" true)
    | none =>
        let processed : SchedulerWorld × Provided SchedulerTick :=
          match input.marketSnapshot with
          | .ok snapshot => c.processFullSnapshot snapshot input.fetchedBars input priority w
          | .error name => (w, .error name)
        match processed with
        | (w, .ok tick) => (w, tick)
        | (w, .error name) =>
            match priority.usable with
            | some report =>
                (w, priorityTick input report priority.count "FULL_MARKET_UNAVAILABLE" false)
            | none =>
                ({ w with circuitOpen := true },
                  { openTick input false with
                    qualityStatus := some .failed
                    error := name })

/-- Reads and clears what the worker has delivered. -/
def takePendingFullResult (w : SchedulerWorld) : SchedulerWorld :=
  { w with pendingFullSnapshot := none, pendingFullError := none }

def openRun (input : TickInput) (w : SchedulerWorld) : SchedulerWorld × SchedulerTick :=
  let (w, priority) := c.priorityPass input w
  let pendingSnapshot := w.pendingFullSnapshot
  let pendingError := w.pendingFullError
  let w := endLate input (takePendingFullResult w)
  match pendingSnapshot with
  | some snapshot =>
      match c.processFullSnapshot snapshot input.minuteBars input priority w with
      | (w, .ok tick) => (w, tick)
      | (w, .error _) =>
          match priority.usable with
          | some report =>
              (w, priorityTick input report priority.count "FULL_MARKET_UNAVAILABLE" false)
          | none => c.continueTick input priority w
  | none =>
      match pendingError, priority.usable with
      | some _, some report =>
          (w, priorityTick input report priority.count "FULL_MARKET_UNAVAILABLE" false)
      | _, _ => c.continueTick input priority w

def runOnce (input : TickInput) (w : SchedulerWorld) : SchedulerWorld × SchedulerTick :=
  match c.resolve input.now with
  | none =>
      (w, {
        timestamp := input.now, session := .nonTrading, requested := false, updated := false
        skipReason := "CALENDAR_UNAVAILABLE", error := "CALENDAR_UNAVAILABLE" })
  | some .isOpen => c.openRun input w
  | some session =>
      (w, {
        timestamp := input.now, session := session, requested := false, updated := false
        skipReason := session.nonOpenReason })

end SchedulerSettings

/-- Ticks, the worker's progress and the workbench's changes of the symbols. -/
inductive SchedulerInput where
  | tick (input : TickInput)
  | workerDelivers (result : Provided (List RealTimeQuote))
  | workerEnds
  | prioritize (prioritySymbols expectedSymbols : List Text)

def SchedulerSettings.step (c : SchedulerSettings) (w : SchedulerWorld) :
    SchedulerInput → SchedulerWorld
  | .tick input => (c.runOnce input w).1
  | .workerDelivers result =>
      if w.fullMarketThread = .fetching then
        { SchedulerSettings.deliver result w with fullMarketThread := .delivered }
      else w
  | .workerEnds =>
      if w.fullMarketThread = .delivered then { w with fullMarketThread := .idle } else w
  | .prioritize prioritySymbols expectedSymbols =>
      { w with prioritySymbols := prioritySymbols, expectedSymbols := expectedSymbols }

end QuantWorkbench.Runtime
