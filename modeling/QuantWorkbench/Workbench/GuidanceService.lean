import QuantWorkbench.Storage.OfficialSignalRuns
import QuantWorkbench.Storage.PriceGuidanceRuns
import QuantWorkbench.Storage.PublicRisk
import QuantWorkbench.Workbench.GuidanceView

/-!
The running service of `workbench/service.py` as far as the guidance of its rows is concerned: the
stores and the snapshot it reads, and the events that write its rows. The scheduler may store quotes
before the tick that shows them.
-/

namespace QuantWorkbench.Workbench

open Lib Data Advisory Intelligence Signals Storage

structure GuidanceSettings where
  publicRiskRequired : Bool
  publicRiskMaxAgeSeconds : ℚ
  staleAfterSeconds : ℚ

/-- `state.data_quality`. -/
inductive ShownQuality where
  | status (quality : DataQualityStatus)
  | replay
  deriving DecidableEq

/-- The readings of the clock while the rows of both lists are computed: the first one, and one for
the event risk of each row. -/
structure ClockReadings where
  now : AwareDateTime
  daily : ℕ → AwareDateTime
  monitor : ℕ → AwareDateTime

section

variable {F : Type} [FloatFormat F] [CaseTable] [UrlTable] [FoldTable]

structure WorkbenchService (F : Type) [FloatFormat F] [CaseTable] [UrlTable] [FoldTable] where
  signals : List (OfficialModelSignal F)
  plans : List PriceGuidancePlan
  publicRiskSnapshot : Option PublicRiskSnapshot
  publicRiskStatus : Text
  quotes : QuotesBySymbol F
  cachedSnapshot : Option (List (DashboardQuote F))
  dataQuality : ShownQuality
  officialDailyCandidates : List (DailyRow F)
  intradayMonitor : List (MonitorRow F)

namespace WorkbenchService

def guidancePlan (service : WorkbenchService F) (symbol : Symbol) : Option PriceGuidancePlan :=
  (service.plans.filter fun plan => plan.planType = .dailyCandidate).reverse.find?
    fun plan => plan.symbol = symbol

def riskAssessment (settings : GuidanceSettings) (service : WorkbenchService F) (symbol : Symbol)
    (reading : AwareDateTime) : Option PublicRiskAssessment :=
  match service.publicRiskSnapshot.bind fun snapshot => snapshot.bySymbol.get? symbol with
  | some assessment =>
      some (effectiveRiskAssessment assessment reading service.publicRiskStatus
        settings.publicRiskMaxAgeSeconds)
  | none =>
      if settings.publicRiskRequired = true then
        some {
          symbol
          name := ⟨symbol.text, symbol.strip_text, symbol.text_ne_nil⟩
          level := .unknown
          reasonCodes := ⟨[notChecked], List.nodup_singleton _⟩
          events := []
          checkedAt := reading.utc
          ownEvents := by simp
          ordered := List.Pairwise.nil }
      else none

def dailyRows (settings : GuidanceSettings) (service : WorkbenchService F)
    (readings : ClockReadings) : List (DailyRow F) :=
  service.signals.mapIdx fun index signal =>
    officialSignalPayload signal (service.guidancePlan signal.symbol)
      (service.riskAssessment settings signal.symbol (readings.daily index))

/-- The quote beside which a row is shown: the stored one, unless it has moved on. -/
def visibleQuote (service : WorkbenchService F) (row : MonitorRow F) :
    Option (DashboardQuote F) :=
  (service.quotes.get? row.symbol).filter fun quote => row.SameQuote quote

def visibleQuality (settings : GuidanceSettings) (service : WorkbenchService F)
    (row : MonitorRow F) (now : AwareDateTime) : DataQualityStatus :=
  match service.visibleQuote row with
  | none => .stale
  | some quote =>
      if service.dataQuality = .status .good ∨ service.dataQuality = .replay then
        quote.effectiveQuality .good now settings.staleAfterSeconds
      else .stale

def refreshedRow (settings : GuidanceSettings) (service : WorkbenchService F)
    (readings : ClockReadings) (index : ℕ) (row : MonitorRow F) : MonitorRow F :=
  let assessment := service.riskAssessment settings row.symbol (readings.monitor index)
  { row with
    priceGuidance := applyEventRisk
      (quoteGuidancePayload (service.guidancePlan row.symbol) (service.visibleQuote row)
        (service.visibleQuality settings row readings.now) readings.now) assessment
    eventRisk := eventRiskPayload assessment }

def refreshPublicRiskView (settings : GuidanceSettings) (service : WorkbenchService F)
    (readings : ClockReadings) : WorkbenchService F :=
  { service with
    officialDailyCandidates := service.dailyRows settings readings
    intradayMonitor := service.intradayMonitor.mapIdx (service.refreshedRow settings readings) }

/-! ### Events -/

def putQuote (quotes : QuotesBySymbol F) (quote : DashboardQuote F) : QuotesBySymbol F :=
  match quotes.get? quote.symbol with
  | none => quotes.put quote
  | some previous =>
      if previous.timestampReceived.utc ≤ quote.timestampReceived.utc then quotes.put quote
      else quotes

/-- The order of the rows: the candidates first. -/
def quoteOrder (service : WorkbenchService F) (quote : DashboardQuote F) : ℕ ×ₗ Text :=
  toLex (if ∃ signal ∈ service.signals, signal.symbol = quote.symbol then 0 else 1,
    quote.symbol.text)

/-- `_apply_quote_state`; no row is written when an overlay of the batch is refused. -/
def applyQuoteState (settings : GuidanceSettings) (service : WorkbenchService F)
    (quotes : List (DashboardQuote F)) (quality : DataQualityStatus) (readings : ClockReadings)
    (overlaysAccepted : Bool) : WorkbenchService F :=
  let ordered := quotes.insertionSort fun quote other =>
    service.quoteOrder quote ≤ service.quoteOrder other
  if overlaysAccepted = true then
    { service with
      intradayMonitor := (ordered.take 100).mapIdx fun index quote =>
        let quoteQuality :=
          quote.effectiveQuality quality readings.now settings.staleAfterSeconds
        monitorPayload quote
          (service.signals.reverse.find? fun signal => signal.symbol = quote.symbol) quoteQuality
          (quoteGuidancePayload (service.guidancePlan quote.symbol) (some quote) quoteQuality
            readings.now)
          (service.riskAssessment settings quote.symbol (readings.monitor index))
      officialDailyCandidates := service.dailyRows settings readings }
  else service

def applyCachedState (settings : GuidanceSettings) (service : WorkbenchService F)
    (quotes : List (DashboardQuote F)) (readings : ClockReadings) (overlaysAccepted : Bool) :
    WorkbenchService F :=
  let applied := service.applyQuoteState settings quotes .stale readings overlaysAccepted
  if overlaysAccepted = true then { applied with dataQuality := .status .stale } else applied

def applyStoredSignalState (settings : GuidanceSettings) (service : WorkbenchService F)
    (readings : ClockReadings) : WorkbenchService F :=
  { service with
    officialDailyCandidates := service.dailyRows settings readings
    intradayMonitor := service.signals.mapIdx fun index signal =>
      staleCandidatePayload signal
        (quoteGuidancePayload (service.guidancePlan signal.symbol)
          (none : Option (DashboardQuote F)) .failed readings.now)
        (service.riskAssessment settings signal.symbol (readings.monitor index)) }

/-- A tick as it is applied, with the quality that its report ends with. -/
structure TickResult where
  updated : Bool
  quality : DataQualityStatus
  replay : Bool
  cacheWritten : Bool
  readings : ClockReadings
  overlaysAccepted : Bool

def applyTick (settings : GuidanceSettings) (service : WorkbenchService F) (tick : TickResult) :
    WorkbenchService F :=
  if tick.updated = true then
    let fresh := service.quotes.values.filter fun quote => quote.isStale = false
    let cached := if tick.cacheWritten = true ∧ fresh ≠ [] then
      some (fresh.map DashboardQuote.asCached) else service.cachedSnapshot
    let reported := { service with
      cachedSnapshot := cached
      dataQuality := if tick.replay = true then .replay else .status tick.quality }
    reported.applyQuoteState settings reported.quotes.values
      (if tick.replay = true then .good else tick.quality) tick.readings tick.overlaysAccepted
  else
    match service.cachedSnapshot with
    | some quotes => service.applyCachedState settings quotes tick.readings tick.overlaysAccepted
    | none => { service with dataQuality := .status tick.quality }

def applyUnavailableState (settings : GuidanceSettings) (service : WorkbenchService F)
    (readings : ClockReadings) (overlaysAccepted : Bool) : WorkbenchService F :=
  match service.cachedSnapshot with
  | some quotes => service.applyCachedState settings quotes readings overlaysAccepted
  | none => { service with dataQuality := .status .failed }

end WorkbenchService

inductive ServiceEvent (F : Type) [FloatFormat F] [CaseTable] [UrlTable] [FoldTable] where
  /-- The scheduler's thread puts quotes into the store, or replaces them all. -/
  | putQuotes (quotes : List (DashboardQuote F))
  | replaceQuoteSnapshot (quotes : List (DashboardQuote F))
  | tick (result : WorkbenchService.TickResult)
  | unavailable (readings : ClockReadings) (overlaysAccepted : Bool)
  /-- The stores of the signals and of the plans have other content. -/
  | signalsReplaced (latest : List (OfficialModelSignal F))
  | plansReplaced (plans : List PriceGuidancePlan)
  | publishOfficialDaily (latest : List (OfficialModelSignal F)) (readings : ClockReadings)
  | publishPublicRisk (snapshot : Option PublicRiskSnapshot) (status : Text)
      (readings : ClockReadings)
  | snapshot (readings : ClockReadings)

namespace WorkbenchService

/-- `publish_public_risk` up to the view that it computes. -/
def withPublicRisk (service : WorkbenchService F) (snapshot : Option PublicRiskSnapshot)
    (status : Text) : WorkbenchService F :=
  { service with
    publicRiskSnapshot := snapshot.or service.publicRiskSnapshot
    publicRiskStatus := CaseTable.upper (Text.strip status) }

def step (settings : GuidanceSettings) (service : WorkbenchService F) :
    ServiceEvent F → WorkbenchService F
  | .putQuotes quotes => { service with quotes := quotes.foldl putQuote service.quotes }
  | .replaceQuoteSnapshot quotes => { service with quotes := quotes.foldl Keyed.put .empty }
  | .tick result => service.applyTick settings result
  | .unavailable readings overlaysAccepted =>
      service.applyUnavailableState settings readings overlaysAccepted
  | .signalsReplaced latest => { service with signals := latest }
  | .plansReplaced plans => { service with plans }
  | .publishOfficialDaily latest readings =>
      { service with signals := latest }.applyStoredSignalState settings readings
  | .publishPublicRisk snapshot status readings =>
      (service.withPublicRisk snapshot status).refreshPublicRiskView settings readings
  | .snapshot readings => service.refreshPublicRiskView settings readings

def viewed (service : WorkbenchService F) :
    ServiceEvent F → Option (WorkbenchService F × ClockReadings)
  | .publishPublicRisk snapshot status readings =>
      some (service.withPublicRisk snapshot status, readings)
  | .snapshot readings => some (service, readings)
  | _ => none

end WorkbenchService

/-! ### What a row may show -/

/-- The row shows the quote: its time, its price and everything else that it has of a quote. -/
structure MonitorRow.Shows (row : MonitorRow F) (quote : DashboardQuote F) : Prop where
  same : row.SameQuote quote
  changePct : row.changePct = quote.changePct
  source : row.source = quote.source
  receivedAt : row.quoteReceivedAt = some quote.timestampReceived.isoformat

/-- The exchange time of the quote is past and not too old, and its quality is good. -/
structure DashboardQuote.Usable (quote : DashboardQuote F) (now : AwareDateTime)
    (staleAfterSeconds : ℚ) : Prop where
  past : quote.timestampExchange.utc ≤ now.utc
  fresh : quote.dataAgeSeconds now ≤ staleAfterSeconds
  good : quote.qualityFlag = .good

/-- The guidance of a monitored row, if there is one: an evaluation of a valid plan at the stored
quote, which is the one of the row in the sense of `shows`. -/
def MonitorGuided (shows : MonitorRow F → DashboardQuote F → Prop) (settings : GuidanceSettings)
    (service : WorkbenchService F) (readings : ClockReadings) (index : ℕ) (row : MonitorRow F) :
    Prop :=
  row.priceGuidance.state ≠ .noReliableGuidance →
    ClearOrAbsent (service.riskAssessment settings row.symbol (readings.monitor index)) ∧
      ∃ plan quote, service.guidancePlan row.symbol = some plan ∧
        service.quotes.get? row.symbol = some quote ∧ shows row quote ∧
          quote.Usable readings.now settings.staleAfterSeconds ∧
            EvaluatedAt row.priceGuidance plan quote readings.now

def DailyCurrent (settings : GuidanceSettings) (service : WorkbenchService F)
    (readings : ClockReadings) (index : ℕ) (row : DailyRow F) : Prop :=
  row.priceGuidance.state ≠ .noReliableGuidance →
    ClearOrAbsent (service.riskAssessment settings row.signal.symbol (readings.daily index)) ∧
      ∃ plan, service.guidancePlan row.signal.symbol = some plan ∧
        row.priceGuidance.plan = some plan ∧ readings.now.date ≤ plan.validFor

def DailyFrozen (settings : GuidanceSettings) (service : WorkbenchService F)
    (readings : ClockReadings) (index : ℕ) (row : DailyRow F) : Prop :=
  row.priceGuidance.state ≠ .noReliableGuidance →
    ClearOrAbsent (service.riskAssessment settings row.signal.symbol (readings.daily index)) ∧
      ∃ plan, service.guidancePlan row.signal.symbol = some plan ∧
        row.priceGuidance = planPayload plan

/-- Every row of a view, beside its place in the list. -/
structure ViewMeets
    (daily : WorkbenchService F → ClockReadings → ℕ → DailyRow F → Prop)
    (monitor : WorkbenchService F → ClockReadings → ℕ → MonitorRow F → Prop)
    (settings : GuidanceSettings) (service : WorkbenchService F) (readings : ClockReadings) : Prop
    where
  daily : ∀ index row, (service.refreshPublicRiskView settings
    readings).officialDailyCandidates[index]? = some row → daily service readings index row
  monitor : ∀ index row, (service.refreshPublicRiskView settings
    readings).intradayMonitor[index]? = some row → monitor service readings index row

/-- Both lists fail closed, the daily rows on the expiry of their plans too. -/
def FailsClosed (settings : GuidanceSettings) : WorkbenchService F → ClockReadings → Prop :=
  ViewMeets (DailyCurrent settings) (MonitorGuided MonitorRow.Shows settings) settings

/-- The monitored rows fail closed and the daily rows show the frozen plans. -/
def FreezesDaily (settings : GuidanceSettings) : WorkbenchService F → ClockReadings → Prop :=
  ViewMeets (DailyFrozen settings) (MonitorGuided MonitorRow.SameQuote settings) settings

def ViewsMeet (property : GuidanceSettings → WorkbenchService F → ClockReadings → Prop)
    (settings : GuidanceSettings) (service : WorkbenchService F) (events : List (ServiceEvent F)) :
    Prop :=
  Runs.StepsMeet (WorkbenchService.step settings)
    (fun reached event => ∀ before readings, reached.viewed event = some (before, readings) →
      property settings before readings) service events

theorem dailyFrozen_row (settings : GuidanceSettings) (service : WorkbenchService F)
    (readings : ClockReadings) (index : ℕ) (signal : OfficialModelSignal F) :
    DailyFrozen settings service readings index
      (officialSignalPayload signal (service.guidancePlan signal.symbol)
        (service.riskAssessment settings signal.symbol (readings.daily index))) := by
  intro hreliable
  obtain ⟨hclear, hsame⟩ := clearOrAbsent_of_reliable hreliable
  rw [officialSignalPayload, hsame] at hreliable
  obtain ⟨frozen, hplan, hpayload⟩ := frozen_of_reliable hreliable
  exact ⟨hclear, frozen, hplan, hsame.trans hpayload⟩

theorem usable_of_visibleQuality {settings : GuidanceSettings} {service : WorkbenchService F}
    {row : MonitorRow F} {now : AwareDateTime} {quote : DashboardQuote F}
    (hvisible : service.visibleQuote row = some quote)
    (h : service.visibleQuality settings row now = .good) :
    quote.Usable now settings.staleAfterSeconds := by
  rw [WorkbenchService.visibleQuality, hvisible] at h
  simp only at h
  split at h
  · obtain ⟨hgood, hpast, hfresh⟩ := DashboardQuote.fresh_of_effectiveQuality h
    exact ⟨hpast, hfresh, hgood⟩
  · cases h

theorem monitorGuided_row (settings : GuidanceSettings) (service : WorkbenchService F)
    (readings : ClockReadings) (index : ℕ) (row : MonitorRow F) :
    MonitorGuided MonitorRow.SameQuote settings service readings index
      (service.refreshedRow settings readings index row) := by
  intro hreliable
  obtain ⟨hclear, hsame⟩ := clearOrAbsent_of_reliable hreliable
  rw [WorkbenchService.refreshedRow, hsame] at hreliable
  obtain ⟨plan, quote, hplan, hvisible, hgood, hevaluated⟩ := evaluatedAt_of_reliable hreliable
  have husable := usable_of_visibleQuality hvisible hgood
  obtain ⟨hstored, hshown⟩ := Option.filter_eq_some_iff.mp hvisible
  refine ⟨hclear, plan, quote, hplan, hstored, of_decide_eq_true hshown, husable, ?_⟩
  rw [WorkbenchService.refreshedRow, hsame]
  exact hevaluated

theorem freezesDaily (settings : GuidanceSettings) (service : WorkbenchService F)
    (readings : ClockReadings) : FreezesDaily settings service readings where
  daily := by
    intro index row hrow
    rw [WorkbenchService.refreshPublicRiskView, WorkbenchService.dailyRows,
      List.getElem?_mapIdx] at hrow
    obtain ⟨signal, _, rfl⟩ := Option.map_eq_some_iff.mp hrow
    exact dailyFrozen_row settings service readings index signal
  monitor := by
    intro index row hrow
    rw [WorkbenchService.refreshPublicRiskView, List.getElem?_mapIdx] at hrow
    obtain ⟨shown, _, rfl⟩ := Option.map_eq_some_iff.mp hrow
    exact monitorGuided_row settings service readings index shown

/-- Whatever happens to the service, a view of it shows no guidance of a monitored row but one that
was evaluated at the row's quote, and none of a daily row but its frozen plan. -/
theorem views_freezeDaily (settings : GuidanceSettings) (service : WorkbenchService F)
    (events : List (ServiceEvent F)) : ViewsMeet FreezesDaily settings service events := by
  induction events generalizing service with
  | nil => trivial
  | cons event rest ih =>
      exact ⟨fun before readings _ => freezesDaily settings before readings, ih _⟩

end

section Sample

@[reducible] def noUrls : UrlTable := ⟨fun _ => none⟩

attribute [local instance] CaseTable.caseless noUrls fiftyFormat lowercaseFold

def sampleMoment (day hour : ℕ) (hday : 1 ≤ day ∧ day ≤ 31) (hhour : hour < 24) :
    AwareDateTime where
  wall := ⟨⟨2026, 1, day, year2026_range, january_range, hday⟩, ⟨hour, hhour⟩, 0, 0, 0⟩
  offset := 0
  utc := ⟨⟨2026, 1, day, year2026_range, january_range, hday⟩, ⟨hour, hhour⟩, 0, 0, 0⟩
  sameMoment := rfl

/-- The last day of the sample plan, at two o'clock, and the day after. -/
def lastDay : AwareDateTime := sampleMoment 6 2 (by decide) (by decide)

def dayAfter : AwareDateTime := sampleMoment 7 2 (by decide) (by decide)

def readAt (moment : AwareDateTime) : ClockReadings := ⟨moment, fun _ => moment, fun _ => moment⟩

def sampleSettings : GuidanceSettings := ⟨false, 21600, 60⟩

def emptyService : WorkbenchService Unit where
  signals := []
  plans := []
  publicRiskSnapshot := none
  publicRiskStatus := "NOT_CONFIGURED".toList
  quotes := .empty
  cachedSnapshot := none
  dataQuality := .status .failed
  officialDailyCandidates := []
  intradayMonitor := []

def sampleQuote (source : Text) : DashboardQuote Unit where
  symbol := ⟨"600000".toList, Eq.refl true⟩
  name := none
  timestampExchange := lastDay
  timestampReceived := lastDay
  last := some ⟨(), by decide⟩
  changePct := none
  source
  qualityFlag := .good
  isStale := false
  staleFlagged := nofun

/-- The day after, nothing but a read happens. -/
def expiredPlan : List (ServiceEvent Unit) :=
  [.signalsReplaced [sampleSignal], .plansReplaced [samplePlan []], .snapshot (readAt dayAfter)]

/-- After the tick of one quote the scheduler stores another one of the same time and price. -/
def restampedQuote : List (ServiceEvent Unit) :=
  [.plansReplaced [samplePlan []], .putQuotes [sampleQuote ['a']],
    .tick ⟨true, .good, false, false, readAt lastDay, true⟩, .putQuotes [sampleQuote ['b']],
    .snapshot (readAt lastDay)]

/-- A daily row shows a plan whose days are over, and a monitored row the guidance of a quote that
is not the one it shows. -/
theorem expiredPlan_not_closed : ¬ ViewsMeet FailsClosed sampleSettings emptyService expiredPlan ∧
    ¬ ViewsMeet FailsClosed sampleSettings emptyService restampedQuote := by
  constructor
  · rintro ⟨_, _, hview, _⟩
    obtain ⟨_, plan, hplan, _, hvalid⟩ := (hview _ _ rfl).daily 0 _ rfl (by decide +kernel)
    cases hplan
    exact absurd hvalid (by decide)
  · rintro ⟨_, _, _, _, hview, _⟩
    obtain ⟨_, _, quote, _, hstored, hshows, _, _⟩ :=
      (hview _ _ rfl).monitor 0 _ rfl (by decide +kernel)
    cases hstored
    exact absurd hshows.source (by decide)

end Sample

end QuantWorkbench.Workbench
