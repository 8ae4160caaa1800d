import QuantWorkbench.Features.HistoricalUniverse
import QuantWorkbench.Features.RuleFactors
import QuantWorkbench.Market.TradingCalendar
import QuantWorkbench.Signals.OfficialModelSignal

/-!
The daily ranking. From the bars of a market, the stocks with a long history are scored on one
date by the rule factors, and those that pass the gates of liquidity and trend become signals.
-/

namespace QuantWorkbench.Research.Candidates

open Lib
open Lib.FloatColumns
open Data (normalizeSymbol)
open Features (InstrumentFrame RuleFactor RuleFactorConfig tradableUniverse)
open Signals (FoldTable OfficialModelSignal)

/-! ### Bars -/

/-- A row of daily bars, with its numbers as `to_numeric(errors="coerce")` reads them. -/
structure RawBar (F : Type) where
  symbol : Text
  date : DateCell
  source : Text
  «open» : F
  high : F
  low : F
  close : F
  volume : F
  amount : F
  /-- The factor column `value`, which only some frames have. -/
  value : F

structure BarFrame (F : Type) where
  columns : List Text
  rows : List (RawBar F)

/-- A prepared bar. -/
structure Bar (F : Type) where
  symbol : Text
  date : Date
  close : F
  volume : F
  amount : F
  value : F

def requiredColumns : List Text :=
  ["symbol".toList, "date".toList, "open".toList, "high".toList, "low".toList, "close".toList,
    "volume".toList, "amount".toList, "source".toList]

def disallowedSources : List Text :=
  ["fixture".toList, "replay".toList, "synthetic".toList, "test".toList, "test-data".toList]

def Bar.key {F : Type} (bar : Bar F) : Text ×ₗ Date := toLex (bar.symbol, bar.date)

section Bars

variable {F : Type} [FoldTable] [FloatColumns F]

def RawBar.foldedSource (row : RawBar F) : Text := FoldTable.casefold (Text.strip row.source)

/-- The row is of the one source that is ranked. -/
def RawBar.isBaostock (row : RawBar F) : Bool := row.foldedSource = "baostock".toList

def RawBar.hasMissing (row : RawBar F) : Bool :=
  [row.open, row.high, row.low, row.close, row.volume, row.amount].any isMissing

def RawBar.bar (row : RawBar F) : Option (Bar F) :=
  (normalizeSymbol row.symbol).bind fun symbol => row.date.day?.map fun date =>
    ⟨symbol.text, date, row.close, row.volume, row.amount, row.value⟩

def BarFrame.bars (frame : BarFrame F) : List (Bar F) :=
  (frame.rows.filter RawBar.isBaostock).filterMap RawBar.bar

def prepareBars (frame : BarFrame F) : Except String (List (Bar F)) := do
  require (frame.rows ≠ []) "daily bars must be a non-empty DataFrame"
  require (∀ column ∈ requiredColumns, column ∈ frame.columns) "daily bars missing columns"
  require (∀ row ∈ frame.rows, (normalizeSymbol row.symbol).isSome) "invalid symbol"
  require (∀ row ∈ frame.rows, row.date.day?.isSome) "daily bars contain invalid dates"
  require (∀ row ∈ frame.rows, row.foldedSource ∉ disallowedSources)
    "fixture or non-market daily bars cannot generate official signals"
  require (frame.rows.filter RawBar.isBaostock ≠ [])
    "initial free-data candidates require BaoStock daily bars"
  require (∀ row ∈ frame.rows, row.isBaostock → row.hasMissing = false)
    "daily bars contain invalid numeric values"
  return keepLast Bar.key (sortValues Bar.key frame.bars)

end Bars

/-! ### Requests -/

/-- A clock that was read, in the time zone of the exchange. -/
structure Clock where
  instant : UtcDateTime
  aware : Bool
  localDate : Date
  afterClose : Bool

/-- The arguments of a ranking. -/
structure RankingRequest (F : Type) where
  benchmark : Text
  asOf : Option DateCell
  topK : ℕ
  minHistory : ℕ
  minCrossSection : ℕ
  minAverageAmount : F
  engine : RuleFactorConfig F
  names : List (Text × Text)
  instruments : Option InstrumentFrame
  now : Clock
  requireFresh : Bool
  maxBusinessDayLag : ℤ
  modelBundleDigest : Text

section Ranking

variable {F : Type} [FloatColumns F]

def RankingRequest.validate (request : RankingRequest F) : Except String Unit := do
  require (1 ≤ request.topK) "top_k must be positive"
  require (60 ≤ request.minHistory) "min_history must be at least 60 trading days"
  require (2 ≤ request.minCrossSection) "min_cross_section must be at least 2"
  require (less request.minAverageAmount (ofRat 0) = false) "min_average_amount cannot be negative"

/-! ### Freshness -/

def yesterday (day : Date) : Option Date := day.previous?

/-- The loop of `previous_session`, which leaves the published year after at most 366 days. -/
def previousSessionFrom : ℕ → Date → Except String Date
  | 0, _ => .error "date value out of range"
  | fuel + 1, day => do
      let candidate ← orRaise (yesterday day) "date value out of range"
      if ← Market.isSession candidate then return candidate else previousSessionFrom fuel candidate

def Clock.latestCompletedSession (now : Clock) : Except String Date := do
  require (now.aware = true) "calendar clock must be timezone-aware"
  if (← Market.isSession now.localDate) ∧ now.afterClose = true then return now.localDate
  else previousSessionFrom 367 now.localDate

/-- The loop of `_business_day_distance`, from a day to a number of days later. -/
def sessionDistance : ℕ → Date → Except String ℤ
  | 0, _ => .ok 0
  | days + 1, current => do
      let next ← orRaise (Market.tomorrow current) "date value out of range"
      let isOpen ← Market.isSession next
      let rest ← sessionDistance days next
      return rest + if isOpen then 1 else 0

def validateFreshness (available : Date) (now : Clock) (maxBusinessDayLag : ℤ) :
    Except String Unit := do
  require (now.aware = true) "now must be timezone-aware"
  require (0 ≤ maxBusinessDayLag) "max_business_day_lag must be non-negative"
  let candidate ← now.latestCompletedSession
  let lag ← sessionDistance (Day.toordinal candidate - Day.toordinal available).toNat available
  require (lag ≤ maxBusinessDayLag) "daily data is stale"

/-! ### Features -/

/-- A bar with its features and its gates. -/
structure FeatureRow (F : Type) where
  bar : Bar F
  moneyFlow : F
  momentum : F
  trend : F
  relativeStrength : F
  volumeTurnover : F
  quality : F
  volatilityRisk : F
  amount20 : F
  ma60 : F

/-- The benchmark's closes on the dates of some bars. -/
def benchmarkCloses (benchmark bars : List (Bar F)) : List F :=
  bars.map fun bar => ((benchmark.find? fun other => other.date = bar.date).map Bar.close).getD
    missing

/-- `build_rule_features` and `_add_candidate_gates` for the bars of one symbol, where `at` is the
position of a bar. -/
def featureRows (benchmark bars : List (Bar F)) : List (FeatureRow F) :=
  let closes := bars.map Bar.close
  let volumes := bars.map Bar.volume
  let amounts := bars.map Bar.amount
  let returns := column (FloatColumns.pctChange 1) closes
  let moneyFlow := List.zipWith mul (column FloatColumns.shifted returns) (column FloatColumns.shifted amounts)
  let momentum := column (FloatColumns.pctChange 20) closes
  let means := column (rollingMean 20) closes
  let benchmarkReturn := column (FloatColumns.pctChange 20) (benchmarkCloses benchmark bars)
  let volumeMeans := column (rollingMean 20) volumes
  let returnMeans := column (rollingMean 20) returns
  let returnStds := column (rollingStd 20) returns
  let amount20 := column (rollingMean 20) amounts
  let ma60 := column (rollingMean 60) closes
  bars.zipIdx.map fun (bar, position) =>
    let cell := fun values : List F => values.getD position missing
    { bar
      moneyFlow := cell moneyFlow
      momentum := cell momentum
      trend := sub (div bar.close (cell means)) (ofRat 1)
      relativeStrength := sub (cell momentum) (cell benchmarkReturn)
      volumeTurnover := sub (div bar.volume (cell volumeMeans)) (ofRat 1)
      quality := div (cell returnMeans) (cell returnStds)
      volatilityRisk := cell returnStds
      amount20 := cell amount20
      ma60 := cell ma60 }

/-- The columns of the scoring frame; `valuation` is taken from a column `value`, if there is
one. -/
def FeatureRow.factor (hasValue : Bool) : RuleFactor → FeatureRow F → F
  | .moneyFlow, row => row.moneyFlow
  | .momentum, row => row.momentum
  | .trend, row => row.trend
  | .relativeStrength, row => row.relativeStrength
  | .volumeTurnover, row => row.volumeTurnover
  | .quality, row => row.quality
  | .valuation, row => if hasValue then row.bar.value else missing
  | .volatilityRisk, row => row.volatilityRisk

/-! ### Groups -/

def symbolsOf (bars : List (Bar F)) : List Text := sortedSet (bars.map Bar.symbol)

def barsOf (bars : List (Bar F)) (symbol : Text) : List (Bar F) :=
  bars.filter fun bar => bar.symbol = symbol

def latestDate (bars : List (Bar F)) : Option Date := (sortedSet (bars.map Bar.date)).getLast?

def historyReady (minHistory : ℕ) (bars : List (Bar F)) : List (Bar F) :=
  bars.filter fun bar => minHistory ≤ (barsOf bars bar.symbol).length

def latestCrossSectionDate (bars : List (Bar F)) (benchmark : Text) (minCrossSection : ℕ) :
    Option Date :=
  let latest := (symbolsOf bars).map fun symbol => latestDate (barsOf bars symbol)
  (sortedSet (latest.filterMap id)).reverse.find? fun candidate =>
    (latestDate (barsOf bars benchmark)).any (fun last => candidate ≤ last) ∧
      minCrossSection + 1 ≤
        (latest.filter fun last => last.any fun last => candidate ≤ last).length

/-- The symbols with a long history up to a date, with the bars that are looked at. -/
def boundedGroups (minHistory : ℕ) (day : Date) (bars : List (Bar F)) :
    List (Text × List (Bar F)) :=
  (symbolsOf bars).filterMap fun symbol =>
    let bounded := (barsOf bars symbol).filter fun bar => bar.date ≤ day
    if bounded.length < minHistory then none
    else some (symbol, bounded.drop (bounded.length - max minHistory 600))

/-- The tradable symbols of a table of instruments, and the benchmark. -/
def allowedBars (instruments : Option InstrumentFrame) (benchmark : Text) (eligibility : Date)
    (bars : List (Bar F)) : Except String (List (Bar F)) :=
  match instruments with
  | none => .ok bars
  | some frame => do
      let rows ← frame.prepared
      let tradable := (tradableUniverse 60 eligibility rows).map Features.Instrument.symbol
      return bars.filter fun bar => bar.symbol ∈ tradable ∨ bar.symbol = benchmark

/-! ### The ranking -/

def passesGates (minAverageAmount : F) (entry : FeatureRow F × F) : Bool :=
  atMost minAverageAmount entry.1.amount20 && less entry.1.ma60 entry.1.bar.close

/-- The better score is first, and of equal scores the smaller symbol. -/
def rankedBefore (entry other : FeatureRow F × F) : Prop :=
  less other.2 entry.2 = true ∨
    less entry.2 other.2 = false ∧ entry.1.bar.symbol ≤ other.1.bar.symbol

instance : DecidableRel (rankedBefore (F := F)) := fun _ _ => inferInstanceAs (Decidable (_ ∨ _))

def candidatesOf (request : RankingRequest F) (columns : List Text) (benchmark : Text) (day : Date)
    (groups : List (Text × List (Bar F))) : Except String (List (FeatureRow F × F)) := do
  require (benchmark ∈ groups.map Prod.fst)
    "benchmark does not have enough common historical bars"
  let stocks := groups.filter fun group => group.1 ≠ benchmark
  require (request.minCrossSection ≤ stocks.length)
    "eligible cross-section has fewer symbols than required"
  let benchmarkBars := ((groups.find? fun group => group.1 = benchmark).map Prod.snd).getD []
  let features := stocks.flatMap fun group => featureRows benchmarkBars group.2
  let latest := features.filter fun row => row.bar.date = day
  let scored ← request.engine.score (FeatureRow.factor ("value".toList ∈ columns)) latest
  require (∀ entry ∈ scored, isMissing entry.2 = false)
    "cannot convert non-finite values (NA or inf) to integer"
  require ("amount20".toList ∉ columns) "'amount20'"
  require ("ma60".toList ∉ columns) "'ma60'"
  let candidates := (scored.filter (passesGates request.minAverageAmount)).insertionSort
    rankedBefore
  require (candidates ≠ []) "no candidate passed the liquidity and trend gates"
  return candidates.take request.topK

def namesOf (names : List (Text × Text)) : Except String (List (Text × Text)) :=
  names.mapM fun entry => do
    let symbol ← orRaise (normalizeSymbol entry.1) "invalid symbol"
    return (symbol.text, Text.strip entry.2)

/-- The name of a symbol: the last one that is given, or the symbol itself. -/
def nameOf (names : List (Text × Text)) (symbol : Text) : Text :=
  ((names.reverse.find? fun entry => entry.1 = symbol).map Prod.snd).getD symbol

def reasonTexts : List Text :=
  ["收盘价位于60日均线上方".toList, "20日平均成交额通过流动性门槛".toList,
    "固定权重横截面因子排序（未启用估值因子）".toList]

variable {G : Type} [FloatFormat G] [FoldTable] (finite? : F → Option G)

def signalOf (request : RankingRequest F) (names : List (Text × Text)) (day : Date) (rank : ℕ)
    (entry : FeatureRow F × F) : Except String (OfficialModelSignal G) := do
  let number := fun (field : String) (value : F) =>
    orRaise (finite? value) s!"{field} must be positive and finite"
  let score ← orRaise (finite? entry.2) "normalized_score must be between 0 and 100"
  let close ← number "reference_price" entry.1.bar.close
  let amount ← number "average_amount" entry.1.amount20
  let invalidation ← number "invalidation_price"
    (round 4 (mul entry.1.bar.close (ofRat (93 / 100))))
  OfficialModelSignal.create (.date day) entry.1.bar.symbol (.float score)
    "initial-free-data-v1".toList (nameOf names entry.1.bar.symbol) "rule-ranking-v1".toList
    "rule-features-v1-no-valuation".toList "historical".toList "baostock".toList
    (some (.date day)) request.now.instant (some rank) reasonTexts (some (.float close))
    (some (.float amount)) (some (.float invalidation)) request.modelBundleDigest

def signalsOf (request : RankingRequest F) (day : Date) (candidates : List (FeatureRow F × F)) :
    Except String (List (OfficialModelSignal G)) := do
  require (request.now.aware = true) "now must be timezone-aware"
  let names ← namesOf request.names
  candidates.zipIdx.mapM fun (entry, position) =>
    signalOf finite? request names day (position + 1) entry

/-- What follows the choice of the date. -/
def rankBars (request : RankingRequest F) (columns : List Text) (benchmark : Text) (day : Date)
    (bars : List (Bar F)) : Except String (List (OfficialModelSignal G)) := do
  let candidates ← candidatesOf request columns benchmark day
    (boundedGroups request.minHistory day bars)
  signalsOf finite? request day candidates

/-- The date that is asked for, or the newest one with enough symbols. -/
def dateFor (request : RankingRequest F) (benchmark : Text) (bars : List (Bar F))
    (benchmarkLatest : Date) : Option Date → Except String Date
  | some day => do
      require (day ≤ benchmarkLatest) "requested as_of is later than available common history"
      return day
  | none =>
      orRaise (latestCrossSectionDate bars benchmark request.minCrossSection)
        "eligible cross-section has fewer than the required long-history symbols"

/-- The date of the ranking, from the bars of the symbols with a history. -/
def commonAsOf (request : RankingRequest F) (benchmark : Text) (requested : Option Date)
    (bars : List (Bar F)) : Except String Date := do
  let benchmarkLatest ← orRaise (latestDate (barsOf bars benchmark))
    "benchmark does not have enough common historical bars"
  dateFor request benchmark bars benchmarkLatest requested

/-- `_parse_date` of the date that is asked for. -/
def requestedAsOf (request : RankingRequest F) : Except String (Option Date) :=
  match request.asOf with
  | none => .ok none
  | some cell => (orRaise cell.day? "invalid date").map some

def checkFreshness (request : RankingRequest F) (day : Date) : Except String Unit :=
  if request.requireFresh then validateFreshness day request.now request.maxBusinessDayLag
  else .ok ()

def generateOfficialSignals (request : RankingRequest F) (frame : BarFrame F) :
    Except String (List (OfficialModelSignal G)) := do
  request.validate
  let prepared ← prepareBars frame
  let benchmark ← orRaise (normalizeSymbol request.benchmark) "invalid symbol"
  require (benchmark.text ∈ symbolsOf prepared) "benchmark is missing from daily bars"
  let requested ← requestedAsOf request
  let eligibility ← orRaise (requested.or (latestDate prepared)) "max() arg is an empty sequence"
  let allowed ← allowedBars request.instruments benchmark.text eligibility prepared
  let ready := historyReady request.minHistory allowed
  let day ← commonAsOf request benchmark.text requested ready
  checkFreshness request day
  rankBars finite? request frame.columns benchmark.text day ready

end Ranking

end QuantWorkbench.Research.Candidates
