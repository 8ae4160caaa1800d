import QuantWorkbench.Research.DailyCandidates

/-!
What the daily ranking of a date depends on: the rows dated up to it, and whether the benchmark has
a bar on the date or after it. The history of a symbol is counted over all its rows at first, but
again over those up to the date, so that later rows admit none.
-/

namespace QuantWorkbench.Research.Candidates

open Lib
open Data (normalizeSymbol Symbol)
open Features (InstrumentFrame tradableUniverse)
open Signals (FoldTable OfficialModelSignal)

variable {F : Type}

/-! ### Groups of bars -/

def barsUpTo (day : Date) (bars : List (Bar F)) : List (Bar F) :=
  bars.filter fun bar => bar.date ≤ day

def boundedGroup (minHistory : ℕ) (day : Date) (bars : List (Bar F)) (symbol : Text) :
    Option (Text × List (Bar F)) :=
  let bounded := barsUpTo day (barsOf bars symbol)
  if bounded.length < minHistory then none
  else some (symbol, bounded.drop (bounded.length - max minHistory 600))

theorem boundedGroups_eq (minHistory : ℕ) (day : Date) (bars : List (Bar F)) :
    boundedGroups minHistory day bars =
      (symbolsOf bars).filterMap (boundedGroup minHistory day bars) := rfl

theorem mem_symbolsOf {bars : List (Bar F)} {symbol : Text} :
    symbol ∈ symbolsOf bars ↔ ∃ bar ∈ bars, bar.symbol = symbol := by
  rw [symbolsOf, mem_sortedSet, List.mem_map]

theorem barsOf_historyReady {minHistory : ℕ} {bars : List (Bar F)} {symbol : Text}
    (h : minHistory ≤ (barsOf bars symbol).length) :
    barsOf (historyReady minHistory bars) symbol = barsOf bars symbol := by
  rw [barsOf, historyReady, List.filter_filter, barsOf]
  refine List.filter_congr fun bar _ => ?_
  by_cases hsymbol : bar.symbol = symbol
  · rw [hsymbol]
    simp [h]
  · simp [hsymbol]

theorem barsUpTo_barsOf (day : Date) (bars : List (Bar F)) (symbol : Text) :
    barsUpTo day (barsOf bars symbol) = barsOf (barsUpTo day bars) symbol := by
  rw [barsUpTo, barsOf, barsOf, barsUpTo, List.filter_filter, List.filter_filter]
  exact List.filter_congr fun bar _ => Bool.and_comm _ _

/-- A history counted over all rows is counted again up to the day. -/
theorem boundedGroups_historyReady (minHistory : ℕ) (day : Date) (bars : List (Bar F)) :
    boundedGroups minHistory day (historyReady minHistory bars) =
      boundedGroups minHistory day bars := by
  have hready : ∀ symbol ∈ symbolsOf (historyReady minHistory bars),
      minHistory ≤ (barsOf bars symbol).length := by
    intro symbol hsymbol
    obtain ⟨bar, hbar, rfl⟩ := mem_symbolsOf.mp hsymbol
    exact of_decide_eq_true (List.mem_filter.mp hbar).2
  have hgroup : ∀ symbol ∈ symbolsOf (historyReady minHistory bars),
      boundedGroup minHistory day (historyReady minHistory bars) symbol =
        boundedGroup minHistory day bars symbol := by
    intro symbol hsymbol
    unfold boundedGroup
    rw [barsOf_historyReady (hready symbol hsymbol)]
  rw [boundedGroups_eq, boundedGroups_eq, List.filterMap_congr hgroup]
  refine filterMap_sortedSet ?_ ?_
  · intro symbol hsymbol
    obtain ⟨bar, hbar, rfl⟩ := List.mem_map.mp hsymbol
    exact List.mem_map_of_mem (List.mem_of_mem_filter hbar)
  · intro symbol hsymbol hunready
    obtain ⟨bar, hbar, rfl⟩ := List.mem_map.mp hsymbol
    have hshort : (barsOf bars bar.symbol).length < minHistory := by
      by_contra hlong
      exact hunready (List.mem_map_of_mem
        (List.mem_filter.mpr ⟨hbar, decide_eq_true (not_lt.mp hlong)⟩))
    exact if_pos ((List.length_filter_le _ _).trans_lt hshort)

theorem boundedGroups_upTo {minHistory : ℕ} (hpos : 0 < minHistory) (day : Date)
    (bars : List (Bar F)) :
    boundedGroups minHistory day (barsUpTo day bars) = boundedGroups minHistory day bars := by
  have hgroup : ∀ symbol, boundedGroup minHistory day (barsUpTo day bars) symbol =
      boundedGroup minHistory day bars symbol := by
    intro symbol
    have htwice : barsUpTo day (barsUpTo day bars) = barsUpTo day bars := by
      rw [barsUpTo, barsUpTo, List.filter_filter]
      simp only [Bool.and_self]
    unfold boundedGroup
    rw [barsUpTo_barsOf, htwice, ← barsUpTo_barsOf]
  rw [boundedGroups_eq, boundedGroups_eq, List.filterMap_congr fun symbol _ => hgroup symbol]
  refine filterMap_sortedSet ?_ ?_
  · intro symbol hsymbol
    obtain ⟨bar, hbar, rfl⟩ := List.mem_map.mp hsymbol
    exact List.mem_map_of_mem (List.mem_of_mem_filter hbar)
  · intro symbol _ hnone
    have hempty : barsUpTo day (barsOf bars symbol) = [] := by
      rw [barsUpTo_barsOf, barsOf, List.filter_eq_nil_iff]
      intro bar hbar hsymbol
      exact hnone (List.mem_map.mpr ⟨bar, hbar, of_decide_eq_true hsymbol⟩)
    unfold boundedGroup
    rw [hempty]
    exact if_pos hpos

theorem boundedGroups_keys (minHistory : ℕ) (day : Date) (bars : List (Bar F)) :
    (boundedGroups minHistory day bars).map Prod.fst = (symbolsOf bars).filter fun symbol =>
      minHistory ≤ (barsUpTo day (barsOf bars symbol)).length := by
  rw [boundedGroups_eq, List.map_filterMap, ← List.filterMap_eq_filter]
  refine List.filterMap_congr fun symbol _ => ?_
  unfold boundedGroup
  by_cases hlong : minHistory ≤ (barsUpTo day (barsOf bars symbol)).length
  · simp [Option.guard, hlong, hlong.not_gt]
  · simp [Option.guard, hlong, not_le.mp hlong]

theorem mem_boundedGroups {minHistory : ℕ} {day : Date} {bars : List (Bar F)} {symbol : Text} :
    symbol ∈ (boundedGroups minHistory day bars).map Prod.fst ↔
      symbol ∈ symbolsOf bars ∧ minHistory ≤ (barsUpTo day (barsOf bars symbol)).length := by
  rw [boundedGroups_keys, List.mem_filter, decide_eq_true_iff]

theorem historyUpTo_le (day : Date) (bars : List (Bar F)) (symbol : Text) :
    (barsUpTo day (barsOf (barsUpTo day bars) symbol)).length ≤ (barsOf bars symbol).length := by
  refine (List.length_filter_le _ _).trans ?_
  rw [← barsUpTo_barsOf]
  exact List.length_filter_le _ _

theorem latestDate_le {bars : List (Bar F)} {last : Date} (h : latestDate bars = some last)
    {bar : Bar F} (hbar : bar ∈ bars) : bar.date ≤ last :=
  le_getLast?_sortedSet h (List.mem_map_of_mem hbar)

theorem exists_latestDate {bars : List (Bar F)} (h : bars ≠ []) :
    ∃ last, latestDate bars = some last ∧ ∃ bar ∈ bars, bar.date = last := by
  cases hlast : latestDate bars with
  | none => exact absurd (List.map_eq_nil_iff.mp (getLast?_sortedSet_eq_none.mp hlast)) h
  | some last => exact ⟨last, rfl, List.mem_map.mp (getLast?_sortedSet_mem hlast)⟩

/-! ### Prepared bars -/

section Prepared

variable [FoldTable]

/-- The rows of the frame are read, and of the market. -/
structure BarFrame.Valid [FloatColumns F] (frame : BarFrame F) : Prop where
  columns : ∀ column ∈ requiredColumns, column ∈ frame.columns
  symbols : ∀ row ∈ frame.rows, (normalizeSymbol row.symbol).isSome
  dates : ∀ row ∈ frame.rows, row.date.day?.isSome
  sources : ∀ row ∈ frame.rows, row.foldedSource ∉ disallowedSources
  numbers : ∀ row ∈ frame.rows, row.isBaostock → row.hasMissing = false

def BarFrame.prepared (frame : BarFrame F) : List (Bar F) :=
  keepLast Bar.key (sortValues Bar.key frame.bars)

theorem prepareBars_eq_ok [FloatColumns F] {frame : BarFrame F} {bars : List (Bar F)}
    (h : prepareBars frame = .ok bars) : bars = frame.prepared := by
  obtain ⟨_, _, h⟩ := bind_eq_ok_iff.mp h
  obtain ⟨_, _, h⟩ := bind_eq_ok_iff.mp h
  obtain ⟨_, _, h⟩ := bind_eq_ok_iff.mp h
  obtain ⟨_, _, h⟩ := bind_eq_ok_iff.mp h
  obtain ⟨_, _, h⟩ := bind_eq_ok_iff.mp h
  obtain ⟨_, _, h⟩ := bind_eq_ok_iff.mp h
  obtain ⟨_, _, h⟩ := bind_eq_ok_iff.mp h
  cases h
  rfl

theorem mem_prepared_bars {frame : BarFrame F} {bar : Bar F} (h : bar ∈ frame.prepared) :
    bar ∈ frame.bars :=
  mem_sortValues.mp (mem_keepLast_iff.mp h).mem

theorem exists_prepared {frame : BarFrame F} {bar : Bar F} (h : bar ∈ frame.bars) :
    ∃ kept ∈ frame.prepared, kept.symbol = bar.symbol ∧ kept.date = bar.date := by
  have hkey : bar.key ∈ (sortValues Bar.key frame.bars).map Bar.key :=
    List.mem_map_of_mem (mem_sortValues.mpr h)
  obtain ⟨kept, hkept, hsame⟩ := Keyed.exists_lastOf hkey
  have hpair := congrArg ofLex hsame
  exact ⟨kept, mem_keepLast_iff.mpr hkept, congrArg Prod.fst hpair, congrArg Prod.snd hpair⟩

theorem prepareBars_of_valid [FloatColumns F] {frame : BarFrame F} (hvalid : frame.Valid)
    {bar : Bar F} (h : bar ∈ frame.prepared) : prepareBars frame = .ok frame.prepared := by
  obtain ⟨row, hrow, _⟩ := List.mem_filterMap.mp (mem_prepared_bars h)
  have hrows : frame.rows.filter RawBar.isBaostock ≠ [] := List.ne_nil_of_mem hrow
  have hframe : frame.rows ≠ [] := List.ne_nil_of_mem (List.mem_of_mem_filter hrow)
  have hrequire : ∀ {condition : Prop} [Decidable condition] (error : String), condition →
      require condition error = .ok () := fun error h => require_eq_ok_iff.mpr h
  unfold prepareBars
  rw [hrequire _ hframe, hrequire _ hvalid.columns, hrequire _ hvalid.symbols,
    hrequire _ hvalid.dates, hrequire _ hvalid.sources, hrequire _ hrows,
    hrequire _ hvalid.numbers]
  rfl

/-- Preparation drops no bar when no symbol has two on one date. -/
theorem prepared_of_increasing {frame : BarFrame F}
    (h : (sortValues Bar.key frame.bars).IsChain fun bar other => bar.key < other.key) :
    frame.prepared = sortValues Bar.key frame.bars := by
  have htrans : IsTrans (Bar F) fun bar other => bar.key < other.key :=
    ⟨fun _ _ _ h h' => lt_trans h h'⟩
  have hpairwise := List.isChain_iff_pairwise.mp h
  exact keepLast_of_nodup (List.pairwise_map.mpr (hpairwise.imp fun hlt => hlt.ne))

def BarFrame.rowsUpTo (day : Date) (frame : BarFrame F) : List (RawBar F) :=
  frame.rows.filter fun row => row.date.day?.any fun date => date ≤ day

/-- Two frames have the same columns, and the same rows dated up to a day. -/
structure BarFrame.AgreesUpTo (day : Date) (frame other : BarFrame F) : Prop where
  columns : frame.columns = other.columns
  rows : frame.rowsUpTo day = other.rowsUpTo day

theorem prepared_upTo (day : Date) (frame : BarFrame F) :
    barsUpTo day frame.prepared = keepLast Bar.key (sortValues Bar.key
      (((frame.rowsUpTo day).filter RawBar.isBaostock).filterMap RawBar.bar)) := by
  have hbars : barsUpTo day frame.bars =
      ((frame.rowsUpTo day).filter RawBar.isBaostock).filterMap RawBar.bar := by
    have hrow : ∀ row : RawBar F, (if (row.bar.any fun bar => decide (bar.date ≤ day)) = true then
        row.bar else none) = if (row.date.day?.any fun date => decide (date ≤ day)) = true then
        row.bar else none := by
      intro row
      unfold RawBar.bar
      cases normalizeSymbol row.symbol with
      | none => simp
      | some symbol => cases row.date.day? <;> rfl
    rw [barsUpTo, BarFrame.bars, filter_filterMap, BarFrame.rowsUpTo]
    simp only [List.filterMap_filter]
    refine List.filterMap_congr fun row _ => ?_
    by_cases hbaostock : row.isBaostock = true
    · simp only [if_pos hbaostock]
      exact hrow row
    · simp only [if_neg hbaostock, ite_self]
  rw [← hbars]
  have hkeep : barsUpTo day frame.prepared =
      keepLast Bar.key (barsUpTo day (sortValues Bar.key frame.bars)) :=
    @filter_keepLast _ _ _ Bar.key (fun key => decide ((ofLex key).2 ≤ day)) _
  have hsort : barsUpTo day (sortValues Bar.key frame.bars) =
      sortValues Bar.key (barsUpTo day frame.bars) := filter_sortValues _ _
  rw [hkeep, hsort]

end Prepared

/-! ### The date of a ranking -/

theorem allowedBars_eq_ok {instruments : Option InstrumentFrame} {benchmark : Text}
    {eligibility : Date} {bars allowed : List (Bar F)}
    (h : allowedBars instruments benchmark eligibility bars = .ok allowed) :
    ∃ keep : Text → Bool, keep benchmark = true ∧
      ∀ others : List (Bar F), allowedBars instruments benchmark eligibility others =
        .ok (others.filter fun bar => keep bar.symbol) := by
  cases instruments with
  | none => exact ⟨fun _ => true, rfl, fun others => by rw [List.filter_true]; rfl⟩
  | some frame =>
      obtain ⟨rows, hrows, _⟩ := bind_eq_ok_iff.mp h
      refine ⟨fun symbol => symbol ∈ (tradableUniverse 60 eligibility rows).map
        Features.Instrument.symbol ∨ symbol = benchmark, by simp, fun others => ?_⟩
      rw [allowedBars, hrows]
      rfl

section Ranking

variable [FloatColumns F]

theorem minHistory_pos {request : RankingRequest F} {u : Unit} (h : request.validate = .ok u) :
    0 < request.minHistory := by
  obtain ⟨_, _, h⟩ := bind_eq_ok_iff.mp h
  obtain ⟨_, hhistory, _⟩ := bind_eq_ok_iff.mp h
  have := require_eq_ok_iff.mp hhistory
  omega

variable [FoldTable] {G : Type} [FloatFormat G] {finite? : F → Option G}

variable (finite?) in
/-- The ranking of the rows dated up to a day, whatever the last bar of the benchmark is. -/
def rankUpTo (request : RankingRequest F) (day : Date) (frame : BarFrame F) :
    Except String (List (OfficialModelSignal G)) := do
  request.validate
  let benchmark ← orRaise (normalizeSymbol request.benchmark) "invalid symbol"
  let allowed ← allowedBars request.instruments benchmark.text day (barsUpTo day frame.prepared)
  checkFreshness request day
  rankBars finite? request frame.columns benchmark.text day allowed

def BenchmarkReaches (request : RankingRequest F) (day : Date) (frame : BarFrame F) : Prop :=
  ∃ benchmark, normalizeSymbol request.benchmark = some benchmark ∧
    ∃ bar ∈ frame.bars, bar.symbol = benchmark.text ∧ day ≤ bar.date

theorem rankBars_upTo {request : RankingRequest F} (hpos : 0 < request.minHistory)
    (columns : List Text) (benchmark : Text) (day : Date) (bars : List (Bar F)) :
    rankBars finite? request columns benchmark day (historyReady request.minHistory bars) =
      rankBars finite? request columns benchmark day (barsUpTo day bars) := by
  rw [rankBars, rankBars, boundedGroups_historyReady, boundedGroups_upTo hpos]

theorem benchmark_of_rankBars {request : RankingRequest F} {columns : List Text} {benchmark : Text}
    {day : Date} {bars : List (Bar F)} {signals : List (OfficialModelSignal G)}
    (h : rankBars finite? request columns benchmark day bars = .ok signals) :
    request.minHistory ≤ (barsUpTo day (barsOf bars benchmark)).length := by
  obtain ⟨candidates, hcandidates, _⟩ := bind_eq_ok_iff.mp h
  obtain ⟨_, hmember, _⟩ := bind_eq_ok_iff.mp hcandidates
  exact (mem_boundedGroups.mp (require_eq_ok_iff.mp hmember)).2

/-- A ranking as of a day is the one of the rows up to it, given that the benchmark reaches it. -/
theorem generateOfficialSignals_eq_ok_iff {request : RankingRequest F} {day : Date}
    (hasOf : request.asOf = some (.date day)) {frame : BarFrame F} (hvalid : frame.Valid)
    {signals : List (OfficialModelSignal G)} :
    generateOfficialSignals finite? request frame = .ok signals ↔
      rankUpTo finite? request day frame = .ok signals ∧ BenchmarkReaches request day frame := by
  have hrequested : requestedAsOf request = .ok (some day) := by
    unfold requestedAsOf
    rw [hasOf]
    rfl
  constructor
  · intro h
    obtain ⟨_, hparameters, h⟩ := bind_eq_ok_iff.mp h
    obtain ⟨prepared, hprepared, h⟩ := bind_eq_ok_iff.mp h
    obtain rfl := prepareBars_eq_ok hprepared
    obtain ⟨benchmark, hbenchmark, h⟩ := bind_eq_ok_iff.mp h
    obtain ⟨_, _, h⟩ := bind_eq_ok_iff.mp h
    rw [hrequested] at h
    obtain ⟨requested, hsome, h⟩ := bind_eq_ok_iff.mp h
    cases hsome
    obtain ⟨eligibility, heligibility, h⟩ := bind_eq_ok_iff.mp h
    cases orRaise_eq_ok_iff.mp heligibility
    obtain ⟨allowed, hallowed, h⟩ := bind_eq_ok_iff.mp h
    obtain ⟨keep, _, hkeep⟩ := allowedBars_eq_ok hallowed
    rw [hkeep] at hallowed
    cases hallowed
    obtain ⟨chosen, hchosen, h⟩ := bind_eq_ok_iff.mp h
    obtain ⟨last, hlast, hchosen⟩ := bind_eq_ok_iff.mp hchosen
    obtain ⟨_, hreaches, hchosen⟩ := bind_eq_ok_iff.mp hchosen
    cases hchosen
    obtain ⟨_, hfresh, h⟩ := bind_eq_ok_iff.mp h
    rw [rankBars_upTo (minHistory_pos hparameters)] at h
    constructor
    · refine bind_eq_ok_iff.mpr ⟨_, hparameters, bind_eq_ok_iff.mpr ⟨benchmark, hbenchmark,
        bind_eq_ok_iff.mpr ⟨_, hkeep _, bind_eq_ok_iff.mpr ⟨_, hfresh, ?_⟩⟩⟩⟩
      have hcomm : (barsUpTo day frame.prepared).filter (fun bar => keep bar.symbol) =
          barsUpTo day (frame.prepared.filter fun bar => keep bar.symbol) := List.filter_comm _ _ _
      rw [hcomm]
      exact h
    · have hlatest := orRaise_eq_ok_iff.mp hlast
      obtain ⟨bar, hbar, hdate⟩ := List.mem_map.mp (getLast?_sortedSet_mem hlatest)
      obtain ⟨hready, hsymbol⟩ := List.mem_filter.mp hbar
      have hprepared := List.mem_of_mem_filter (List.mem_of_mem_filter hready)
      refine ⟨benchmark, orRaise_eq_ok_iff.mp hbenchmark, bar, mem_prepared_bars hprepared,
        of_decide_eq_true hsymbol, ?_⟩
      rw [hdate]
      exact require_eq_ok_iff.mp hreaches
  · rintro ⟨hrank, benchmark, hbenchmark, bar, hbar, hsymbol, hdate⟩
    obtain ⟨_, hparameters, h⟩ := bind_eq_ok_iff.mp hrank
    obtain ⟨benchmark', hbenchmark', h⟩ := bind_eq_ok_iff.mp h
    rw [hbenchmark] at hbenchmark'
    cases hbenchmark'
    obtain ⟨allowed, hallowed, h⟩ := bind_eq_ok_iff.mp h
    obtain ⟨keep, hkeepBenchmark, hkeep⟩ := allowedBars_eq_ok hallowed
    rw [hkeep] at hallowed
    cases hallowed
    obtain ⟨_, hfresh, h⟩ := bind_eq_ok_iff.mp h
    have hcomm : (barsUpTo day frame.prepared).filter (fun bar => keep bar.symbol) =
        barsUpTo day (frame.prepared.filter fun bar => keep bar.symbol) := List.filter_comm _ _ _
    rw [hcomm] at h
    have hlong := benchmark_of_rankBars h
    rw [← rankBars_upTo (minHistory_pos hparameters)] at h
    obtain ⟨kept, hkept, hkeptSymbol, hkeptDate⟩ := exists_prepared hbar
    have hprepared := prepareBars_of_valid hvalid hkept
    have hmember : benchmark.text ∈ symbolsOf frame.prepared :=
      mem_symbolsOf.mpr ⟨kept, hkept, hkeptSymbol.trans hsymbol⟩
    have hready := barsOf_historyReady (hlong.trans (historyUpTo_le _ _ _))
    have hlater : kept ∈ barsOf (historyReady request.minHistory
        (frame.prepared.filter fun bar => keep bar.symbol)) benchmark.text := by
      rw [hready]
      refine List.mem_filter.mpr ⟨List.mem_filter.mpr ⟨hkept, ?_⟩,
        decide_eq_true (hkeptSymbol.trans hsymbol)⟩
      rw [hkeptSymbol, hsymbol]
      exact hkeepBenchmark
    obtain ⟨last, hlast, _⟩ := exists_latestDate (List.ne_nil_of_mem hlater)
    have hreaches : day ≤ last := hdate.trans (hkeptDate.symm.le.trans (latestDate_le hlast hlater))
    have hchosen : commonAsOf request benchmark.text (some day) (historyReady request.minHistory
        (frame.prepared.filter fun bar => keep bar.symbol)) = .ok day :=
      bind_eq_ok_iff.mpr ⟨last, orRaise_eq_ok_iff.mpr hlast,
        bind_eq_ok_iff.mpr ⟨(), require_eq_ok_iff.mpr hreaches, rfl⟩⟩
    exact bind_eq_ok_iff.mpr ⟨_, hparameters, bind_eq_ok_iff.mpr ⟨_, hprepared,
      bind_eq_ok_iff.mpr ⟨benchmark, orRaise_eq_ok_iff.mpr hbenchmark,
      bind_eq_ok_iff.mpr ⟨(), require_eq_ok_iff.mpr hmember, bind_eq_ok_iff.mpr ⟨_, hrequested,
      bind_eq_ok_iff.mpr ⟨day, rfl, bind_eq_ok_iff.mpr ⟨_, hkeep _,
      bind_eq_ok_iff.mpr ⟨day, hchosen, bind_eq_ok_iff.mpr ⟨_, hfresh, h⟩⟩⟩⟩⟩⟩⟩⟩⟩

/-! ### Frames that agree up to a date -/

variable (finite?) in
/-- The rows of the frame dated up to a day can be ranked. -/
def Rankable (request : RankingRequest F) (day : Date) (frame : BarFrame F) : Prop :=
  ∃ signals, rankUpTo finite? request day frame = .ok signals

variable (finite?) in
def SameRanking (request : RankingRequest F) (frame other : BarFrame F) : Prop :=
  ∀ signals : List (OfficialModelSignal G), generateOfficialSignals finite? request frame =
    .ok signals ↔ generateOfficialSignals finite? request other = .ok signals

theorem rankUpTo_agrees {request : RankingRequest F} {day : Date} {frame other : BarFrame F}
    (hagree : frame.AgreesUpTo day other) :
    rankUpTo finite? request day frame = rankUpTo finite? request day other := by
  unfold rankUpTo
  rw [prepared_upTo, prepared_upTo, hagree.rows, hagree.columns]

/-- Rows after the date of a ranking are seen in one way alone: they may be the ones by which the
benchmark reaches the date. -/
theorem sameRanking_iff {request : RankingRequest F} {day : Date}
    (hasOf : request.asOf = some (.date day)) {frame other : BarFrame F} (hframe : frame.Valid)
    (hother : other.Valid) (hagree : frame.AgreesUpTo day other) :
    SameRanking finite? request frame other ↔ (Rankable finite? request day frame →
      (BenchmarkReaches request day frame ↔ BenchmarkReaches request day other)) := by
  have hsame : rankUpTo finite? request day frame = rankUpTo finite? request day other :=
    rankUpTo_agrees hagree
  constructor
  · rintro h ⟨signals, hrank⟩
    have houtcome := h signals
    rw [generateOfficialSignals_eq_ok_iff hasOf hframe,
      generateOfficialSignals_eq_ok_iff hasOf hother, ← hsame] at houtcome
    exact ⟨fun hreaches => (houtcome.mp ⟨hrank, hreaches⟩).2,
      fun hreaches => (houtcome.mpr ⟨hrank, hreaches⟩).2⟩
  · intro h signals
    rw [generateOfficialSignals_eq_ok_iff hasOf hframe,
      generateOfficialSignals_eq_ok_iff hasOf hother, ← hsame]
    exact and_congr_right fun hrank => h ⟨signals, hrank⟩

end Ranking

section Sample

/-- The three numbers of the sample's signals. -/
inductive SampleNumber where
  | ten
  | fifty
  | nineThree
  deriving DecidableEq

@[reducible] def sampleFormat : FloatFormat SampleNumber where
  value
    | .ten => 10
    | .fifty => 50
    | .nineThree => 93 / 10
  repr
    | .ten => "10.0".toList
    | .fifty => "50.0".toList
    | .nineThree => "9.3".toList
  ofInt? n := if n = 10 then some .ten else if n = 50 then some .fifty else none
  ofText? text := if text = "10.0".toList then some .ten
    else if text = "50.0".toList then some .fifty
    else if text = "9.3".toList then some .nineThree else none
  repr_lexeme x := by cases x <;> decide
  ofText?_repr x := by cases x <;> rfl

/-- The newest number that is not missing. -/
def newestOf (values : List (Option ℚ)) : Option ℚ := (values.filterMap id).head?

/-- The square root, to eight decimals. -/
def rootOf (x : ℚ) : ℚ := Nat.sqrt ⌊x * 10 ^ 16⌋₊ / 10 ^ 8

def meanOf (values : List ℚ) : Option ℚ :=
  if values = [] then none else some (values.sum / values.length)

def stdOf (values : List ℚ) : Option ℚ :=
  (meanOf values).bind fun mean =>
    (meanOf (values.map fun value => (value - mean) ^ 2)).map rootOf

/-- The newest values of a full window. -/
def windowOf (size : ℕ) (values : List (Option ℚ)) : Option (List ℚ) :=
  if values.length < size then none else (values.take size).mapM id

/-- Exact numbers, where the missing number is `none`. -/
@[reducible] def exactColumns : FloatColumns (Option ℚ) where
  missing := none
  isMissing := Option.isNone
  ofRat := some
  add := Option.map₂ (· + ·)
  sub := Option.map₂ (· - ·)
  mul := Option.map₂ (· * ·)
  div x y := x.bind fun x => y.bind fun y => if y = 0 then none else some (x / y)
  less x y := x.any fun x => y.any fun y => x < y
  atMost x y := x.any fun x => y.any fun y => x ≤ y
  round digits := Option.map fun x => ⌊x * 10 ^ digits + 1 / 2⌋ / 10 ^ digits
  pctChange steps values := (newestOf values).bind fun newest =>
    (newestOf (values.drop steps)).map fun before => newest / before - 1
  rollingMean size values := (windowOf size values).bind meanOf
  rollingStd size values := (windowOf size values).bind stdOf
  mean values := meanOf (values.filterMap id)
  std values := stdOf (values.filterMap id)
  quantile level values := level.bind fun level =>
    let sorted := (values.filterMap id).insertionSort (· ≤ ·)
    sorted[⌊level * (sorted.length - 1)⌋₊]?

@[reducible] def lowercaseFold : FoldTable := ⟨List.map Char.toLower⟩

attribute [local instance] sampleFormat exactColumns lowercaseFold

def sampleFinite? (x : Option ℚ) : Option SampleNumber :=
  if x = some 10 then some .ten else if x = some 50 then some .fifty
  else if x = some (93 / 10) then some .nineThree else none

instance neZero84 : NeZero 84 := ⟨by decide⟩

def sessionDay (i : Fin 84) : Date where
  year := 2026
  month := i / 28 + 1
  day := i % 28 + 1
  year_range := by decide
  month_range := by omega
  day_range := by
    revert i
    decide

/-- A bar, whose price has risen from eight to ten early on. -/
def sessionBar (symbol : String) (i : Fin 84) : RawBar (Option ℚ) :=
  let price : Option ℚ := if i.val < 30 then some 8 else some 10
  { symbol := symbol.toList, date := .date (sessionDay i), source := "baostock".toList
    «open» := price, high := price, low := price, close := price, volume := some 100
    amount := some 50, value := none }

/-- The benchmark and two stocks with sixty bars each, one of them with a bar on the next session,
and some later rows. -/
def sampleFrame (later : List (RawBar (Option ℚ))) : BarFrame (Option ℚ) :=
  let sessions := (List.finRange 84).take 60
  ⟨requiredColumns, sessions.map (sessionBar "000300") ++ sessions.map (sessionBar "600000") ++
    sessionBar "600000" 60 :: sessions.map (sessionBar "600001") ++ later⟩

def sampleRequest : RankingRequest (Option ℚ) where
  benchmark := "000300".toList
  asOf := some (.date (sessionDay 60))
  topK := 10
  minHistory := 60
  minCrossSection := 2
  minAverageAmount := some 10
  engine := ⟨fun _ => some (1 / 8), fun factor => factor ≠ .volatilityRisk, some (1 / 100),
    some (99 / 100), some 0, some 100⟩
  names := []
  instruments := none
  now := ⟨⟨sessionDay 61, 8, 0, 0, 0⟩, true, sessionDay 61, true⟩
  requireFresh := false
  maxBusinessDayLag := 1
  modelBundleDigest := List.replicate 64 'a'

theorem sampleFrame_valid {later : List (RawBar (Option ℚ))}
    (hsymbols : ∀ row ∈ later, (normalizeSymbol row.symbol).isSome)
    (hdates : ∀ row ∈ later, row.date.day?.isSome)
    (hsources : ∀ row ∈ later, row.foldedSource ∉ disallowedSources)
    (hnumbers : ∀ row ∈ later, row.isBaostock → row.hasMissing = false) :
    (sampleFrame later).Valid where
  columns _ h := h
  symbols := List.forall_mem_append.mpr ⟨by decide +kernel, hsymbols⟩
  dates := List.forall_mem_append.mpr ⟨by decide +kernel, hdates⟩
  sources := List.forall_mem_append.mpr ⟨by decide +kernel, hsources⟩
  numbers := List.forall_mem_append.mpr ⟨by decide +kernel, hnumbers⟩

/-- The benchmark is quoted again after the session. -/
def resumed : List (RawBar (Option ℚ)) := [sessionBar "000300" 61]

theorem sampleFrame_agrees {later other : List (RawBar (Option ℚ))}
    (hlater : ∀ row ∈ later, row.date.day?.any (fun date => date ≤ sessionDay 60) = false)
    (hother : ∀ row ∈ other, row.date.day?.any (fun date => date ≤ sessionDay 60) = false) :
    (sampleFrame later).AgreesUpTo (sessionDay 60) (sampleFrame other) := by
  refine ⟨rfl, ?_⟩
  have hnone : ∀ rows : List (RawBar (Option ℚ)),
      (∀ row ∈ rows, row.date.day?.any (fun date => date ≤ sessionDay 60) = false) →
      rows.filter (fun row => row.date.day?.any fun date => date ≤ sessionDay 60) = [] :=
    fun rows h => List.filter_eq_nil_iff.mpr fun row hrow => by rw [h row hrow]; decide
  dsimp only [BarFrame.rowsUpTo, sampleFrame]
  rw [List.filter_append, hnone later hlater, List.filter_append _ other, hnone other hother]

theorem exists_sessionSignal {outcome : Except String (List (OfficialModelSignal SampleNumber))}
    (h : outcome.toOption.any (fun signals => signals.any fun signal =>
      signal.signalDate = .date (sessionDay 60)) = true) :
    ∃ signals, outcome = .ok signals ∧
      ∃ signal ∈ signals, signal.signalDate = .date (sessionDay 60) := by
  obtain ⟨signals, hsignals, hany⟩ := (Option.any_eq_true _ _).mp h
  obtain ⟨signal, hsignal, hdate⟩ := List.any_eq_true.mp hany
  exact ⟨signals, toOption_eq_some_iff.mp hsignals, signal, hsignal, of_decide_eq_true hdate⟩

theorem session_ranked : ∃ signals : List (OfficialModelSignal SampleNumber),
    rankUpTo sampleFinite? sampleRequest (sessionDay 60) (sampleFrame []) = .ok signals ∧
      ∃ signal ∈ signals, signal.signalDate = .date (sessionDay 60) := by
  have hprepared : (sampleFrame []).prepared = sortValues Bar.key (sampleFrame []).bars :=
    prepared_of_increasing (by decide +kernel)
  have hany : (rankUpTo sampleFinite? sampleRequest (sessionDay 60)
      (sampleFrame [])).toOption.any (fun signals => signals.any fun signal =>
        signal.signalDate = .date (sessionDay 60)) = true := by
    unfold rankUpTo
    rw [hprepared]
    decide +kernel
  exact exists_sessionSignal hany

theorem sample_benchmark :
    normalizeSymbol sampleRequest.benchmark = some ⟨"000300".toList, by decide⟩ := by decide

theorem ending_not_reaches :
    ¬ BenchmarkReaches sampleRequest (sessionDay 60) (sampleFrame []) := by
  rintro ⟨benchmark, hbenchmark, bar, hbar, hsymbol, hdate⟩
  cases hbenchmark.symm.trans sample_benchmark
  have hearlier : ∀ bar ∈ (sampleFrame []).bars,
      bar.symbol = "000300".toList → bar.date < sessionDay 60 := by
    decide +kernel
  exact absurd hdate (hearlier bar hbar hsymbol).not_ge

theorem resumed_reaches (later : List (RawBar (Option ℚ))) :
    BenchmarkReaches sampleRequest (sessionDay 60)
      (sampleFrame (sessionBar "000300" 61 :: later)) :=
  ⟨_, sample_benchmark, _,
    List.mem_filterMap.mpr ⟨sessionBar "000300" 61, List.mem_filter.mpr
      ⟨List.mem_append_right _ List.mem_cons_self, by decide⟩, rfl⟩, rfl, by decide⟩

theorem resumed_valid : (sampleFrame resumed).Valid :=
  sampleFrame_valid (by decide) (by decide) (by decide) (by decide +kernel)

theorem resumed_agrees : (sampleFrame []).AgreesUpTo (sessionDay 60) (sampleFrame resumed) :=
  sampleFrame_agrees (by simp) (by decide)

/-- The session is ranked once the benchmark is quoted after it. -/
theorem resumed_ranked : ∃ signals : List (OfficialModelSignal SampleNumber),
    generateOfficialSignals sampleFinite? sampleRequest (sampleFrame resumed) = .ok signals ∧
      ∃ signal ∈ signals, signal.signalDate = .date (sessionDay 60) := by
  obtain ⟨signals, hranked, hsignal⟩ := session_ranked
  rw [rankUpTo_agrees resumed_agrees] at hranked
  exact ⟨signals, (generateOfficialSignals_eq_ok_iff rfl resumed_valid).mpr
    ⟨hranked, resumed_reaches []⟩, hsignal⟩

theorem resumedBenchmark_ranked :
    (sampleFrame []).Valid ∧ (sampleFrame resumed).Valid ∧
      (sampleFrame []).AgreesUpTo (sessionDay 60) (sampleFrame resumed) ∧
      ¬ SameRanking sampleFinite? sampleRequest (sampleFrame []) (sampleFrame resumed) := by
  have hending : (sampleFrame []).Valid :=
    sampleFrame_valid (by simp) (by simp) (by simp) (by simp)
  refine ⟨hending, resumed_valid, resumed_agrees, fun hsame => ?_⟩
  obtain ⟨signals, hranked, _⟩ := resumed_ranked
  have hearly := (hsame signals).mpr hranked
  exact ending_not_reaches ((generateOfficialSignals_eq_ok_iff rfl hending).mp hearly).2

/-- Once the benchmark is quoted again, what follows is not seen. -/
theorem sample_sameRanking :
    SameRanking sampleFinite? sampleRequest (sampleFrame resumed)
      (sampleFrame (resumed ++ [sessionBar "600001" 62])) := by
  have hother : (sampleFrame (resumed ++ [sessionBar "600001" 62])).Valid :=
    sampleFrame_valid (by decide) (by decide) (by decide) (by decide +kernel)
  have hagree : (sampleFrame resumed).AgreesUpTo (sessionDay 60)
      (sampleFrame (resumed ++ [sessionBar "600001" 62])) :=
    sampleFrame_agrees (by decide) (by decide)
  exact (sameRanking_iff rfl resumed_valid hother hagree).mpr fun _ =>
    iff_of_true (resumed_reaches _) (resumed_reaches _)

end Sample

end QuantWorkbench.Research.Candidates
