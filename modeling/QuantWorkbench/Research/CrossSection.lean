import QuantWorkbench.Research.CandidateCausality

/-!
The breadth of a daily ranking. A ranking counts the stocks that have a long history up to its date,
but scores those that have a bar on the date, and does not count again.
-/

namespace QuantWorkbench.Research.Candidates

open Lib
open Data (checkSymbol checkSymbol_text normalizeSymbol Symbol)
open Features (RuleFactorConfig)
open Signals (FoldTable OfficialModelSignal)

variable {F : Type}

/-! ### Cross-sections -/

def longHistories (minHistory : ℕ) (benchmark : Text) (day : Date) (bars : List (Bar F)) :
    List Text :=
  (symbolsOf bars).filter fun symbol =>
    symbol ≠ benchmark ∧ minHistory ≤ (barsUpTo day (barsOf bars symbol)).length

def quotedOn (day : Date) (bars : List (Bar F)) (symbol : Text) : Bool :=
  (barsOf bars symbol).any fun bar => bar.date = day

theorem quotedOn_of_mem {bars : List (Bar F)} {bar : Bar F} (hbar : bar ∈ bars) :
    quotedOn bar.date bars bar.symbol = true :=
  List.any_eq_true.mpr
    ⟨bar, List.mem_filter.mpr ⟨hbar, decide_eq_true rfl⟩, decide_eq_true rfl⟩

/-- Fewer bars have no longer histories. -/
theorem history_filter_le (p : Bar F → Bool) (day : Date) (bars : List (Bar F)) (symbol : Text) :
    (barsUpTo day (barsOf (bars.filter p) symbol)).length ≤
      (barsUpTo day (barsOf bars symbol)).length :=
  (((List.filter_sublist.filter _).filter _)).length_le

theorem mem_longHistories {minHistory : ℕ} {benchmark : Text} {day : Date} {bars : List (Bar F)}
    {symbol : Text} :
    symbol ∈ longHistories minHistory benchmark day bars ↔
      symbol ∈ symbolsOf bars ∧ symbol ≠ benchmark ∧
        minHistory ≤ (barsUpTo day (barsOf bars symbol)).length := by
  rw [longHistories, List.mem_filter, decide_eq_true_iff]

/-- The groups of the stocks among some of the bars. -/
theorem mem_longHistories_of_groups {minHistory : ℕ} {benchmark : Text} {day : Date}
    {p : Bar F → Bool} {bars : List (Bar F)} {symbol : Text} (hne : symbol ≠ benchmark)
    (h : symbol ∈ (boundedGroups minHistory day (bars.filter p)).map Prod.fst) :
    symbol ∈ longHistories minHistory benchmark day bars := by
  obtain ⟨hsymbol, hlong⟩ := mem_boundedGroups.mp h
  obtain ⟨bar, hbar, rfl⟩ := mem_symbolsOf.mp hsymbol
  exact mem_longHistories.mpr ⟨mem_symbolsOf.mpr ⟨bar, List.mem_of_mem_filter hbar, rfl⟩, hne,
    hlong.trans (history_filter_le _ _ _ _)⟩

theorem nodup_boundedGroups (minHistory : ℕ) (day : Date) (bars : List (Bar F)) :
    ((boundedGroups minHistory day bars).map Prod.fst).Nodup := by
  rw [boundedGroups_keys]
  exact ((increasing_sortedSet _).imp fun h => h.ne).filter _

theorem mem_group {minHistory : ℕ} {day : Date} {bars : List (Bar F)} {group : Text × List (Bar F)}
    (h : group ∈ boundedGroups minHistory day bars) {bar : Bar F} (hbar : bar ∈ group.2) :
    bar ∈ bars ∧ bar.symbol = group.1 := by
  rw [boundedGroups_eq] at h
  obtain ⟨symbol, _, hgroup⟩ := List.mem_filterMap.mp h
  unfold boundedGroup at hgroup
  dsimp only at hgroup
  split at hgroup
  · cases hgroup
  · cases hgroup
    have hbounded := List.mem_of_mem_filter (List.mem_of_mem_drop hbar)
    obtain ⟨hmem, hsymbol⟩ := List.mem_filter.mp hbounded
    exact ⟨hmem, of_decide_eq_true hsymbol⟩

theorem stocks_length_le (minHistory : ℕ) (benchmark : Text) (day : Date) (p : Bar F → Bool)
    (bars : List (Bar F)) :
    ((boundedGroups minHistory day (bars.filter p)).filter
      fun group => group.1 ≠ benchmark).length ≤
        (longHistories minHistory benchmark day bars).length := by
  have hkeys : (((boundedGroups minHistory day (bars.filter p)).filter
      fun group => group.1 ≠ benchmark).map Prod.fst).Nodup :=
    (nodup_boundedGroups _ _ _).sublist (List.filter_sublist.map _)
  have hsubset : ((boundedGroups minHistory day (bars.filter p)).filter
      fun group => group.1 ≠ benchmark).map Prod.fst ⊆
        longHistories minHistory benchmark day bars := by
    intro symbol hsymbol
    obtain ⟨group, hgroup, rfl⟩ := List.mem_map.mp hsymbol
    obtain ⟨hmem, hne⟩ := List.mem_filter.mp hgroup
    exact mem_longHistories_of_groups (of_decide_eq_true hne) (List.mem_map_of_mem hmem)
  have hle := (hkeys.subperm hsubset).length_le
  rwa [List.length_map] at hle

/-! ### Candidates -/

theorem prepared_symbol [FoldTable] {frame : BarFrame F} {bar : Bar F} (h : bar ∈ frame.prepared) :
    ∃ symbol : Symbol, bar.symbol = symbol.text := by
  obtain ⟨row, _, hrow⟩ := List.mem_filterMap.mp (mem_prepared_bars h)
  obtain ⟨symbol, _, hrow⟩ := Option.bind_eq_some_iff.mp hrow
  obtain ⟨date, _, rfl⟩ := Option.map_eq_some_iff.mp hrow
  exact ⟨symbol, rfl⟩

section Candidates

variable [FloatColumns F]

theorem mem_featureRows {benchmark bars : List (Bar F)} {row : FeatureRow F}
    (h : row ∈ featureRows benchmark bars) : row.bar ∈ bars := by
  obtain ⟨⟨bar, position⟩, hbar, rfl⟩ := List.mem_map.mp h
  exact (List.mem_zipIdx' hbar).2 ▸ List.getElem_mem _

theorem mem_of_score {R : Type} {config : RuleFactorConfig F} {value : Features.RuleFactor → R → F}
    {rows : List R} {scored : List (R × F)} (h : config.score value rows = .ok scored)
    {entry : R × F} (hentry : entry ∈ scored) : entry.1 ∈ rows := by
  obtain ⟨_, _, h⟩ := bind_eq_ok_iff.mp h
  cases h
  obtain ⟨⟨row, position⟩, hrow, rfl⟩ := List.mem_map.mp hentry
  exact (List.mem_zipIdx' hrow).2 ▸ List.getElem_mem _

/-- The candidates of a date are bars on it, of the stocks that are looked at. -/
theorem mem_candidatesOf {request : RankingRequest F} {columns : List Text} {benchmark : Text}
    {day : Date} {groups : List (Text × List (Bar F))} {candidates : List (FeatureRow F × F)}
    (h : candidatesOf request columns benchmark day groups = .ok candidates)
    {entry : FeatureRow F × F} (hentry : entry ∈ candidates) :
    entry.1.bar.date = day ∧
      ∃ group ∈ groups, group.1 ≠ benchmark ∧ entry.1.bar ∈ group.2 := by
  obtain ⟨_, _, h⟩ := bind_eq_ok_iff.mp h
  obtain ⟨_, _, h⟩ := bind_eq_ok_iff.mp h
  obtain ⟨scored, hscored, h⟩ := bind_eq_ok_iff.mp h
  obtain ⟨_, _, h⟩ := bind_eq_ok_iff.mp h
  obtain ⟨_, _, h⟩ := bind_eq_ok_iff.mp h
  obtain ⟨_, _, h⟩ := bind_eq_ok_iff.mp h
  obtain ⟨_, _, h⟩ := bind_eq_ok_iff.mp h
  cases h
  have hsorted := (List.mem_insertionSort _).mp (List.mem_of_mem_take hentry)
  have hpassed := List.mem_of_mem_filter hsorted
  obtain ⟨hrow, hdate⟩ := List.mem_filter.mp (mem_of_score hscored hpassed)
  obtain ⟨group, hgroup, hrow⟩ := List.mem_flatMap.mp hrow
  obtain ⟨hmem, hne⟩ := List.mem_filter.mp hgroup
  exact ⟨of_decide_eq_true hdate, group, hmem, of_decide_eq_true hne, mem_featureRows hrow⟩

theorem stocks_of_candidatesOf {request : RankingRequest F} {columns : List Text} {benchmark : Text}
    {day : Date} {groups : List (Text × List (Bar F))} {candidates : List (FeatureRow F × F)}
    (h : candidatesOf request columns benchmark day groups = .ok candidates) :
    request.minCrossSection ≤ (groups.filter fun group => group.1 ≠ benchmark).length := by
  obtain ⟨_, _, h⟩ := bind_eq_ok_iff.mp h
  obtain ⟨_, hstocks, _⟩ := bind_eq_ok_iff.mp h
  exact require_eq_ok_iff.mp hstocks

variable [FoldTable] {G : Type} [FloatFormat G] {finite? : F → Option G}

theorem mem_signalsOf {request : RankingRequest F} {day : Date}
    {candidates : List (FeatureRow F × F)} {signals : List (OfficialModelSignal G)}
    (h : signalsOf finite? request day candidates = .ok signals)
    {signal : OfficialModelSignal G} (hsignal : signal ∈ signals) :
    signal.signalDate = .date day ∧
      ∃ entry ∈ candidates, checkSymbol entry.1.bar.symbol = .ok signal.symbol := by
  obtain ⟨_, _, h⟩ := bind_eq_ok_iff.mp h
  obtain ⟨names, _, h⟩ := bind_eq_ok_iff.mp h
  obtain ⟨⟨entry, position⟩, hentry, hmade⟩ := mem_of_mapM_ok h hsignal
  obtain ⟨_, _, hmade⟩ := bind_eq_ok_iff.mp hmade
  obtain ⟨_, _, hmade⟩ := bind_eq_ok_iff.mp hmade
  obtain ⟨_, _, hmade⟩ := bind_eq_ok_iff.mp hmade
  obtain ⟨_, _, hmade⟩ := bind_eq_ok_iff.mp hmade
  obtain ⟨hdate, hsymbol⟩ := OfficialModelSignal.create_keeps hmade
  exact ⟨hdate, entry, (List.mem_zipIdx' hentry).2 ▸ List.getElem_mem _, hsymbol⟩

/-- A ranking is of the stocks of its groups, which are made of some of the bars. -/
theorem exists_candidates {request : RankingRequest F} {frame : BarFrame F} {benchmark : Symbol}
    (hbenchmark : normalizeSymbol request.benchmark = some benchmark)
    {signals : List (OfficialModelSignal G)}
    (h : generateOfficialSignals finite? request frame = .ok signals) :
    ∃ (p : Bar F → Bool) (day : Date) (candidates : List (FeatureRow F × F)),
      candidatesOf request frame.columns benchmark.text day
        (boundedGroups request.minHistory day (frame.prepared.filter p)) = .ok candidates ∧
      signalsOf finite? request day candidates = .ok signals := by
  obtain ⟨_, _, h⟩ := bind_eq_ok_iff.mp h
  obtain ⟨prepared, hprepared, h⟩ := bind_eq_ok_iff.mp h
  obtain rfl := prepareBars_eq_ok hprepared
  obtain ⟨other, hother, h⟩ := bind_eq_ok_iff.mp h
  cases hbenchmark.symm.trans (orRaise_eq_ok_iff.mp hother)
  obtain ⟨_, _, h⟩ := bind_eq_ok_iff.mp h
  obtain ⟨_, _, h⟩ := bind_eq_ok_iff.mp h
  obtain ⟨_, _, h⟩ := bind_eq_ok_iff.mp h
  obtain ⟨allowed, hallowed, h⟩ := bind_eq_ok_iff.mp h
  obtain ⟨keep, _, hkeep⟩ := allowedBars_eq_ok hallowed
  cases hallowed.symm.trans (hkeep _)
  obtain ⟨day, _, h⟩ := bind_eq_ok_iff.mp h
  obtain ⟨_, _, h⟩ := bind_eq_ok_iff.mp h
  obtain ⟨candidates, hcandidates, h⟩ := bind_eq_ok_iff.mp h
  rw [boundedGroups_historyReady] at hcandidates
  exact ⟨fun bar => keep bar.symbol, day, candidates, hcandidates, h⟩

end Candidates

/-! ### Full cross-sections -/

section FullCrossSection

variable [FoldTable] [FloatColumns F] {G : Type} [FloatFormat G] {finite? : F → Option G}

/-- The signals of a day come from a full cross-section of some bars. -/
structure FullCrossSection (request : RankingRequest F) (benchmark : Text) (bars : List (Bar F))
    (day : Date) (signals : List (OfficialModelSignal G)) : Prop where
  breadth : request.minCrossSection ≤
    ((longHistories request.minHistory benchmark day bars).filter (quotedOn day bars)).length
  quoted : quotedOn day bars benchmark = true
  members : ∀ signal ∈ signals, signal.symbol.text ∈
    (longHistories request.minHistory benchmark day bars).filter (quotedOn day bars)

end FullCrossSection

section Sample

attribute [local instance] sampleFormat exactColumns lowercaseFold

/-- The other stock and the benchmark have bars on the last session as well. -/
def closingBars : List (RawBar (Option ℚ)) := [sessionBar "600001" 60, sessionBar "000300" 60]

theorem closing_prepared : (sampleFrame closingBars).prepared =
    sortValues Bar.key (sampleFrame closingBars).bars :=
  prepared_of_increasing (by decide +kernel)

theorem closing_ranked : ∃ signals : List (OfficialModelSignal SampleNumber),
    generateOfficialSignals sampleFinite? sampleRequest (sampleFrame closingBars) = .ok signals ∧
      ∃ signal ∈ signals, signal.signalDate = .date (sessionDay 60) := by
  have hvalid : (sampleFrame closingBars).Valid :=
    sampleFrame_valid (by decide) (by decide) (by decide) (by decide +kernel)
  have hreaches : BenchmarkReaches sampleRequest (sessionDay 60) (sampleFrame closingBars) :=
    ⟨_, sample_benchmark, _,
      List.mem_filterMap.mpr ⟨sessionBar "000300" 60, List.mem_filter.mpr
        ⟨List.mem_append_right _ (List.mem_of_mem_tail List.mem_cons_self), by decide⟩, rfl⟩,
      rfl, le_rfl⟩
  have hany : (rankUpTo sampleFinite? sampleRequest (sessionDay 60)
      (sampleFrame closingBars)).toOption.any (fun signals => signals.any fun signal =>
        signal.signalDate = .date (sessionDay 60)) = true := by
    unfold rankUpTo
    rw [closing_prepared]
    decide +kernel
  obtain ⟨signals, hranked, hsignal⟩ := exists_sessionSignal hany
  exact ⟨signals, (generateOfficialSignals_eq_ok_iff rfl hvalid).mpr ⟨hranked, hreaches⟩, hsignal⟩

end Sample

end QuantWorkbench.Research.Candidates
