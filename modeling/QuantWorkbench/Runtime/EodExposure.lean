import QuantWorkbench.Runtime.EodPipeline
import QuantWorkbench.Storage.NewestSignals

/-!
What a run of the end-of-day pipeline leaves in the store of official signals: exactly when its
latest signals are the generated ones after a run that completes, and stay after every other one.
-/

namespace QuantWorkbench.Runtime

open Lib Signals QuantWorkbench.Storage

namespace EODPipeline

section

variable {V D F : Type} [FloatFormat F] [FoldTable]

/-! ### The stages up to the signals -/

/-- The stages before the publication return, with official signals only. -/
def Generates (pipeline : EODPipeline V D F) (tradeDate : Date) (stores : EODStores V F)
    (signals : List (OfficialModelSignal F)) : Prop :=
  pipeline.confirmClose tradeDate = .ok true ∧
    ∃ daily, pipeline.loadFinalDaily tradeDate = .ok daily ∧
      stores.realTime.Reconciles tradeDate (fun bars => pipeline.reconcile bars daily) ∧
        pipeline.updatePit daily = .ok () ∧
          pipeline.generateOfficialSignals daily = .ok (signals.map .official)

theorem anyNotDaily_official (signals : List (OfficialModelSignal F)) :
    anyNotDaily (signals.map .official) = .ok false := by
  induction signals with
  | nil => rfl
  | cons signal rest ih => exact ih

theorem onRealTime_ends (run : EODRun V F)
    {change : Raising String (Storage.RealTimeStore V) EODFinalizationReceipt} {holds : Prop}
    (h : Raising.Ends change run.stores.realTime (fun _ _ => holds) (fun _ _ => ¬ holds)) :
    Raising.Ends (onRealTime change) run
      (fun _ after => after.stores.official = run.stores.official ∧ holds)
      (fun _ after => after.stores.official = run.stores.official ∧ ¬ holds) := by
  cases hchange : change run.stores.realTime with
  | mk result realTime =>
      cases result with
      | ok receipt =>
          have hrun : onRealTime change run = (.ok (), { run with
              stores := { run.stores with realTime }, receipt := some receipt }) := by
            simp only [onRealTime, hchange]
          exact Raising.ends_of_ok hrun ⟨rfl, h.of_ok hchange⟩
      | error error =>
          have hrun : onRealTime change run =
              (.error error, { run with stores := { run.stores with realTime } }) := by
            simp only [onRealTime, hchange]
          exact Raising.ends_of_error hrun ⟨rfl, h.of_error hchange⟩

theorem generateSignals_ends (pipeline : EODPipeline V D F) (tradeDate : Date)
    (run : EODRun V F) :
    Raising.Ends (pipeline.generateSignals tradeDate) run
      (fun generated after => after.stores.official = run.stores.official ∧
        ∀ signals, pipeline.Generates tradeDate run.stores signals ↔
          generated = some (signals.map .official))
      (fun _ after => after.stores.official = run.stores.official ∧
        ∀ signals, ¬ pipeline.Generates tradeDate run.stores signals) := by
  refine Raising.ends_lift_bind (fun closed hclosed => ?_) (fun error herror => ?_)
  swap
  · exact ⟨rfl, fun signals h => by cases herror.symm.trans h.1⟩
  cases closed with
  | false =>
      refine Raising.ends_pure ⟨rfl, fun signals => ⟨fun h => ?_, fun h => by cases h⟩⟩
      cases hclosed.symm.trans h.1
  | true =>
      apply Raising.ends_change_bind
      refine Raising.ends_lift_bind (fun daily hdaily => ?_) (fun error herror => ?_)
      swap
      · refine ⟨rfl, fun signals h => ?_⟩
        obtain ⟨_, daily, hdaily, _⟩ := h
        cases herror.symm.trans hdaily
      apply Raising.ends_change_bind
      have hfinalize := onRealTime_ends ⟨run.stores,
        run.steps ++ ["market_close_confirmed"] ++ ["final_daily_loaded"], run.receipt⟩
        (RealTimeStore.finalizeEod_ends tradeDate (fun bars => pipeline.reconcile bars daily)
          run.stores.realTime)
      refine Raising.Ends.bind (hfinalize.imp (fun _ _ h => h) ?_) ?_
      · rintro _ after ⟨hofficial, hnot⟩
        refine ⟨hofficial, fun signals h => ?_⟩
        obtain ⟨_, other, hother, hreconciles, _⟩ := h
        cases hdaily.symm.trans hother
        exact hnot hreconciles
      rintro _ reconciled ⟨hofficial, hreconciles⟩
      apply Raising.ends_change_bind
      refine Raising.ends_lift_bind (fun _ hupdated => ?_) (fun error herror => ?_)
      swap
      · refine ⟨hofficial, fun signals h => ?_⟩
        obtain ⟨_, other, hother, _, hupdated, _⟩ := h
        cases hdaily.symm.trans hother
        cases herror.symm.trans hupdated
      apply Raising.ends_change_bind
      refine Raising.ends_lift_bind (fun generated hgenerated => ?_) (fun error herror => ?_)
      swap
      · refine ⟨hofficial, fun signals h => ?_⟩
        obtain ⟨_, other, hother, _, _, hgenerated⟩ := h
        cases hdaily.symm.trans hother
        cases herror.symm.trans hgenerated
      have hiff : ∀ signals, pipeline.Generates tradeDate run.stores signals ↔
          generated = signals.map .official := by
        intro signals
        constructor
        · rintro ⟨_, other, hother, _, _, hsignals⟩
          cases hdaily.symm.trans hother
          exact Except.ok.inj (hgenerated.symm.trans hsignals)
        · rintro rfl
          exact ⟨hclosed, daily, hdaily, hreconciles, hupdated, hgenerated⟩
      have hnone : ∀ answer, anyNotDaily generated = answer → answer ≠ .ok false →
          ∀ signals, ¬ pipeline.Generates tradeDate run.stores signals := by
        rintro answer hanswer hother signals h
        rw [(hiff signals).mp h, anyNotDaily_official] at hanswer
        exact hother hanswer.symm
      refine Raising.ends_lift_bind (fun notDaily hnotDaily => ?_) (fun error herror => ?_)
      swap
      · exact ⟨hofficial, hnone _ herror (by simp)⟩
      cases notDaily with
      | true => exact ⟨hofficial, hnone _ hnotDaily (by simp)⟩
      | false =>
          apply Raising.ends_change_bind
          refine Raising.ends_pure ⟨hofficial, fun signals => ?_⟩
          rw [hiff signals, Option.some_inj]

/-! ### The publication -/

/-- The write of the file fails, or the dates that it would have to compare cannot be compared. -/
def WriteFails (pipeline : EODPipeline V D F) (fault : Option String) (store : SignalStore F)
    (signals : List (OfficialModelSignal F)) : Prop :=
  pipeline.officialSignalStore = .onFile ∧ signals ≠ [] ∧
    (fault ≠ none ∨ ¬ Comparable (store.memory.values ++ signals))

/-- What a publication that succeeds leaves in the store. -/
structure Stored (pipeline : EODPipeline V D F) (store : SignalStore F)
    (signals : List (OfficialModelSignal F)) (after : SignalStore F) : Prop where
  memory : after.memory = replaceGroups store.memory signals
  unwritten : pipeline.officialSignalStore ≠ .onFile ∨ signals = [] → after.file = store.file
  written : pipeline.officialSignalStore = .onFile → signals ≠ [] →
    ∃ latest, latestSignals after.memory = .ok latest ∧ latest ≠ [] ∧
      after.file = some (signalArtifactText latest)

theorem putSignals_stores (pipeline : EODPipeline V D F) (fault : Option String)
    (store : SignalStore F) (signals : List (OfficialModelSignal F)) :
    Raising.Ends (putSignals signals (pipeline.officialSignalStore = .onFile) fault) store
      (fun _ after => ¬ pipeline.WriteFails fault store signals ∧
        pipeline.Stored store signals after)
      (fun _ after => pipeline.WriteFails fault store signals ∧
        after = { store with memory := replaceGroups store.memory signals }) := by
  apply Raising.ends_change_bind
  by_cases hwrite : signals ≠ [] ∧ decide (pipeline.officialSignalStore = .onFile) = true
  · obtain ⟨hsome, hfile⟩ := hwrite
    rw [if_pos ⟨hsome, hfile⟩]
    rw [decide_eq_true_iff] at hfile
    apply Raising.ends_read_bind
    cases fault with
    | some error => exact Raising.ends_raise ⟨⟨hfile, hsome, Or.inl (by simp)⟩, rfl⟩
    | none =>
        refine Raising.ends_lift_bind (fun latest hlatest => ?_) (fun error herror => ?_)
        · have hput : latest ≠ [] := by
            obtain ⟨last, hlast⟩ := exists_newestAmong hlatest (mem_replaceGroups hsome)
            exact List.ne_nil_of_mem ((mem_latestSignals hlatest).mpr hlast)
          have hcomparable := comparable_replaceGroups_iff.mp ⟨latest, hlatest⟩
          rw [if_pos hput]
          refine Raising.ends_change ⟨?_, rfl, ?_, fun _ _ => ⟨latest, hlatest, hput, rfl⟩⟩
          · rintro ⟨_, _, hfault | hnot⟩
            · exact hfault rfl
            · exact hnot hcomparable
          · rintro (hother | hnone)
            · exact absurd hfile hother
            · exact absurd hnone hsome
        · refine ⟨⟨hfile, hsome, Or.inr fun hcomparable => ?_⟩, rfl⟩
          obtain ⟨latest, hlatest⟩ := comparable_replaceGroups_iff.mpr hcomparable
          cases herror.symm.trans hlatest
  · rw [if_neg hwrite]
    rw [decide_eq_true_iff] at hwrite
    refine Raising.ends_pure ⟨fun hfails => hwrite ⟨hfails.2.1, hfails.1⟩, rfl, fun _ => rfl, ?_⟩
    exact fun hfile hsome => absurd ⟨hsome, hfile⟩ hwrite

theorem mapM_official {generated : List (GeneratedSignal F)}
    {signals : List (OfficialModelSignal F)} :
    generated.mapM GeneratedSignal.official? = some signals ↔
      generated = signals.map .official := by
  induction generated generalizing signals with
  | nil => cases signals <;> simp
  | cons first rest ih =>
      rw [List.mapM_cons]
      cases first with
      | other frequency => cases signals <;> simp [GeneratedSignal.official?]
      | official signal =>
          cases signals with
          | nil => simp [GeneratedSignal.official?, Option.bind_eq_some_iff]
          | cons head tail =>
              simp [GeneratedSignal.official?, Option.bind_eq_some_iff, ih, and_comm]

theorem onOfficial_ends (run : EODRun V F) {change : Raising String (SignalStore F) Unit}
    {post fails : SignalStore F → Prop}
    (h : Raising.Ends change run.stores.official (fun _ => post) (fun _ => fails)) :
    Raising.Ends (onOfficial change) run (fun _ after => post after.stores.official)
      (fun _ after => fails after.stores.official) := by
  cases hchange : change run.stores.official with
  | mk result official =>
      cases result with
      | ok _ =>
          have hrun : onOfficial change run =
              (.ok (), { run with stores := { run.stores with official } }) := by
            simp only [onOfficial, hchange]
            rfl
          exact Raising.ends_of_ok hrun (h.of_ok hchange)
      | error error =>
          have hrun : onOfficial change run = (.error (storeErrorType error),
              { run with stores := { run.stores with official } }) := by
            simp only [onOfficial, hchange]
            rfl
          exact Raising.ends_of_error hrun (h.of_error hchange)

/-- How a run with a store ends: before the publication, in it, after it, or at its end. -/
inductive RunOutcome (pipeline : EODPipeline V D F) (tradeDate : Date) (fault : Option String)
    (stores : EODStores V F) : EODStatus → List (GeneratedSignal F) → SignalStore F → Prop where
  | notGenerated {status : EODStatus} (unfinished : status ≠ .completed)
      (none : ∀ signals, ¬ pipeline.Generates tradeDate stores signals) :
      RunOutcome pipeline tradeDate fault stores status [] stores.official
  | writeFailed {signals : List (OfficialModelSignal F)}
      (generates : pipeline.Generates tradeDate stores signals)
      (fails : pipeline.WriteFails fault stores.official signals) :
      RunOutcome pipeline tradeDate fault stores .failed []
        { stores.official with memory := replaceGroups stores.official.memory signals }
  | reportFailed {signals : List (OfficialModelSignal F)} {after : SignalStore F}
      (generates : pipeline.Generates tradeDate stores signals)
      (writes : ¬ pipeline.WriteFails fault stores.official signals)
      (raises : pipeline.writeReport (signals.map .official) ≠ .ok ())
      (stored : pipeline.Stored stores.official signals after) :
      RunOutcome pipeline tradeDate fault stores .failed [] after
  | completed {signals : List (OfficialModelSignal F)} {after : SignalStore F}
      (generates : pipeline.Generates tradeDate stores signals)
      (writes : ¬ pipeline.WriteFails fault stores.official signals)
      (reports : pipeline.writeReport (signals.map .official) = .ok ())
      (stored : pipeline.Stored stores.official signals after) :
      RunOutcome pipeline tradeDate fault stores .completed (signals.map .official) after

theorem publishSignals_ends {pipeline : EODPipeline V D F} {tradeDate : Date}
    (hused : pipeline.officialSignalStore ≠ .absent) {fault : Option String}
    {stores : EODStores V F} {generated : List (GeneratedSignal F)} {run : EODRun V F}
    (hofficial : run.stores.official = stores.official)
    (hgenerates : ∀ signals, pipeline.Generates tradeDate stores signals ↔
      generated = signals.map .official) :
    Raising.Ends (pipeline.publishSignals generated fault) run
      (fun _ after => RunOutcome pipeline tradeDate fault stores .completed generated
        after.stores.official)
      (fun _ after => RunOutcome pipeline tradeDate fault stores .failed []
        after.stores.official) := by
  cases hsignals : generated.mapM GeneratedSignal.official? with
  | none =>
      have hnone : ∀ signals, ¬ pipeline.Generates tradeDate stores signals := by
        intro signals h
        cases hsignals.symm.trans (mapM_official.mpr ((hgenerates signals).mp h))
      have hraises : Raising.Ends (pipeline.putOfficial generated fault) run (fun _ _ => False)
          (fun _ after => RunOutcome pipeline tradeDate fault stores .failed []
            after.stores.official) := by
        rw [putOfficial, if_pos hused, hsignals]
        refine Raising.ends_lift_bind (fun _ h => by cases h) (fun error _ => ?_)
        rw [hofficial]
        exact .notGenerated (by decide) hnone
      exact hraises.bind fun _ _ h => h.elim
  | some signals =>
      have hofficials := mapM_official.mp hsignals
      have hgenerated := (hgenerates signals).mpr hofficials
      have hput := onOfficial_ends run
        (putSignals_stores pipeline fault run.stores.official signals)
      rw [hofficial] at hput
      have hputs : Raising.Ends (pipeline.putOfficial generated fault) run
          (fun _ after => ¬ pipeline.WriteFails fault stores.official signals ∧
            pipeline.Stored stores.official signals after.stores.official)
          (fun _ after => RunOutcome pipeline tradeDate fault stores .failed []
            after.stores.official) := by
        rw [putOfficial, if_pos hused, hsignals]
        refine Raising.ends_lift_bind (fun found hfound => ?_) (fun _ h => by cases h)
        cases hfound
        refine hput.imp (fun _ _ h => h) ?_
        rintro _ after ⟨hfails, hafter⟩
        rw [hafter]
        exact .writeFailed hgenerated hfails
      refine hputs.bind ?_
      rintro _ after ⟨hwrites, hstored⟩
      apply Raising.ends_change_bind
      refine Raising.ends_lift_bind (fun _ hreport => ?_) (fun error herror => ?_)
      · refine Raising.ends_change ?_
        rw [hofficials] at hreport ⊢
        exact .completed hgenerated hwrites hreport hstored
      · refine .reportFailed hgenerated hwrites (fun hreport => ?_) hstored
        rw [hofficials] at herror
        cases herror.symm.trans hreport

theorem stages_ends {pipeline : EODPipeline V D F} (hused : pipeline.officialSignalStore ≠ .absent)
    (tradeDate : Date) (fault : Option String) (run : EODRun V F) :
    Raising.Ends (pipeline.stages tradeDate fault) run
      (fun generated after => RunOutcome pipeline tradeDate fault run.stores
        (if generated = none then .waitingClose else .completed) (generated.getD [])
        after.stores.official)
      (fun _ after => RunOutcome pipeline tradeDate fault run.stores .failed []
        after.stores.official) := by
  have hgenerated := pipeline.generateSignals_ends tradeDate run
  refine Raising.Ends.bind (hgenerated.imp (fun _ _ h => h) ?_) ?_
  · rintro _ after ⟨hofficial, hnone⟩
    rw [hofficial]
    exact .notGenerated (by decide) hnone
  rintro generated reached ⟨hofficial, hgenerates⟩
  cases generated with
  | none =>
      refine Raising.ends_pure ?_
      rw [hofficial]
      refine .notGenerated (by simp) fun signals h => ?_
      cases (hgenerates signals).mp h
  | some generated =>
      have hiff : ∀ signals, pipeline.Generates tradeDate run.stores signals ↔
          generated = signals.map .official := fun signals => by
        rw [hgenerates signals, Option.some_inj]
      refine Raising.Ends.bind (publishSignals_ends hused hofficial hiff) fun _ after h => ?_
      exact Raising.ends_pure h

theorem run_ends {pipeline : EODPipeline V D F} (hused : pipeline.officialSignalStore ≠ .absent)
    {argument : TradeDateArgument} {tradeDate : Date}
    (hdate : parseTradeDate argument = .ok tradeDate) (fault : Option String)
    (stores : EODStores V F) :
    Raising.Ends (pipeline.run argument fault) stores
      (fun result after => RunOutcome pipeline tradeDate fault stores result.status
        result.officialSignals after.official)
      (fun _ _ => False) := by
  refine Raising.ends_lift_bind (fun found hfound => ?_) (fun error herror => ?_)
  swap
  · cases herror.symm.trans hdate
  cases hdate.symm.trans hfound
  have hstages := stages_ends hused tradeDate fault ⟨stores, [], none⟩
  cases hrun : pipeline.stages tradeDate fault ⟨stores, [], none⟩ with
  | mk result after =>
      simp only [Raising.Ends, hrun]
      cases result with
      | error error => exact hstages.of_error hrun
      | ok generated =>
          have houtcome := hstages.of_ok hrun
          cases generated with
          | none => exact houtcome
          | some generated => exact houtcome

/-! ### Exposure -/

def IsNewest (generated : List (GeneratedSignal F))
    (found : Except String (List (OfficialModelSignal F))) : Prop :=
  ∃ latest, found = .ok latest ∧
    ∀ signal, signal ∈ latest ↔ NewestAmong (generated.filterMap GeneratedSignal.official?) signal

/-- `latest` gives the same before and after, also when the file is opened again. -/
def KeepsLatest (pipeline : EODPipeline V D F) (before after : SignalStore F) : Prop :=
  latestSignals after.memory = latestSignals before.memory ∧
    (pipeline.officialSignalStore = .onFile →
      (latestInFile after.file : Except String (List (OfficialModelSignal F))) =
        latestInFile before.file)

/-- After a run that completes, `latest` gives the newest generated signals, and after every other
one what it gave before. -/
def ExposesOnSuccess (pipeline : EODPipeline V D F) (argument : TradeDateArgument)
    (fault : Option String) (stores : EODStores V F) : Prop :=
  pipeline.officialSignalStore ≠ .absent →
    Raising.Ends (pipeline.run argument fault) stores
      (fun result after =>
        if result.status = .completed then
          IsNewest result.officialSignals (latestSignals after.official.memory) ∧
            (pipeline.officialSignalStore = .onFile →
              IsNewest result.officialSignals (latestInFile after.official.file))
        else pipeline.KeepsLatest stores.official after.official)
      (fun _ after => pipeline.KeepsLatest stores.official after.official)

/-- What may be published by a run, as its stages behave. -/
structure FitsExposure (pipeline : EODPipeline V D F) (fault : Option String)
    (store : SignalStore F) (signals : List (OfficialModelSignal F)) : Prop where
  failed : pipeline.WriteFails fault store signals ∨
    pipeline.writeReport (signals.map .official) ≠ .ok () → LeavesLatest store.memory signals
  written : ¬ pipeline.WriteFails fault store signals →
    pipeline.writeReport (signals.map .official) ≠ .ok () →
      pipeline.officialSignalStore = .onFile → signals ≠ [] →
        ∀ latest, latestSignals store.memory = .ok latest →
          (latestInFile store.file : Except String (List (OfficialModelSignal F))) =
            latestInFile (some (signalArtifactText latest))
  completed : ¬ pipeline.WriteFails fault store signals →
    pipeline.writeReport (signals.map .official) = .ok () → OnlyNewest store.memory signals
  read : ¬ pipeline.WriteFails fault store signals →
    pipeline.writeReport (signals.map .official) = .ok () →
      pipeline.officialSignalStore = .onFile →
        if signals = [] then store.file = none
        else ∀ written, ranked written = written → written.Nodup →
          (∀ signal, signal ∈ written ↔ NewestAmong signals signal) → ReadableSignals written

theorem official_map (signals : List (OfficialModelSignal F)) :
    (signals.map GeneratedSignal.official).filterMap GeneratedSignal.official? = signals := by
  rw [List.filterMap_map]
  exact List.filterMap_some

theorem generates_unique {pipeline : EODPipeline V D F} {tradeDate : Date} {stores : EODStores V F}
    {signals others : List (OfficialModelSignal F)}
    (h : pipeline.Generates tradeDate stores signals)
    (h' : pipeline.Generates tradeDate stores others) : signals = others := by
  obtain ⟨_, daily, hdaily, _, _, hsignals⟩ := h
  obtain ⟨_, daily', hdaily', _, _, hothers⟩ := h'
  cases hdaily.symm.trans hdaily'
  have hsame := Except.ok.inj (hsignals.symm.trans hothers)
  rw [← official_map signals, hsame, official_map]

/-- A run that does not complete keeps the latest signals in memory if what was put leaves them,
and in the file if it reads as if they had been written. -/
theorem keepsLatest_iff {pipeline : EODPipeline V D F} {store after : SignalStore F}
    {signals : List (OfficialModelSignal F)} (h : pipeline.Stored store signals after) :
    pipeline.KeepsLatest store after ↔ LeavesLatest store.memory signals ∧
      (pipeline.officialSignalStore = .onFile → signals ≠ [] →
        ∀ latest, latestSignals store.memory = .ok latest →
          (latestInFile store.file : Except String (List (OfficialModelSignal F))) =
            latestInFile (some (signalArtifactText latest))) := by
  rw [KeepsLatest, h.memory, latest_unchanged_iff]
  refine and_congr_right fun hleaves => ?_
  have hmemory := latest_unchanged_iff.mpr hleaves
  refine forall_congr' fun hfile => ?_
  by_cases hempty : signals = []
  · rw [h.unwritten (Or.inr hempty)]
    exact ⟨fun _ hsome => absurd hempty hsome, fun _ => rfl⟩
  · obtain ⟨written, hwritten, _, hafter⟩ := h.written hfile hempty
    rw [h.memory, hmemory] at hwritten
    rw [hafter]
    constructor
    · intro hsame _ latest hlatest
      cases hwritten.symm.trans hlatest
      exact hsame.symm
    · exact fun hread => (hread hempty written hwritten).symm

/-- A run that completes exposes the generated signals if these are the newest ones and can be read
from the file. -/
theorem isNewest_iff {pipeline : EODPipeline V D F} {store after : SignalStore F}
    {signals : List (OfficialModelSignal F)} (h : pipeline.Stored store signals after) :
    (IsNewest (signals.map .official) (latestSignals after.memory) ∧
      (pipeline.officialSignalStore = .onFile →
        IsNewest (signals.map .official) (latestInFile after.file))) ↔
    OnlyNewest store.memory signals ∧
      (pipeline.officialSignalStore = .onFile →
        if signals = [] then store.file = none
        else ∀ written, ranked written = written → written.Nodup →
          (∀ signal, signal ∈ written ↔ NewestAmong signals signal) →
            ReadableSignals written) := by
  rw [IsNewest, IsNewest, official_map, h.memory, latest_newest_iff]
  refine and_congr_right fun honly => ?_
  refine forall_congr' fun hfile => ?_
  by_cases hempty : signals = []
  · rw [if_pos hempty, h.unwritten (Or.inr hempty), ← latestInFile_eq_nil_iff (F := F)]
    have hnone : ∀ signal, ¬ NewestAmong signals signal := fun signal hsignal =>
      List.not_mem_nil (hempty ▸ hsignal.1)
    constructor
    · rintro ⟨latest, hlatest, hmem⟩
      have hnil : latest = [] := List.eq_nil_iff_forall_not_mem.mpr fun signal hsignal =>
        hnone signal ((hmem signal).mp hsignal)
      rw [hlatest, hnil]
    · exact fun hnil => ⟨[], hnil, fun signal => by simp [hnone signal]⟩
  · rw [if_neg hempty]
    obtain ⟨found, hfound, hmem⟩ := latest_newest_iff.mpr honly
    obtain ⟨written, hwritten, hsome, hafter⟩ := h.written hfile hempty
    rw [h.memory] at hwritten
    cases hfound.symm.trans hwritten
    obtain ⟨hsorted, hnodup⟩ := latestSignals_ordered hfound
    rw [hafter]
    constructor
    · rintro ⟨read, hread, _⟩ other hranked hother hsame
      have hreadable := ((latestInFile_written_iff hfound hsome).mp hread).1
      have heq : found = other := eq_of_ordered
        (fun signal hsignal => (mem_latestSignals hfound).mp hsignal)
        (fun signal => (hmem signal).trans (hsame signal).symm) hnodup.of_map hother hsorted
        (hranked ▸ ranked_pairwise other)
      exact heq ▸ hreadable
    · intro hreadable
      have hranked : ranked found = found := hsorted.insertionSort_eq
      exact ⟨found, (latestInFile_written_iff hfound hsome).mpr
        ⟨hreadable found hranked hnodup.of_map hmem, rfl⟩, hmem⟩

theorem fits_iff {pipeline : EODPipeline V D F} {tradeDate : Date} {fault : Option String}
    {stores : EODStores V F} {signals : List (OfficialModelSignal F)}
    (h : pipeline.Generates tradeDate stores signals) :
    (∀ others, pipeline.Generates tradeDate stores others →
      pipeline.FitsExposure fault stores.official others) ↔
        pipeline.FitsExposure fault stores.official signals :=
  ⟨fun hall => hall signals h, fun hfits _ hothers => generates_unique h hothers ▸ hfits⟩

/-- Whichever way a run ends, it does what it should exactly if what it publishes fits. -/
theorem RunOutcome.exposes_iff {pipeline : EODPipeline V D F} {tradeDate : Date}
    {fault : Option String} {stores : EODStores V F} {status : EODStatus}
    {generated : List (GeneratedSignal F)} {after : SignalStore F}
    (h : RunOutcome pipeline tradeDate fault stores status generated after) :
    (if status = .completed then
      IsNewest generated (latestSignals after.memory) ∧
        (pipeline.officialSignalStore = .onFile → IsNewest generated (latestInFile after.file))
    else pipeline.KeepsLatest stores.official after) ↔
      ∀ signals, pipeline.Generates tradeDate stores signals →
        pipeline.FitsExposure fault stores.official signals := by
  cases h with
  | notGenerated unfinished none =>
      rw [if_neg unfinished]
      exact ⟨fun _ signals h => absurd h (none signals), fun _ => ⟨rfl, fun _ => rfl⟩⟩
  | writeFailed generates fails =>
      rw [if_neg (by simp), fits_iff generates, KeepsLatest, latest_unchanged_iff]
      constructor
      · rintro ⟨hleaves, _⟩
        exact ⟨fun _ => hleaves, fun hwrites => absurd fails hwrites,
          fun hwrites => absurd fails hwrites, fun hwrites => absurd fails hwrites⟩
      · exact fun hfits => ⟨hfits.failed (Or.inl fails), fun _ => rfl⟩
  | reportFailed generates writes raises stored =>
      rw [if_neg (by simp), fits_iff generates, keepsLatest_iff stored]
      constructor
      · rintro ⟨hleaves, hread⟩
        exact ⟨fun _ => hleaves, fun _ _ => hread, fun _ hreport => absurd hreport raises,
          fun _ hreport => absurd hreport raises⟩
      · exact fun hfits => ⟨hfits.failed (Or.inr raises), hfits.written writes raises⟩
  | completed generates writes reports stored =>
      rw [if_pos rfl, fits_iff generates, isNewest_iff stored]
      constructor
      · rintro ⟨honly, hread⟩
        refine ⟨?_, fun _ hraises => absurd reports hraises, fun _ _ => honly, fun _ _ => hread⟩
        rintro (hfails | hraises)
        · exact absurd hfails writes
        · exact absurd reports hraises
      · exact fun hfits => ⟨hfits.completed writes reports, hfits.read writes reports⟩

/-- A run exposes signals on success only exactly if what its stages let it publish fits. -/
theorem exposesOnSuccess_iff (pipeline : EODPipeline V D F) (argument : TradeDateArgument)
    (fault : Option String) (stores : EODStores V F) :
    pipeline.ExposesOnSuccess argument fault stores ↔
      ∀ tradeDate signals, parseTradeDate argument = .ok tradeDate →
        pipeline.officialSignalStore ≠ .absent →
          pipeline.Generates tradeDate stores signals →
            pipeline.FitsExposure fault stores.official signals := by
  by_cases hused : pipeline.officialSignalStore = .absent
  · exact ⟨fun _ _ _ _ hother => absurd hused hother, fun _ hother => absurd hused hother⟩
  cases hdate : parseTradeDate argument with
  | error error =>
      refine iff_of_true (fun _ => ?_) (fun _ _ h => by cases h)
      refine Raising.ends_lift_bind (fun _ h => ?_) (fun _ _ => ⟨rfl, fun _ => rfl⟩)
      cases hdate.symm.trans h
  | ok tradeDate =>
      have hends := run_ends hused hdate fault stores
      cases hrun : pipeline.run argument fault stores with
      | mk result after =>
          cases result with
          | error error => exact (hends.of_error hrun).elim
          | ok result =>
              have hexposes := (hends.of_ok hrun).exposes_iff
              rw [ExposesOnSuccess, Raising.Ends, hrun]
              constructor
              · intro h other signals hsame _ hgenerates
                cases hsame
                exact hexposes.mp (h hused) signals hgenerates
              · exact fun h _ => hexposes.mpr fun signals hgenerates =>
                  h tradeDate signals rfl hused hgenerates

end

section Sample

attribute [local instance] fiftyFormat lowercaseFold

/-- Everything succeeds but the report. -/
def unreported : EODPipeline Unit Unit Unit where
  confirmClose _ := .ok true
  loadFinalDaily _ := .ok []
  reconcile bars _ := .ok (bars.map some)
  updatePit _ := .ok ()
  generateOfficialSignals _ := .ok [.official sampleSignal]
  writeReport _ := .error "OSError"
  officialSignalStore := .inMemory

/-- A run whose report fails has exposed its signals. -/
theorem unreported_exposes :
    ¬ unreported.ExposesOnSuccess (.day sampleSignal.signalDate) none
      ⟨⟨.empty, .empty, []⟩, ⟨none, .empty⟩⟩ := by
  intro h
  have hkept := h (by decide)
  have hlatest : Except.ok [sampleSignal] = (Except.ok [] : Except String _) := hkept.1
  cases hlatest

end Sample

end EODPipeline

end QuantWorkbench.Runtime
