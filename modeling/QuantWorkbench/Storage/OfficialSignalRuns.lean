import QuantWorkbench.Lib.Runs
import QuantWorkbench.Storage.OfficialSignals

/-!
What a store of official signals does in a run of calls: each call that fits leaves a file that
opens with the latest signals of memory. The reader takes historical signals only, and a failed
write does not bring the signals back that were replaced in memory.
-/

namespace QuantWorkbench.Storage

open Lib Signals

section

variable {F : Type} [FloatFormat F] [FoldTable]

/-! ### Signals of plain dates -/

def PlainDates (memory : SignalsByKey F) : Prop :=
  ∀ signal ∈ memory.values, signal.signalDate.isDate = true

theorem plainDates_replaceGroups {memory : SignalsByKey F} {incoming : List (OfficialModelSignal F)}
    (hmemory : PlainDates memory)
    (hincoming : ∀ signal ∈ incoming, signal.signalDate.isDate = true) :
    PlainDates (replaceGroups memory incoming) := by
  intro signal hsignal
  rcases Keyed.mem_foldl_put hsignal with hnew | hold
  · exact hincoming signal hnew
  · exact hmemory signal (Keyed.mem_values_filter.mp hold).1

omit [FoldTable] in
theorem laterDay_plain {newest day : Day} (hnewest : newest.isDate = true)
    (hday : day.isDate = true) :
    ∃ later, laterDay newest day = .ok later ∧ (later = newest ∨ later = day) := by
  obtain ⟨newest, rfl⟩ := Day.isDate_iff.mp hnewest
  obtain ⟨day, rfl⟩ := Day.isDate_iff.mp hday
  by_cases hlater : newest < day
  · exact ⟨.date day, by simp [laterDay, Day.after?, orRaise, hlater], Or.inr rfl⟩
  · exact ⟨.date newest, by simp [laterDay, Day.after?, orRaise, hlater], Or.inl rfl⟩

omit [FoldTable] in
theorem foldlM_laterDay {newest : Day} {days : List Day} (hnewest : newest.isDate = true)
    (hdays : ∀ day ∈ days, day.isDate = true) :
    ∃ last ∈ newest :: days, days.foldlM laterDay newest = .ok last := by
  induction days generalizing newest with
  | nil => exact ⟨newest, List.mem_cons_self, rfl⟩
  | cons day rest ih =>
      obtain ⟨hday, hrest⟩ := List.forall_mem_cons.mp hdays
      obtain ⟨later, hlater, hsame⟩ := laterDay_plain hnewest hday
      have hplain : later.isDate = true := by
        rcases hsame with rfl | rfl
        · exact hnewest
        · exact hday
      obtain ⟨last, hlast, hfold⟩ := ih hplain hrest
      refine ⟨last, ?_, ?_⟩
      · rcases List.mem_cons.mp hlast with rfl | hmem
        · rcases hsame with rfl | rfl
          · exact List.mem_cons_self
          · exact List.mem_cons_of_mem _ List.mem_cons_self
        · exact List.mem_cons_of_mem _ (List.mem_cons_of_mem _ hmem)
      · rw [List.foldlM_cons, hlater]
        exact hfold

omit [FoldTable] in
theorem newestDay_plain {days : List Day} (hsome : days ≠ []) (h : ∀ day ∈ days, day.isDate = true)
    :
    ∃ newest ∈ days, newestDay days = .ok (some newest) := by
  cases days with
  | nil => exact absurd rfl hsome
  | cons day rest =>
      obtain ⟨hday, hrest⟩ := List.forall_mem_cons.mp h
      obtain ⟨newest, hmem, hfold⟩ := foldlM_laterDay hday hrest
      refine ⟨newest, hmem, ?_⟩
      rw [newestDay, hfold]
      rfl

theorem ranked_perm (signals : List (OfficialModelSignal F)) : (ranked signals).Perm signals :=
  List.perm_insertionSort _ signals

theorem ranked_ranked (signals : List (OfficialModelSignal F)) : ranked (ranked signals) = ranked
    signals := by
  have : Std.Total fun signal other : OfficialModelSignal F => rankKey signal ≤ rankKey other :=
    ⟨fun _ _ => le_total _ _⟩
  have : IsTrans (OfficialModelSignal F) fun signal other => rankKey signal ≤ rankKey other :=
    ⟨fun _ _ _ => le_trans⟩
  exact (List.pairwise_insertionSort _ signals).insertionSort_eq

/-- What the latest signals are when every date is a plain one. -/
structure LatestOf (memory : SignalsByKey F) (latest : List (OfficialModelSignal F)) : Prop where
  result : latestSignals memory = .ok latest
  stored : ∀ signal ∈ latest, signal ∈ memory.values
  keys : (latest.map signalKey).Nodup
  sameDate : ∀ signal ∈ latest, ∀ other ∈ latest, signal.signalDate = other.signalDate
  sorted : ranked latest = latest
  nonempty : memory.values ≠ [] → latest ≠ []

theorem latestSignals_plain {memory : SignalsByKey F} (h : PlainDates memory) :
    ∃ latest, LatestOf memory latest := by
  by_cases hempty : memory.values = []
  · refine ⟨[], ?_, by simp, List.nodup_nil, by simp, rfl, fun hsome => absurd hempty hsome⟩
    rw [latestSignals, hempty]
    rfl
  have hdays : ∀ day ∈ memory.values.map fun signal => signal.signalDate, day.isDate = true := by
    intro day hday
    obtain ⟨signal, hsignal, rfl⟩ := List.mem_map.mp hday
    exact h signal hsignal
  obtain ⟨newest, hnewest, hday⟩ := newestDay_plain (by simpa using hempty) hdays
  have hperm := ranked_perm (memory.values.filter fun signal => signal.signalDate.key = newest.key)
  have hmem : ∀ signal ∈ ranked (memory.values.filter fun signal =>
      signal.signalDate.key = newest.key),
      signal ∈ memory.values ∧ signal.signalDate = newest := by
    intro signal hsignal
    have hfiltered := List.mem_filter.mp (hperm.mem_iff.mp hsignal)
    have hkey := of_decide_eq_true hfiltered.2
    exact ⟨hfiltered.1, Day.eq_of_key_eq hkey (h signal hfiltered.1) (hdays newest hnewest)⟩
  refine ⟨_, ?_, fun signal hsignal => (hmem signal hsignal).1, ?_, ?_, ranked_ranked _, ?_⟩
  · rw [latestSignals, hday]
    rfl
  · rw [(hperm.map signalKey).nodup_iff]
    exact memory.nodup.sublist (List.filter_sublist.map signalKey)
  · exact fun signal hsignal other hother =>
      (hmem signal hsignal).2.trans (hmem other hother).2.symm
  · intro _ hnil
    obtain ⟨signal, hsignal, hsame⟩ := List.mem_map.mp hnewest
    have hfiltered : signal ∈ memory.values.filter fun signal =>
        signal.signalDate.key = newest.key :=
      List.mem_filter.mpr ⟨hsignal, decide_eq_true (congrArg Day.key hsame)⟩
    have hranked := hperm.mem_iff.mpr hfiltered
    rw [hnil] at hranked
    cases hranked

theorem latestSignals_latest {memory : SignalsByKey F} {latest : List (OfficialModelSignal F)}
    (h : LatestOf memory latest) (hdates : ∀ signal ∈ latest, signal.signalDate.isDate = true) :
    latestSignals (⟨latest, h.keys⟩ : SignalsByKey F) = .ok latest := by
  by_cases hempty : latest = []
  · subst hempty
    rfl
  have hdays : ∀ day ∈ latest.map fun signal => signal.signalDate, day.isDate = true := by
    intro day hday
    obtain ⟨signal, hsignal, rfl⟩ := List.mem_map.mp hday
    exact hdates signal hsignal
  obtain ⟨newest, hnewest, hday⟩ := newestDay_plain (by simpa using hempty) hdays
  obtain ⟨first, hfirst, rfl⟩ := List.mem_map.mp hnewest
  have hall : latest.filter (fun signal => signal.signalDate.key = first.signalDate.key) = latest :=
    List.filter_eq_self.mpr fun signal hsignal =>
      decide_eq_true (congrArg Day.key (h.sameDate signal hsignal first hfirst))
  rw [latestSignals, hday]
  change Except.ok (ranked (latest.filter _)) = _
  rw [hall, h.sorted]

/-! ### One call -/

def Reopens (store : SignalStore F) : Prop :=
  ∃ reopened latest, openSignalStore store.file = .ok reopened ∧
    latestSignals reopened.memory = .ok latest ∧ latestSignals store.memory = .ok latest

inductive SignalCall (F : Type) [FloatFormat F] [FoldTable] where
  | putSignals (incoming : List (OfficialModelSignal F)) (persist : Bool) (fault : Option String)

def SignalCall.run : SignalCall F → Raising String (SignalStore F) Unit
  | .putSignals incoming persist fault => Storage.putSignals incoming persist fault

def SignalStore.step (store : SignalStore F) (call : SignalCall F) : SignalStore F
    := (call.run store).2

/-- A call that returns leaves a file that reopens, and one that raises leaves the signals as they
were. -/
def RoundTrips (store : SignalStore F) (call : SignalCall F) : Prop :=
  Raising.Ends call.run store (fun _ after => Reopens after)
    (fun _ after => ∀ signal, signal ∈ after.memory.values ↔ signal ∈ store.memory.values)

/-- The call persists without a fault, its dates are plain ones, and the newest signals that it
leaves are historical and not too large to be read. -/
def FitsStore (store : SignalStore F) : SignalCall F → Prop
  | .putSignals incoming persist fault =>
      incoming ≠ [] → persist = true ∧ fault = none ∧
        (∀ signal ∈ incoming, signal.signalDate.isDate = true) ∧
        ∀ latest, latestSignals (replaceGroups store.memory incoming) = .ok latest →
          (∀ signal ∈ latest, signal.dataMode = .historical) ∧
            (signalArtifactText latest).utf8.length ≤ signalArtifactLimit

structure SignalStore.Sound (store : SignalStore F) : Prop where
  plain : PlainDates store.memory
  reopens : Reopens store

theorem decodeSignal_isDate {payload : Json} {signal : OfficialModelSignal F}
    (h : decodeSignal payload = some signal) : signal.signalDate.isDate = true := by
  obtain ⟨_, _, h⟩ := Option.bind_eq_some_iff.mp h
  obtain ⟨_, _, h⟩ := Option.bind_eq_some_iff.mp h
  obtain ⟨_, _, h⟩ := Option.bind_eq_some_iff.mp h
  obtain ⟨signalDate, hdate, h⟩ := Option.bind_eq_some_iff.mp h
  -- The other fields are read before the signal is made.
  iterate 14 obtain ⟨_, _, h⟩ := Option.bind_eq_some_iff.mp h
  rw [(OfficialModelSignal.create_keeps (toOption_eq_some_iff.mp h)).1]
  obtain ⟨_, _, hread⟩ := Option.bind_eq_some_iff.mp hdate
  exact Day.isDate_of_fromisoformat hread

theorem decodeSignalArtifact_isDate {text : Text} {signals : List (OfficialModelSignal F)}
    (h : decodeSignalArtifact text = some signals) :
    ∀ signal ∈ signals, signal.signalDate.isDate = true := by
  simp only [decodeSignalArtifact, Option.bind_eq_bind, Option.bind_eq_some_iff] at h
  obtain ⟨_, _, _, _, _, _, _, _, _, _, _, _, loaded, hloaded, _, _, _, _, hsame⟩ := h
  cases hsame
  intro signal hsignal
  obtain ⟨_, hread⟩ := Json.mem_of_field_asList hloaded hsignal
  exact decodeSignal_isDate hread

theorem sound_of_open {file : Option Text} {store : SignalStore F}
    (h : openSignalStore file = .ok store) : store.Sound := by
  cases file with
  | none =>
      cases h
      exact ⟨fun _ hsignal => (nomatch hsignal), _, [], rfl, rfl, rfl⟩
  | some text =>
      have hopen := h
      obtain ⟨signals, hsignals, h⟩ := bind_eq_ok_iff.mp h
      split at h
      · rename_i hnodup
        cases h
        have hplain : PlainDates (⟨signals, hnodup⟩ : SignalsByKey F) :=
          decodeSignalArtifact_isDate (orRaise_eq_ok_iff.mp hsignals)
        obtain ⟨latest, hlatest⟩ := latestSignals_plain hplain
        exact ⟨hplain, _, latest, hopen, hlatest.result, hlatest.result⟩
      · cases h

theorem reopens_written {memory : SignalsByKey F} {latest : List (OfficialModelSignal F)}
    (hplain : PlainDates memory) (hlatest : LatestOf memory latest) (hsome : latest ≠ [])
    (hmodes : ∀ signal ∈ latest, signal.dataMode = .historical)
    (hsize : (signalArtifactText latest).utf8.length ≤ signalArtifactLimit) :
    Reopens ⟨some (signalArtifactText latest), memory⟩ := by
  have hdates : ∀ signal ∈ latest, signal.signalDate.isDate = true :=
    fun signal hsignal => hplain signal (hlatest.stored signal hsignal)
  refine ⟨⟨some (signalArtifactText latest), ⟨latest, hlatest.keys⟩⟩, latest, ?_,
    latestSignals_latest hlatest hdates, hlatest.result⟩
  rw [openSignalStore, decodeSignalArtifact_text hsome hdates hmodes hsize]
  exact dif_pos hlatest.keys

theorem mem_replaceGroups {memory : SignalsByKey F} {incoming : List (OfficialModelSignal F)}
    (h : incoming ≠ []) : (replaceGroups memory incoming).values ≠ [] := by
  obtain ⟨before, last, rfl⟩ := (List.eq_nil_or_concat incoming).resolve_left h
  rw [replaceGroups, List.concat_eq_append, List.foldl_append]
  exact List.ne_nil_of_mem (Keyed.mem_values_put.mpr (Or.inl rfl))

theorem replaceGroups_nil (memory : SignalsByKey F) : replaceGroups memory [] = memory := by
  apply Keyed.ext
  exact List.filter_eq_self.mpr fun _ _ => rfl

theorem persistSignals_ends {store : SignalStore F} {latest : List (OfficialModelSignal F)}
    (hlatest : LatestOf store.memory latest) (hsome : latest ≠ []) :
    Raising.Ends (persistSignals none) store
      (fun _ after => after = ⟨some (signalArtifactText latest), store.memory⟩)
      (fun _ _ => False) := by
  apply Raising.ends_read_bind
  refine Raising.ends_lift_bind (fun found hfound => ?_) (fun error herror => ?_)
  · cases hlatest.result.symm.trans hfound
    rw [if_pos hsome]
    exact Raising.ends_change rfl
  · rw [hlatest.result] at herror
    cases herror

/-- A call that fits returns, and the file reopens. -/
theorem putSignals_ends {store : SignalStore F} {incoming : List (OfficialModelSignal F)}
    {persist : Bool} {fault : Option String} (hsound : store.Sound)
    (hfits : FitsStore store (.putSignals incoming persist fault)) :
    Raising.Ends (putSignals incoming persist fault) store (fun _ after => after.Sound)
      (fun _ _ => False) := by
  apply Raising.ends_change_bind
  by_cases hincoming : incoming = []
  · rw [if_neg (fun h => h.1 hincoming), hincoming, replaceGroups_nil]
    exact Raising.ends_pure hsound
  · obtain ⟨rfl, rfl, hdates, hlatestFits⟩ := hfits hincoming
    rw [if_pos ⟨hincoming, rfl⟩]
    have hplain := plainDates_replaceGroups hsound.plain hdates
    obtain ⟨latest, hlatest⟩ := latestSignals_plain hplain
    have hsome := hlatest.nonempty (mem_replaceGroups hincoming)
    obtain ⟨hmodes, hsize⟩ := hlatestFits latest hlatest.result
    refine (persistSignals_ends hlatest hsome).imp ?_ (fun _ _ h => h)
    rintro _ _ rfl
    exact ⟨hplain, reopens_written hplain hlatest hsome hmodes hsize⟩

/-! ### Runs -/

/-- In every run whose calls fit, each call that returns leaves a file that reopens with the latest
signals of memory, and none that raises changes the signals. -/
theorem signals_roundTrip_of_fits {file : Option Text} {store : SignalStore F}
    (hopen : openSignalStore file = .ok store) (calls : List (SignalCall F))
    (h : Runs.StepsMeet SignalStore.step FitsStore store calls) :
    Runs.StepsMeet SignalStore.step RoundTrips store calls := by
  have hsound := sound_of_open hopen
  clear hopen
  induction calls generalizing store with
  | nil => trivial
  | cons call rest ih =>
      obtain ⟨hfits, hrest⟩ := h
      obtain ⟨incoming, persist, fault⟩ := call
      have hends := putSignals_ends hsound hfits
      refine ⟨hends.imp (fun _ _ hafter => hafter.reopens) (fun _ _ => False.elim), ih hrest ?_⟩
      exact hends.after (fun _ _ hafter => hafter) (fun _ _ => False.elim)

end

section Sample

/-- The number fifty alone. -/
@[reducible] def fiftyFormat : FloatFormat Unit where
  value _ := 50
  repr _ := "50.0".toList
  ofInt? n := if n = 50 then some () else none
  ofText? text := if text = "50.0".toList then some () else none
  repr_lexeme _ := by decide
  ofText?_repr _ := rfl

@[reducible] def lowercaseFold : FoldTable := ⟨id⟩

attribute [local instance] fiftyFormat lowercaseFold

def sampleSignal : OfficialModelSignal Unit where
  signalDate := .date (.of 2026 1 5)
  symbol := ⟨"600000".toList, Eq.refl true⟩
  normalizedScore := ⟨.float (), (), rfl, by decide⟩
  strategyVersion := "v1".toList
  name := ⟨[], rfl⟩
  modelVersion := .of "m1".toList
  featureVersion := .of "f1".toList
  dataMode := .historical
  source := ⟨.of "lake".toList, by decide⟩
  dataCutoff := .date (.of 2026 1 5)
  generatedAt := ⟨.of 2026 1 5, 8, 0, 0, 0⟩
  rank := some 1
  reasons := []
  referencePrice := none
  averageAmount := none
  invalidationPrice := none
  modelBundleDigest := ⟨[], Or.inl rfl⟩
  strategyNamed := by decide
  cutoffNotLater := by decide
  rankPositive := by
    rintro _ ⟨⟩
    exact Nat.le_refl 1

/-- A write that fails leaves the new signal in memory. -/
theorem failedWrite_not_roundTrip :
    ¬ RoundTrips (⟨none, .empty⟩ : SignalStore Unit)
      (.putSignals [sampleSignal] true (some "official signal artifact cannot be written")) := by
  intro h
  have hkept : sampleSignal ∈ [sampleSignal] ↔ sampleSignal ∈ [] := h sampleSignal
  exact absurd (hkept.mp List.mem_cons_self) List.not_mem_nil

theorem sample_roundTrip :
    Runs.StepsMeet SignalStore.step RoundTrips (⟨none, .empty⟩ : SignalStore Unit)
      [.putSignals [sampleSignal] true none, .putSignals [] true none] := by
  have hopen : openSignalStore none = .ok (⟨none, .empty⟩ : SignalStore Unit) := rfl
  refine signals_roundTrip_of_fits hopen _ ⟨fun _ => ⟨rfl, rfl, ?_, ?_⟩, ?_, trivial⟩
  · intro signal hsignal
    cases List.mem_singleton.mp hsignal
    rfl
  · rintro latest hlatest
    have hone : latestSignals (replaceGroups .empty [sampleSignal]) = .ok [sampleSignal] := rfl
    cases hone.symm.trans hlatest
    refine ⟨fun signal hsignal => ?_, by decide +kernel⟩
    cases List.mem_singleton.mp hsignal
    rfl
  · exact fun h => absurd rfl h

end Sample

end QuantWorkbench.Storage
