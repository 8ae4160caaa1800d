import QuantWorkbench.Lib.DaySteps
import QuantWorkbench.Storage.OfficialSignalRuns

/-!
The latest signals of a store whatever their dates are, and what a call makes of them: when they
stay as they were, and when they are the newest of the signals that were put.
-/

namespace QuantWorkbench.Storage

open Lib Signals

/-! ### The newest day -/

theorem laterDay_error {newest day : Day} {error : String}
    (h : laterDay newest day = .error error) : error = "can't compare these dates" := by
  cases hafter : day.after? newest with
  | none =>
      rw [laterDay, hafter] at h
      cases h
      rfl
  | some later =>
      rw [laterDay, hafter] at h
      cases h

theorem laterDay_ok {newest day later : Day} (h : laterDay newest day = .ok later) :
    (later = newest ∨ later = day) ∧ newest.key ≤ later.key ∧ day.key ≤ later.key := by
  cases hafter : day.after? newest with
  | none =>
      rw [laterDay, hafter] at h
      cases h
  | some after =>
      rw [laterDay, hafter] at h
      cases after with
      | true =>
          cases h
          exact ⟨Or.inr rfl, (Day.after?_iff.mp hafter).le, le_refl _⟩
      | false =>
          cases h
          exact ⟨Or.inl rfl, le_refl _, Day.not_after?_iff.mp hafter⟩

theorem laterDay_of_le {newest day last : Day} (h : newest.key ≤ last.key)
    (h' : day.key ≤ last.key) : ∃ later, laterDay newest day = .ok later := by
  rcases Day.le_total_of_le h' h with hday | hnewest
  · exact ⟨newest, by rw [laterDay, Day.not_after?_iff.mpr hday]; rfl⟩
  · rcases eq_or_lt_of_le hnewest with hsame | hlater
    · exact ⟨newest, by rw [laterDay, Day.not_after?_iff.mpr hsame.ge]; rfl⟩
    · exact ⟨day, by rw [laterDay, Day.after?_iff.mpr hlater]; rfl⟩

theorem foldlM_laterDay_ok {newest last : Day} {days : List Day}
    (h : days.foldlM laterDay newest = .ok last) :
    last ∈ newest :: days ∧ ∀ day ∈ newest :: days, day.key ≤ last.key := by
  induction days generalizing newest with
  | nil =>
      cases h
      exact ⟨List.mem_cons_self, by simp⟩
  | cons day rest ih =>
      rw [List.foldlM_cons] at h
      obtain ⟨later, hlater, h⟩ := bind_eq_ok_iff.mp h
      obtain ⟨hone, hnewest, hday⟩ := laterDay_ok hlater
      obtain ⟨hmem, hall⟩ := ih h
      obtain ⟨hlast, hrest⟩ := List.forall_mem_cons.mp hall
      refine ⟨?_, List.forall_mem_cons.mpr ⟨hnewest.trans hlast,
        List.forall_mem_cons.mpr ⟨hday.trans hlast, hrest⟩⟩⟩
      rcases List.mem_cons.mp hmem with rfl | hmem
      · rcases hone with rfl | rfl
        · exact List.mem_cons_self
        · exact List.mem_cons_of_mem _ List.mem_cons_self
      · exact List.mem_cons_of_mem _ (List.mem_cons_of_mem _ hmem)

theorem foldlM_laterDay_of_le {newest last : Day} {days : List Day}
    (h : ∀ day ∈ newest :: days, day.key ≤ last.key) :
    ∃ found, days.foldlM laterDay newest = .ok found := by
  induction days generalizing newest with
  | nil => exact ⟨newest, rfl⟩
  | cons day rest ih =>
      obtain ⟨hnewest, hrest⟩ := List.forall_mem_cons.mp h
      obtain ⟨hday, hrest⟩ := List.forall_mem_cons.mp hrest
      obtain ⟨later, hlater⟩ := laterDay_of_le hnewest hday
      have hle : later.key ≤ last.key := by
        rcases (laterDay_ok hlater).1 with rfl | rfl
        · exact hnewest
        · exact hday
      obtain ⟨found, hfound⟩ := ih (List.forall_mem_cons.mpr ⟨hle, hrest⟩)
      refine ⟨found, ?_⟩
      rw [List.foldlM_cons, hlater]
      exact hfound

theorem foldlM_laterDay_error {newest : Day} {days : List Day} {error : String}
    (h : days.foldlM laterDay newest = .error error) : error = "can't compare these dates" := by
  induction days generalizing newest with
  | nil => cases h
  | cons day rest ih =>
      rw [List.foldlM_cons] at h
      cases hlater : laterDay newest day with
      | error other =>
          rw [hlater] at h
          cases h
          exact laterDay_error hlater
      | ok later =>
          rw [hlater] at h
          exact ih h

theorem newestDay_ok {days : List Day} {newest : Day} (h : newestDay days = .ok (some newest)) :
    newest ∈ days ∧ ∀ day ∈ days, day.key ≤ newest.key := by
  cases days with
  | nil => cases h
  | cons day rest =>
      obtain ⟨last, hlast, hsame⟩ := bind_eq_ok_iff.mp h
      cases hsame
      exact foldlM_laterDay_ok hlast

theorem newestDay_of_le {days : List Day} {last : Day} (hsome : days ≠ [])
    (h : ∀ day ∈ days, day.key ≤ last.key) : ∃ newest, newestDay days = .ok (some newest) := by
  cases days with
  | nil => exact absurd rfl hsome
  | cons day rest =>
      obtain ⟨found, hfound⟩ := foldlM_laterDay_of_le h
      refine ⟨found, ?_⟩
      rw [newestDay, hfound]
      rfl

/-! ### The latest signals -/

variable {F : Type} [FloatFormat F] [FoldTable]

/-- The signals that no other one's date is after. -/
def NewestAmong (signals : List (OfficialModelSignal F)) (signal : OfficialModelSignal F) : Prop :=
  signal ∈ signals ∧ ∀ other ∈ signals, other.signalDate.key ≤ signal.signalDate.key

theorem latestSignals_error {memory : SignalsByKey F} {error : String}
    (h : latestSignals memory = .error error) : error = "can't compare these dates" := by
  rw [latestSignals] at h
  cases hdays : newestDay (memory.values.map fun signal => signal.signalDate) with
  | error other =>
      rw [hdays] at h
      cases h
      cases hvalues : memory.values.map fun signal => signal.signalDate with
      | nil =>
          rw [hvalues] at hdays
          cases hdays
      | cons day rest =>
          rw [hvalues, newestDay] at hdays
          cases hfold : rest.foldlM laterDay day with
          | error found =>
              rw [hfold] at hdays
              cases hdays
              exact foldlM_laterDay_error hfold
          | ok found =>
              rw [hfold] at hdays
              cases hdays
  | ok newest =>
      rw [hdays] at h
      cases newest <;> cases h

theorem mem_latestSignals {memory : SignalsByKey F} {latest : List (OfficialModelSignal F)}
    (h : latestSignals memory = .ok latest) {signal : OfficialModelSignal F} :
    signal ∈ latest ↔ NewestAmong memory.values signal := by
  obtain ⟨newest, hnewest, h⟩ := bind_eq_ok_iff.mp h
  cases newest with
  | none =>
      cases h
      have hempty : memory.values = [] := by
        cases hvalues : memory.values with
        | nil => rfl
        | cons first rest =>
            rw [hvalues] at hnewest
            obtain ⟨_, _, hnone⟩ := bind_eq_ok_iff.mp hnewest
            cases hnone
      simp [NewestAmong, hempty]
  | some newest =>
      cases h
      obtain ⟨hmem, hall⟩ := newestDay_ok hnewest
      obtain ⟨first, hfirst, rfl⟩ := List.mem_map.mp hmem
      have hle : ∀ other ∈ memory.values, other.signalDate.key ≤ first.signalDate.key :=
        fun other hother => hall _ (List.mem_map_of_mem hother)
      rw [(ranked_perm _).mem_iff, List.mem_filter, decide_eq_true_iff]
      constructor
      · rintro ⟨hsignal, hsame⟩
        exact ⟨hsignal, fun other hother => hsame ▸ hle other hother⟩
      · rintro ⟨hsignal, hnewer⟩
        exact ⟨hsignal, le_antisymm (hle signal hsignal) (hnewer first hfirst)⟩

theorem latestSignals_of_le {memory : SignalsByKey F} {last : OfficialModelSignal F}
    (h : ∀ signal ∈ memory.values, signal.signalDate.key ≤ last.signalDate.key) :
    ∃ latest, latestSignals memory = .ok latest := by
  by_cases hempty : memory.values = []
  · exact ⟨[], by rw [latestSignals, hempty]; rfl⟩
  · have hdays : ∀ day ∈ memory.values.map fun signal => signal.signalDate,
        day.key ≤ last.signalDate.key := by
      intro day hday
      obtain ⟨signal, hsignal, rfl⟩ := List.mem_map.mp hday
      exact h signal hsignal
    obtain ⟨newest, hnewest⟩ := newestDay_of_le (by simpa using hempty) hdays
    refine ⟨ranked (memory.values.filter fun signal =>
      signal.signalDate.key = newest.key), ?_⟩
    rw [latestSignals, hnewest]
    rfl

theorem ranked_pairwise (signals : List (OfficialModelSignal F)) :
    (ranked signals).Pairwise fun signal other => rankKey signal ≤ rankKey other := by
  have : Std.Total fun signal other : OfficialModelSignal F => rankKey signal ≤ rankKey other :=
    ⟨fun _ _ => le_total _ _⟩
  have : IsTrans (OfficialModelSignal F) fun signal other => rankKey signal ≤ rankKey other :=
    ⟨fun _ _ _ => le_trans⟩
  exact List.pairwise_insertionSort _ signals

theorem latestSignals_ordered {memory : SignalsByKey F} {latest : List (OfficialModelSignal F)}
    (h : latestSignals memory = .ok latest) :
    (latest.Pairwise fun signal other => rankKey signal ≤ rankKey other) ∧
      (latest.map signalKey).Nodup := by
  obtain ⟨newest, _, h⟩ := bind_eq_ok_iff.mp h
  cases newest with
  | none =>
      cases h
      exact ⟨List.Pairwise.nil, List.nodup_nil⟩
  | some newest =>
      cases h
      refine ⟨ranked_pairwise _, ?_⟩
      rw [((ranked_perm _).map signalKey).nodup_iff]
      exact memory.nodup.sublist (List.filter_sublist.map signalKey)

/-- Two signals of one rank and date are the same one. -/
theorem eq_of_rankKey_eq {memory : SignalsByKey F} {signal other : OfficialModelSignal F}
    (h : NewestAmong memory.values signal) (h' : NewestAmong memory.values other)
    (hrank : rankKey signal = rankKey other) : signal = other := by
  have hdate : signal.signalDate.key = other.signalDate.key :=
    le_antisymm (h'.2 signal h.1) (h.2 other h'.1)
  have hrest := congrArg Prod.snd (toLex_inj.mp hrank)
  have hsymbol : signal.symbol.text = other.symbol.text := congrArg Prod.fst (toLex_inj.mp hrest)
  have hstrategy : signal.strategyVersion = other.strategyVersion :=
    congrArg Prod.snd (toLex_inj.mp hrest)
  exact Keyed.eq_of_key_eq h.1 h'.1 (by rw [signalKey, signalKey, hdate, hsymbol, hstrategy])

theorem eq_of_ordered {memory : SignalsByKey F} {signals others : List (OfficialModelSignal F)}
    (hnewest : ∀ signal ∈ signals, NewestAmong memory.values signal)
    (hmem : ∀ signal, signal ∈ signals ↔ signal ∈ others) (hnodup : signals.Nodup)
    (hnodup' : others.Nodup)
    (hsorted : signals.Pairwise fun signal other => rankKey signal ≤ rankKey other)
    (hsorted' : others.Pairwise fun signal other => rankKey signal ≤ rankKey other) :
    signals = others := by
  have hperm : signals.Perm others := (List.perm_ext_iff_of_nodup hnodup hnodup').mpr hmem
  refine hperm.eq_of_pairwise (fun signal other hsignal hother hle hge => ?_) hsorted hsorted'
  exact eq_of_rankKey_eq (hnewest signal hsignal) (hnewest other ((hmem other).mpr hother))
    (le_antisymm hle hge)

theorem latestSignals_eq {memory memory' : SignalsByKey F}
    {latest latest' : List (OfficialModelSignal F)} (h : latestSignals memory = .ok latest)
    (h' : latestSignals memory' = .ok latest')
    (hmem : ∀ signal, signal ∈ latest ↔ signal ∈ latest') : latest = latest' := by
  obtain ⟨hsorted, hnodup⟩ := latestSignals_ordered h
  obtain ⟨hsorted', hnodup'⟩ := latestSignals_ordered h'
  exact eq_of_ordered (fun signal hsignal => (mem_latestSignals h).mp hsignal) hmem hnodup.of_map
    hnodup'.of_map hsorted hsorted'

/-! ### What a call puts -/

theorem mem_replaceGroups_iff {memory : SignalsByKey F} {incoming : List (OfficialModelSignal F)}
    {signal : OfficialModelSignal F} :
    signal ∈ (replaceGroups memory incoming).values ↔
      Keyed.LastOf signalKey incoming signal ∨
        signal ∈ memory.values ∧ signalGroup signal ∉ incoming.map signalGroup := by
  rw [replaceGroups, Keyed.mem_foldl_put_iff, Keyed.mem_values_filter, decide_eq_true_iff]
  have hgroup : signalKey signal ∈ incoming.map signalKey →
      signalGroup signal ∈ incoming.map signalGroup := by
    intro hkey
    obtain ⟨other, hother, hsame⟩ := List.mem_map.mp hkey
    simp only [signalKey, Prod.mk.injEq] at hsame
    exact List.mem_map.mpr ⟨other, hother, by rw [signalGroup, signalGroup, hsame.1, hsame.2.2]⟩
  constructor
  · rintro (hlast | ⟨⟨hold, hkept⟩, _⟩)
    · exact Or.inl hlast
    · exact Or.inr ⟨hold, hkept⟩
  · rintro (hlast | ⟨hold, hkept⟩)
    · exact Or.inl hlast
    · exact Or.inr ⟨⟨hold, hkept⟩, mt hgroup hkept⟩

/-- Every date that is put or was stored is there afterwards. -/
theorem exists_same_date (memory : SignalsByKey F) (incoming : List (OfficialModelSignal F))
    {signal : OfficialModelSignal F} (h : signal ∈ memory.values ∨ signal ∈ incoming) :
    ∃ kept ∈ (replaceGroups memory incoming).values,
      kept.signalDate.key = signal.signalDate.key := by
  have hput : ∀ other ∈ incoming, other.signalDate.key = signal.signalDate.key →
      ∃ kept ∈ (replaceGroups memory incoming).values,
        kept.signalDate.key = signal.signalDate.key := by
    intro other hother hdate
    obtain ⟨last, hlast, hkey⟩ := Keyed.exists_lastOf (List.mem_map_of_mem hother)
    exact ⟨last, mem_replaceGroups_iff.mpr (Or.inl hlast),
      (congrArg Prod.fst hkey).trans hdate⟩
  rcases h with hold | hnew
  · by_cases hgroup : signalGroup signal ∈ incoming.map signalGroup
    · obtain ⟨other, hother, hsame⟩ := List.mem_map.mp hgroup
      exact hput other hother (congrArg Prod.fst hsame)
    · exact ⟨signal, mem_replaceGroups_iff.mpr (Or.inr ⟨hold, hgroup⟩), rfl⟩
  · exact hput signal hnew rfl

theorem mem_of_replaceGroups {memory : SignalsByKey F} {incoming : List (OfficialModelSignal F)}
    {signal : OfficialModelSignal F} (h : signal ∈ (replaceGroups memory incoming).values) :
    signal ∈ memory.values ∨ signal ∈ incoming :=
  (mem_replaceGroups_iff.mp h).elim (fun hlast => Or.inr hlast.mem) (fun hold => Or.inl hold.1)

/-- The dates of the signals can be compared. -/
def Comparable (signals : List (OfficialModelSignal F)) : Prop :=
  ∀ signal ∈ signals, ∀ other ∈ signals, signal.signalDate.after? other.signalDate ≠ none

theorem exists_newest {signals : List (OfficialModelSignal F)} (hsome : signals ≠ [])
    (h : Comparable signals) : ∃ last, NewestAmong signals last := by
  induction signals with
  | nil => exact absurd rfl hsome
  | cons first rest ih =>
      by_cases hempty : rest = []
      · subst hempty
        exact ⟨first, List.mem_cons_self, by simp⟩
      · obtain ⟨last, hlast, hall⟩ := ih hempty fun signal hsignal other hother =>
          h signal (List.mem_cons_of_mem _ hsignal) other (List.mem_cons_of_mem _ hother)
        cases hafter : first.signalDate.after? last.signalDate with
        | none =>
            exact absurd hafter (h first List.mem_cons_self last (List.mem_cons_of_mem _ hlast))
        | some later =>
            cases later with
            | false =>
                exact ⟨last, List.mem_cons_of_mem _ hlast,
                  List.forall_mem_cons.mpr ⟨Day.not_after?_iff.mp hafter, hall⟩⟩
            | true =>
                have hle := (Day.after?_iff.mp hafter).le
                exact ⟨first, List.mem_cons_self, List.forall_mem_cons.mpr
                  ⟨le_refl _, fun other hother => (hall other hother).trans hle⟩⟩

theorem comparable_of_le {signals : List (OfficialModelSignal F)} {last : OfficialModelSignal F}
    (h : ∀ signal ∈ signals, signal.signalDate.key ≤ last.signalDate.key) : Comparable signals := by
  intro signal hsignal other hother
  rcases Day.le_total_of_le (h signal hsignal) (h other hother) with hle | hle
  · rw [Day.not_after?_iff.mpr hle]
    exact Option.some_ne_none _
  · rcases eq_or_lt_of_le hle with hsame | hlater
    · rw [Day.not_after?_iff.mpr hsame.ge]
      exact Option.some_ne_none _
    · rw [Day.after?_iff.mpr hlater]
      exact Option.some_ne_none _

theorem exists_newestAmong {memory : SignalsByKey F} {latest : List (OfficialModelSignal F)}
    (h : latestSignals memory = .ok latest) (hsome : memory.values ≠ []) :
    ∃ last, NewestAmong memory.values last := by
  obtain ⟨newest, hnewest, _⟩ := bind_eq_ok_iff.mp h
  cases newest with
  | none =>
      cases hvalues : memory.values with
      | nil => exact absurd hvalues hsome
      | cons first rest =>
          rw [hvalues] at hnewest
          obtain ⟨_, _, hnone⟩ := bind_eq_ok_iff.mp hnewest
          cases hnone
  | some newest =>
      obtain ⟨hmem, hall⟩ := newestDay_ok hnewest
      obtain ⟨last, hlast, rfl⟩ := List.mem_map.mp hmem
      exact ⟨last, hlast, fun other hother => hall _ (List.mem_map_of_mem hother)⟩

/-- `latest` returns exactly if the dates in memory can be compared. -/
theorem exists_latest_iff {memory : SignalsByKey F} :
    (∃ latest, latestSignals memory = .ok latest) ↔ Comparable memory.values := by
  constructor
  · rintro ⟨latest, hlatest⟩
    by_cases hempty : memory.values = []
    · rw [hempty]
      exact fun signal hsignal => absurd hsignal List.not_mem_nil
    · obtain ⟨last, hlast⟩ := exists_newestAmong hlatest hempty
      exact comparable_of_le hlast.2
  · intro h
    by_cases hempty : memory.values = []
    · exact ⟨[], by rw [latestSignals, hempty]; rfl⟩
    · obtain ⟨last, hlast⟩ := exists_newest hempty h
      exact latestSignals_of_le hlast.2

theorem comparable_replaceGroups_iff {memory : SignalsByKey F}
    {incoming : List (OfficialModelSignal F)} :
    (∃ latest, latestSignals (replaceGroups memory incoming) = .ok latest) ↔
      Comparable (memory.values ++ incoming) := by
  constructor
  · rintro ⟨latest, hlatest⟩
    by_cases hempty : (replaceGroups memory incoming).values = []
    · intro signal hsignal
      obtain ⟨kept, hkept, _⟩ := exists_same_date memory incoming (List.mem_append.mp hsignal)
      rw [hempty] at hkept
      cases hkept
    · obtain ⟨last, hlast⟩ := exists_newestAmong hlatest hempty
      have hle : ∀ signal ∈ memory.values ++ incoming,
          signal.signalDate.key ≤ last.signalDate.key := by
        intro signal hsignal
        obtain ⟨kept, hkept, hdate⟩ := exists_same_date memory incoming (List.mem_append.mp hsignal)
        exact hdate ▸ hlast.2 kept hkept
      exact comparable_of_le hle
  · intro h
    refine exists_latest_iff.mpr fun signal hsignal other hother => ?_
    exact h signal (List.mem_append.mpr (mem_of_replaceGroups hsignal)) other
      (List.mem_append.mpr (mem_of_replaceGroups hother))

/-! ### When a call leaves the latest signals -/

/-- What is put is not after all that is stored, and the groups of the newest stored date that it
replaces have the same signals again; or the stored dates could not be compared before. -/
def LeavesLatest (memory : SignalsByKey F) (incoming : List (OfficialModelSignal F)) : Prop :=
  ¬ Comparable memory.values ∨
    (∀ new ∈ incoming, ∃ old ∈ memory.values, new.signalDate.key ≤ old.signalDate.key) ∧
      ∀ signal, (∀ old ∈ memory.values, old.signalDate.key ≤ signal.signalDate.key) →
        signalGroup signal ∈ incoming.map signalGroup →
          (signal ∈ memory.values ↔ Keyed.LastOf signalKey incoming signal)

/-- No stored date is after what is put, the stored groups of the newest date are replaced, and no
newest signal is put twice with different contents. -/
def OnlyNewest (memory : SignalsByKey F) (incoming : List (OfficialModelSignal F)) : Prop :=
  Comparable incoming ∧
    (∀ old ∈ memory.values, ∃ new ∈ incoming, old.signalDate.key ≤ new.signalDate.key) ∧
      (∀ old ∈ memory.values, (∀ new ∈ incoming, new.signalDate.key ≤ old.signalDate.key) →
        signalGroup old ∈ incoming.map signalGroup) ∧
        ∀ signal, NewestAmong incoming signal → Keyed.LastOf signalKey incoming signal

/-- If there are latest signals after a call, they are as new as all that was stored or put. -/
theorem exists_newest_replaced {memory : SignalsByKey F}
    {incoming : List (OfficialModelSignal F)} {latest : List (OfficialModelSignal F)}
    (h : latestSignals (replaceGroups memory incoming) = .ok latest)
    {signal : OfficialModelSignal F} (hsignal : signal ∈ memory.values ∨ signal ∈ incoming) :
    ∃ last, NewestAmong (replaceGroups memory incoming).values last ∧
      signal.signalDate.key ≤ last.signalDate.key := by
  obtain ⟨kept, hkept, hdate⟩ := exists_same_date memory incoming hsignal
  obtain ⟨last, hlast⟩ := exists_newestAmong h (List.ne_nil_of_mem hkept)
  exact ⟨last, hlast, hdate ▸ hlast.2 kept hkept⟩

theorem leavesLatest_of_eq {memory : SignalsByKey F} {incoming : List (OfficialModelSignal F)}
    {latest : List (OfficialModelSignal F)} (hbefore : latestSignals memory = .ok latest)
    (hafter : latestSignals (replaceGroups memory incoming) = .ok latest) :
    LeavesLatest memory incoming := by
  have hsame : ∀ signal, NewestAmong (replaceGroups memory incoming).values signal ↔
      NewestAmong memory.values signal :=
    fun signal => (mem_latestSignals hafter).symm.trans (mem_latestSignals hbefore)
  refine Or.inr ⟨fun new hnew => ?_, fun signal hnewest hgroup => ?_⟩
  · obtain ⟨last, hlast, hle⟩ := exists_newest_replaced hafter (Or.inr hnew)
    exact ⟨last, ((hsame last).mp hlast).1, hle⟩
  · constructor
    · intro hsignal
      have hstays := ((hsame signal).mpr ⟨hsignal, hnewest⟩).1
      exact (mem_replaceGroups_iff.mp hstays).resolve_right fun hkept => hkept.2 hgroup
    · intro hlast
      have hput : signal ∈ (replaceGroups memory incoming).values :=
        mem_replaceGroups_iff.mpr (Or.inl hlast)
      obtain ⟨last, hlatest, _⟩ := exists_newest_replaced hafter (Or.inr hlast.mem)
      have hle := hnewest last ((hsame last).mp hlatest).1
      exact ((hsame signal).mp ⟨hput, fun other hother =>
        (hlatest.2 other hother).trans hle⟩).1

theorem eq_of_leavesLatest {memory : SignalsByKey F} {incoming : List (OfficialModelSignal F)}
    {latest : List (OfficialModelSignal F)} (hbefore : latestSignals memory = .ok latest)
    (hnotAfter : ∀ new ∈ incoming, ∃ old ∈ memory.values,
      new.signalDate.key ≤ old.signalDate.key)
    (hgroups : ∀ signal, (∀ old ∈ memory.values, old.signalDate.key ≤ signal.signalDate.key) →
      signalGroup signal ∈ incoming.map signalGroup →
        (signal ∈ memory.values ↔ Keyed.LastOf signalKey incoming signal)) :
    latestSignals (replaceGroups memory incoming) = .ok latest := by
  have hbound : ∀ signal : OfficialModelSignal F,
      (∀ old ∈ memory.values, old.signalDate.key ≤ signal.signalDate.key) →
        ∀ other ∈ (replaceGroups memory incoming).values,
          other.signalDate.key ≤ signal.signalDate.key := by
    intro signal hall other hother
    rcases mem_of_replaceGroups hother with hold | hnew
    · exact hall other hold
    · obtain ⟨old, hold, hle⟩ := hnotAfter other hnew
      exact hle.trans (hall old hold)
  have hafter : ∃ latest', latestSignals (replaceGroups memory incoming) = .ok latest' := by
    by_cases hempty : memory.values = []
    · have hnone : incoming = [] := List.eq_nil_iff_forall_not_mem.mpr fun new hnew => by
        obtain ⟨old, hold, _⟩ := hnotAfter new hnew
        rw [hempty] at hold
        cases hold
      rw [hnone, replaceGroups_nil]
      exact ⟨latest, hbefore⟩
    · obtain ⟨last, hlast⟩ := exists_newestAmong hbefore hempty
      exact latestSignals_of_le (hbound last hlast.2)
  obtain ⟨latest', hlatest'⟩ := hafter
  have hsame : latest = latest' := by
    refine latestSignals_eq hbefore hlatest' fun signal => ?_
    rw [mem_latestSignals hbefore, mem_latestSignals hlatest']
    constructor
    · rintro ⟨hsignal, hnewest⟩
      refine ⟨mem_replaceGroups_iff.mpr ?_, hbound signal hnewest⟩
      by_cases hgroup : signalGroup signal ∈ incoming.map signalGroup
      · exact Or.inl ((hgroups signal hnewest hgroup).mp hsignal)
      · exact Or.inr ⟨hsignal, hgroup⟩
    · rintro ⟨hsignal, hnewest⟩
      have hall : ∀ old ∈ memory.values, old.signalDate.key ≤ signal.signalDate.key := by
        intro old hold
        obtain ⟨kept, hkept, hdate⟩ := exists_same_date memory incoming (Or.inl hold)
        exact hdate ▸ hnewest kept hkept
      refine ⟨?_, hall⟩
      rcases mem_replaceGroups_iff.mp hsignal with hlast | hold
      · exact (hgroups signal hall (List.mem_map_of_mem hlast.mem)).mpr hlast
      · exact hold.1
  rw [hlatest', hsame]

/-- The latest signals of memory stay as they were exactly if nothing newer or different is put. -/
theorem latest_unchanged_iff {memory : SignalsByKey F} {incoming : List (OfficialModelSignal F)} :
    latestSignals (replaceGroups memory incoming) = latestSignals memory ↔
      LeavesLatest memory incoming := by
  cases hbefore : latestSignals memory with
  | error error =>
      have hnot : ¬ Comparable memory.values := by
        rw [← exists_latest_iff]
        rintro ⟨latest, hlatest⟩
        cases hbefore.symm.trans hlatest
      refine ⟨fun _ => Or.inl hnot, fun _ => ?_⟩
      cases hafter : latestSignals (replaceGroups memory incoming) with
      | error other => rw [latestSignals_error hbefore, latestSignals_error hafter]
      | ok latest =>
          have hold : memory.values ≠ [] := by
            intro hempty
            exact hnot (hempty ▸ fun signal hsignal => absurd hsignal List.not_mem_nil)
          obtain ⟨first, hfirst⟩ := List.exists_mem_of_ne_nil _ hold
          obtain ⟨last, hlast, _⟩ := exists_newest_replaced hafter (Or.inl hfirst)
          have hle : ∀ signal ∈ memory.values, signal.signalDate.key ≤ last.signalDate.key := by
            intro signal hsignal
            obtain ⟨kept, hkept, hdate⟩ := exists_same_date memory incoming (Or.inl hsignal)
            exact hdate ▸ hlast.2 kept hkept
          exact absurd (comparable_of_le hle) hnot
  | ok latest =>
      refine ⟨fun hafter => leavesLatest_of_eq hbefore hafter, ?_⟩
      rintro (hnot | ⟨hnotAfter, hgroups⟩)
      · exact absurd (exists_latest_iff.mp ⟨latest, hbefore⟩) hnot
      · exact eq_of_leavesLatest hbefore hnotAfter hgroups

/-- They are the newest ones of what is put exactly if these replace all that is as new. -/
theorem latest_newest_iff {memory : SignalsByKey F} {incoming : List (OfficialModelSignal F)} :
    (∃ latest, latestSignals (replaceGroups memory incoming) = .ok latest ∧
      ∀ signal, signal ∈ latest ↔ NewestAmong incoming signal) ↔ OnlyNewest memory incoming := by
  constructor
  · rintro ⟨latest, hlatest, hmem⟩
    have hsame : ∀ signal, NewestAmong (replaceGroups memory incoming).values signal ↔
        NewestAmong incoming signal := fun signal =>
      (mem_latestSignals hlatest).symm.trans (hmem signal)
    have hput : ∀ signal, NewestAmong incoming signal → Keyed.LastOf signalKey incoming signal :=
      fun signal hsignal => (mem_replaceGroups_iff.mp ((hsame signal).mpr hsignal).1).resolve_right
        fun hkept => hkept.2 (List.mem_map_of_mem hsignal.1)
    refine ⟨?_, fun old hold => ?_, fun old hold hall => ?_, hput⟩
    · by_cases hempty : incoming = []
      · rw [hempty]
        exact fun signal hsignal => absurd hsignal List.not_mem_nil
      · obtain ⟨new, hnew⟩ := List.exists_mem_of_ne_nil _ hempty
        obtain ⟨last, hlast, _⟩ := exists_newest_replaced hlatest (Or.inr hnew)
        exact comparable_of_le ((hsame last).mp hlast).2
    · obtain ⟨last, hlast, hle⟩ := exists_newest_replaced hlatest (Or.inl hold)
      exact ⟨last, ((hsame last).mp hlast).1, hle⟩
    · by_contra hkept
      have hstays := mem_replaceGroups_iff.mpr (Or.inr ⟨hold, hkept⟩)
      obtain ⟨last, hlast, _⟩ := exists_newest_replaced hlatest (Or.inl hold)
      have hle := hall last ((hsame last).mp hlast).1
      have hnewest : NewestAmong (replaceGroups memory incoming).values old :=
        ⟨hstays, fun other hother => (hlast.2 other hother).trans hle⟩
      exact hkept (List.mem_map_of_mem ((hsame old).mp hnewest).1)
  · rintro ⟨hcomparable, hnotAfter, hreplaced, hput⟩
    by_cases hempty : incoming = []
    · have hnone : memory.values = [] := List.eq_nil_iff_forall_not_mem.mpr fun old hold => by
        obtain ⟨new, hnew, _⟩ := hnotAfter old hold
        rw [hempty] at hnew
        cases hnew
      refine ⟨[], ?_, fun signal => ?_⟩
      · rw [hempty, replaceGroups_nil, latestSignals, hnone]
        rfl
      · simp [NewestAmong, hempty]
    · obtain ⟨last, hlast⟩ := exists_newest hempty hcomparable
      have hbound : ∀ other ∈ (replaceGroups memory incoming).values,
          other.signalDate.key ≤ last.signalDate.key := by
        intro other hother
        rcases mem_of_replaceGroups hother with hold | hnew
        · obtain ⟨new, hnew, hle⟩ := hnotAfter other hold
          exact hle.trans (hlast.2 new hnew)
        · exact hlast.2 other hnew
      obtain ⟨latest, hlatest⟩ := latestSignals_of_le hbound
      refine ⟨latest, hlatest, fun signal => ?_⟩
      rw [mem_latestSignals hlatest]
      constructor
      · rintro ⟨hsignal, hnewest⟩
        have hall : ∀ new ∈ incoming, new.signalDate.key ≤ signal.signalDate.key := by
          intro new hnew
          obtain ⟨kept, hkept, hdate⟩ := exists_same_date memory incoming (Or.inr hnew)
          exact hdate ▸ hnewest kept hkept
        rcases mem_replaceGroups_iff.mp hsignal with hlastOf | ⟨hold, hkept⟩
        · exact ⟨hlastOf.mem, hall⟩
        · exact absurd (hreplaced signal hold hall) hkept
      · intro hsignal
        exact ⟨mem_replaceGroups_iff.mpr (Or.inl (hput signal hsignal)), fun other hother =>
          (hbound other hother).trans (hsignal.2 last hlast.1)⟩

/-! ### The file -/

def latestInFile (file : Option Text) : Except String (List (OfficialModelSignal F)) := do
  let store ← openSignalStore file
  latestSignals store.memory

/-- What the reader asks of the signals in a file. -/
structure ReadableSignals (signals : List (OfficialModelSignal F)) : Prop where
  historical : ∀ signal ∈ signals, signal.dataMode = .historical
  plain : ∀ signal ∈ signals, signal.signalDate.isDate = true
  size : (signalArtifactText signals).utf8.length ≤ signalArtifactLimit

theorem isDate_of_decodeSignal_encodeSignal {signal other : OfficialModelSignal F}
    (h : decodeSignal (encodeSignal signal) = some other) : signal.signalDate.isDate = true := by
  obtain ⟨_, _, h⟩ := Option.bind_eq_some_iff.mp h
  obtain ⟨_, _, h⟩ := Option.bind_eq_some_iff.mp h
  obtain ⟨signalDate, hdate, _⟩ := Option.bind_eq_some_iff.mp h
  obtain ⟨text, htext, hread⟩ := Option.bind_eq_some_iff.mp hdate
  have hwritten : (encodeSignal signal).text? "signal_date" = some signal.signalDate.isoformat :=
    rfl
  cases hwritten.symm.trans htext
  rw [Day.fromisoformat_isoformat] at hread
  by_contra hnot
  rw [if_neg hnot] at hread
  cases hread

/-- Only what the reader asks for is read back, and it is read as it was written. -/
theorem decodeSignalArtifact_text_iff {signals loaded : List (OfficialModelSignal F)}
    (hsome : signals ≠ []) :
    decodeSignalArtifact (signalArtifactText signals) = some loaded ↔
      ReadableSignals signals ∧ loaded = signals := by
  constructor
  · intro h
    have hloads : Json.loads (signalArtifactText signals) = some (signalArtifact signals) :=
      (signalArtifact_canonical signals).loads_dumps_newline
    simp only [decodeSignalArtifact, Option.bind_eq_bind, Option.bind_eq_some_iff,
      guard_eq_some_iff] at h
    obtain ⟨_, ⟨_, hsize⟩, payload, hpayload, _, _, _, _, _, _, _, _, read, hread, _, _, _, hmodes,
      hsame⟩ := h
    cases hloads.symm.trans hpayload
    cases hsame
    have hdecoded : (signals.map encodeSignal).mapM decodeSignal = some loaded := hread
    have hplain : ∀ signal ∈ signals, signal.signalDate.isDate = true := by
      intro signal hsignal
      obtain ⟨other, hother⟩ := Json.exists_of_mapM hdecoded (List.mem_map_of_mem hsignal)
      exact isDate_of_decodeSignal_encodeSignal hother
    have hall : (signals.map encodeSignal).mapM decodeSignal = some signals :=
      Json.mapM_map_of_mem fun signal hsignal => decodeSignal_encodeSignal (hplain signal hsignal)
    cases hall.symm.trans hdecoded
    exact ⟨⟨hmodes, hplain, hsize⟩, rfl⟩
  · rintro ⟨hreadable, rfl⟩
    exact decodeSignalArtifact_text hsome hreadable.plain hreadable.historical hreadable.size

theorem ne_nil_of_decode {text : Text} {loaded : List (OfficialModelSignal F)}
    (h : decodeSignalArtifact text = some loaded) : loaded ≠ [] := by
  simp only [decodeSignalArtifact, Option.bind_eq_bind, Option.bind_eq_some_iff,
    guard_eq_some_iff] at h
  obtain ⟨_, _, _, _, _, _, _, _, _, _, _, _, read, _, _, hsome, _, _, hsame⟩ := h
  cases hsame
  exact hsome

/-- A store that is opened on what was written has the same latest signals, if it opens. -/
theorem latestInFile_written_iff {memory : SignalsByKey F}
    {latest found : List (OfficialModelSignal F)} (h : latestSignals memory = .ok latest)
    (hsome : latest ≠ []) :
    latestInFile (some (signalArtifactText latest)) = .ok found ↔
      ReadableSignals latest ∧ found = latest := by
  have hnewest : ∀ signal, NewestAmong latest signal ↔ signal ∈ latest := by
    intro signal
    refine ⟨fun hsignal => hsignal.1, fun hsignal => ⟨hsignal, fun other hother => ?_⟩⟩
    exact ((mem_latestSignals h).mp hsignal).2 other ((mem_latestSignals h).mp hother).1
  obtain ⟨_, hnodup⟩ := latestSignals_ordered h
  have hagain : latestSignals (⟨latest, hnodup⟩ : SignalsByKey F) = .ok latest := by
    obtain ⟨last, hlast⟩ := List.exists_mem_of_ne_nil _ hsome
    have hle : ∀ signal ∈ (⟨latest, hnodup⟩ : SignalsByKey F).values,
        signal.signalDate.key ≤ last.signalDate.key := ((hnewest last).mpr hlast).2
    obtain ⟨again, hresult⟩ := latestSignals_of_le hle
    have hsame : latest = again := latestSignals_eq h hresult fun signal => by
      rw [mem_latestSignals hresult]
      exact (hnewest signal).symm
    rw [hresult, hsame]
  constructor
  · intro hfound
    obtain ⟨store, hopen, hresult⟩ := bind_eq_ok_iff.mp hfound
    obtain ⟨loaded, hloaded, hstore⟩ := bind_eq_ok_iff.mp hopen
    obtain ⟨hreadable, rfl⟩ :=
      (decodeSignalArtifact_text_iff hsome).mp (orRaise_eq_ok_iff.mp hloaded)
    rw [dif_pos hnodup] at hstore
    cases hstore
    cases hagain.symm.trans hresult
    exact ⟨hreadable, rfl⟩
  · rintro ⟨hreadable, rfl⟩
    have hdecoded : decodeSignalArtifact (signalArtifactText found) = some found :=
      (decodeSignalArtifact_text_iff hsome).mpr ⟨hreadable, rfl⟩
    have hopen : openSignalStore (some (signalArtifactText found)) =
        .ok (⟨some (signalArtifactText found), ⟨found, hnodup⟩⟩ : SignalStore F) := by
      rw [openSignalStore, hdecoded]
      exact dif_pos hnodup
    rw [latestInFile, hopen]
    exact hagain

theorem latestInFile_eq_nil_iff {file : Option Text} :
    latestInFile file = .ok ([] : List (OfficialModelSignal F)) ↔ file = none := by
  constructor
  · intro h
    cases file with
    | none => rfl
    | some text =>
        obtain ⟨store, hopen, hresult⟩ := bind_eq_ok_iff.mp h
        obtain ⟨loaded, hloaded, hstore⟩ := bind_eq_ok_iff.mp hopen
        split at hstore
        · cases hstore
          have hsome := ne_nil_of_decode (orRaise_eq_ok_iff.mp hloaded)
          obtain ⟨last, hlast⟩ := exists_newestAmong hresult hsome
          exact absurd ((mem_latestSignals hresult).mpr hlast) List.not_mem_nil
        · cases hstore
  · rintro rfl
    rfl

end QuantWorkbench.Storage
