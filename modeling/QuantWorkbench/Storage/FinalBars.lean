import QuantWorkbench.Lib.Runs
import QuantWorkbench.Storage.RealTimeStore

/-!
Whether minute bars stay final. The end of a date makes its bars historical, but a bar that arrives
later is not compared with the dates that have ended, and one instant has a date in each time zone.
-/

namespace QuantWorkbench.Storage

open Lib Data

variable {V : Type}

/-- A call that changes the bars. The date is what is read of the argument, if it is a date. -/
inductive BarCall (V : Type) where
  | putMinuteBars (bars : List (MinuteBar V))
  | finalizeEod (tradeDate : Option Date)
      (reconciler : List (MinuteBar V) → Except String (List (MinuteBar V)))

namespace RealTimeStore

def empty : RealTimeStore V := ⟨Keyed.empty, Keyed.empty, []⟩

def putMinuteBars (store : RealTimeStore V) (bars : List (MinuteBar V)) : RealTimeStore V :=
  { store with provisional := bars.foldl Keyed.put store.provisional }

/-- The end of a date with a reconciler that gives bars alone. -/
def finalizeBars (tradeDate : Date)
    (reconciler : List (MinuteBar V) → Except String (List (MinuteBar V))) :
    Raising String (RealTimeStore V) EODFinalizationReceipt :=
  finalizeEod tradeDate fun bars => (reconciler bars).map (List.map some)

def applyCall (store : RealTimeStore V) : BarCall V → RealTimeStore V
  | .putMinuteBars bars => store.putMinuteBars bars
  | .finalizeEod none _ => store
  | .finalizeEod (some tradeDate) reconciler => (finalizeBars tradeDate reconciler store).2

/-! ### The end of a date -/

def keptBars (tradeDate : Date) (bars : List (MinuteBar V)) : List (MinuteBar V) :=
  bars.filter fun bar => bar.timestamp.date = tradeDate ∧ bar.isFinal = true

def ended (store : RealTimeStore V) (tradeDate : Date) (bars : List (MinuteBar V)) :
    RealTimeStore V :=
  { store with historical := (keptBars tradeDate bars).foldl Keyed.put store.historical }.closeDate
    tradeDate

theorem keepReconciled_bars (tradeDate : Date) (bars : List (MinuteBar V))
    (store : RealTimeStore V) :
    Raising.Ends (keepReconciled tradeDate (bars.map some)) store
      (fun _ after => after = { store with
        historical := (keptBars tradeDate bars).foldl Keyed.put store.historical })
      (fun _ _ => False) := by
  induction bars generalizing store with
  | nil => exact Raising.ends_pure rfl
  | cons bar rest ih =>
      rw [List.map_cons, keepReconciled]
      by_cases hdropped : bar.timestamp.date ≠ tradeDate ∨ bar.isFinal = false
      · have hdrops : keptBars tradeDate (bar :: rest) = keptBars tradeDate rest := by
          apply List.filter_cons_of_neg
          simpa [imp_iff_not_or] using hdropped
        rw [if_pos hdropped, hdrops]
        exact ih store
      · have hkeeps : keptBars tradeDate (bar :: rest) = bar :: keptBars tradeDate rest := by
          apply List.filter_cons_of_pos
          simpa using hdropped
        rw [if_neg hdropped, hkeeps]
        apply Raising.ends_change_bind
        refine (ih _).bind fun _ _ hafter => ?_
        exact Raising.ends_pure hafter

theorem finalizeBars_ends (tradeDate : Date)
    (reconciler : List (MinuteBar V) → Except String (List (MinuteBar V)))
    (store : RealTimeStore V) :
    Raising.Ends (finalizeBars tradeDate reconciler) store
      (fun _ after => tradeDate ∈ store.finalizedDates ∧ after = store ∨
        tradeDate ∉ store.finalizedDates ∧ ∃ bars,
          reconciler (store.candidates tradeDate) = .ok bars ∧ after = store.ended tradeDate bars)
      (fun error after => tradeDate ∉ store.finalizedDates ∧
        reconciler (store.candidates tradeDate) = .error error ∧ after = store) := by
  apply Raising.ends_read_bind
  by_cases hfinal : tradeDate ∈ store.finalizedDates
  · rw [if_pos hfinal]
    exact Raising.ends_pure (Or.inl ⟨hfinal, rfl⟩)
  · rw [if_neg hfinal]
    apply Raising.ends_read_bind
    refine Raising.ends_lift_bind (fun given hgiven => ?_) (fun error herror => ?_)
    · obtain ⟨bars, hbars, rfl⟩ : ∃ bars, reconciler (store.candidates tradeDate) = .ok bars ∧
          bars.map some = given := by
        dsimp only at hgiven
        cases hbars : reconciler (store.candidates tradeDate) with
        | error error =>
            rw [hbars] at hgiven
            cases hgiven
        | ok bars =>
            rw [hbars] at hgiven
            cases hgiven
            exact ⟨bars, rfl, rfl⟩
      have hkept : Raising.Ends (keepReconciled tradeDate (bars.map some)) store
          (fun _ after => after = { store with
            historical := (keptBars tradeDate bars).foldl Keyed.put store.historical })
          (fun error after => tradeDate ∉ store.finalizedDates ∧
            reconciler (store.candidates tradeDate) = .error error ∧ after = store) :=
        (keepReconciled_bars tradeDate bars store).imp (fun _ _ h => h) fun _ _ h => h.elim
      refine hkept.bind fun valid after hafter => ?_
      apply Raising.ends_change_bind
      refine Raising.ends_pure (Or.inr ⟨hfinal, bars, hbars, ?_⟩)
      rw [hafter]
      rfl
    · dsimp only at herror
      cases hraises : reconciler (store.candidates tradeDate) with
      | error other =>
          rw [hraises] at herror
          cases herror
          exact ⟨hfinal, rfl, rfl⟩
      | ok bars =>
          rw [hraises] at herror
          cases herror

/-- The cases of a call that ends a date. -/
theorem applyCall_finalizeEod (store : RealTimeStore V) (tradeDate : Date)
    (reconciler : List (MinuteBar V) → Except String (List (MinuteBar V))) :
    tradeDate ∈ store.finalizedDates ∧
      store.applyCall (.finalizeEod (some tradeDate) reconciler) = store ∨
    tradeDate ∉ store.finalizedDates ∧
      ((∃ error, reconciler (store.candidates tradeDate) = .error error) ∧
        store.applyCall (.finalizeEod (some tradeDate) reconciler) = store ∨
      ∃ bars, reconciler (store.candidates tradeDate) = .ok bars ∧
        store.applyCall (.finalizeEod (some tradeDate) reconciler) =
          store.ended tradeDate bars) := by
  have hends := finalizeBars_ends tradeDate reconciler store
  have hsame : store.applyCall (.finalizeEod (some tradeDate) reconciler) =
      (finalizeBars tradeDate reconciler store).2 := rfl
  rw [hsame]
  cases hrun : finalizeBars tradeDate reconciler store with
  | mk result after =>
      cases result with
      | ok receipt =>
          obtain hdone | ⟨hnew, hbars⟩ := hends.of_ok hrun
          · exact Or.inl hdone
          · exact Or.inr ⟨hnew, Or.inr hbars⟩
      | error error =>
          obtain ⟨hnew, herror, hafter⟩ := hends.of_error hrun
          exact Or.inr ⟨hnew, Or.inl ⟨⟨error, herror⟩, hafter⟩⟩

/-! ### Final bars -/

/-- The historical bars are final bars of dates that have ended, and no provisional bar is of such a
date. -/
structure Settled (store : RealTimeStore V) : Prop where
  historical : ∀ bar ∈ store.historical.values,
    bar.isFinal = true ∧ bar.timestamp.date ∈ store.finalizedDates
  provisional : ∀ bar ∈ store.provisional.values, bar.timestamp.date ∉ store.finalizedDates

/-- A call leaves what is final as it is. -/
structure StaysFinal (store : RealTimeStore V) (call : BarCall V) : Prop where
  settled : (store.applyCall call).Settled
  kept : ∀ bar ∈ store.historical.values, bar ∈ (store.applyCall call).historical.values
  once : ∀ tradeDate ∈ store.finalizedDates, ∀ reconciler,
    call = .finalizeEod (some tradeDate) reconciler → store.applyCall call = store
  raising : ∀ tradeDate reconciler error, call = .finalizeEod (some tradeDate) reconciler →
    reconciler (store.candidates tradeDate) = .error error → store.applyCall call = store

/-- No bar that is put is of a date that has ended, and no bar that is kept at the end of a date has
the symbol, the frequency and the instant of a historical one. -/
def Admissible (store : RealTimeStore V) : BarCall V → Prop
  | .putMinuteBars bars => ∀ bar, Keyed.LastOf MinuteBar.key bars bar →
      bar.timestamp.date ∉ store.finalizedDates
  | .finalizeEod none _ => True
  | .finalizeEod (some tradeDate) reconciler => tradeDate ∉ store.finalizedDates →
      ∀ bars, reconciler (store.candidates tradeDate) = .ok bars →
        ∀ bar ∈ keptBars tradeDate bars, bar.key ∉ store.historical.keys

theorem staysFinal_of_unchanged {store : RealTimeStore V} {call : BarCall V}
    (hsettled : store.Settled) (h : store.applyCall call = store) : store.StaysFinal call where
  settled := by rwa [h]
  kept _ hbar := by rwa [h]
  once _ _ _ _ := h
  raising _ _ _ _ _ := h

theorem staysFinal_put_iff {store : RealTimeStore V} (hsettled : store.Settled)
    (bars : List (MinuteBar V)) :
    store.StaysFinal (.putMinuteBars bars) ↔ store.Admissible (.putMinuteBars bars) := by
  constructor
  · intro h bar hlast
    exact h.settled.provisional bar (Keyed.mem_foldl_put_iff.mpr (Or.inl hlast))
  · intro h
    refine ⟨⟨hsettled.historical, fun bar hbar => ?_⟩, fun _ hbar => hbar, ?_, ?_⟩
    · rcases Keyed.mem_foldl_put_iff.mp hbar with hlast | ⟨hold, _⟩
      · exact h bar hlast
      · exact hsettled.provisional bar hold
    · rintro _ _ _ ⟨⟩
    · rintro _ _ _ ⟨⟩

theorem mem_keptBars {tradeDate : Date} {bars : List (MinuteBar V)} {bar : MinuteBar V} :
    bar ∈ keptBars tradeDate bars ↔
      bar ∈ bars ∧ bar.timestamp.date = tradeDate ∧ bar.isFinal = true := by
  rw [keptBars, List.mem_filter, decide_eq_true_iff]

theorem settled_ended {store : RealTimeStore V} (hsettled : store.Settled) (tradeDate : Date)
    (bars : List (MinuteBar V)) : (store.ended tradeDate bars).Settled where
  historical bar hbar := by
    rcases Keyed.mem_foldl_put hbar with hkept | hold
    · obtain ⟨_, hdate, hfinal⟩ := mem_keptBars.mp hkept
      exact ⟨hfinal, List.mem_cons.mpr (Or.inl hdate)⟩
    · obtain ⟨hfinal, hdate⟩ := hsettled.historical bar hold
      exact ⟨hfinal, List.mem_cons_of_mem _ hdate⟩
  provisional bar hbar := by
    obtain ⟨hold, hdate⟩ := Keyed.mem_values_filter.mp hbar
    rw [ended, closeDate, List.mem_cons, not_or]
    exact ⟨of_decide_eq_true hdate, hsettled.provisional bar hold⟩

theorem kept_ended_iff {store : RealTimeStore V} (hsettled : store.Settled) {tradeDate : Date}
    (hnew : tradeDate ∉ store.finalizedDates) (bars : List (MinuteBar V)) :
    (∀ bar ∈ store.historical.values, bar ∈ (store.ended tradeDate bars).historical.values) ↔
      ∀ bar ∈ keptBars tradeDate bars, bar.key ∉ store.historical.keys := by
  constructor
  · intro h bar hbar hkey
    obtain ⟨old, hold, hsame⟩ := Keyed.mem_keys.mp hkey
    rcases Keyed.mem_foldl_put_iff.mp (h old hold) with hlast | ⟨_, hother⟩
    · obtain ⟨_, hdate, _⟩ := mem_keptBars.mp hlast.mem
      exact hnew (hdate ▸ (hsettled.historical old hold).2)
    · exact hother (hsame ▸ List.mem_map_of_mem hbar)
  · intro h old hold
    refine Keyed.mem_foldl_put_iff.mpr (Or.inr ⟨hold, fun hkey => ?_⟩)
    obtain ⟨bar, hbar, hsame⟩ := List.mem_map.mp hkey
    exact h bar hbar (hsame ▸ Keyed.mem_keys.mpr ⟨old, hold, rfl⟩)

theorem staysFinal_iff {store : RealTimeStore V} (hsettled : store.Settled) (call : BarCall V) :
    store.StaysFinal call ↔ store.Admissible call := by
  cases call with
  | putMinuteBars bars => exact staysFinal_put_iff hsettled bars
  | finalizeEod tradeDate reconciler =>
      cases tradeDate with
      | none => exact iff_of_true (staysFinal_of_unchanged hsettled rfl) trivial
      | some tradeDate =>
          obtain ⟨hdone, hsame⟩ | ⟨hnew, ⟨⟨error, herror⟩, hsame⟩ | ⟨bars, hbars, hafter⟩⟩ :=
            store.applyCall_finalizeEod tradeDate reconciler
          · exact iff_of_true (staysFinal_of_unchanged hsettled hsame)
              fun hnew => absurd hdone hnew
          · refine iff_of_true (staysFinal_of_unchanged hsettled hsame) fun _ bars hbars => ?_
            cases herror.symm.trans hbars
          · constructor
            · intro h _ others hothers
              cases hbars.symm.trans hothers
              exact (kept_ended_iff hsettled hnew bars).mp (hafter ▸ h.kept)
            · intro h
              refine ⟨hafter ▸ settled_ended hsettled tradeDate bars, ?_, ?_, ?_⟩
              · rw [hafter]
                exact (kept_ended_iff hsettled hnew bars).mpr (h hnew bars hbars)
              · rintro _ hdone _ ⟨⟩
                exact absurd hdone hnew
              · rintro _ _ _ ⟨⟩ herror
                cases hbars.symm.trans herror

/-! ### Runs -/

theorem settled_empty : (empty : RealTimeStore V).Settled where
  historical _ h := absurd h List.not_mem_nil
  provisional _ h := absurd h List.not_mem_nil

/-- Every call of a run leaves what is final as it is exactly if every call is admissible. -/
theorem bars_stay_final_iff (calls : List (BarCall V)) :
    Runs.StepsMeet applyCall StaysFinal (empty : RealTimeStore V) calls ↔
      Runs.StepsMeet applyCall Admissible (empty : RealTimeStore V) calls :=
  Runs.stepsMeet_congr applyCall Settled
    (fun _ call hsettled h => ((staysFinal_iff hsettled call).mpr h).settled)
    (fun _ call hsettled => staysFinal_iff hsettled call) empty calls settled_empty

def closedDay : Date := .of 2026 8 12

def lateBar : MinuteBar Unit where
  symbol := ⟨"600000".toList, Eq.refl true⟩
  timestamp := ⟨⟨closedDay, 14, 59, 0, 0⟩, 28800⟩
  frequency := "1m".toList
  isFinal := true
  values := ()

/-- A bar that arrives after the end of its date is provisional. -/
theorem lateBar_provisional :
    ¬ Runs.StepsMeet applyCall StaysFinal (empty : RealTimeStore Unit)
      [.finalizeEod (some closedDay) .ok, .putMinuteBars [lateBar]] := by
  rintro ⟨_, hput, _⟩
  exact hput.settled.provisional lateBar List.mem_cons_self List.mem_cons_self

end RealTimeStore

end QuantWorkbench.Storage
