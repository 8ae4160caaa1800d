import QuantWorkbench.Data.KeptHistory

/-!
Runs of updates and refreshes: the stored dates of a symbol are kept by every call whose
replacements go over all of them.
-/

namespace QuantWorkbench.Data

open Lib Storage

/-! ### Files that are set aside -/

theorem symbol_eq_of_text {symbol other : Symbol} (h : symbol.text = other.text) :
    symbol = other := by
  cases symbol
  cases other
  cases h
  rfl

theorem fileProfile_isSome {lake : DailyLake} {file : DailyFile} (hfile : file ∈ lake.values)
    (hbars : file.bars ≠ []) : (fileProfile lake file.symbol.text).isSome = true := by
  have hfound : (lake.values.find? fun other => other.symbol.text = file.symbol.text) =
      some file := by
    cases hfind : lake.values.find? fun other => other.symbol.text = file.symbol.text with
    | none => simpa using List.find?_eq_none.mp hfind file hfile
    | some other =>
        have htext : other.symbol.text = file.symbol.text := by
          simpa using List.find?_some hfind
        rw [Keyed.eq_of_key_eq (List.mem_of_find?_eq_some hfind) hfile (symbol_eq_of_text htext)]
  rw [fileProfile, hfound]
  simpa using hbars

theorem keepsDates_setCorruptAside (symbol : Symbol) (lake : DailyLake) :
    KeepsDates symbol lake (setCorruptAside lake) := by
  intro bar hbar
  refine ⟨bar, ?_, rfl⟩
  rw [DailyLake.bars] at hbar
  cases hold : lake.get? symbol with
  | none =>
      rw [hold] at hbar
      cases hbar
  | some file =>
      rw [hold] at hbar
      obtain ⟨hfile, hsymbol⟩ := Keyed.get?_eq_some_iff.mp hold
      have hbars : file.bars ≠ [] := List.ne_nil_of_mem hbar
      have hkept : (setCorruptAside lake).get? symbol = some file := by
        refine Keyed.get?_eq_some_iff.mpr ⟨Keyed.mem_values_filter.mpr ⟨hfile, ?_⟩, hsymbol⟩
        exact fileProfile_isSome hfile hbars
      rw [DailyLake.bars, hkept]
      exact hbar

/-! ### Calls -/

/-- A call of `IncrementalUpdater.run` or of `refresh_daily_data_if_due`. -/
inductive DailyCall where
  | update (provider : DailyProvider) (writes : UpdateWrites) (settings : UpdateSettings)
      (limit : Option ℕ)
  | refresh (arguments : RefreshArguments) (provider : DailyProvider) (writes : UpdateWrites)

namespace DailyCall

def provider : DailyCall → DailyProvider
  | update provider _ _ _ => provider
  | refresh _ provider _ => provider

def writes : DailyCall → UpdateWrites
  | update _ writes _ _ => writes
  | refresh _ _ writes => writes

/-- What a call does before it goes over the symbols. -/
def plan : DailyCall → Raising String UpdateState (Option UpdatePlan)
  | update provider writes settings limit => do
      return some (← updaterPlan provider writes settings limit)
  | refresh arguments provider writes => refreshPlan arguments provider writes

section

variable [CellReader]

def run : DailyCall → Raising String UpdateState Unit
  | update provider writes settings limit => updaterRun provider writes settings limit
  | refresh arguments provider writes => refreshDailyData arguments provider writes

/-- The files that a call leaves. -/
def step (lake : DailyLake) (call : DailyCall) : DailyLake := (call.run ⟨lake, {}⟩).2.lake

def MeetsRequests (call : DailyCall)
    (condition : DailyProvider → UpdateSettings → UpdateState → DailyRequest → Prop)
    (lake : DailyLake) : Prop :=
  ∀ plan state, call.plan ⟨lake, {}⟩ = (.ok (some plan), state) →
    Raising.EachMeets (updateSymbol call.provider call.writes plan.settings)
      (condition call.provider plan.settings) state plan.requests

/-- The replacements of a call go over all stored bars. -/
def FitsHistory (lake : DailyLake) (call : DailyCall) : Prop := call.MeetsRequests FitsRequest lake

/-- No stored row is lost of a symbol whose ranges the provider returns completely. -/
def KeepsHistory (lake : DailyLake) (call : DailyCall) : Prop :=
  ∀ symbol, call.MeetsRequests (CompleteRequest symbol) lake →
    KeepsDates symbol lake (call.step lake)

end

end DailyCall

/-! ### Plans -/

theorem updaterPlan_ends (provider : DailyProvider) (writes : UpdateWrites)
    (settings : UpdateSettings) (limit : Option ℕ) (state : UpdateState) :
    Raising.Ends (updaterPlan provider writes settings limit) state
      (fun _ after => after.lake = state.lake) (fun _ after => after.lake = state.lake) := by
  refine Raising.ends_check_bind (fun _ => ?_) (fun _ => rfl)
  refine Raising.ends_lift_bind (fun instruments _ => ?_) (fun _ _ => rfl)
  refine Raising.ends_lift_bind (fun symbols _ => ?_) (fun _ _ => rfl)
  apply Raising.ends_change_bind
  exact Raising.ends_pure rfl

theorem refreshPlan_ends (arguments : RefreshArguments) (provider : DailyProvider)
    (writes : UpdateWrites) (state : UpdateState) (symbol : Symbol) :
    Raising.Ends (refreshPlan arguments provider writes) state
      (fun _ after => StateKeeps symbol state after)
      (fun _ after => StateKeeps symbol state after) := by
  have hsame : StateKeeps symbol state state := KeepsDates.refl symbol state.lake
  have haside := keepsDates_setCorruptAside symbol state.lake
  refine Raising.ends_check_bind (fun _ => ?_) (fun _ => hsame)
  refine Raising.ends_check_bind (fun _ => ?_) (fun _ => hsame)
  apply Raising.ends_read_bind
  refine Raising.ends_lift_bind (fun stems _ => ?_) (fun _ _ => hsame)
  extract_lets version
  split
  · exact Raising.ends_pure hsame
  · apply Raising.ends_change_bind
    split
    · refine Raising.ends_lift_bind (fun settings _ => ?_) (fun _ _ => haside)
      have hplan := updaterPlan_ends provider writes settings (some 100)
        { state with lake := setCorruptAside state.lake }
      have hkeeps : ∀ after : UpdateState, after.lake = setCorruptAside state.lake →
          StateKeeps symbol state after := by
        intro after hlake
        rw [StateKeeps, hlake]
        exact haside
      refine (hplan.imp (fun _ => hkeeps) (fun _ => hkeeps)).bind fun _ _ h => ?_
      exact Raising.ends_pure h
    · refine Raising.ends_lift_bind (fun listed _ => ?_) (fun _ _ => haside)
      refine Raising.ends_lift_bind (fun settings _ => ?_) (fun _ _ => haside)
      refine Raising.ends_lift_bind (fun symbols _ => ?_) (fun _ _ => haside)
      apply Raising.ends_change_bind
      exact Raising.ends_pure haside

theorem DailyCall.plan_ends (call : DailyCall) (state : UpdateState) (symbol : Symbol) :
    Raising.Ends call.plan state (fun _ after => StateKeeps symbol state after)
      (fun _ after => StateKeeps symbol state after) := by
  cases call with
  | update provider writes settings limit =>
      have hkeeps : ∀ after : UpdateState, after.lake = state.lake →
          StateKeeps symbol state after := by
        intro after hlake
        rw [StateKeeps, hlake]
        exact KeepsDates.refl symbol state.lake
      have hplan := updaterPlan_ends provider writes settings limit state
      refine (hplan.imp (fun _ => hkeeps) (fun _ => hkeeps)).bind fun _ _ h => ?_
      exact Raising.ends_pure h
  | refresh arguments provider writes => exact refreshPlan_ends arguments provider writes state symbol

section

variable [CellReader]

/-- A call is its plan and the loop over the requests of the plan. -/
theorem DailyCall.run_eq (call : DailyCall) :
    call.run = call.plan >>= fun plan => match plan with
      | none => pure ()
      | some plan => runPlan call.provider call.writes plan := by
  cases call with
  | update provider writes settings limit =>
      funext state
      simp only [run, plan, updaterRun, bind, pure]
      cases updaterPlan provider writes settings limit state with
      | mk result after => cases result <;> rfl
  | refresh arguments provider writes => rfl

/-- The loop of a call keeps what its requests keep. -/
theorem runPlan_ends {provider : DailyProvider} {writes : UpdateWrites} {plan : UpdatePlan}
    {state : UpdateState} {symbol : Symbol}
    (hfits : Raising.EachMeets (updateSymbol provider writes plan.settings)
      (FitsRequest provider plan.settings) state plan.requests)
    (hcomplete : Raising.EachMeets (updateSymbol provider writes plan.settings)
      (CompleteRequest symbol provider plan.settings) state plan.requests) :
    Raising.Ends (runPlan provider writes plan) state (fun _ after => StateKeeps symbol state after)
      (fun _ after => StateKeeps symbol state after) := by
  have hloop : Raising.Ends (Raising.forEach (updateSymbol provider writes plan.settings)
      plan.requests) state (fun _ after => StateKeeps symbol state after)
      (fun _ after => StateKeeps symbol state after) :=
    Raising.ends_forEach (fun before => KeepsDates.refl symbol before.lake)
      (fun _ _ _ => KeepsDates.trans) (fun _ _ h => updateSymbol_ends writes h.1 h.2)
      (hfits.and hcomplete)
  exact hloop.bind fun _ _ h => Raising.ends_change h

theorem DailyCall.keepsHistory {call : DailyCall} {lake : DailyLake} (h : FitsHistory lake call) :
    KeepsHistory lake call := by
  intro symbol hcomplete
  have hends : Raising.Ends call.run ⟨lake, {}⟩ (fun _ after => KeepsDates symbol lake after.lake)
      (fun _ after => KeepsDates symbol lake after.lake) := by
    rw [call.run_eq]
    refine (call.plan_ends ⟨lake, {}⟩ symbol).bind_of_run fun found state hplan hkeeps => ?_
    cases found with
    | none => exact Raising.ends_pure hkeeps
    | some plan =>
        have hloop := runPlan_ends (h plan state hplan) (hcomplete plan state hplan)
        exact hloop.imp (fun _ _ => hkeeps.trans) (fun _ _ => hkeeps.trans)
  exact hends.after (fun _ _ h => h) (fun _ _ h => h)

/-- In every run whose replacements go over all stored bars, no call loses a stored row. -/
theorem DailyCall.keepsHistory_of_fits (lake : DailyLake) (calls : List DailyCall)
    (h : Runs.StepsMeet step FitsHistory lake calls) :
    Runs.StepsMeet step KeepsHistory lake calls := by
  induction calls generalizing lake with
  | nil => trivial
  | cons call rest ih => exact ⟨keepsHistory h.1, ih (step lake call) h.2⟩

end

section Sample

attribute [local instance] plainReader

/-- Another version of the bars of the second day. -/
def changedProvider : DailyProvider where
  dailyDataVersion := some "v2".toList
  listInstruments _ := .ok (some [storedSymbol.text])
  dailyBars _ _ _ _ := .ok nextFrame
  indexDailyBars := none

def plainWrites : UpdateWrites where
  instruments _ := .ok ()
  bars _ := nextWrite

def updateFrom (requiredVersion : Option Text) (day : Date) : DailyCall :=
  .update changedProvider plainWrites
    { requiredVersion, minimumRows := 1, startDate := day, endDate := nextBar.date } none

/-- The new version of the second day takes the place of the whole history. -/
theorem updateFrom_loses : ¬ ∀ lake calls,
    Runs.StepsMeet DailyCall.step DailyCall.KeepsHistory lake calls := by
  intro h
  obtain ⟨hkeeps, _⟩ := h oneBarLake [updateFrom (some "v2".toList) nextBar.date]
  have hstored : DailyLake.bars oneBarLake storedSymbol = [storedBar] := rfl
  have hlost : ∀ bar ∈ DailyLake.bars (DailyCall.step oneBarLake
      (updateFrom (some "v2".toList) nextBar.date)) storedSymbol, bar.date ≠ storedBar.date := by
    decide +kernel
  have hmeets : (updateFrom (some "v2".toList) nextBar.date).MeetsRequests
      (CompleteRequest storedSymbol) oneBarLake := by
    intro plan state hplan
    have hrun : (updateFrom (some "v2".toList) nextBar.date).plan ⟨oneBarLake, {}⟩ =
        (.ok (some ⟨⟨some "v2".toList, 1, nextBar.date, nextBar.date⟩,
          [⟨0, storedSymbol.text, false⟩], []⟩), ⟨oneBarLake, { symbolsSeen := 1 }⟩) := rfl
    cases hrun.symm.trans hplan
    refine ⟨fun _ start frame hstart _ _ bar hbar hfirst _ => ?_, fun _ _ => trivial⟩
    have hnext : requestedStart ⟨some "v2".toList, 1, nextBar.date, nextBar.date⟩ oneBarLake
        ⟨0, storedSymbol.text, false⟩ storedSymbol = .ok nextBar.date := by decide +kernel
    cases hnext.symm.trans hstart
    rw [hstored, List.mem_singleton] at hbar
    subst hbar
    exact absurd hfirst (by decide +kernel)
  obtain ⟨kept, hkept, hdate⟩ := hkeeps storedSymbol hmeets storedBar (hstored ▸ List.mem_cons_self)
  exact hlost kept hkept hdate

/-- Without a required version the day is merged. -/
theorem keepsHistory_merged : Runs.StepsMeet DailyCall.step DailyCall.KeepsHistory oneBarLake
    [updateFrom none storedBar.date] := by
  refine DailyCall.keepsHistory_of_fits oneBarLake _ ⟨fun plan state hplan => ?_, trivial⟩
  have hrun : (updateFrom none storedBar.date).plan ⟨oneBarLake, {}⟩ =
      (.ok (some ⟨⟨none, 1, storedBar.date, nextBar.date⟩,
        [⟨0, storedSymbol.text, false⟩], []⟩), ⟨oneBarLake, { symbolsSeen := 1 }⟩) := rfl
  cases hrun.symm.trans hplan
  refine ⟨fun _ _ _ _ hreplace => ?_, fun _ _ => trivial⟩
  cases hreplace

end Sample

end QuantWorkbench.Data
