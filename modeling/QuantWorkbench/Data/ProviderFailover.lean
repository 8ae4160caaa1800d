import QuantWorkbench.Lib.Runs
import QuantWorkbench.Lib.Text

/-!
The failover over real-time providers. A request goes to the providers from the active one on, until
one of them answers and becomes the active one. Each provider that fails leaves a switch event while
the next one is still being tried, so that a request that no provider answers leaves switches that
never were.
-/

namespace QuantWorkbench.Data

open Lib

/-! ### Requests -/

inductive ProviderRequest where
  | getMarketSnapshot
  | getQuotes (symbols : List Text)
  | getPriorityQuotes (symbols : List Text)
  | getMinuteBars (symbols : List Text) (frequency : Text)
  | getIndexSnapshot (symbols : List Text)
  | getMarketStatus
  | healthCheck
  | metadata

/-- How a request to a provider ends, with the name of the error and the time at which it is caught.
What is no `Exception` is not caught. -/
inductive ProviderOutcome (V T : Type) where
  | answered (value : V)
  | failed (error : Text) (caught : T)
  | interrupted (error : Text)

structure RealTimeProvider where
  name : Text
  /-- Whether there is a method `get_priority_quotes`. -/
  priorityQuotes : Bool

structure ProviderSwitchEvent (T : Type) where
  sourceFrom : Text
  sourceTo : Text
  reason : Text
  timestamp : T
  deriving DecidableEq

inductive FailoverError where
  /-- `ProviderRequestError`, raised from the last error. -/
  | allFailed (lastError : Option Text)
  | interrupted (error : Text)
  deriving DecidableEq

structure FailoverRealTimeProvider (T : Type) where
  providers : List RealTimeProvider
  activeIndex : Fin providers.length
  switchEvents : List (ProviderSwitchEvent T)

/-- What one request comes to: the provider that answers, the events that are appended and the
providers that are called. -/
structure Failover (V T : Type) (count : ℕ) where
  result : Except FailoverError V
  answeredBy : Option (Fin count)
  appended : List (ProviderSwitchEvent T)
  called : List (Fin count)

variable {V T : Type}

section Loop

variable (providers : List RealTimeProvider) (request : RealTimeProvider → ProviderRequest)
  (outcome : ℕ → ProviderRequest → ProviderOutcome V T)

/-- The event of a provider that fails, unless it is the last one. -/
def switchEvent (index : Fin providers.length) (error : Text) (caught : T) :
    List (ProviderSwitchEvent T) :=
  if hnext : index + 1 < providers.length then
    [{ sourceFrom := (providers.get index).name
       sourceTo := (providers.get ⟨index + 1, hnext⟩).name
       reason := error
       timestamp := caught }]
  else []

/-- The loop over the providers from an index on. -/
def tryFrom (lastError : Option Text) (index : ℕ) : Failover V T providers.length :=
  if h : index < providers.length then
    match outcome index (request (providers.get ⟨index, h⟩)) with
    | .answered value =>
        { result := .ok value
          answeredBy := some ⟨index, h⟩
          appended := []
          called := [⟨index, h⟩] }
    | .interrupted error =>
        { result := .error (.interrupted error)
          answeredBy := none
          appended := []
          called := [⟨index, h⟩] }
    | .failed error caught =>
        let later := tryFrom (some error) (index + 1)
        { result := later.result
          answeredBy := later.answeredBy
          appended := switchEvent providers ⟨index, h⟩ error caught ++ later.appended
          called := ⟨index, h⟩ :: later.called }
  else
    { result := .error (.allFailed lastError)
      answeredBy := none
      appended := []
      called := [] }
termination_by providers.length - index

end Loop

namespace FailoverRealTimeProvider

def make (providers : List RealTimeProvider) : Except String (FailoverRealTimeProvider T) :=
  if h : 0 < providers.length then
    .ok { providers, activeIndex := ⟨0, h⟩, switchEvents := [] }
  else .error "at least one real-time provider is required"

variable (failover : FailoverRealTimeProvider T)

def call (request : ProviderRequest) (outcome : ℕ → ProviderRequest → ProviderOutcome V T) :
    Failover V T failover.providers.length :=
  tryFrom failover.providers (fun _ => request) outcome none failover.activeIndex

def getPriorityQuotes (symbols : List Text)
    (outcome : ℕ → ProviderRequest → ProviderOutcome V T) :
    Failover V T failover.providers.length :=
  tryFrom failover.providers
    (fun provider => if provider.priorityQuotes then .getPriorityQuotes symbols
      else .getQuotes symbols)
    outcome none failover.activeIndex

def activeProviderName : Text := (failover.providers.get failover.activeIndex).name

def firstProviderName : Text :=
  (failover.providers.get ⟨0, Nat.zero_lt_of_lt failover.activeIndex.isLt⟩).name

end FailoverRealTimeProvider

/-! ### Runs -/

/-- A call of one of the methods, and how each provider answers what it is asked during it. -/
structure ProviderCall (V T : Type) where
  request : ProviderRequest
  outcome : ℕ → ProviderRequest → ProviderOutcome V T

namespace FailoverRealTimeProvider

variable (failover : FailoverRealTimeProvider T)

def handle (item : ProviderCall V T) : Failover V T failover.providers.length :=
  match item.request with
  | .getPriorityQuotes symbols => failover.getPriorityQuotes symbols item.outcome
  | request => failover.call request item.outcome

def step (item : ProviderCall V T) : FailoverRealTimeProvider T :=
  { failover with
    activeIndex := (failover.handle item).answeredBy.getD failover.activeIndex
    switchEvents := failover.switchEvents ++ (failover.handle item).appended }

end FailoverRealTimeProvider

/-- The events lead from one provider to another, each from where the one before it led. -/
def Trail : Text → List (ProviderSwitchEvent T) → Text → Prop
  | source, [], target => source = target
  | source, event :: rest, target => event.sourceFrom = source ∧ Trail event.sourceTo rest target

theorem Trail.append {source middle target : Text} {events later : List (ProviderSwitchEvent T)}
    (h : Trail source events middle) (hlater : Trail middle later target) :
    Trail source (events ++ later) target := by
  induction events generalizing source with
  | nil =>
      cases h
      exact hlater
  | cons event rest ih => exact ⟨h.1, ih h.2⟩

/-! ### The loop -/

section Loop

variable {providers : List RealTimeProvider} {request : RealTimeProvider → ProviderRequest}
  {outcome : ℕ → ProviderRequest → ProviderOutcome V T}

theorem called_tryFrom (lastError : Option Text) (index : ℕ) :
    ∀ i ∈ (tryFrom providers request outcome lastError index).called, index ≤ i.val := by
  induction lastError, index using tryFrom.induct providers request outcome with
  | case1 lastError index h value hvalue =>
      intro i hi
      rw [tryFrom, dif_pos h, hvalue] at hi
      exact (congrArg Fin.val (List.mem_singleton.mp hi)).ge
  | case2 lastError index h error herror =>
      intro i hi
      rw [tryFrom, dif_pos h, herror] at hi
      exact (congrArg Fin.val (List.mem_singleton.mp hi)).ge
  | case3 lastError index h error caught hfailed ih =>
      intro i hi
      rw [tryFrom, dif_pos h, hfailed] at hi
      rcases List.mem_cons.mp hi with rfl | hi
      · exact Nat.le_refl index
      · exact (Nat.le_succ index).trans (ih i hi)
  | case4 lastError index h =>
      intro i hi
      rw [tryFrom, dif_neg h] at hi
      cases hi

theorem answeredBy_eq_none_iff (lastError : Option Text) (index : ℕ) :
    (tryFrom providers request outcome lastError index).answeredBy = none ↔
      ∃ error, (tryFrom providers request outcome lastError index).result = .error error := by
  induction lastError, index using tryFrom.induct providers request outcome with
  | case1 lastError index h value hvalue =>
      rw [tryFrom, dif_pos h, hvalue]
      exact ⟨(fun hnone => nomatch hnone), fun ⟨_, herror⟩ => nomatch herror⟩
  | case2 lastError index h error herror =>
      rw [tryFrom, dif_pos h, herror]
      exact ⟨fun _ => ⟨_, rfl⟩, fun _ => rfl⟩
  | case3 lastError index h error caught hfailed ih =>
      rw [tryFrom, dif_pos h, hfailed]
      exact ih
  | case4 lastError index h =>
      rw [tryFrom, dif_neg h]
      exact ⟨fun _ => ⟨_, rfl⟩, fun _ => rfl⟩

/-- The events of an answered request lead from the first provider that is tried to the one that
answers. -/
theorem trail_tryFrom (lastError : Option Text) {index : ℕ} (hindex : index < providers.length)
    {j : Fin providers.length}
    (h : (tryFrom providers request outcome lastError index).answeredBy = some j) :
    index ≤ j.val ∧ Trail (providers.get ⟨index, hindex⟩).name
      (tryFrom providers request outcome lastError index).appended (providers.get j).name := by
  induction lastError, index using tryFrom.induct providers request outcome with
  | case1 lastError index hlt value hvalue =>
      rw [tryFrom, dif_pos hlt, hvalue] at h ⊢
      cases h
      exact ⟨Nat.le_refl index, rfl⟩
  | case2 lastError index hlt error herror =>
      rw [tryFrom, dif_pos hlt, herror] at h
      cases h
  | case3 lastError index hlt error caught hfailed ih =>
      rw [tryFrom, dif_pos hlt, hfailed] at h ⊢
      have hlater : (tryFrom providers request outcome (some error) (index + 1)).answeredBy =
          some j := h
      have hnext : index + 1 < providers.length := by
        by_contra hlast
        rw [tryFrom, dif_neg hlast] at hlater
        cases hlater
      obtain ⟨hle, htrail⟩ := ih hnext hlater
      have hevent : switchEvent providers ⟨index, hlt⟩ error caught =
          [⟨(providers.get ⟨index, hlt⟩).name, (providers.get ⟨index + 1, hnext⟩).name, error,
            caught⟩] := dif_pos hnext
      refine ⟨(Nat.le_succ index).trans hle, ?_⟩
      dsimp only
      rw [hevent]
      exact ⟨rfl, htrail⟩
  | case4 lastError index hlt => exact absurd hindex hlt

variable (providers request outcome) in
def outcomeOf (i : Fin providers.length) : ProviderOutcome V T :=
  outcome i (request (providers.get i))

/-- Some provider answers exactly if those before it fail. -/
theorem answeredBy_ne_none_iff (lastError : Option Text) (index : ℕ) :
    (tryFrom providers request outcome lastError index).answeredBy ≠ none ↔
      ∃ j : Fin providers.length, index ≤ j.val ∧
        (∃ value, outcomeOf providers request outcome j = .answered value) ∧
        ∀ i < j, index ≤ i.val →
          ∃ error caught, outcomeOf providers request outcome i = .failed error caught := by
  induction lastError, index using tryFrom.induct providers request outcome with
  | case1 lastError index h value hvalue =>
      rw [tryFrom, dif_pos h, hvalue]
      refine ⟨fun _ => ⟨⟨index, h⟩, Nat.le_refl index, ⟨value, hvalue⟩, ?_⟩, fun _ hnone => nomatch hnone⟩
      intro i hi hle
      exact absurd (Fin.lt_def.mp hi) (Nat.not_lt.mpr hle)
  | case2 lastError index h error herror =>
      rw [tryFrom, dif_pos h, herror]
      refine ⟨fun hsome => absurd rfl hsome, ?_⟩
      rintro ⟨j, hle, ⟨value, hvalue⟩, hbefore⟩
      rcases Nat.eq_or_lt_of_le hle with heq | hlt
      · have hj : j = ⟨index, h⟩ := Fin.ext heq.symm
        rw [hj] at hvalue
        exact nomatch herror.symm.trans hvalue
      · obtain ⟨_, _, hfailed⟩ := hbefore ⟨index, h⟩ hlt (Nat.le_refl index)
        exact nomatch herror.symm.trans hfailed
  | case3 lastError index h error caught hfailed ih =>
      rw [tryFrom, dif_pos h, hfailed]
      refine ih.trans ⟨?_, ?_⟩
      · rintro ⟨j, hle, hvalue, hbefore⟩
        refine ⟨j, (Nat.le_succ index).trans hle, hvalue, fun i hi hfrom => ?_⟩
        rcases Nat.eq_or_lt_of_le hfrom with heq | hlt
        · have hiindex : i = ⟨index, h⟩ := Fin.ext heq.symm
          rw [hiindex]
          exact ⟨error, caught, hfailed⟩
        · exact hbefore i hi hlt
      · rintro ⟨j, hle, ⟨value, hvalue⟩, hbefore⟩
        rcases Nat.eq_or_lt_of_le hle with heq | hlt
        · have hj : j = ⟨index, h⟩ := Fin.ext heq.symm
          rw [hj] at hvalue
          exact nomatch hfailed.symm.trans hvalue
        · exact ⟨j, hlt, ⟨value, hvalue⟩, fun i hi hfrom =>
            hbefore i hi ((Nat.le_succ index).trans hfrom)⟩
  | case4 lastError index h =>
      rw [tryFrom, dif_neg h]
      exact ⟨fun hsome => absurd rfl hsome, fun ⟨j, hle, _⟩ => absurd (hle.trans_lt j.isLt) h⟩

end Loop

/-! ### The log of a run -/

def ProviderRequest.forProvider (request : ProviderRequest) (provider : RealTimeProvider) :
    ProviderRequest :=
  match request with
  | .getPriorityQuotes symbols =>
      if provider.priorityQuotes then .getPriorityQuotes symbols else .getQuotes symbols
  | request => request

namespace FailoverRealTimeProvider

variable (failover : FailoverRealTimeProvider T) (item : ProviderCall V T)

def outcomeAt (i : Fin failover.providers.length) : ProviderOutcome V T :=
  outcomeOf failover.providers item.request.forProvider item.outcome i

/-- The two loops differ in what they ask a provider. -/
theorem handle_eq : failover.handle item =
    tryFrom failover.providers item.request.forProvider item.outcome none failover.activeIndex := by
  obtain ⟨request, outcome⟩ := item
  cases request <;> rfl

def Chained : Prop :=
  Trail failover.firstProviderName failover.switchEvents failover.activeProviderName

/-- What the log is to tell of a call. -/
structure TellsTruth : Prop where
  chained : (failover.step item).Chained
  activeIndex_le : failover.activeIndex.val ≤ (failover.step item).activeIndex.val
  called : ∀ i ∈ (failover.handle item).called, failover.activeIndex ≤ i
  raised : ∀ error, (failover.handle item).result = .error error →
    (failover.step item).switchEvents = failover.switchEvents

/-- When the active provider fails and another one follows, then one that follows answers, after
those before it have failed. -/
def Recovers : Prop :=
  ∀ error caught, failover.outcomeAt item failover.activeIndex = .failed error caught →
    failover.activeIndex + 1 < failover.providers.length →
      ∃ j > failover.activeIndex, (∃ value, failover.outcomeAt item j = .answered value) ∧
        ∀ i < j, failover.activeIndex < i →
          ∃ error caught, failover.outcomeAt item i = .failed error caught

variable {failover item}

theorem chained_step (hchained : failover.Chained)
    (h : (failover.handle item).answeredBy = none → (failover.handle item).appended = []) :
    (failover.step item).Chained := by
  unfold Chained step
  cases hanswered : (failover.handle item).answeredBy with
  | none =>
      rw [h hanswered, List.append_nil]
      exact hchained
  | some j =>
      have hevents := hanswered
      rw [handle_eq] at hevents
      have htrail := (trail_tryFrom none failover.activeIndex.isLt hevents).2
      rw [← handle_eq] at htrail
      exact hchained.append htrail

variable (failover item)

theorem activeIndex_le_step :
    failover.activeIndex.val ≤ (failover.step item).activeIndex.val := by
  unfold step
  cases hanswered : (failover.handle item).answeredBy with
  | none => exact Nat.le_refl _
  | some j =>
      rw [handle_eq] at hanswered
      exact (trail_tryFrom none failover.activeIndex.isLt hanswered).1

/-- A request that nobody answers leaves no event exactly if one of the providers that follow a
failing active one would have answered. -/
theorem appended_eq_nil_iff :
    ((failover.handle item).answeredBy = none → (failover.handle item).appended = []) ↔
      failover.Recovers item := by
  have hlt := failover.activeIndex.isLt
  rw [handle_eq, tryFrom, dif_pos hlt]
  unfold Recovers outcomeAt
  have hactive : outcomeOf failover.providers item.request.forProvider item.outcome
      failover.activeIndex = item.outcome failover.activeIndex
        (item.request.forProvider (failover.providers.get failover.activeIndex)) := rfl
  rw [hactive]
  cases item.outcome failover.activeIndex
      (item.request.forProvider (failover.providers.get failover.activeIndex)) with
  | answered value =>
      exact ⟨(fun _ _ _ hfailed => nomatch hfailed), fun _ hnone => nomatch hnone⟩
  | interrupted error =>
      exact ⟨(fun _ _ _ hfailed => nomatch hfailed), fun _ _ => rfl⟩
  | failed error caught =>
      have hanswered := @answeredBy_ne_none_iff V T failover.providers item.request.forProvider
        item.outcome (some error) (failover.activeIndex.val + 1)
      by_cases hnext : failover.activeIndex.val + 1 < failover.providers.length
      · dsimp only
        rw [switchEvent, dif_pos hnext]
        constructor
        · intro hnil _ _ _ _
          have hsome := hanswered.mp fun hnone => nomatch hnil hnone
          obtain ⟨j, hj, hvalue, hbefore⟩ := hsome
          exact ⟨j, hj, hvalue, fun i hi hafter => hbefore i hi hafter⟩
        · intro hrecovers hnone
          obtain ⟨j, hj, hvalue, hbefore⟩ := hrecovers error caught rfl hnext
          exact absurd hnone (hanswered.mpr ⟨j, hj, hvalue, fun i hi hafter => hbefore i hi hafter⟩)
      · dsimp only
        rw [switchEvent, dif_neg hnext, tryFrom, dif_neg hnext]
        exact ⟨fun _ _ _ _ hlast => absurd hlast hnext, fun _ _ => rfl⟩

/-- While the events lead to the active provider, a call is told truthfully exactly if it
recovers from the failure of that provider. -/
theorem tellsTruth_iff (hchained : failover.Chained) :
    failover.TellsTruth item ↔ failover.Recovers item := by
  rw [← appended_eq_nil_iff]
  have hraised := @answeredBy_eq_none_iff V T failover.providers item.request.forProvider
    item.outcome none failover.activeIndex
  rw [← handle_eq] at hraised
  constructor
  · intro htruth hnone
    obtain ⟨error, herror⟩ := hraised.mp hnone
    have hsame : failover.switchEvents ++ (failover.handle item).appended =
        failover.switchEvents := htruth.raised error herror
    exact List.append_right_eq_self.mp hsame
  · intro h
    refine ⟨chained_step hchained h, failover.activeIndex_le_step item, ?_, ?_⟩
    · intro i hi
      rw [handle_eq] at hi
      exact called_tryFrom none failover.activeIndex i hi
    · intro error herror
      change failover.switchEvents ++ (failover.handle item).appended = failover.switchEvents
      rw [h (hraised.mpr ⟨error, herror⟩), List.append_nil]

variable {failover} in
theorem chained_make {providers : List RealTimeProvider}
    (h : make providers = .ok failover) : failover.Chained := by
  unfold make at h
  split at h
  · cases h
    rfl
  · cases h

open Runs in
/-- The log of a run is true exactly if each call whose active provider fails recovers on one of
the providers that follow. -/
theorem log_true_iff {providers : List RealTimeProvider} (h : make providers = .ok failover)
    (items : List (ProviderCall V T)) :
    StepsMeet step TellsTruth failover items ↔ StepsMeet step Recovers failover items :=
  stepsMeet_congr step Chained
    (fun state call hchained hrecovers =>
      ((state.tellsTruth_iff call hchained).mpr hrecovers).chained)
    (fun state call hchained => state.tellsTruth_iff call hchained) failover items
    (chained_make h)

def twoProviders : FailoverRealTimeProvider Unit where
  providers := [⟨"first".toList, true⟩, ⟨"second".toList, false⟩]
  activeIndex := ⟨0, Nat.zero_lt_two⟩
  switchEvents := []

def answeredBySecond : ProviderCall Unit Unit where
  request := .getPriorityQuotes []
  outcome
    | 1, .getQuotes _ => .answered ()
    | _, _ => .failed "TimeoutError".toList ()

def answeredByNone : ProviderCall Unit Unit where
  request := .healthCheck
  outcome _ _ := .failed "TimeoutError".toList ()

theorem log_true_of_second : Runs.StepsMeet step TellsTruth twoProviders [answeredBySecond] := by
  have hmake : make twoProviders.providers = .ok twoProviders := rfl
  refine (log_true_iff twoProviders hmake [answeredBySecond]).mpr ⟨?_, trivial⟩
  intro _ _ _ _
  refine ⟨⟨1, Nat.one_lt_two⟩, Nat.zero_lt_one, ⟨(), rfl⟩, fun i hi hafter => ?_⟩
  exact absurd hafter (Nat.not_lt.mpr (Nat.le_of_lt_succ hi))

/-- When no provider answers, the log tells of a switch that never was. -/
theorem log_false_of_none :
    make twoProviders.providers = .ok twoProviders ∧
      ¬ Runs.StepsMeet step TellsTruth twoProviders [answeredByNone] := by
  refine ⟨rfl, fun h => ?_⟩
  have hrecovers := (tellsTruth_iff twoProviders answeredByNone rfl).mp h.1
  obtain ⟨j, _, ⟨value, hvalue⟩, _⟩ := hrecovers _ _ rfl Nat.one_lt_two
  exact nomatch hvalue

end FailoverRealTimeProvider

end QuantWorkbench.Data
