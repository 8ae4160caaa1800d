import QuantWorkbench.Backtest.EarnedReturns
import QuantWorkbench.Backtest.PositionBooks

/-!
The engine does not look ahead. Its run on what is known on a day, the bars up to the day and the
signals before it, is the beginning of every run that knows more.
-/

namespace QuantWorkbench.Backtest

open Lib

/-! ### Loops that agree up to a day -/

namespace ReferenceLoop

structure AgreesUpTo (b other : ReferenceLoop) (last : Date) : Prop where
  bars : ∀ day ≤ last, other.barsOn day = b.barsOn day
  events : ∀ day ≤ last, other.events day = b.events day
  capital : other.capital = b.capital
  start : other.start = b.start

variable {b other : ReferenceLoop} {last : Date}

theorem AgreesUpTo.day_eq (h : b.AgreesUpTo other last) {day : Date} (hday : day ≤ last)
    (state : ReferenceState) : other.day state day = b.day state day := by
  have hbar : other.barOn day = b.barOn day := by
    funext symbol
    rw [barOn, barOn, h.bars day hday]
  have hclose : other.closeOn day = b.closeOn day := by
    funext symbol
    rw [closeOn, closeOn, h.bars day hday]
  have hfill : other.fill = b.fill := by
    funext execution nav delta price
    rw [fill, fill, h.capital]
  have horder : other.orderOf day = b.orderOf day := by
    funext event held nav symbol
    simp only [orderOf, orderRow, blockOrFill, hbar, hfill]
  simp only [ReferenceLoop.day, rebalance, ordersOf, settle, grossReturn, symbolReturn,
    h.events day hday, horder, hclose]

theorem AgreesUpTo.foldl_eq (h : b.AgreesUpTo other last) {days : List Date}
    (hdays : ∀ day ∈ days, day ≤ last) (run : Except String ReferenceState) :
    days.foldl other.step run = days.foldl b.step run := by
  refine List.foldl_ext _ _ run fun run day hday => ?_
  cases run with
  | error error => rfl
  | ok state => exact h.day_eq (hdays day hday) state

/-- What a run has reported is the beginning of what it reports in the end. -/
theorem reports_prefix {state final : ReferenceState} {later : List Date}
    (h : later.foldl b.step (.ok state) = .ok final) :
    state.orders <+: final.orders ∧ state.returns <+: final.returns ∧
      state.costs <+: final.costs := by
  induction later generalizing state with
  | nil =>
      cases h
      exact ⟨List.prefix_rfl, List.prefix_rfl, List.prefix_rfl⟩
  | cons day rest ih =>
      obtain ⟨next, hnext, hrest⟩ := foldl_step_ok [day] h
      obtain ⟨made, _, hnext⟩ := bind_eq_ok_iff.mp (show b.day state day = .ok next from hnext)
      cases hnext
      obtain ⟨horders, hreturns, hcosts⟩ := ih hrest
      exact ⟨(List.prefix_append ..).trans horders, (List.prefix_append ..).trans hreturns,
        (List.prefix_append ..).trans hcosts⟩

end ReferenceLoop

namespace RunInput

variable {S : Type} {input : RunInput S} {day : Date}

/-! ### What is known on a day -/

/-- The run with the bars up to a day and some of the signals. -/
def knownOn (input : RunInput S) (day : Date) (groups : List (SignalGroup S)) : RunInput S :=
  { input with marketData := input.marketData.filter fun bar => bar.date ≤ day, groups }

/-- The loop over the dates of a plan. -/
def loopOf (input : RunInput S) (plan : Plan) : ReferenceLoop where
  bars := input.marketData.filter fun bar => input.inPeriod bar.date
  events := fun day => (plan.events.get? day).map Prod.snd
  capital := input.initialCapital.bind fun capital =>
    input.execution.map fun execution => (input.costModel execution, capital)
  currentPositions := input.currentPositions

/-- A signal is executed after its date. -/
theorem foldlM_events {groups : List (SignalGroup S)} {plan plan' : Plan}
    (h : groups.foldlM input.planGroup plan = .ok plan')
    (hgroups : ∀ group ∈ groups, day ≤ group.signalDate) :
    plan'.events.get? day = plan.events.get? day := by
  induction groups generalizing plan with
  | nil =>
      cases h
      rfl
  | cons group rest ih =>
      rw [List.foldlM_cons] at h
      obtain ⟨next, hnext, h⟩ := bind_eq_ok_iff.mp h
      rw [ih h fun other hother => hgroups other (List.mem_cons_of_mem _ hother)]
      unfold planGroup at hnext
      split at hnext
      · cases hnext
        rfl
      · obtain ⟨_, hlater, hnext⟩ := bind_eq_ok_iff.mp hnext
        obtain ⟨execution, _, hnext⟩ := bind_eq_ok_iff.mp hnext
        obtain ⟨targets, _, hnext⟩ := bind_eq_ok_iff.mp hnext
        cases hnext
        have hbefore := (hgroups group List.mem_cons_self).trans_lt (require_eq_ok_iff.mp hlater)
        exact Keyed.get?_put_of_ne _ hbefore.ne

variable {groups : List (SignalGroup S)} {plan known : Plan}

theorem agreesUpTo_knownOn
    (hevents : ∀ earlier ≤ day, plan.events.get? earlier = known.events.get? earlier) :
    (input.loopOf plan).AgreesUpTo ((input.knownOn day groups).loopOf known) day where
  bars earlier hearlier := by
    funext symbol
    unfold ReferenceLoop.barsOn loopOf knownOn
    rw [List.filter_filter, List.filter_filter, List.filter_filter]
    refine List.filter_congr fun bar _ => ?_
    by_cases hbar : bar.date = earlier
    · simp [hbar, hearlier, inPeriod]
    · simp [hbar]
  events earlier hearlier := congrArg (Option.map Prod.snd) (hevents earlier hearlier).symm
  capital := rfl
  start := rfl

theorem dates_knownOn : ((input.knownOn day groups).loopOf known).dates =
    (input.loopOf plan).dates.filter fun date => id date ≤ day := by
  refine Increasing.eq_of_mem_iff (increasing_sortedSet _)
    ((increasing_sortedSet _).sublist List.filter_sublist) fun date => ?_
  rw [List.mem_filter, ReferenceLoop.dates, ReferenceLoop.dates, mem_sortedSet, mem_sortedSet]
  simp only [loopOf, knownOn, List.mem_map, List.mem_filter, decide_eq_true_eq, id]
  constructor
  · rintro ⟨bar, ⟨⟨hbar, hday⟩, hperiod⟩, rfl⟩
    exact ⟨⟨bar, ⟨hbar, hperiod⟩, rfl⟩, hday⟩
  · rintro ⟨⟨bar, ⟨hbar, hperiod⟩, rfl⟩, hday⟩
    exact ⟨bar, ⟨⟨hbar, hday⟩, hperiod⟩, rfl⟩

end RunInput

/-- Two days, and a signal on the first of them. -/
def twoDays : RunInput Unit where
  marketData := [backtestBar, { backtestBar with date := .of 2026 8 11 }]
  groups := [⟨backtestDay, .of 2026 8 11, ()⟩]
  generateTargets := fun _ _ _ => .ok []
  intervalDays := 5
  execution := some ⟨5 / 10000, 3 / 10000, 5 / 10000, true, true⟩
  costModel := fun _ => sampleCosts
  period := none
  currentPositions := Keyed.empty
  initialCapital := some 1000

end QuantWorkbench.Backtest
