import QuantWorkbench.Backtest.OrderWeights

/-!
The books of a backtest. Held weights follow the filled orders on exactly those days on which every
order that its bar lets through buys a lot, no weight lies within the tolerance without being none,
and the blocked weights leave room for the targets of the others.
-/

namespace QuantWorkbench.Backtest

open Lib

namespace ReferenceLoop

/-- The orders that a day added. -/
def newOrders (state state' : ReferenceState) : List OrderRow :=
  state'.orders.drop state.orders.length

/-- Weights follow the fills of a day and stay within the bound. -/
structure Follows (bound : ℚ) (state state' : ReferenceState) : Prop where
  rejected : ∀ row ∈ newOrders state state', row.filled = false →
    state'.held.weight row.symbol = state.held.weight row.symbol
  traded : ∀ symbol, state'.held.weight symbol ≠ state.held.weight symbol →
    ∃ row ∈ newOrders state state', row.symbol = symbol ∧ row.filled = true
  total : state'.held.total ≤ bound

/-- What an event needs for the weights to follow its fills. -/
structure EventMeets (b : ReferenceLoop) (day : Date) (bound : ℚ) (event : Event)
    (state : ReferenceState) : Prop where
  untouched : ∀ symbol, |delta event state.held symbol| ≤ tolerance →
    kept (event.targets.weight symbol) = state.held.weight symbol
  blocked : ∀ symbol, tolerance < |delta event state.held symbol| →
    b.barBlocks day event state.held symbol = true →
    kept (state.held.weight symbol) = state.held.weight symbol
  belowLot : ∀ symbol, tolerance < |delta event state.held symbol| →
    b.barBlocks day event state.held symbol = false →
    b.belowLot day event state.held state.nav symbol →
    kept (event.targets.weight symbol) = state.held.weight symbol
  total : ((eventSymbols state.held event.targets).map
    (b.weightAfter day event state.held)).sum ≤ bound

variable {b : ReferenceLoop}

theorem day_eq_ok {state state' : ReferenceState} {day : Date} (h : b.day state day = .ok state') :
    ∃ orders, newOrders state state' = orders ∧
      ((b.events day = none ∧ orders = [] ∧ state'.held = state.held) ∨
        ∃ event, b.events day = some event ∧
          b.EventOrders day event state.held state.nav orders ∧
          state'.held = heldWeights (effectiveWeights event.targets orders)) := by
  obtain ⟨⟨orders, held⟩, hrebalance, h⟩ := bind_eq_ok_iff.mp h
  cases h
  refine ⟨orders, List.drop_left, ?_⟩
  unfold rebalance at hrebalance
  split at hrebalance
  · rename_i hevent
    cases hrebalance
    exact Or.inl ⟨hevent, rfl, rfl⟩
  · rename_i event hevent
    obtain ⟨made, hmade, hrebalance⟩ := bind_eq_ok_iff.mp hrebalance
    cases hrebalance
    exact Or.inr ⟨event, hevent, ordersOf_eq_ok hmade, rfl⟩

/-- A day follows its fills exactly if its event, if there is one, meets the condition. -/
theorem follows_iff {state state' : ReferenceState} {day : Date} {bound : ℚ}
    (h : b.day state day = .ok state') (htotal : state.held.total ≤ bound) :
    Follows bound state state' ↔
      ∀ event, b.events day = some event → b.EventMeets day bound event state := by
  obtain ⟨orders, horders, ⟨hevent, rfl, hheld⟩ | ⟨event, hevent, hmade, hheld⟩⟩ := day_eq_ok h
  · constructor
    · intro _ event hsome
      rw [hevent] at hsome
      cases hsome
    · intro _
      constructor
      · intro row hrow
        rw [horders] at hrow
        cases hrow
      · intro symbol hchanged
        rw [hheld] at hchanged
        exact absurd rfl hchanged
      · rw [hheld]
        exact htotal
  · have hafter : ∀ symbol, state'.held.weight symbol = b.weightAfter day event state.held symbol :=
      fun symbol => by rw [hheld, weight_after hmade]
    have hsum : state'.held.total = ((eventSymbols state.held event.targets).map
        (b.weightAfter day event state.held)).sum := by
      rw [Weights.total_eq (nodup_eventSymbols state.held event.targets)
        (by rw [hheld]; exact keys_after hmade)]
      exact congrArg List.sum (List.map_congr_left fun symbol _ => hafter symbol)
    have huntouched : ∀ {symbol}, |delta event state.held symbol| ≤ tolerance →
        b.weightAfter day event state.held symbol = kept (event.targets.weight symbol) := by
      intro symbol hsmall
      rw [weightAfter, if_neg fun h => absurd h.1 hsmall.not_gt]
    have hblocked : ∀ {symbol}, tolerance < |delta event state.held symbol| →
        b.barBlocks day event state.held symbol = true →
        b.weightAfter day event state.held symbol = kept (state.held.weight symbol) := by
      intro symbol hlarge hblocks
      rw [weightAfter, if_pos ⟨hlarge, hblocks⟩]
    have hthrough : ∀ {symbol}, b.barBlocks day event state.held symbol = false →
        b.weightAfter day event state.held symbol = kept (event.targets.weight symbol) := by
      intro symbol hblocks
      rw [weightAfter, if_neg fun h => by rw [hblocks] at h; exact absurd h.2 (by decide)]
    constructor
    · intro hfollows event' hevent'
      obtain rfl : event = event' := Option.some.inj (hevent.symm.trans hevent')
      have hunfilled : ∀ symbol, tolerance < |delta event state.held symbol| →
          ¬ (b.barBlocks day event state.held symbol = false ∧
            ¬ b.belowLot day event state.held state.nav symbol) →
          b.weightAfter day event state.held symbol = state.held.weight symbol := by
        intro symbol hlarge hnot
        obtain ⟨row, hrow, rfl⟩ := hmade.ofSymbol symbol hlarge
        have hfilled : row.filled = false := by
          rw [← Bool.not_eq_true, (hmade.ofRow row hrow).2.filled]
          exact hnot
        rw [← hafter]
        exact hfollows.rejected row (by rw [horders]; exact hrow) hfilled
      constructor
      · intro symbol hsmall
        by_contra hchanged
        rw [← huntouched hsmall, ← hafter] at hchanged
        obtain ⟨row, hrow, rfl, _⟩ := hfollows.traded symbol hchanged
        rw [horders] at hrow
        exact absurd (hmade.ofRow row hrow).1 hsmall.not_gt
      · intro symbol hlarge hblocks
        rw [← hblocked hlarge hblocks]
        apply hunfilled symbol hlarge
        rw [hblocks]
        exact fun h => absurd h.1 (by decide)
      · intro symbol hlarge hblocks hbelow
        rw [← hthrough hblocks]
        exact hunfilled symbol hlarge fun h => h.2 hbelow
      · rw [← hsum]
        exact hfollows.total
    · intro hmeets
      have hmeets := hmeets event hevent
      have hunfilled : ∀ row ∈ orders, row.filled = false →
          state'.held.weight row.symbol = state.held.weight row.symbol := by
        intro row hrow hfilled
        obtain ⟨hlarge, hfor⟩ := hmade.ofRow row hrow
        rw [hafter]
        cases hblocks : b.barBlocks day event state.held row.symbol with
        | true =>
            rw [hblocked hlarge hblocks]
            exact hmeets.blocked row.symbol hlarge hblocks
        | false =>
            have hbelow : b.belowLot day event state.held state.nav row.symbol := by
              by_contra hnot
              rw [hfor.filled.mpr ⟨hblocks, hnot⟩] at hfilled
              cases hfilled
            rw [hthrough hblocks]
            exact hmeets.belowLot row.symbol hlarge hblocks hbelow
      constructor
      · intro row hrow hfilled
        rw [horders] at hrow
        exact hunfilled row hrow hfilled
      · intro symbol hchanged
        rw [horders]
        by_cases hlarge : tolerance < |delta event state.held symbol|
        · obtain ⟨row, hrow, rfl⟩ := hmade.ofSymbol symbol hlarge
          refine ⟨row, hrow, rfl, ?_⟩
          by_contra hfilled
          exact hchanged (hunfilled row hrow (Bool.not_eq_true _ ▸ hfilled))
        · rw [hafter, huntouched (not_lt.mp hlarge), hmeets.untouched symbol (not_lt.mp hlarge)]
            at hchanged
          exact absurd rfl hchanged
      · rw [hsum]
        exact hmeets.total

/-! ### Runs -/

def RunFollows (b : ReferenceLoop) (bound : ℚ) (run : Except String ReferenceState) (day : Date) :
    Prop :=
  ∀ state state', run = .ok state → b.step run day = .ok state' → Follows bound state state'

def RunMeets (b : ReferenceLoop) (bound : ℚ) (run : Except String ReferenceState) (day : Date) :
    Prop :=
  ∀ state state', run = .ok state → b.step run day = .ok state' →
    ∀ event, b.events day = some event → b.EventMeets day bound event state

/-- A run follows its fills, within the larger of one and the weights it starts with, exactly if
every event of it meets the condition. -/
theorem positions_follow_fills_iff (b : ReferenceLoop) :
    Runs.StepsMeet b.step (b.RunFollows (max 1 b.currentPositions.total)) (.ok b.start) b.dates ↔
      Runs.StepsMeet b.step (b.RunMeets (max 1 b.currentPositions.total)) (.ok b.start)
        b.dates := by
  have hsame : ∀ (run : Except String ReferenceState) (day : Date),
      (∀ state, run = .ok state → state.held.total ≤ max 1 b.currentPositions.total) →
      (b.RunFollows (max 1 b.currentPositions.total) run day ↔
        b.RunMeets (max 1 b.currentPositions.total) run day) := by
    intro run day htotal
    constructor
    · intro hfollows state state' hrun hstep
      have hday : b.day state day = .ok state' := by rw [← hstep, hrun]; rfl
      exact (follows_iff hday (htotal state hrun)).mp (hfollows state state' hrun hstep)
    · intro hmeets state state' hrun hstep
      have hday : b.day state day = .ok state' := by rw [← hstep, hrun]; rfl
      exact (follows_iff hday (htotal state hrun)).mpr (hmeets state state' hrun hstep)
  refine Runs.stepsMeet_congr b.step
    (fun run => ∀ state, run = .ok state → state.held.total ≤ max 1 b.currentPositions.total)
    ?_ hsame _ _ ?_
  · intro run day htotal hmeets state' hstep
    cases hrun : run with
    | error error =>
        rw [hrun] at hstep
        cases hstep
    | ok state =>
        exact ((hsame run day htotal).mpr hmeets state state' hrun hstep).total
  · intro state hstate
    cases hstate
    exact le_max_right _ _

end ReferenceLoop

section Sample

def backtestDay : Date := .of 2026 8 10

def backtestBar : ReferenceBar where
  date := backtestDay
  symbol := "000001".toList
  close := 10
  «open» := some 10
  isSuspended := false
  isLimitUp := false
  isLimitDown := false

/-- Half of a capital of 1000 buys 50 shares at a price of 10. -/
def smallCapital : ReferenceLoop where
  bars := [backtestBar]
  events := fun day => if day = backtestDay then some {
    signalDate := .of 2026 8 7
    executionDate := backtestDay
    execution := ⟨5 / 10000, 3 / 10000, 5 / 10000, true, true⟩
    targets := (Keyed.empty : Weights).put ("000001".toList, 1 / 2) } else none
  capital := some (sampleCosts, 1000)
  currentPositions := Keyed.empty

/-- The order is below one lot and not filled, and its weight is held all the same. -/
theorem smallCapital_unfollowed :
    ¬ Runs.StepsMeet smallCapital.step
      (smallCapital.RunFollows (max 1 smallCapital.currentPositions.total))
      (.ok smallCapital.start) smallCapital.dates := by
  have hdates : smallCapital.dates = [backtestDay] := by decide +kernel
  rw [hdates]
  rintro ⟨hfollows, _⟩
  have hday : ((smallCapital.step (.ok smallCapital.start) backtestDay).toOption.map fun state =>
      ((ReferenceLoop.newOrders smallCapital.start state).map fun row =>
        (row.symbol, row.filled), state.held.weight "000001".toList)) =
      some ([("000001".toList, false)], 1 / 2) := by decide +kernel
  cases hstep : smallCapital.step (.ok smallCapital.start) backtestDay with
  | error error =>
      rw [hstep] at hday
      cases hday
  | ok state =>
      rw [hstep] at hday
      obtain ⟨horders, hweight⟩ := Prod.mk.inj (Option.some.inj hday)
      obtain ⟨row, hrow, hpair⟩ := List.mem_map.mp (by rw [horders]; exact List.mem_cons_self)
      obtain ⟨hsymbol, hfilled⟩ := Prod.mk.inj hpair
      have hsame := (hfollows _ _ rfl hstep).rejected row hrow hfilled
      rw [hsymbol] at hsame
      have hnothing : smallCapital.start.held.weight "000001".toList = 0 := by decide +kernel
      rw [hnothing] at hsame
      exact absurd (hweight.symm.trans hsame) (by norm_num)

end Sample

end QuantWorkbench.Backtest
