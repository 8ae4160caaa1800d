import QuantWorkbench.Backtest.OrderWeights

/-!
What a run credits. Held weights come from the events and the flags of the bars alone, the last
closes from the bars alone, and a day's return is put together from both. A symbol that was never
held may have any closes: the run does not tell them apart.
-/

namespace QuantWorkbench.Backtest

open Lib

namespace ReferenceLoop

variable (b : ReferenceLoop)

/-! ### Weights and closes of a run -/

def blockedSymbols (day : Date) (event : Event) (held : Weights) : List Text :=
  (eventSymbols held event.targets).filter fun symbol =>
    tolerance < |delta event held symbol| ∧ b.barBlocks day event held symbol

def heldNext (held : Weights) (day : Date) : Weights :=
  match b.events day with
  | none => held
  | some event => heldWeights ((b.blockedSymbols day event held).foldl
      (fun weights symbol => weights.put (symbol, held.weight symbol)) event.targets)

/-- The weights after some days. -/
def heldAfter (days : List Date) : Weights := days.foldl b.heldNext b.currentPositions

def lastClose (days : List Date) (symbol : Text) : Option ℚ :=
  days.foldl (fun previous day => (b.closeOn day symbol).or previous) none

/-- What a symbol brings to the return of a day after some others. -/
def credit (earlier : List Date) (day : Date) (symbol : Text) : ℚ :=
  b.symbolReturn day (b.lastClose earlier) symbol
    (Weights.weight (b.heldAfter (earlier ++ [day])) symbol)

/-- The loop with other closes. -/
def reclosed (change : ReferenceBar → ℚ) : ReferenceLoop :=
  { b with bars := b.bars.map fun bar => { bar with close := change bar } }

variable {b}

theorem heldAfter_append (days : List Date) (day : Date) :
    b.heldAfter (days ++ [day]) = b.heldNext (b.heldAfter days) day := by
  rw [heldAfter, List.foldl_append]
  rfl

theorem lastClose_append (days : List Date) (day : Date) (symbol : Text) :
    b.lastClose (days ++ [day]) symbol = (b.closeOn day symbol).or (b.lastClose days symbol) := by
  rw [lastClose, List.foldl_append]
  rfl

/-! ### Days of a run -/

theorem effectiveWeights_eq {day : Date} {event : Event} {held : Weights} {nav : ℚ}
    {orders : List OrderRow} (h : b.ordersOf day event held nav = .ok orders) :
    effectiveWeights event.targets orders = (b.blockedSymbols day event held).foldl
      (fun weights symbol => weights.put (symbol, held.weight symbol)) event.targets := by
  obtain ⟨made, hmade, hsome⟩ := bind_eq_ok_iff.mp h
  clear h
  cases hsome
  have hrows : ((made.filterMap id).filter OrderRow.blocked).map
        (fun row => (row.symbol, row.previousWeight)) =
      (b.blockedSymbols day event held).map fun symbol => (symbol, held.weight symbol) := by
    unfold blockedSymbols
    generalize eventSymbols held event.targets = symbols at hmade
    induction symbols generalizing made with
    | nil =>
        cases hmade
        rfl
    | cons symbol rest ih =>
        rw [List.mapM_cons] at hmade
        obtain ⟨first, hfirst, hmade⟩ := bind_eq_ok_iff.mp hmade
        obtain ⟨others, hothers, hmade⟩ := bind_eq_ok_iff.mp hmade
        cases hmade
        have hrest := ih others hothers
        unfold orderOf at hfirst
        split at hfirst
        · rename_i hsmall
          cases hfirst
          rw [List.filter_cons_of_neg (by simp [hsmall.not_gt])]
          exact hrest
        · rename_i hlarge
          cases hmake : b.orderRow day event held nav symbol with
          | error error => rw [hmake] at hfirst; cases hfirst
          | ok row =>
              rw [hmake] at hfirst
              cases hfirst
              have hfor := orderRow_eq_ok hmake
              have hsome : (some row :: others).filterMap id = row :: others.filterMap id :=
                rfl
              cases hblocks : b.barBlocks day event held symbol with
              | true =>
                  have hrow : row.blocked = true := hfor.blocked.trans hblocks
                  rw [hsome, List.filter_cons_of_pos hrow,
                    List.filter_cons_of_pos (by simp [not_le.mp hlarge, hblocks]), List.map_cons,
                    List.map_cons, hrest, hfor.named, hfor.previousWeight]
              | false =>
                  have hrow : row.blocked = false := hfor.blocked.trans hblocks
                  rw [hsome, List.filter_cons_of_neg (by simp [hrow]),
                    List.filter_cons_of_neg (by simp [hblocks]), hrest]
  have hfold := congrArg (List.foldl (fun (weights : Weights) entry => weights.put entry)
    event.targets) hrows
  rw [List.foldl_map, List.foldl_map] at hfold
  exact hfold

theorem held_day {state state' : ReferenceState} {day : Date} (h : b.day state day = .ok state') :
    state'.held = b.heldNext state.held day := by
  obtain ⟨⟨orders, held⟩, hrebalance, h⟩ := bind_eq_ok_iff.mp h
  cases h
  unfold rebalance at hrebalance
  unfold heldNext
  cases hevent : b.events day with
  | none =>
    rw [hevent] at hrebalance
    cases hrebalance
    rfl
  | some event =>
    rw [hevent] at hrebalance
    obtain ⟨made, hmade, hrebalance⟩ := bind_eq_ok_iff.mp hrebalance
    cases hrebalance
    exact congrArg heldWeights (effectiveWeights_eq hmade)

theorem step_ok {run : Except String ReferenceState} {day : Date} {state' : ReferenceState}
    (h : b.step run day = .ok state') : ∃ state, run = .ok state ∧ b.day state day = .ok state' :=
  bind_eq_ok_iff.mp h

/-- A run that ends had ended after each of its days. -/
theorem foldl_step_ok {run : Except String ReferenceState} (earlier : List Date)
    {later : List Date} {final : ReferenceState} (h : (earlier ++ later).foldl b.step run = .ok final) :
    ∃ state, earlier.foldl b.step run = .ok state ∧
      later.foldl b.step (.ok state) = .ok final := by
  rw [List.foldl_append] at h
  cases hrun : earlier.foldl b.step run with
  | ok state =>
      rw [hrun] at h
      exact ⟨state, rfl, h⟩
  | error error =>
      rw [hrun] at h
      exfalso
      clear hrun
      induction later with
      | nil => cases h
      | cons day rest ih => exact ih h

theorem returns_day {state state' : ReferenceState} {day : Date}
    (h : b.day state day = .ok state') : ∃ cost, (b.rebalance day state).map (fun made =>
        (made.1.map OrderRow.estimatedCost).sum) = .ok cost ∧
      state'.returns =
        state.returns ++ [b.grossReturn day state.previousClose state'.held - cost] := by
  obtain ⟨⟨orders, held⟩, hrebalance, h⟩ := bind_eq_ok_iff.mp h
  cases h
  refine ⟨(orders.map OrderRow.estimatedCost).sum, ?_, rfl⟩
  rw [hrebalance]
  rfl

/-- The weights and closes that a run carries. -/
theorem run_state {days : List Date} {state : ReferenceState}
    (h : days.foldl b.step (.ok b.start) = .ok state) :
    state.held = b.heldAfter days ∧ state.previousClose = b.lastClose days ∧
      state.returns.length = days.length := by
  induction days using List.reverseRecOn generalizing state with
  | nil =>
      cases h
      exact ⟨rfl, rfl, rfl⟩
  | append_singleton days day ih =>
      rw [List.foldl_append] at h
      obtain ⟨before, hbefore, hday⟩ := step_ok h
      obtain ⟨hheld, hclose, hlength⟩ := ih hbefore
      obtain ⟨cost, _, hreturns⟩ := returns_day hday
      have hnext := held_day hday
      obtain ⟨⟨orders, held⟩, _, hday⟩ := bind_eq_ok_iff.mp hday
      cases hday
      refine ⟨?_, ?_, ?_⟩
      · rw [hnext, hheld, heldAfter_append]
      · funext symbol
        rw [lastClose_append, ← hclose]
        rfl
      · rw [hreturns, List.length_append, List.length_append, hlength]
        rfl

/-- The returns of a run are those of its days, in order. -/
theorem returns_prefix {state final : ReferenceState} {later : List Date}
    (h : later.foldl b.step (.ok state) = .ok final) : state.returns <+: final.returns := by
  induction later generalizing state with
  | nil =>
      cases h
      exact List.prefix_rfl
  | cons day rest ih =>
      obtain ⟨next, hnext, hrest⟩ := foldl_step_ok [day] h
      obtain ⟨cost, _, hreturns⟩ := returns_day (show b.day state day = .ok next from hnext)
      exact (hreturns ▸ List.prefix_append state.returns _).trans (ih hrest)

/-! ### Closes of symbols -/

theorem symbolReturn_zero (day : Date) (previousClose : Text → Option ℚ) (symbol : Text) :
    b.symbolReturn day previousClose symbol 0 = 0 := by
  unfold symbolReturn
  split
  · split
    · exact zero_mul _
    · rfl
  · rfl

theorem symbolReturn_none {day : Date} {previousClose : Text → Option ℚ} {symbol : Text}
    (h : previousClose symbol = none) (weight : ℚ) :
    b.symbolReturn day previousClose symbol weight = 0 := by
  unfold symbolReturn
  rw [h]
  split
  · rename_i hsome
    cases hsome
  · rfl

theorem lastClose_eq_none {days : List Date} {symbol : Text}
    (h : ∀ bar ∈ b.bars, bar.symbol = symbol → bar.date ∉ days) :
    b.lastClose days symbol = none := by
  induction days using List.reverseRecOn with
  | nil => rfl
  | append_singleton days day ih =>
      have hnone : b.barsOn day symbol = [] := by
        rw [barsOn, List.filter_eq_nil_iff]
        intro bar hbar hon
        obtain ⟨hdate, hsymbol⟩ := of_decide_eq_true hon
        apply h bar hbar hsymbol
        rw [hdate]
        exact List.mem_append_right days List.mem_cons_self
      rw [lastClose_append, closeOn, hnone, ih fun bar hbar hsymbol hmem =>
        h bar hbar hsymbol (List.mem_append_left [day] hmem)]
      rfl

/-! ### Other closes -/

section Reclosed

variable {change : ReferenceBar → ℚ}

theorem dates_reclosed : (b.reclosed change).dates = b.dates := by
  rw [dates, reclosed, List.map_map]
  rfl

theorem barsOn_reclosed (day : Date) (symbol : Text) : (b.reclosed change).barsOn day symbol =
    (b.barsOn day symbol).map fun bar => { bar with close := change bar } :=
  List.filter_map

theorem barOn_reclosed (day : Date) (symbol : Text) : (b.reclosed change).barOn day symbol =
    (b.barOn day symbol).map (Option.map fun bar => { bar with close := change bar }) := by
  unfold barOn
  rw [barsOn_reclosed]
  match b.barsOn day symbol with
  | [] => rfl
  | [_] => rfl
  | _ :: _ :: _ => rfl

theorem closeOn_reclosed {day : Date} {symbol : Text}
    (h : ∀ bar, bar.date = day → bar.symbol = symbol → change bar = bar.close) :
    (b.reclosed change).closeOn day symbol = b.closeOn day symbol := by
  have hsame : (b.reclosed change).barsOn day symbol = b.barsOn day symbol := by
    rw [barsOn_reclosed]
    refine (List.map_congr_left fun bar hbar => ?_).trans (List.map_id _)
    obtain ⟨hdate, hsymbol⟩ := of_decide_eq_true (List.mem_filter.mp hbar).2
    rw [h bar hdate hsymbol]
    rfl
  rw [closeOn, closeOn, hsame]

theorem orderRow_reclosed (day : Date) (event : Event) (held : Weights) (nav : ℚ) (symbol : Text) :
    (b.reclosed change).orderRow day event held nav symbol =
      b.orderRow day event held nav symbol := by
  unfold orderRow
  rw [barOn_reclosed]
  match b.barOn day symbol with
  | .error _ => rfl
  | .ok none => rfl
  | .ok (some _) => rfl

theorem barBlocks_reclosed (day : Date) (event : Event) (held : Weights) (symbol : Text) :
    (b.reclosed change).barBlocks day event held symbol = b.barBlocks day event held symbol := by
  unfold barBlocks
  rw [barOn_reclosed]
  match b.barOn day symbol with
  | .error _ => rfl
  | .ok none => rfl
  | .ok (some _) => rfl

/-- Orders do not read closes. -/
theorem rebalance_reclosed (day : Date) (state : ReferenceState) :
    (b.reclosed change).rebalance day state = b.rebalance day state := by
  have horder : ∀ event held nav, (b.reclosed change).orderOf day event held nav =
      b.orderOf day event held nav := by
    intro event held nav
    funext symbol
    unfold orderOf
    rw [orderRow_reclosed]
  unfold rebalance ordersOf
  simp only [horder]
  rfl

theorem heldAfter_reclosed (days : List Date) :
    (b.reclosed change).heldAfter days = b.heldAfter days := by
  have hnext : (b.reclosed change).heldNext = b.heldNext := by
    funext held day
    unfold heldNext blockedSymbols
    simp only [barBlocks_reclosed]
    rfl
  rw [heldAfter, hnext]
  rfl

end Reclosed

end ReferenceLoop

end QuantWorkbench.Backtest
