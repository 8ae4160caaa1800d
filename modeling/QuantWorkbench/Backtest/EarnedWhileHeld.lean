import QuantWorkbench.Backtest.EarnedReturns
import QuantWorkbench.Backtest.PositionBooks

/-!
Returns that are earned while held. A day credits the weights that it ends with against the closes
before it, so that a symbol bought on it earns from the last close, a symbol sold on it earns
nothing more, and the returns depend on closes of a symbol that was not held yet: unless the symbol
that is entered has no bar before, and the one that is left opens at its last close.
-/

namespace QuantWorkbench.Backtest

open Lib

theorem Weights.term_eq_of_sum_eq {weights : Weights} {f g : Text × ℚ → ℚ} {entry : Text × ℚ}
    (hentry : entry ∈ weights.values)
    (hother : ∀ other : Text × ℚ, other.1 ≠ entry.1 → f other = g other)
    (h : (weights.values.map f).sum = (weights.values.map g).sum) : f entry = g entry := by
  obtain ⟨front, back, hvalues⟩ := List.append_of_mem hentry
  have hnodup : (weights.values.map Prod.fst).Nodup := weights.nodup
  rw [hvalues, List.map_append, List.map_cons, List.nodup_middle, List.nodup_cons,
    List.mem_append] at hnodup
  have hne : ∀ other, other ∈ front ∨ other ∈ back → other.1 ≠ entry.1 := by
    intro other hmem hsame
    apply hnodup.1
    rw [← hsame]
    exact hmem.imp List.mem_map_of_mem List.mem_map_of_mem
  have hfront : front.map f = front.map g :=
    List.map_congr_left fun other hmem => hother other (hne other (Or.inl hmem))
  have hback : back.map f = back.map g :=
    List.map_congr_left fun other hmem => hother other (hne other (Or.inr hmem))
  rw [hvalues, List.map_append, List.map_append, List.sum_append, List.sum_append, List.map_cons,
    List.map_cons, List.sum_cons, List.sum_cons, hfront, hback] at h
  exact add_right_cancel (add_left_cancel h)

namespace ReferenceLoop

variable {b : ReferenceLoop}

/-! ### Two runs -/

/-- Two states that differ in nothing but the last close of one symbol. -/
structure SameBut (symbol : Text) (left right : ReferenceState) : Prop where
  held : right.held = left.held
  nav : right.nav = left.nav
  orders : right.orders = left.orders
  returns : right.returns = left.returns
  costs : right.costs = left.costs
  previousClose : ∀ other, other ≠ symbol → right.previousClose other = left.previousClose other

theorem rebalance_congr {left right : ReferenceState} (hheld : right.held = left.held)
    (hnav : right.nav = left.nav) (day : Date) : b.rebalance day right = b.rebalance day left := by
  unfold rebalance
  rw [hheld, hnav]

section TwoRuns

variable {symbol : Text} {change : ReferenceBar → ℚ}

/-- Other symbols bring what they bring with the closes as they are. -/
theorem symbolReturn_other (hchange : ∀ bar, bar.symbol ≠ symbol → change bar = bar.close)
    {left right : ReferenceState} (h : SameBut symbol left right) (day : Date) (weight : ℚ)
    {other : Text} (hother : other ≠ symbol) :
    (b.reclosed change).symbolReturn day right.previousClose other weight =
      b.symbolReturn day left.previousClose other weight := by
  have hclose : (b.reclosed change).closeOn day other = b.closeOn day other :=
    closeOn_reclosed fun bar _ hsymbol => hchange bar (by rw [hsymbol]; exact hother)
  unfold symbolReturn
  rw [hclose, h.previousClose other hother]

/-- A day after which the symbol is not held goes by in the same way with any closes of it. -/
theorem day_reclosed (hchange : ∀ bar, bar.symbol ≠ symbol → change bar = bar.close)
    {left right left' : ReferenceState} {day : Date} (h : SameBut symbol left right)
    (hday : b.day left day = .ok left') (hheld : left'.held.weight symbol = 0) :
    ∃ right', (b.reclosed change).day right day = .ok right' ∧ SameBut symbol left' right' := by
  obtain ⟨⟨orders, held⟩, hrebalance, hsettle⟩ := bind_eq_ok_iff.mp hday
  cases hsettle
  have hsame : (b.reclosed change).rebalance day right = .ok (orders, held) := by
    rw [rebalance_reclosed, rebalance_congr h.held h.nav, hrebalance]
  have hgross : (b.reclosed change).grossReturn day right.previousClose held =
      b.grossReturn day left.previousClose held := by
    refine congrArg List.sum (List.map_congr_left fun entry hentry => ?_)
    by_cases hsymbol : entry.1 = symbol
    · have hzero : entry.2 = 0 := by
        rw [← Weights.weight_of_mem hentry, hsymbol]
        exact hheld
      rw [hzero, symbolReturn_zero, symbolReturn_zero]
    · exact symbolReturn_other hchange h day entry.2 hsymbol
  refine ⟨(b.reclosed change).settle day right orders held, ?_, ?_⟩
  · rw [ReferenceLoop.day, hsame]
    rfl
  · constructor
    · rfl
    · simp only [settle, hgross, h.nav]
    · simp only [settle, h.orders]
    · simp only [settle, hgross, h.returns]
    · simp only [settle, h.costs]
    · intro other hother
      have hclose : (b.reclosed change).closeOn day other = b.closeOn day other :=
        closeOn_reclosed fun bar _ hsymbol => hchange bar (by rw [hsymbol]; exact hother)
      simp only [settle, hclose, h.previousClose other hother]

def NeverHeld (b : ReferenceLoop) (days : List Date) (symbol : Text) : Prop :=
  ∀ earlier, earlier <+: days → Weights.weight (b.heldAfter earlier) symbol = 0

/-- A run in which the symbol is never held goes by in the same way with any closes of it. -/
theorem foldl_reclosed (hchange : ∀ bar, bar.symbol ≠ symbol → change bar = bar.close)
    {days : List Date} {state : ReferenceState} (hnever : b.NeverHeld days symbol)
    (h : days.foldl b.step (.ok b.start) = .ok state) :
    ∃ other, days.foldl (b.reclosed change).step (.ok (b.reclosed change).start) = .ok other ∧
      SameBut symbol state other := by
  induction days using List.reverseRecOn generalizing state with
  | nil =>
      cases h
      exact ⟨b.start, rfl, rfl, rfl, rfl, rfl, rfl, fun _ _ => rfl⟩
  | append_singleton days day ih =>
      have hheld := (run_state h).1
      rw [List.foldl_append] at h
      obtain ⟨before, hbefore, hday⟩ := step_ok h
      obtain ⟨other, hother, hsame⟩ :=
        ih (fun earlier hfront => hnever earlier (hfront.trans (List.prefix_append days [day])))
          hbefore
      have hzero : state.held.weight symbol = 0 := by
        rw [hheld]
        exact hnever _ List.prefix_rfl
      obtain ⟨other', hday', hsame'⟩ := day_reclosed hchange hsame hday hzero
      refine ⟨other', ?_, hsame'⟩
      rw [List.foldl_append, hother]
      exact hday'

end TwoRuns

/-! ### Days with an event -/

/-- A day with an event, the days before it, and the state of the run that it starts from. -/
structure EventDay (b : ReferenceLoop) (earlier : List Date) (day : Date) (event : Event)
    (state : ReferenceState) : Prop where
  dated : ∃ later, b.dates = earlier ++ day :: later
  reached : earlier.foldl b.step (.ok b.start) = .ok state
  event : b.events day = some event

def NoBarBefore (b : ReferenceLoop) (day : Date) (symbol : Text) : Prop :=
  ∀ bar ∈ b.bars, bar.symbol = symbol → day ≤ bar.date

theorem split_dates {earlier later : List Date} {day : Date}
    (h : b.dates = earlier ++ day :: later) :
    (∀ other ∈ earlier, other < day) ∧ ∀ other ∈ later, day < other := by
  have hincreasing : (earlier ++ day :: later).Pairwise fun a b => a < b := by
    rw [← h]
    exact increasing_sortedSet _
  obtain ⟨_, hlater, hacross⟩ := List.pairwise_append.mp hincreasing
  exact ⟨fun other hother => hacross other hother day List.mem_cons_self,
    (List.pairwise_cons.mp hlater).1⟩

theorem filter_dates {earlier later : List Date} {day : Date}
    (h : b.dates = earlier ++ day :: later) : b.dates.filter (· < day) = earlier := by
  obtain ⟨hearlier, hlater⟩ := split_dates h
  rw [h, List.filter_append, List.filter_eq_self.mpr fun other hother =>
    decide_eq_true (hearlier other hother), List.filter_eq_nil_iff.mpr, List.append_nil]
  intro other hother hless
  rcases List.mem_cons.mp hother with rfl | hother
  · exact lt_irrefl _ (of_decide_eq_true hless)
  · exact lt_asymm (hlater other hother) (of_decide_eq_true hless)

theorem ordersOf_of_run {final : ReferenceState} (h : b.run = .ok final) {earlier : List Date}
    {day : Date} {event : Event} {state : ReferenceState}
    (hday : b.EventDay earlier day event state) :
    ∃ orders later state', b.dates = earlier ++ day :: later ∧
      b.ordersOf day event state.held state.nav = .ok orders ∧ b.day state day = .ok state' ∧
      later.foldl b.step (.ok state') = .ok final := by
  obtain ⟨later, hdates⟩ := hday.dated
  rw [run, hdates] at h
  obtain ⟨before, hbefore, hlater⟩ := foldl_step_ok _ h
  rw [hday.reached] at hbefore
  cases hbefore
  obtain ⟨state', hstate', hrest⟩ := foldl_step_ok [day] hlater
  have hday' : b.day state day = .ok state' := hstate'
  obtain ⟨made, hmade, _⟩ := bind_eq_ok_iff.mp hday'
  unfold rebalance at hmade
  rw [hday.event] at hmade
  obtain ⟨orders, horders, _⟩ := bind_eq_ok_iff.mp hmade
  exact ⟨orders, later, state', hdates, horders, hday', hrest⟩

theorem weight_heldAfter {earlier : List Date} {day : Date} {event : Event}
    {state : ReferenceState} {orders : List OrderRow} (hday : b.EventDay earlier day event state)
    (horders : b.ordersOf day event state.held state.nav = .ok orders) (symbol : Text) :
    Weights.weight (b.heldAfter (earlier ++ [day])) symbol =
      b.weightAfter day event state.held symbol := by
  rw [← weight_after (ordersOf_eq_ok horders), effectiveWeights_eq horders, heldAfter_append,
    ← (run_state hday.reached).1]
  unfold heldNext
  rw [hday.event]

/-- An order that its bar lets through finds a close. -/
theorem closeOn_of_order {day : Date} {event : Event} {held : Weights} {nav : ℚ}
    {orders : List OrderRow} (horders : b.ordersOf day event held nav = .ok orders) {symbol : Text}
    (hlarge : tolerance < |delta event held symbol|)
    (hblocks : b.barBlocks day event held symbol = false) :
    ∃ current, b.closeOn day symbol = some current := by
  obtain ⟨row, hrow, rfl⟩ := (ordersOf_eq_ok horders).ofSymbol symbol hlarge
  obtain ⟨bar, hbar, _⟩ := ((ordersOf_eq_ok horders).ofRow row hrow).2.executionPrice
  unfold barBlocks at hblocks
  unfold barOn at hbar hblocks
  unfold closeOn
  split at hbar
  · rename_i hnone
    rw [hnone] at hblocks
    cases hblocks
  · rename_i one hone
    rw [hone]
    exact ⟨one.close, rfl⟩
  · cases hbar

/-! ### Credits -/

def closesBefore (day : Date) (symbol : Text) (close : ℚ) (bar : ReferenceBar) : ℚ :=
  if bar.date < day ∧ bar.symbol = symbol then close else bar.close

theorem closesBefore_on {day : Date} {symbol : Text} {close : ℚ} {bar : ReferenceBar}
    (h : ¬ (bar.date < day ∧ bar.symbol = symbol)) :
    closesBefore day symbol close bar = bar.close :=
  if_neg h

/-- A symbol without a bar before a day brings nothing to it, with any closes. -/
theorem credit_eq_zero {earlier later : List Date} {day : Date} {symbol : Text}
    (hdates : b.dates = earlier ++ day :: later) (hnone : b.NoBarBefore day symbol) :
    b.credit earlier day symbol = 0 := by
  refine symbolReturn_none (lastClose_eq_none fun bar hbar hsymbol hmem => ?_) _
  exact absurd (hnone bar hbar hsymbol) ((split_dates hdates).1 bar.date hmem).not_ge

theorem noBarBefore_reclosed {day : Date} {symbol : Text} (h : b.NoBarBefore day symbol)
    (change : ReferenceBar → ℚ) : (b.reclosed change).NoBarBefore day symbol := by
  intro bar hbar hsymbol
  obtain ⟨original, horiginal, rfl⟩ := List.mem_map.mp hbar
  exact h original horiginal hsymbol

theorem lastClose_closesBefore {days : List Date} {day : Date} {symbol : Text} (close : ℚ)
    (hdays : ∀ other ∈ days, other < day)
    (hbar : ∃ bar ∈ b.bars, bar.symbol = symbol ∧ bar.date ∈ days) :
    (b.reclosed (closesBefore day symbol close)).lastClose days symbol = some close := by
  induction days using List.reverseRecOn with
  | nil =>
      obtain ⟨bar, _, _, hmem⟩ := hbar
      cases hmem
  | append_singleton days last ih =>
      have hlast : last < day := hdays last (List.mem_append_right days List.mem_cons_self)
      rw [lastClose_append, closeOn, barsOn_reclosed, List.getLast?_map, Option.map_map]
      cases hon : (b.barsOn last symbol).getLast? with
      | some bar =>
          have hmem := (List.mem_filter.mp (List.mem_of_getLast? hon)).2
          obtain ⟨hdate, hsymbol⟩ := of_decide_eq_true hmem
          have hclose : closesBefore day symbol close bar = close :=
            if_pos ⟨by rw [hdate]; exact hlast, hsymbol⟩
          exact congrArg some hclose
      | none =>
          have hempty := List.getLast?_eq_none_iff.mp hon
          obtain ⟨bar, hbar, hsymbol, hmem⟩ := hbar
          rcases List.mem_append.mp hmem with hmem | hmem
          · exact ih (fun other hother => hdays other (List.mem_append_left [last] hother))
              ⟨bar, hbar, hsymbol, hmem⟩
          · have hdate : bar.date = last := List.mem_singleton.mp hmem
            have hin : bar ∈ b.barsOn last symbol :=
              List.mem_filter.mpr ⟨hbar, decide_eq_true ⟨hdate, hsymbol⟩⟩
            rw [hempty] at hin
            cases hin

theorem exists_other_credit {earlier later : List Date} {day : Date} {symbol : Text}
    (hdates : b.dates = earlier ++ day :: later) (hbefore : ¬ b.NoBarBefore day symbol)
    (hclose : ∃ current, b.closeOn day symbol = some current)
    (hweight : Weights.weight (b.heldAfter (earlier ++ [day])) symbol ≠ 0) :
    ∃ close, (b.reclosed (closesBefore day symbol close)).credit earlier day symbol ≠
      b.credit earlier day symbol := by
  obtain ⟨current, hcurrent⟩ := hclose
  have hbar : ∃ bar ∈ b.bars, bar.symbol = symbol ∧ bar.date ∈ earlier := by
    unfold NoBarBefore at hbefore
    push Not at hbefore
    obtain ⟨bar, hbar, hsymbol, hdate⟩ := hbefore
    refine ⟨bar, hbar, hsymbol, ?_⟩
    have hmem : bar.date ∈ b.dates := mem_sortedSet.mpr (List.mem_map_of_mem hbar)
    rw [hdates] at hmem
    rcases List.mem_append.mp hmem with hmem | hmem
    · exact hmem
    · rcases List.mem_cons.mp hmem with hsame | hmem
      · exact absurd hsame hdate.ne
      · exact absurd ((split_dates hdates).2 _ hmem) hdate.asymm
  have hcredit : ∀ close, (b.reclosed (closesBefore day symbol close)).credit earlier day symbol =
      if 0 < close then
        Weights.weight (b.heldAfter (earlier ++ [day])) symbol * (current / close - 1) else 0 := by
    intro close
    have hon : (b.reclosed (closesBefore day symbol close)).closeOn day symbol = some current := by
      rw [closeOn_reclosed fun bar hdate _ => closesBefore_on fun h => absurd hdate h.1.ne,
        hcurrent]
    rw [credit, heldAfter_reclosed]
    unfold symbolReturn
    rw [hon, lastClose_closesBefore close (split_dates hdates).1 hbar]
  by_contra hall
  push Not at hall
  have hone := (hall 1).trans (hall 0).symm
  have htwo := (hall 2).trans (hall 0).symm
  rw [hcredit, hcredit, if_pos one_pos, if_neg (lt_irrefl 0)] at hone
  rw [hcredit, hcredit, if_pos two_pos, if_neg (lt_irrefl 0)] at htwo
  have hfirst := (mul_eq_zero.mp hone).resolve_left hweight
  have hsecond := (mul_eq_zero.mp htwo).resolve_left hweight
  linarith

/-! ### Earned while held -/

def returnsFrom (b : ReferenceLoop) (first : Date) : Option (List ℚ) :=
  b.run.toOption.map fun final => final.returns.drop (b.dates.filter (· < first)).length

/-- Returns are earned while held. -/
structure EarnsWhileHeld (b : ReferenceLoop) : Prop where
  /-- What a bought symbol brings to the day does not depend on any close before it. -/
  bought : ∀ earlier day event state, b.EventDay earlier day event state →
    ∀ orders, b.ordersOf day event state.held state.nav = .ok orders →
    ∀ row ∈ orders, row.filled = true → row.side = .buy →
    ∀ change, (∀ bar : ReferenceBar, day ≤ bar.date → change bar = bar.close) →
    (b.reclosed change).credit earlier day row.symbol = b.credit earlier day row.symbol
  /-- What is sold brings its move from the last close to the execution price, and the rest
  brings the move of the day. -/
  sold : ∀ earlier day event state, b.EventDay earlier day event state →
    ∀ orders, b.ordersOf day event state.held state.nav = .ok orders →
    ∀ row ∈ orders, row.filled = true → row.side = .sell →
    ∀ price old, row.executionPrice = some price → b.lastClose earlier row.symbol = some old →
    0 < old → b.credit earlier day row.symbol =
      b.symbolReturn day (b.lastClose earlier) row.symbol
          (Weights.weight (b.heldAfter (earlier ++ [day])) row.symbol) +
        (row.previousWeight - Weights.weight (b.heldAfter (earlier ++ [day])) row.symbol) *
          (price / old - 1)
  /-- The returns from a date on do not depend on closes before it of a symbol that is not held
  before it. -/
  unheld : ∀ first symbol, b.NeverHeld (b.dates.filter (· < first)) symbol →
    ∀ change, (∀ bar : ReferenceBar, ¬ (bar.date < first ∧ bar.symbol = symbol) →
      change bar = bar.close) →
    (b.reclosed change).returnsFrom first = b.returnsFrom first

/-- Nothing is entered after a bar of it, and what is left opens at its last close. -/
structure TradesAtLastClose (b : ReferenceLoop) : Prop where
  bought : ∀ earlier day event state, b.EventDay earlier day event state →
    ∀ symbol, tolerance < delta event state.held symbol →
    tolerance < event.targets.weight symbol → b.barBlocks day event state.held symbol = false →
    ¬ b.belowLot day event state.held state.nav symbol → b.NoBarBefore day symbol
  sold : ∀ earlier day event state, b.EventDay earlier day event state →
    ∀ symbol, delta event state.held symbol < -tolerance →
    b.barBlocks day event state.held symbol = false →
    ¬ b.belowLot day event state.held state.nav symbol →
    ∀ bar price old, b.barOn day symbol = .ok (some bar) → bar.open = some price →
    b.lastClose earlier symbol = some old → 0 < old →
    state.held.weight symbol = kept (event.targets.weight symbol) ∨ price = old
  entered : ∀ earlier day event state, b.EventDay earlier day event state →
    ∀ symbol, b.NeverHeld earlier symbol → tolerance < event.targets.weight symbol →
    b.barBlocks day event state.held symbol = false → b.NoBarBefore day symbol

theorem weightAfter_of_unblocked {day : Date} {event : Event} {held : Weights} {symbol : Text}
    (h : b.barBlocks day event held symbol = false) :
    b.weightAfter day event held symbol = kept (event.targets.weight symbol) := by
  rw [weightAfter, if_neg fun hblocked => absurd (h.symm.trans hblocked.2) Bool.false_ne_true]

theorem kept_ne_zero {weight : ℚ} : kept weight ≠ 0 ↔ tolerance < weight := by
  unfold kept
  constructor
  · intro h
    by_contra hsmall
    exact h (if_neg hsmall)
  · intro h
    rw [if_pos h]
    exact (tolerance_pos.trans h).ne'

theorem exists_entry {days : List Date} {symbol : Text}
    (hstart : Weights.weight (b.heldAfter []) symbol = 0) (h : ¬ b.NeverHeld days symbol) :
    ∃ earlier day later, days = earlier ++ day :: later ∧ b.NeverHeld earlier symbol ∧
      Weights.weight (b.heldAfter (earlier ++ [day])) symbol ≠ 0 := by
  induction days using List.reverseRecOn with
  | nil =>
      exfalso
      apply h
      intro earlier hfront
      rw [List.prefix_nil.mp hfront]
      exact hstart
  | append_singleton days day ih =>
      by_cases hnever : b.NeverHeld days symbol
      · refine ⟨days, day, [], rfl, hnever, fun hzero => h fun earlier hfront => ?_⟩
        rcases List.prefix_concat_iff.mp hfront with rfl | hfront
        · exact hzero
        · exact hnever earlier hfront
      · obtain ⟨earlier, first, later, hdays, hearlier, hheld⟩ := ih hnever
        refine ⟨earlier, first, later ++ [day], ?_, hearlier, hheld⟩
        rw [hdays, List.append_assoc, List.cons_append]

theorem returnsFrom_eq {final state state' : ReferenceState} {earlier later : List Date}
    {day : Date} (hdates : b.dates = earlier ++ day :: later) (h : b.run = .ok final)
    (hreached : earlier.foldl b.step (.ok b.start) = .ok state)
    (hday : b.day state day = .ok state') (hlater : later.foldl b.step (.ok state') = .ok final) :
    ∃ cost rest, (b.rebalance day state).map (fun made =>
        (made.1.map OrderRow.estimatedCost).sum) = .ok cost ∧ b.returnsFrom day =
      some ((b.grossReturn day state.previousClose state'.held - cost) :: rest) := by
  obtain ⟨cost, hcost, hreturns⟩ := returns_day hday
  obtain ⟨rest, hrest⟩ := returns_prefix hlater
  refine ⟨cost, rest, hcost, ?_⟩
  have hlength := (run_state hreached).2.2
  have hfrom : final.returns.drop state.returns.length =
      (b.grossReturn day state.previousClose state'.held - cost) :: rest := by
    rw [← hrest, hreturns, List.append_assoc, List.drop_left]
    rfl
  rw [returnsFrom, h, filter_dates hdates, ← hlength]
  exact congrArg some hfrom

/-- Returns that do not depend on the closes before an entry come from no bar before it. -/
theorem noBarBefore_of_unheld {final : ReferenceState} (h : b.run = .ok final)
    {earlier : List Date} {day : Date} {event : Event} {state : ReferenceState}
    (hday : b.EventDay earlier day event state) {symbol : Text}
    (hnever : b.NeverHeld earlier symbol)
    (htarget : tolerance < event.targets.weight symbol)
    (hblocks : b.barBlocks day event state.held symbol = false)
    (hsame : ∀ close, (b.reclosed (closesBefore day symbol close)).returnsFrom day =
      b.returnsFrom day) : b.NoBarBefore day symbol := by
  obtain ⟨orders, later, state', hdates, horders, hstep, hlater⟩ := ordersOf_of_run h hday
  obtain ⟨hheld, hclose, _⟩ := run_state hday.reached
  have hnext : state'.held = b.heldAfter (earlier ++ [day]) := by
    rw [held_day hstep, hheld, heldAfter_append]
  have hbefore : state.held.weight symbol = 0 := by
    rw [hheld]
    exact hnever earlier List.prefix_rfl
  have hdelta : tolerance < |delta event state.held symbol| := by
    rw [delta, hbefore, sub_zero]
    exact htarget.trans_le (le_abs_self _)
  have hweight : Weights.weight (b.heldAfter (earlier ++ [day])) symbol ≠ 0 := by
    rw [weight_heldAfter hday horders, weightAfter_of_unblocked hblocks]
    exact kept_ne_zero.mpr htarget
  by_contra hbar
  obtain ⟨close, hother⟩ :=
    exists_other_credit hdates hbar (closeOn_of_order horders hdelta hblocks) hweight
  apply hother
  have hchange : ∀ bar : ReferenceBar, bar.symbol ≠ symbol →
      closesBefore day symbol close bar = bar.close :=
    fun bar hne => closesBefore_on fun hon => hne hon.2
  obtain ⟨cost, rest, hcost, hreturns⟩ := returnsFrom_eq hdates h hday.reached hstep hlater
  -- The run with the other closes ends as well, and its day credits the same in all.
  have hreturns' := (hsame close).trans hreturns
  obtain ⟨final', hfinal', _⟩ := Option.map_eq_some_iff.mp hreturns'
  have hrun' : (b.reclosed (closesBefore day symbol close)).run = .ok final' := by
    cases hcase : (b.reclosed (closesBefore day symbol close)).run with
    | error error =>
        rw [hcase] at hfinal'
        cases hfinal'
    | ok other =>
        rw [hcase] at hfinal'
        cases hfinal'
        rfl
  have hdates' : (b.reclosed (closesBefore day symbol close)).dates = earlier ++ day :: later :=
    dates_reclosed.trans hdates
  obtain ⟨other, hreached', hstates⟩ := foldl_reclosed hchange hnever hday.reached
  have hday' : (b.reclosed (closesBefore day symbol close)).EventDay earlier day event other :=
    ⟨⟨later, hdates'⟩, hreached', hday.event⟩
  obtain ⟨_, later', other', hsplit', _, hstep', hlater'⟩ := ordersOf_of_run hrun' hday'
  obtain rfl : later = later' :=
    List.cons.inj (List.append_cancel_left (hdates'.symm.trans hsplit')) |>.2
  obtain ⟨cost', rest', hcost', hothers⟩ :=
    returnsFrom_eq hdates' hrun' hreached' hstep' hlater'
  rw [rebalance_reclosed, rebalance_congr hstates.held hstates.nav, hcost] at hcost'
  cases hcost'
  have hheld' : other'.held = state'.held := by
    rw [held_day hstep', (run_state hreached').1, ← heldAfter_append,
      heldAfter_reclosed, hnext]
  have hgross := (List.cons.inj (Option.some.inj (hothers.symm.trans hreturns'))).1
  rw [sub_left_inj, hheld'] at hgross
  obtain ⟨entry, hentry, hsymbol⟩ : ∃ entry ∈ state'.held.values, entry.1 = symbol := by
    by_contra hnone
    rw [← hnext] at hweight
    exact hweight (Weights.weight_of_not_mem fun hmem => hnone (Keyed.mem_keys.mp hmem))
  have hterm := Weights.term_eq_of_sum_eq hentry (fun another hne =>
    symbolReturn_other hchange hstates day another.2 (by rw [← hsymbol]; exact hne)) hgross
  have hvalue : state'.held.weight symbol = entry.2 := by
    rw [← hsymbol, Weights.weight_of_mem hentry]
  rw [credit, credit, heldAfter_reclosed, ← (run_state hreached').2.1, ← hclose, ← hnext, hvalue]
  rw [hsymbol] at hterm
  exact hterm

theorem noBarBefore_of_entry {final : ReferenceState} (h : b.run = .ok final)
    (hmeets : b.TradesAtLastClose) {earlier later : List Date} {day : Date} {symbol : Text}
    (hdates : b.dates = earlier ++ day :: later) (hnever : b.NeverHeld earlier symbol)
    (hheld : Weights.weight (b.heldAfter (earlier ++ [day])) symbol ≠ 0) :
    b.NoBarBefore day symbol := by
  have hbefore : Weights.weight (b.heldAfter earlier) symbol = 0 := hnever earlier List.prefix_rfl
  obtain ⟨state, hreached, _⟩ := foldl_step_ok (b := b) earlier
    (by rw [← hdates]; exact h)
  cases hevent : b.events day with
  | none =>
      rw [heldAfter_append, heldNext, hevent] at hheld
      exact absurd hbefore hheld
  | some event =>
      have hday : b.EventDay earlier day event state := ⟨⟨later, hdates⟩, hreached, hevent⟩
      obtain ⟨orders, _, _, _, horders, _, _⟩ := ordersOf_of_run h hday
      have hzero : state.held.weight symbol = 0 := by
        rw [(run_state hreached).1]
        exact hbefore
      rw [weight_heldAfter hday horders, weightAfter, kept_ne_zero, hzero] at hheld
      split at hheld
      · exact absurd hheld tolerance_pos.not_gt
      · rename_i hthrough
        have hlarge : tolerance < |delta event state.held symbol| := by
          rw [delta, hzero, sub_zero]
          exact hheld.trans_le (le_abs_self _)
        have hblocks : b.barBlocks day event state.held symbol = false := by
          rw [← Bool.not_eq_true]
          exact fun hblocks => hthrough ⟨hlarge, hblocks⟩
        exact hmeets.entered earlier day event state hday symbol hnever hheld hblocks

/-- An order that its bar lets through and that is no less than a lot is filled. -/
theorem exists_filled {day : Date} {event : Event} {held : Weights} {nav : ℚ}
    {orders : List OrderRow} (horders : b.ordersOf day event held nav = .ok orders) {symbol : Text}
    (hlarge : tolerance < |delta event held symbol|)
    (hblocks : b.barBlocks day event held symbol = false)
    (hlot : ¬ b.belowLot day event held nav symbol) :
    ∃ row ∈ orders, row.symbol = symbol ∧ row.filled = true ∧
      b.OrderFor day event held nav symbol row := by
  obtain ⟨row, hrow, rfl⟩ := (ordersOf_eq_ok horders).ofSymbol symbol hlarge
  have hfor := ((ordersOf_eq_ok horders).ofRow row hrow).2
  exact ⟨row, hrow, rfl, hfor.filled.mpr ⟨hblocks, hlot⟩, hfor⟩

theorem tradesAtLastClose_of_earns {final : ReferenceState} (h : b.run = .ok final)
    (hearns : b.EarnsWhileHeld) : b.TradesAtLastClose := by
  constructor
  · intro earlier day event state hday symbol hdelta htarget hblocks hlot
    obtain ⟨orders, later, state', hdates, horders, _, _⟩ := ordersOf_of_run h hday
    have hlarge : tolerance < |delta event state.held symbol| := hdelta.trans_le (le_abs_self _)
    obtain ⟨row, hrow, hsymbol, hfilled, hfor⟩ := exists_filled horders hlarge hblocks hlot
    have hside : row.side = .buy := by
      rw [hfor.side, if_pos (tolerance_pos.trans hdelta)]
    by_contra hbar
    have hweight : Weights.weight (b.heldAfter (earlier ++ [day])) symbol ≠ 0 := by
      rw [weight_heldAfter hday horders, weightAfter_of_unblocked hblocks]
      exact kept_ne_zero.mpr htarget
    obtain ⟨close, hother⟩ :=
      exists_other_credit hdates hbar (closeOn_of_order horders hlarge hblocks) hweight
    apply hother
    rw [← hsymbol]
    apply hearns.bought earlier day event state hday orders horders row hrow hfilled hside
    intro bar hdate
    exact closesBefore_on fun hon => hdate.not_gt hon.1
  · intro earlier day event state hday symbol hdelta hblocks hlot bar price old hbar hprice hold
      hpos
    obtain ⟨orders, later, state', hdates, horders, _, _⟩ := ordersOf_of_run h hday
    have hlarge : tolerance < |delta event state.held symbol| :=
      lt_abs.mpr (Or.inr (lt_neg.mp hdelta))
    obtain ⟨row, hrow, hsymbol, hfilled, hfor⟩ := exists_filled horders hlarge hblocks hlot
    have hside : row.side = .sell := by
      rw [hfor.side, if_neg (hdelta.trans (neg_lt_zero.mpr tolerance_pos)).not_gt]
    have hexecution : row.executionPrice = some price := by
      obtain ⟨found, hfound, hrowPrice⟩ := hfor.executionPrice
      rw [hbar] at hfound
      cases hfound
      rw [hrowPrice]
      exact hprice
    have hsold := hearns.sold earlier day event state hday orders horders row hrow hfilled hside
      price old hexecution (by rw [hsymbol]; exact hold) hpos
    -- The credit is that of the weight after the day, so the weight sold has to bring nothing.
    rcases mul_eq_zero.mp (left_eq_add.mp hsold) with hnothing | hmove
    · left
      rw [hfor.previousWeight, hsymbol, weight_heldAfter hday horders,
        weightAfter_of_unblocked hblocks] at hnothing
      exact sub_eq_zero.mp hnothing
    · right
      exact (div_eq_one_iff_eq hpos.ne').mp (sub_eq_zero.mp hmove)
  · intro earlier day event state hday symbol hnever htarget hblocks
    apply noBarBefore_of_unheld h hday hnever htarget hblocks
    intro close
    obtain ⟨later, hdates⟩ := hday.dated
    apply hearns.unheld day symbol
    · rw [filter_dates hdates]
      exact hnever
    · intro bar hnot
      exact closesBefore_on hnot

/-- A symbol that is entered has no bar before, so that its closes before a date before its entry
are none. -/
theorem returnsFrom_reclosed {final : ReferenceState} (h : b.run = .ok final)
    (hmeets : b.TradesAtLastClose) {first : Date} {symbol : Text}
    (hnever : b.NeverHeld (b.dates.filter (· < first)) symbol) {change : ReferenceBar → ℚ}
    (hchange : ∀ bar : ReferenceBar, ¬ (bar.date < first ∧ bar.symbol = symbol) →
      change bar = bar.close) : (b.reclosed change).returnsFrom first = b.returnsFrom first := by
  have hsymbols : ∀ bar : ReferenceBar, bar.symbol ≠ symbol → change bar = bar.close :=
    fun bar hne => hchange bar fun hon => hne hon.2
  by_cases hall : b.NeverHeld b.dates symbol
  · obtain ⟨other, hother, hsame⟩ := foldl_reclosed hsymbols hall h
    have hrun : (b.reclosed change).run = .ok other := by
      rw [run, dates_reclosed]
      exact hother
    rw [returnsFrom, returnsFrom, hrun, h, dates_reclosed]
    exact congrArg (fun returns => some (List.drop _ returns)) hsame.returns
  · have hstart : Weights.weight (b.heldAfter []) symbol = 0 := hnever [] List.nil_prefix
    obtain ⟨earlier, day, later, hdates, hearlier, hheld⟩ := exists_entry hstart hall
    have hlate : first ≤ day := by
      by_contra hearly
      rw [not_le] at hearly
      apply hheld
      apply hnever
      have hbefore : (earlier ++ [day]).filter (· < first) = earlier ++ [day] := by
        refine List.filter_eq_self.mpr fun other hother => decide_eq_true ?_
        rcases List.mem_append.mp hother with hother | hother
        · exact ((split_dates hdates).1 other hother).trans hearly
        · rw [List.mem_singleton.mp hother]
          exact hearly
      have hsplit : b.dates = earlier ++ [day] ++ later := by
        rw [hdates, List.append_cons]
      rw [hsplit, List.filter_append, hbefore]
      exact List.prefix_append _ _
    have hnone := noBarBefore_of_entry h hmeets hdates hearlier hheld
    have hbars : b.bars.map (fun bar => { bar with close := change bar }) = b.bars := by
      refine (List.map_congr_left fun bar hbar => ?_).trans (List.map_id _)
      rw [hchange bar fun hon => (hlate.trans (hnone bar hbar hon.2)).not_gt hon.1]
      rfl
    have hloop : b.reclosed change = b := by
      rw [reclosed, hbars]
    rw [hloop]

theorem earns_of_tradesAtLastClose {final : ReferenceState} (h : b.run = .ok final)
    (hmeets : b.TradesAtLastClose) : b.EarnsWhileHeld := by
  constructor
  · intro earlier day event state hday orders horders row hrow hfilled hside change hchange
    obtain ⟨later, hdates⟩ := hday.dated
    obtain ⟨hlarge, hfor⟩ := (ordersOf_eq_ok horders).ofRow row hrow
    obtain ⟨hblocks, hlot⟩ := hfor.filled.mp hfilled
    have hpos : 0 < delta event state.held row.symbol := by
      by_contra hnot
      rw [hfor.side, if_neg hnot] at hside
      cases hside
    rw [abs_of_pos hpos] at hlarge
    by_cases htarget : tolerance < event.targets.weight row.symbol
    · have hnone :=
        hmeets.bought earlier day event state hday row.symbol hlarge htarget hblocks hlot
      rw [credit_eq_zero hdates hnone,
        credit_eq_zero (dates_reclosed.trans hdates) (noBarBefore_reclosed hnone change)]
    · have hzero : Weights.weight (b.heldAfter (earlier ++ [day])) row.symbol = 0 := by
        rw [weight_heldAfter hday horders, weightAfter_of_unblocked hblocks]
        exact if_neg htarget
      rw [credit, credit, heldAfter_reclosed, hzero, symbolReturn_zero, symbolReturn_zero]
  · intro earlier day event state hday orders horders row hrow hfilled hside price old hprice hold
      hpos
    obtain ⟨hlarge, hfor⟩ := (ordersOf_eq_ok horders).ofRow row hrow
    obtain ⟨hblocks, hlot⟩ := hfor.filled.mp hfilled
    have hneg : delta event state.held row.symbol ≤ 0 := by
      by_contra hnot
      rw [hfor.side, if_pos (not_le.mp hnot)] at hside
      cases hside
    rw [abs_of_nonpos hneg] at hlarge
    obtain ⟨bar, hbar, hrowPrice⟩ := hfor.executionPrice
    rw [hrowPrice] at hprice
    obtain ⟨found, rfl, hopen⟩ := Option.bind_eq_some_iff.mp hprice
    have hzero : (row.previousWeight - Weights.weight (b.heldAfter (earlier ++ [day]))
        row.symbol) * (price / old - 1) = 0 := by
      rcases hmeets.sold earlier day event state hday row.symbol (lt_neg.mp hlarge) hblocks hlot
        found price old hbar hopen hold hpos with hnothing | hmove
      · rw [hfor.previousWeight, weight_heldAfter hday horders,
          weightAfter_of_unblocked hblocks, hnothing, sub_self, zero_mul]
      · rw [hmove, div_self hpos.ne', sub_self, mul_zero]
    rw [hzero, add_zero]
    rfl
  · intro first symbol hnever change hchange
    exact returnsFrom_reclosed h hmeets hnever hchange

/-- A run that ends earns its returns while held exactly if it enters nothing after a bar of it and
what it leaves opens at the last close. -/
theorem earnsWhileHeld_iff {final : ReferenceState} (h : b.run = .ok final) :
    b.EarnsWhileHeld ↔ b.TradesAtLastClose :=
  ⟨tradesAtLastClose_of_earns h, earns_of_tradesAtLastClose h⟩

end ReferenceLoop

section Sample

def freeExecution : Execution := ⟨0, 0, 0, true, true⟩

/-- One symbol is entered on the day of its first bar. -/
def firstBarLoop : ReferenceLoop where
  bars := [backtestBar]
  events := fun day => if day = backtestDay then some {
    signalDate := .of 2026 8 7
    executionDate := backtestDay
    execution := freeExecution
    targets := (Keyed.empty : Weights).put ("000001".toList, 1 / 2) } else none
  capital := none
  currentPositions := Keyed.empty

theorem firstBarLoop_earns : firstBarLoop.EarnsWhileHeld := by
  have hdates : firstBarLoop.dates = [backtestDay] := by decide +kernel
  have hfirst : ∀ {earlier day event state}, firstBarLoop.EventDay earlier day event state →
      earlier = [] ∧ ∀ symbol, firstBarLoop.NoBarBefore day symbol := by
    intro earlier day event state hday
    obtain ⟨later, hsplit⟩ := hday.dated
    rw [hdates] at hsplit
    obtain ⟨rfl, hrest⟩ : earlier = [] ∧ [backtestDay] = day :: later := by
      cases earlier with
      | nil => exact ⟨rfl, hsplit⟩
      | cons other rest => cases rest <;> cases (List.cons.inj hsplit).2
    obtain rfl := (List.cons.inj hrest).1
    refine ⟨rfl, fun symbol bar hbar _ => ?_⟩
    rw [List.mem_singleton.mp hbar]
    exact le_refl backtestDay
  have hended : firstBarLoop.run.toOption.isSome = true := by decide +kernel
  cases hrun : firstBarLoop.run with
  | error error =>
      rw [hrun] at hended
      cases hended
  | ok final =>
      refine (ReferenceLoop.earnsWhileHeld_iff hrun).mpr ⟨?_, ?_, ?_⟩
      · intro earlier day event state hday symbol _ _ _ _
        exact (hfirst hday).2 symbol
      · intro earlier day event state hday symbol _ _ _ bar price old _ _ hold _
        rw [(hfirst hday).1] at hold
        cases hold
      · intro earlier day event state hday symbol _ _ _
        exact (hfirst hday).2 symbol

def dayBefore : Date := .of 2026 8 7

/-- The symbol closed at 8 on the day before, and is bought at 10, where it stays. -/
def gapLoop : ReferenceLoop :=
  { firstBarLoop with
    bars := [{ backtestBar with date := dayBefore, close := 8, «open» := some 8 }, backtestBar] }

/-- The move from 8 to the execution price of 10 is earned, without any cost. -/
theorem gapLoop_unearned : gapLoop.returnsFrom backtestDay = some [1 / 8] ∧
    ¬ gapLoop.EarnsWhileHeld := by
  refine ⟨by decide +kernel, fun hearns => ?_⟩
  have hbefore : gapLoop.dates.filter (· < backtestDay) = [dayBefore] := by decide +kernel
  have hnever : gapLoop.NeverHeld (gapLoop.dates.filter (· < backtestDay)) "000001".toList := by
    rw [hbefore]
    intro earlier hfront
    rcases List.prefix_concat_iff.mp (show earlier <+: [] ++ [dayBefore] from hfront) with
      rfl | hfront
    · decide +kernel
    · rw [List.prefix_nil.mp hfront]
      decide +kernel
  have hsame := hearns.unheld backtestDay "000001".toList hnever
    (ReferenceLoop.closesBefore backtestDay "000001".toList 10)
    fun bar hnot => ReferenceLoop.closesBefore_on hnot
  have hcredited : gapLoop.returnsFrom backtestDay = some [1 / 8] := by decide +kernel
  have hother : (gapLoop.reclosed (ReferenceLoop.closesBefore backtestDay "000001".toList 10)
      ).returnsFrom backtestDay = some [0] := by decide +kernel
  rw [hcredited, hother] at hsame
  exact absurd (List.cons.inj (Option.some.inj hsame)).1 (by norm_num)

end Sample

end QuantWorkbench.Backtest
