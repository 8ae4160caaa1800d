import QuantWorkbench.Account.CashAccount

/-!
The replay of a history against the account it stands for. `Books` is the
invariant of the loop: cash is the balance of the fills, no cent is created or
lost between cash, lots and realized profit, and the lots hold exactly the
shares bought and not sold. From it the replay succeeds exactly on the valid
accounts of `CashAccount.lean`.
-/

namespace QuantWorkbench.Account

open Lib Data

variable {D : Type} [LinearOrder D]

/-! ### One lot -/

structure Lot.Valid (lot : Lot D) : Prop where
  remaining_nonneg : 0 ≤ lot.remainingQuantity
  remaining_le : lot.remainingQuantity ≤ lot.quantity
  cost_isMoney : IsMoney lot.remainingCost
  cost_nonneg : 0 ≤ lot.remainingCost
  cost_zero : lot.remainingQuantity = 0 → lot.remainingCost = 0

namespace Lot

variable {lot : Lot D}

omit [LinearOrder D]

theorem allocation_isMoney (h : lot.Valid) (take : ℤ) : IsMoney (lot.allocation take) := by
  unfold allocation
  split
  · exact h.cost_isMoney
  · exact money_isMoney _

/-- Rounding the proportional part never takes more than the lot still costs,
because the cost itself is already rounded. -/
theorem allocation_le (h : lot.Valid) {take : ℤ} (hnonneg : 0 ≤ take)
    (hle : take ≤ lot.remainingQuantity) : lot.allocation take ≤ lot.remainingCost := by
  unfold allocation
  split
  · exact le_rfl
  · rename_i hpart
    have hpos : (0 : ℚ) < lot.remainingQuantity := by
      have : 0 < lot.remainingQuantity := by omega
      exact_mod_cast this
    have htake : (take : ℚ) ≤ lot.remainingQuantity := by exact_mod_cast hle
    have hshare : lot.remainingCost * take / lot.remainingQuantity ≤ lot.remainingCost := by
      rw [div_le_iff₀ hpos]
      exact mul_le_mul_of_nonneg_left htake h.cost_nonneg
    calc money (lot.remainingCost * take / lot.remainingQuantity)
        ≤ money lot.remainingCost := money_mono hshare
      _ = lot.remainingCost := money_of_isMoney h.cost_isMoney

theorem reduce_cost (h : lot.Valid) (take : ℤ) :
    (lot.reduce take).remainingCost = lot.remainingCost - lot.allocation take :=
  money_of_isMoney (h.cost_isMoney.sub (allocation_isMoney h take))

theorem reduce_valid (h : lot.Valid) {take : ℤ} (hnonneg : 0 ≤ take)
    (hle : take ≤ lot.remainingQuantity) : (lot.reduce take).Valid := by
  have hcost := reduce_cost h take
  refine ⟨?_, ?_, ?_, ?_, ?_⟩
  · change 0 ≤ lot.remainingQuantity - take
    omega
  · have := h.remaining_le
    change lot.remainingQuantity - take ≤ lot.quantity
    omega
  · rw [hcost]
    exact h.cost_isMoney.sub (allocation_isMoney h take)
  · rw [hcost]
    linarith [allocation_le h hnonneg hle]
  · intro hempty
    have hall : take = lot.remainingQuantity := by
      change lot.remainingQuantity - take = 0 at hempty
      omega
    rw [hcost, allocation, if_pos hall, sub_self]

theorem allocation_zero (h : lot.Valid) : lot.allocation 0 = 0 := by
  unfold allocation
  split
  · rename_i hempty
    exact h.cost_zero hempty.symm
  · simp [money_of_isMoney (Rounding.onGrid_zero moneyScale)]

theorem reduce_zero (h : lot.Valid) : lot.reduce 0 = lot := by
  have hcost := reduce_cost h 0
  rw [allocation_zero h, sub_zero] at hcost
  cases lot
  simp only [reduce, sub_zero, mk.injEq, true_and, and_true]
  exact hcost

end Lot

/-! ### Selling from the lots -/

def sellable (date : D) (symbol : Symbol) (lot : Lot D) : Bool :=
  lot.symbol = symbol ∧ lot.availableFrom ≤ date

/-- What each lot gives to a sale. -/
def soldFrom (date : D) (symbol : Symbol) (lots : List (Lot D)) (need : ℤ) : List ℤ :=
  Fifo.draw (sellable date symbol) (·.remainingQuantity) lots need

/-- The loop body takes the first-in-first-out share of the first lot and goes
on with the rest; a skipped lot is one that gives nothing. -/
theorem sellLots_cons (date : D) (symbol : Symbol) (lot : Lot D) (rest : List (Lot D))
    {need : ℤ} {basis : ℚ} (hlot : lot.Valid) (hneed : 0 ≤ need) (hbasis : IsMoney basis) :
    sellLots date symbol (lot :: rest) need basis =
      let take := Fifo.drawOne (sellable date symbol) (·.remainingQuantity) lot need
      let next := sellLots date symbol rest (need - take) (basis + lot.allocation take)
      (lot.reduce take :: next.1, next.2) := by
  have hremaining := hlot.remaining_nonneg
  simp only [sellLots]
  split
  · rename_i hskip
    have hnone : Fifo.drawOne (sellable date symbol) (·.remainingQuantity) lot need = 0 := by
      unfold Fifo.drawOne
      split
      · rename_i hsellable
        simp only [sellable, decide_eq_true_eq] at hsellable
        change min lot.remainingQuantity need = 0
        rcases hskip with h | h | h | h
        · exact absurd hsellable.1 h
        · exact absurd hsellable.2 (not_le.mpr h)
        · omega
        · omega
      · rfl
    simp only [hnone, Lot.reduce_zero hlot, Lot.allocation_zero hlot, sub_zero, add_zero]
  · rename_i htake
    push Not at htake
    have hsellable : sellable date symbol lot = true := by
      simp [sellable, htake.1, htake.2.1]
    have hdraw : Fifo.drawOne (sellable date symbol) (·.remainingQuantity) lot need =
        min lot.remainingQuantity need := by
      rw [Fifo.drawOne, if_pos hsellable]
    simp only [hdraw, money_of_isMoney (hbasis.add (Lot.allocation_isMoney hlot _))]

/-- What a sale does to the lots: `sold` shares leave the sellable lots of the
symbol, and their cost becomes the cost basis. -/
structure Sold (date : D) (symbol : Symbol) (lots lots' : List (Lot D)) (sold : ℤ)
    (basis : ℚ) : Prop where
  valid : ∀ lot ∈ lots', lot.Valid
  basis_isMoney : IsMoney basis
  cost : costOf lots' + basis = costOf lots
  shares_of_superset : ∀ select : Symbol → D → Bool,
    (∀ s d, s = symbol → d ≤ date → select s d = true) →
    sharesWhere (fun lot => select lot.symbol lot.availableFrom) lots' =
      sharesWhere (fun lot => select lot.symbol lot.availableFrom) lots - sold
  shares_of_disjoint : ∀ select : Symbol → D → Bool,
    (∀ s d, s = symbol → d ≤ date → select s d = false) →
    sharesWhere (fun lot => select lot.symbol lot.availableFrom) lots' =
      sharesWhere (fun lot => select lot.symbol lot.availableFrom) lots

omit [LinearOrder D] in
theorem sharesWhere_cons (select : Lot D → Bool) (lot : Lot D) (lots : List (Lot D)) :
    sharesWhere select (lot :: lots) =
      (if select lot then lot.remainingQuantity else 0) + sharesWhere select lots :=
  Fifo.eligibleTotal_cons _ _ _ _

theorem sellLots_sold (date : D) (symbol : Symbol) (lots : List (Lot D)) (need : ℤ)
    (basis : ℚ) (hlots : ∀ lot ∈ lots, lot.Valid) (hneed : 0 ≤ need)
    (hbasis : IsMoney basis) :
    Sold date symbol lots (sellLots date symbol lots need basis).1
        (soldFrom date symbol lots need).sum
        ((sellLots date symbol lots need basis).2.2 - basis) ∧
      (sellLots date symbol lots need basis).2.1 =
        need - (soldFrom date symbol lots need).sum := by
  induction lots generalizing need basis with
  | nil =>
      have hzero : IsMoney (basis - basis) := hbasis.sub hbasis
      refine ⟨⟨by simp [sellLots], by simpa [sellLots] using hzero, ?_, ?_, ?_⟩, ?_⟩ <;>
        simp [sellLots, soldFrom, Fifo.draw, costOf, sharesWhere, Fifo.eligibleTotal]
  | cons lot rest ih =>
      have hlot := hlots lot (by simp)
      have hrest : ∀ l ∈ rest, l.Valid := fun l hl => hlots l (by simp [hl])
      rw [sellLots_cons date symbol lot rest hlot hneed hbasis]
      rw [soldFrom, Fifo.draw, List.sum_cons, ← soldFrom]
      generalize htake :
        Fifo.drawOne (sellable date symbol) (·.remainingQuantity) lot need = take
      have hnonneg : 0 ≤ take :=
        htake ▸ Fifo.drawOne_nonneg _ _ lot hlot.remaining_nonneg hneed
      have hheld : take ≤ lot.remainingQuantity :=
        htake ▸ Fifo.drawOne_le_held _ _ lot need hlot.remaining_nonneg
      have hleft : 0 ≤ need - take := by
        have := htake ▸ Fifo.drawOne_le_need (sellable date symbol)
          (fun l : Lot D => l.remainingQuantity) lot hneed
        omega
      have hallocation := Lot.allocation_isMoney hlot take
      obtain ⟨hsold, hremaining⟩ := ih (need - take) (basis + lot.allocation take) hrest
        hleft (hbasis.add hallocation)
      refine ⟨⟨?_, ?_, ?_, ?_, ?_⟩, ?_⟩
      · intro l hl
        rcases List.mem_cons.mp hl with rfl | hl
        · exact Lot.reduce_valid hlot hnonneg hheld
        · exact hsold.valid l hl
      · have h := hsold.basis_isMoney.add hallocation
        convert h using 1
        ring
      · have h := hsold.cost
        have hcost := Lot.reduce_cost hlot take
        simp only [costOf, List.map_cons, List.sum_cons, hcost] at h ⊢
        linarith
      · intro select hselect
        have h := hsold.shares_of_superset select hselect
        rw [sharesWhere_cons, sharesWhere_cons, h]
        change (if select lot.symbol lot.availableFrom then lot.remainingQuantity - take
          else 0) + _ = _
        split
        · ring
        · rename_i hout
          -- A lot outside the selection is not sellable, so it gave nothing.
          have hnone : take = 0 := by
            rw [← htake, Fifo.drawOne, if_neg]
            intro hsellable
            simp only [sellable, decide_eq_true_eq] at hsellable
            exact hout (hselect _ _ hsellable.1 hsellable.2)
          rw [hnone]
          ring
      · intro select hselect
        have h := hsold.shares_of_disjoint select hselect
        rw [sharesWhere_cons, sharesWhere_cons, h]
        change (if select lot.symbol lot.availableFrom then lot.remainingQuantity - take
          else 0) + _ = _
        split
        · rename_i hin
          have hnone : take = 0 := by
            rw [← htake, Fifo.drawOne, if_neg]
            intro hsellable
            simp only [sellable, decide_eq_true_eq] at hsellable
            rw [hselect _ _ hsellable.1 hsellable.2] at hin
            cases hin
          rw [hnone, sub_zero]
        · rfl
      · rw [hremaining]
        ring

/-! ### The invariant of the loop -/

/-- The state reached by the loop after the fills `events`. -/
structure Books (config : LedgerConfig D) (events : List (FillEvent D))
    (state : ReplayState D) : Prop where
  lots_valid : ∀ lot ∈ state.lots, lot.Valid
  cash_isMoney : IsMoney state.cash
  pnl_isMoney : IsMoney state.realizedPnl
  cash_eq : state.cash = config.balance events
  value_eq : state.cash + costOf state.lots = config.initialCash + state.realizedPnl
  shares_eq : ∀ symbol, sharesWhere (fun lot => lot.symbol = symbol) state.lots =
    boughtQuantity symbol events - soldQuantity symbol events
  available_eq : ∀ symbol date, (∀ event ∈ events, event.tradeDate ≤ date) →
    sharesWhere (fun lot => lot.symbol = symbol ∧ lot.availableFrom ≤ date) state.lots =
      config.releasedQuantity symbol date events - soldQuantity symbol events

omit [LinearOrder D] in
theorem sharesWhere_concat (select : Lot D → Bool) (lots : List (Lot D)) (lot : Lot D) :
    sharesWhere select (lots ++ [lot]) =
      sharesWhere select lots + if select lot then lot.remainingQuantity else 0 := by
  by_cases h : select lot <;> simp [sharesWhere, Fifo.eligibleTotal, h]

omit [LinearOrder D] in
theorem costOf_concat (lots : List (Lot D)) (lot : Lot D) :
    costOf (lots ++ [lot]) = costOf lots + lot.remainingCost := by
  simp [costOf]

section Quantities

variable (config : LedgerConfig D) (symbol : Symbol) (events : List (FillEvent D))
  {event : FillEvent D}

omit [LinearOrder D] in
theorem boughtQuantity_concat_buy (hside : event.side = .buy) :
    boughtQuantity symbol (events ++ [event]) =
      boughtQuantity symbol events + if event.symbol = symbol then event.quantity else 0 := by
  simp [boughtQuantity, quantityWhere_concat, hside]

omit [LinearOrder D] in
theorem boughtQuantity_concat_sell (hside : event.side = .sell) :
    boughtQuantity symbol (events ++ [event]) = boughtQuantity symbol events := by
  simp [boughtQuantity, quantityWhere_concat, hside]

omit [LinearOrder D] in
theorem soldQuantity_concat_buy (hside : event.side = .buy) :
    soldQuantity symbol (events ++ [event]) = soldQuantity symbol events := by
  simp [soldQuantity, quantityWhere_concat, hside]

omit [LinearOrder D] in
theorem soldQuantity_concat_sell (hside : event.side = .sell) :
    soldQuantity symbol (events ++ [event]) =
      soldQuantity symbol events + if event.symbol = symbol then event.quantity else 0 := by
  simp [soldQuantity, quantityWhere_concat, hside]

theorem releasedQuantity_concat_buy (date : D) (hside : event.side = .buy) :
    config.releasedQuantity symbol date (events ++ [event]) =
      config.releasedQuantity symbol date events +
        if event.symbol = symbol ∧ config.nextTradingDay event.tradeDate ≤ date then
          event.quantity else 0 := by
  simp [LedgerConfig.releasedQuantity, quantityWhere_concat, hside]

theorem releasedQuantity_concat_sell (date : D) (hside : event.side = .sell) :
    config.releasedQuantity symbol date (events ++ [event]) =
      config.releasedQuantity symbol date events := by
  simp [LedgerConfig.releasedQuantity, quantityWhere_concat, hside]

end Quantities

namespace LedgerConfig

variable {config : LedgerConfig D}

omit [LinearOrder D] in
theorem outlay_isMoney (event : FillEvent D) : IsMoney (config.outlay event) :=
  money_isMoney _

omit [LinearOrder D] in
theorem proceeds_isMoney (event : FillEvent D) : IsMoney (config.proceeds event) :=
  money_isMoney _

omit [LinearOrder D] in
theorem outlay_nonneg {event : FillEvent D} (h : 0 < event.notional) :
    0 ≤ config.outlay event :=
  money_nonneg (add_nonneg h.le
    (config.feeSchedule.total_nonneg event.side event.symbol h.le))

theorem books_start : Books config [] config.startState where
  lots_valid := by simp [startState]
  cash_isMoney := config.initialCash_isMoney
  pnl_isMoney := Rounding.onGrid_zero moneyScale
  cash_eq := by simp [startState]
  value_eq := by simp [startState, costOf]
  shares_eq := by
    intro symbol
    simp [startState, sharesWhere, Fifo.eligibleTotal, boughtQuantity, soldQuantity,
      quantityWhere]
  available_eq := by
    intro symbol date _
    simp [startState, sharesWhere, Fifo.eligibleTotal, releasedQuantity, soldQuantity,
      quantityWhere]

/-- A buy opens one lot whose cost is what leaves the cash. -/
theorem books_applyBuy {events : List (FillEvent D)} {state state' : ReplayState D}
    {event : FillEvent D} (hbooks : Books config events state) (hside : event.side = .buy)
    (hnotional : 0 < event.notional) (h : config.applyBuy state event = .ok state') :
    Books config (events ++ [event]) state' := by
  unfold LedgerConfig.applyBuy at h
  split at h
  · cases h
  cases h
  have houtlay : IsMoney (config.outlay event) := outlay_isMoney event
  have hcash : money (state.cash - config.outlay event) =
      state.cash - config.outlay event :=
    money_of_isMoney (hbooks.cash_isMoney.sub houtlay)
  refine ⟨?_, money_isMoney _, hbooks.pnl_isMoney, ?_, ?_, ?_, ?_⟩
  · intro lot hlot
    rcases List.mem_append.mp hlot with hlot | hlot
    · exact hbooks.lots_valid lot hlot
    · obtain rfl := List.mem_singleton.mp hlot
      refine ⟨event.quantity_pos.le, le_rfl, houtlay, outlay_nonneg hnotional, ?_⟩
      intro hempty
      exact absurd hempty event.quantity_pos.ne'
  · rw [balance_concat, ← hbooks.cash_eq, cashFlow, hside]
    linarith
  · have := hbooks.value_eq
    simp only [hcash, costOf_concat]
    linarith
  · intro symbol
    rw [sharesWhere_concat, hbooks.shares_eq, boughtQuantity_concat_buy symbol events hside,
      soldQuantity_concat_buy symbol events hside]
    simp only [decide_eq_true_eq]
    ring
  · intro symbol date hdates
    have hpast : ∀ e ∈ events, e.tradeDate ≤ date := fun e he => hdates e (by simp [he])
    rw [sharesWhere_concat, hbooks.available_eq symbol date hpast,
      releasedQuantity_concat_buy config symbol events date hside,
      soldQuantity_concat_buy symbol events hside]
    simp only [decide_eq_true_eq]
    ring

/-- A sale moves the cost of the sold shares from the lots to realized profit. -/
theorem books_applySell {events : List (FillEvent D)} {state state' : ReplayState D}
    {event : FillEvent D} (hbooks : Books config events state) (hside : event.side = .sell)
    (h : config.applySell state event = .ok state') :
    Books config (events ++ [event]) state' := by
  obtain ⟨hsold, hremaining⟩ := sellLots_sold event.tradeDate event.symbol state.lots
    event.quantity 0 hbooks.lots_valid event.quantity_pos.le (Rounding.onGrid_zero moneyScale)
  unfold LedgerConfig.applySell at h
  dsimp only at h
  split at h
  · cases h
  cases h
  rename_i hall
  have hquantity : (soldFrom event.tradeDate event.symbol state.lots event.quantity).sum =
      event.quantity := by
    omega
  rw [hquantity, sub_zero] at hsold
  generalize sellLots event.tradeDate event.symbol state.lots event.quantity 0 = sold at *
  have hproceeds : IsMoney (config.proceeds event) := proceeds_isMoney event
  have hcash : money (state.cash + config.proceeds event) =
      state.cash + config.proceeds event :=
    money_of_isMoney (hbooks.cash_isMoney.add hproceeds)
  have hpnl : money (state.realizedPnl + config.proceeds event - sold.2.2) =
      state.realizedPnl + config.proceeds event - sold.2.2 :=
    money_of_isMoney ((hbooks.pnl_isMoney.add hproceeds).sub hsold.basis_isMoney)
  refine ⟨hsold.valid, money_isMoney _, money_isMoney _, ?_, ?_, ?_, ?_⟩
  · rw [balance_concat, ← hbooks.cash_eq, cashFlow, hside]
    exact hcash
  · have hvalue := hbooks.value_eq
    have hcost := hsold.cost
    simp only [hcash, hpnl]
    linarith
  · intro symbol
    rw [boughtQuantity_concat_sell symbol events hside,
      soldQuantity_concat_sell symbol events hside]
    have hshares := hbooks.shares_eq symbol
    split
    · rename_i hsymbol
      have := hsold.shares_of_superset (fun s _ => s = symbol) (by
        intro s d hs _
        simp [hs, hsymbol])
      dsimp only at this ⊢
      omega
    · rename_i hother
      have := hsold.shares_of_disjoint (fun s _ => s = symbol) (by
        intro s d hs _
        simp [hs, hother])
      dsimp only at this ⊢
      omega
  · intro symbol date hdates
    have hpast : ∀ e ∈ events, e.tradeDate ≤ date := fun e he => hdates e (by simp [he])
    have hdate : event.tradeDate ≤ date := hdates event (by simp)
    rw [releasedQuantity_concat_sell config symbol events date hside,
      soldQuantity_concat_sell symbol events hside]
    have havailable := hbooks.available_eq symbol date hpast
    split
    · rename_i hsymbol
      have := hsold.shares_of_superset (fun s d => s = symbol ∧ d ≤ date) (by
        intro s d hs hd
        simp [hs, hsymbol, hd.trans hdate])
      dsimp only at this ⊢
      omega
    · rename_i hother
      have := hsold.shares_of_disjoint (fun s d => s = symbol ∧ d ≤ date) (by
        intro s d hs _
        simp [hs, hother])
      dsimp only at this ⊢
      omega

/-! ### The whole replay -/

theorem calculate_ok_iff (schedule : FeeSchedule) (side : TradeSide) (symbol : Symbol)
    (notional : ℚ) :
    (∃ fees, schedule.calculate side symbol notional = .ok fees) ↔ 0 < notional := by
  unfold FeeSchedule.calculate
  split
  · rename_i h
    simp [not_lt.mpr h]
  · rename_i h
    simp [not_le.mp h]

/-- What a successful round of the loop does. -/
theorem replayStep_ok {state state' : ReplayState D} {event : FillEvent D}
    (h : config.replayStep state event = .ok state') :
    0 < event.notional ∧
      (event.side = .buy ∧ config.applyBuy state event = .ok state' ∨
        event.side = .sell ∧ config.applySell state event = .ok state') := by
  unfold replayStep at h
  split at h
  · cases h
  · rename_i fees hfees
    refine ⟨(calculate_ok_iff _ _ _ _).mp ⟨fees, hfees⟩, ?_⟩
    split at h
    · rename_i hside
      exact .inl ⟨hside, h⟩
    · rename_i hside
      exact .inr ⟨hside, h⟩

/-- A round succeeds exactly when the fill has a positive notional and the
account covers it, once no fill before it is of a later date. -/
theorem replayStep_ok_iff {events : List (FillEvent D)} {state : ReplayState D}
    {event : FillEvent D} (hbooks : Books config events state)
    (hdates : ∀ e ∈ events, e.tradeDate ≤ event.tradeDate) :
    (∃ state', config.replayStep state event = .ok state') ↔
      0 < event.notional ∧ config.Covered events event := by
  unfold replayStep
  split
  · rename_i error herror
    have hnotional : ¬ 0 < event.notional := by
      intro hpos
      obtain ⟨fees, hfees⟩ := (calculate_ok_iff config.feeSchedule event.side event.symbol
        event.notional).mpr hpos
      rw [hfees] at herror
      cases herror
    simp [hnotional]
  · rename_i fees hfees
    have hnotional : 0 < event.notional := (calculate_ok_iff _ _ _ _).mp ⟨fees, hfees⟩
    simp only [hnotional, true_and]
    split
    · rename_i hside
      simp only [Covered, hside, applyBuy, ← hbooks.cash_eq]
      split
      · rename_i hshort
        simp [hshort]
      · rename_i henough
        simp [not_lt.mp henough]
    · rename_i hside
      obtain ⟨_, hremaining⟩ := sellLots_sold event.tradeDate event.symbol state.lots
        event.quantity 0 hbooks.lots_valid event.quantity_pos.le
        (Rounding.onGrid_zero moneyScale)
      have hdrawn := Fifo.sum_draw (sellable event.tradeDate event.symbol)
        (fun lot : Lot D => lot.remainingQuantity) state.lots event.quantity
        event.quantity_pos.le (fun lot hlot => (hbooks.lots_valid lot hlot).remaining_nonneg)
      have havailable := hbooks.available_eq event.symbol event.tradeDate hdates
      have hsame : Fifo.eligibleTotal (sellable event.tradeDate event.symbol)
          (fun lot : Lot D => lot.remainingQuantity) state.lots =
          config.releasedQuantity event.symbol event.tradeDate events -
            soldQuantity event.symbol events := havailable
      rw [hsame] at hdrawn
      change (soldFrom event.tradeDate event.symbol state.lots event.quantity).sum = _ at hdrawn
      simp only [Covered, hside, applySell]
      split
      · rename_i hshort
        simp only [reduceCtorEq, exists_false, false_iff, not_le]
        omega
      · rename_i hall
        simp only [Except.ok.injEq, exists_eq', true_iff]
        omega

theorem books_replayStep {events : List (FillEvent D)} {state state' : ReplayState D}
    {event : FillEvent D} (hbooks : Books config events state)
    (h : config.replayStep state event = .ok state') :
    Books config (events ++ [event]) state' := by
  obtain ⟨hnotional, ⟨hside, hbuy⟩ | ⟨hside, hsell⟩⟩ := replayStep_ok h
  · exact books_applyBuy hbooks hside hnotional hbuy
  · exact books_applySell hbooks hside hsell

theorem replay_nil : config.replay [] = .ok config.startState := rfl

theorem replay_concat_ok_iff (events : List (FillEvent D)) (event : FillEvent D)
    (state' : ReplayState D) :
    config.replay (events ++ [event]) = .ok state' ↔
      ∃ state, config.replay events = .ok state ∧
        config.replayStep state event = .ok state' := by
  unfold replay
  rw [List.foldlM_append]
  cases hfront : events.foldlM config.replayStep config.startState with
  | error error =>
      simp only [bind, Except.bind, reduceCtorEq, false_and, exists_false]
  | ok state =>
      simp only [bind, Except.bind, List.foldlM_cons, List.foldlM_nil, pure, Except.pure,
        Except.ok.injEq, exists_eq_left']
      cases config.replayStep state event with
      | error error => simp
      | ok next => simp

theorem replay_books {events : List (FillEvent D)} {state : ReplayState D}
    (h : config.replay events = .ok state) : Books config events state := by
  induction events using List.reverseRecOn generalizing state with
  | nil =>
      cases h
      exact books_start
  | append_singleton events event ih =>
      obtain ⟨before, hbefore, hstep⟩ := (replay_concat_ok_iff events event state).mp h
      exact books_replayStep (ih hbefore) hstep

/-- The replay of fills in date order succeeds exactly on the valid accounts. -/
theorem replay_ok_iff (events : List (FillEvent D))
    (hsorted : events.Pairwise fun a b => a.tradeDate ≤ b.tradeDate) :
    (∃ state, config.replay events = .ok state) ↔ config.ValidAccount events := by
  induction events using List.reverseRecOn with
  | nil => exact ⟨fun _ => validAccount_nil, fun _ => ⟨_, replay_nil⟩⟩
  | append_singleton events event ih =>
      obtain ⟨hfront, -, hlast⟩ := List.pairwise_append.mp hsorted
      have hdates : ∀ e ∈ events, e.tradeDate ≤ event.tradeDate :=
        fun e he => hlast e he event (by simp)
      rw [validAccount_concat, ← ih hfront]
      constructor
      · rintro ⟨state', h⟩
        obtain ⟨state, hstate, hstep⟩ := (replay_concat_ok_iff events event state').mp h
        exact ⟨⟨state, hstate⟩,
          (replayStep_ok_iff (replay_books hstate) hdates).mp ⟨state', hstep⟩⟩
      · rintro ⟨⟨state, hstate⟩, hcovered⟩
        obtain ⟨state', hstep⟩ :=
          (replayStep_ok_iff (replay_books hstate) hdates).mpr hcovered
        exact ⟨state', (replay_concat_ok_iff events event state').mpr ⟨state, hstate, hstep⟩⟩

end LedgerConfig

end QuantWorkbench.Account
