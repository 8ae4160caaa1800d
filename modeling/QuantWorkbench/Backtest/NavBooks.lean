import QuantWorkbench.Backtest.PositionBooks

/-!
The books of a run. Costs are taken from the net value as a factor, from the returns as a summand,
and as a part of the initial capital; a day on which these are not the same does not balance.
-/

namespace QuantWorkbench.Backtest

open Lib

namespace ReferenceLoop

variable (b : ReferenceLoop)

/-! ### Fees -/

def rowFees (model : CostModel) (row : OrderRow) : ℚ :=
  match row.executionPrice, row.filledQuantity with
  | some price, some quantity =>
      (model.estimate row.side price quantity).toOption.elim 0 FeeBreakdown.total
  | _, _ => 0

/-- The fees of the filled orders among some. -/
def feesOf (model : CostModel) (orders : List OrderRow) : ℚ :=
  ((orders.filter OrderRow.filled).map (rowFees model)).sum

def costOf (orders : List OrderRow) : ℚ := (orders.map OrderRow.estimatedCost).sum

variable {b}

theorem cost_orderRow {model : CostModel} {initialCapital : ℚ}
    (hcapital : b.capital = some (model, initialCapital)) {day : Date} {event : Event}
    {held : Weights} {nav : ℚ} {symbol : Text} {row : OrderRow}
    (h : b.orderRow day event held nav symbol = .ok row) :
    row.estimatedCost = (if row.filled = true then rowFees model row else 0) / initialCapital := by
  obtain ⟨bar, hbar, h⟩ := bind_eq_ok_iff.mp h
  obtain ⟨fill, hfill, h⟩ := bind_eq_ok_iff.mp h
  cases h
  unfold blockOrFill at hfill
  split at hfill
  · cases hfill
    exact (zero_div _).symm
  · unfold ReferenceLoop.fill at hfill
    rw [hcapital] at hfill
    obtain ⟨price, hprice, hfill⟩ := bind_eq_ok_iff.mp hfill
    obtain ⟨_, _, hfill⟩ := bind_eq_ok_iff.mp hfill
    obtain ⟨quantity, hquantity, hfill⟩ := bind_eq_ok_iff.mp hfill
    unfold fillLots at hfill
    split at hfill
    · cases hfill
      exact (zero_div _).symm
    · obtain ⟨fees, hfees, hfill⟩ := bind_eq_ok_iff.mp hfill
      cases hfill
      simp only [OrderRow.filled, rowFees, orRaise_eq_ok_iff.mp hprice, hfees]
      rfl

theorem cost_ordersOf {model : CostModel} {initialCapital : ℚ}
    (hcapital : b.capital = some (model, initialCapital)) {day : Date} {event : Event}
    {held : Weights} {nav : ℚ} {orders : List OrderRow}
    (h : b.ordersOf day event held nav = .ok orders) :
    costOf orders = feesOf model orders / initialCapital := by
  obtain ⟨made, hmade, h⟩ := bind_eq_ok_iff.mp h
  cases h
  have hrow : ∀ row ∈ made.filterMap id, row.estimatedCost =
      (if row.filled = true then rowFees model row else 0) / initialCapital := by
    intro row hrow
    obtain ⟨order, horder, rfl⟩ := List.mem_filterMap.mp hrow
    obtain ⟨symbol, _, hsymbol⟩ := mem_of_mapM_ok hmade horder
    unfold orderOf at hsymbol
    split at hsymbol
    · cases hsymbol
    · cases hrun : b.orderRow day event held nav symbol with
      | error error =>
          rw [hrun] at hsymbol
          cases hsymbol
      | ok made =>
          rw [hrun] at hsymbol
          cases hsymbol
          exact cost_orderRow hcapital hrun
  rw [costOf, feesOf]
  generalize made.filterMap id = orders at hrow
  clear hmade
  induction orders with
  | nil => exact (zero_div _).symm
  | cons row rest ih =>
      have hrest := ih fun other hother => hrow other (List.mem_cons_of_mem row hother)
      rw [List.map_cons, List.sum_cons, hrest, hrow row List.mem_cons_self, ← add_div]
      by_cases hfilled : row.filled = true
      · rw [List.filter_cons_of_pos hfilled, if_pos hfilled, List.map_cons, List.sum_cons]
      · rw [List.filter_cons_of_neg hfilled, if_neg hfilled, zero_add]

theorem cost_rebalance {model : CostModel} {initialCapital : ℚ}
    (hcapital : b.capital = some (model, initialCapital)) {day : Date} {state : ReferenceState}
    {orders : List OrderRow} {held : Weights} (h : b.rebalance day state = .ok (orders, held)) :
    costOf orders = feesOf model orders / initialCapital := by
  unfold rebalance at h
  split at h
  · cases h
    exact (zero_div _).symm
  · obtain ⟨made, hmade, h⟩ := bind_eq_ok_iff.mp h
    cases h
    exact cost_ordersOf hcapital hmade

/-! ### Balanced days -/

/-- The net value after a day is the one before with the day's return, unless that is negative, and
with a capital it is the capital before, less the fees, with the gross return. -/
structure Reconciles (b : ReferenceLoop) (day : Date) (state state' : ReferenceState) : Prop where
  returns : ∀ earned, state'.returns = state.returns ++ [earned] →
    0 ≤ state.nav * (1 + earned) → state'.nav = state.nav * (1 + earned)
  fees : ∀ model initialCapital, b.capital = some (model, initialCapital) → 0 < initialCapital →
    initialCapital * state'.nav =
      (initialCapital * state.nav - feesOf model (newOrders state state')) *
        (1 + b.grossReturn day state.previousClose state'.held)

/-- A cost of the day that is no more than all of it, on a day without a return; or one that loses
what the day returns. -/
def CostsApart (nav cost gross : ℚ) : Prop :=
  nav * (1 + (gross - cost)) < 0 ∨ nav = 0 ∨ cost ≤ 1 ∧ cost * gross = 0 ∨
    1 < cost ∧ cost = 1 + gross

/-- A cost of the day that is the same part of the initial capital and of the current one. -/
def CapitalUnmoved (nav cost gross : ℚ) : Prop :=
  gross = -1 ∨ cost ≤ 1 ∧ (cost = 0 ∨ nav = 1) ∨ 1 < cost ∧ nav = cost

/-- The state before a day lets it balance. -/
def Balances (b : ReferenceLoop) (day : Date) (state : ReferenceState) : Prop :=
  ∀ orders held, b.rebalance day state = .ok (orders, held) →
    CostsApart state.nav (costOf orders) (b.grossReturn day state.previousClose held) ∧
      ∀ model initialCapital, b.capital = some (model, initialCapital) → 0 < initialCapital →
        CapitalUnmoved state.nav (costOf orders) (b.grossReturn day state.previousClose held)

theorem costsApart_iff (nav cost gross : ℚ) :
    (0 ≤ nav * (1 + (gross - cost)) →
      nav * (max 0 (1 - cost) * (1 + gross)) = nav * (1 + (gross - cost))) ↔
        CostsApart nav cost gross := by
  have hfactor : nav * (max 0 (1 - cost) * (1 + gross)) = nav * (1 + (gross - cost)) ↔
      nav = 0 ∨ cost ≤ 1 ∧ cost * gross = 0 ∨ 1 < cost ∧ cost = 1 + gross := by
    rw [mul_eq_mul_left_iff, or_comm]
    refine or_congr_right ?_
    rcases le_or_gt cost 1 with hle | hgt
    · rw [max_eq_right (sub_nonneg.mpr hle)]
      constructor
      · intro h
        exact Or.inl ⟨hle, by linarith⟩
      · rintro (⟨_, h⟩ | ⟨hgt, _⟩)
        · linarith
        · exact absurd hle hgt.not_ge
    · rw [max_eq_left (sub_nonpos.mpr hgt.le), zero_mul]
      constructor
      · intro h
        exact Or.inr ⟨hgt, by linarith⟩
      · rintro (⟨hle, _⟩ | ⟨_, h⟩)
        · exact absurd hle hgt.not_ge
        · linarith
  rw [hfactor, imp_iff_not_or, not_le]
  exact Iff.rfl

theorem capitalUnmoved_iff {initialCapital : ℚ} (hpos : 0 < initialCapital)
    (nav cost gross : ℚ) :
    initialCapital * (nav * (max 0 (1 - cost) * (1 + gross))) =
        (initialCapital * nav - initialCapital * cost) * (1 + gross) ↔
      CapitalUnmoved nav cost gross := by
  have hcommon : initialCapital * (nav * (max 0 (1 - cost) * (1 + gross))) =
        (initialCapital * nav - initialCapital * cost) * (1 + gross) ↔
      (1 + gross) * (nav * max 0 (1 - cost)) = (1 + gross) * (nav - cost) := by
    constructor
    · intro h
      apply mul_left_cancel₀ hpos.ne'
      linarith
    · intro h
      linear_combination initialCapital * h
  rw [hcommon, mul_eq_mul_left_iff, CapitalUnmoved, or_comm]
  have hgross : 1 + gross = 0 ↔ gross = -1 :=
    ⟨fun h => by linarith, fun h => by linarith⟩
  refine or_congr hgross ?_
  rcases le_or_gt cost 1 with hle | hgt
  · rw [max_eq_right (sub_nonneg.mpr hle)]
    constructor
    · intro h
      refine Or.inl ⟨hle, ?_⟩
      have hproduct : cost * (nav - 1) = 0 := by linarith
      exact (mul_eq_zero.mp hproduct).imp_right fun h => by linarith
    · rintro (⟨_, rfl | rfl⟩ | ⟨hgt, _⟩)
      · ring
      · ring
      · exact absurd hle hgt.not_ge
  · rw [max_eq_left (sub_nonpos.mpr hgt.le), mul_zero]
    constructor
    · intro h
      exact Or.inr ⟨hgt, by linarith⟩
    · rintro (⟨hle, _⟩ | ⟨_, rfl⟩)
      · exact absurd hle hgt.not_ge
      · ring

theorem reconciles_iff {day : Date} {state state' : ReferenceState}
    (h : b.day state day = .ok state') : b.Reconciles day state state' ↔ b.Balances day state := by
  obtain ⟨⟨orders, held⟩, hrebalance, h⟩ := bind_eq_ok_iff.mp h
  cases h
  have hnew : newOrders state (b.settle day state orders held) = orders :=
    List.drop_left
  have hparts : ∀ {model : CostModel} {initialCapital : ℚ},
      b.capital = some (model, initialCapital) → 0 < initialCapital →
        initialCapital * costOf orders = feesOf model orders := by
    intro model initialCapital hcapital hpos
    rw [cost_rebalance hcapital hrebalance, mul_div_cancel₀ _ hpos.ne']
  constructor
  · intro hreconciles orders' held' hsame
    cases hrebalance.symm.trans hsame
    refine ⟨(costsApart_iff _ _ _).mp (hreconciles.returns _ rfl), ?_⟩
    intro model initialCapital hcapital hpos
    refine (capitalUnmoved_iff hpos _ _ _).mp ?_
    have hfees := hreconciles.fees model initialCapital hcapital hpos
    rw [hnew, ← hparts hcapital hpos] at hfees
    exact hfees
  · intro hbalances
    obtain ⟨hcosts, hmoved⟩ := hbalances orders held hrebalance
    refine ⟨fun earned hearned => ?_, fun model initialCapital hcapital hpos => ?_⟩
    · cases List.append_cancel_left hearned
      exact (costsApart_iff _ _ _).mpr hcosts
    · rw [hnew, ← hparts hcapital hpos]
      exact (capitalUnmoved_iff hpos _ _ _).mpr (hmoved model initialCapital hcapital hpos)

/-! ### Runs -/

def RunReconciles (b : ReferenceLoop) (run : Except String ReferenceState) (day : Date) : Prop :=
  ∀ state state', run = .ok state → b.step run day = .ok state' → b.Reconciles day state state'

def RunBalances (b : ReferenceLoop) (run : Except String ReferenceState) (day : Date) : Prop :=
  ∀ state state', run = .ok state → b.step run day = .ok state' → b.Balances day state

end ReferenceLoop

section Sample

def eveDay : Date := .of 2026 8 7

/-- Half of the capital is bought for a fee of a thousandth, on a day that returns a tenth. -/
def risingLoop : ReferenceLoop where
  bars := [{ backtestBar with date := eveDay }, { backtestBar with close := 11 }]
  events := fun day => if day = backtestDay then some {
    signalDate := eveDay
    executionDate := backtestDay
    execution := ⟨0, 1 / 1000, 0, true, true⟩
    targets := (Keyed.empty : Weights).put ("000001".toList, 1 / 2) } else none
  capital := none
  currentPositions := Keyed.empty

end Sample

end QuantWorkbench.Backtest
