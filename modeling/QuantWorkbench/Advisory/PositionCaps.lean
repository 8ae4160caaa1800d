import Mathlib
import QuantWorkbench.Advisory.Risk

/-!
What an allowed assessment guarantees about the portfolio after the purchase.
The suggested quantity is a whole number of lots below six capacities. Three of
them are the limits themselves; the single-name, gross and industry capacities
are not: the first ignores what is already held, the other two subtract an
exposure that was rounded down. `LotsFit` says when the difference does not
reach the next whole lot, and then the limits hold.
-/

namespace QuantWorkbench.Advisory

open Lib Data

def PortfolioRiskSnapshot.heldValue (portfolio : PortfolioRiskSnapshot)
    (symbol : Text) : ℚ :=
  portfolio.marketValueWhere fun item => normalizeSymbol symbol = some item.symbol

/-- Market value held in the industry the new position would be booked under. -/
def PortfolioRiskSnapshot.industryValue (portfolio : PortfolioRiskSnapshot)
    (industry : Text) : ℚ :=
  portfolio.marketValueWhere fun item => item.industry = Text.strip industry

def PortfolioRiskSnapshot.totalValue (portfolio : PortfolioRiskSnapshot) : ℚ :=
  (portfolio.positions.map (·.marketValue)).sum

/-- The portfolio limits after `quantity` shares are bought at `price`. -/
structure RespectsCaps (policy : RiskPolicy) (portfolio : PortfolioRiskSnapshot)
    (symbol industry : Text) (price invalidation grossCap : ℚ) (quantity : ℤ) :
    Prop where
  singleName : portfolio.heldValue symbol + quantity * price ≤
    policy.absoluteSingleNameCap * portfolio.equity
  initialPosition : quantity * price ≤ policy.initialPositionCap * portfolio.equity
  gross : portfolio.totalValue + quantity * price ≤ grossCap * portfolio.equity
  industry : portfolio.industryValue industry + quantity * price ≤
    policy.industryCap * portfolio.equity
  cashReserve : policy.minimumCashReserve * portfolio.equity ≤
    portfolio.cash - quantity * price
  plannedRisk : quantity * (price - invalidation) ≤
    policy.plannedRiskPerPosition * portfolio.equity

def RiskPolicy.lotCost (policy : RiskPolicy) (price : ℚ) : ℚ :=
  policy.lotSize * price

/-- The smallest whole number of lots whose cost exceeds `room` also exceeds one
of the capacities the quantity was sized by. -/
def LotsFit (policy : RiskPolicy) (portfolio : PortfolioRiskSnapshot)
    (industry : Text) (price invalidation grossCap room : ℚ) : Prop :=
  ∃ capacity ∈ capacities policy portfolio industry price invalidation grossCap,
    capacity * portfolio.equity <
      (⌊room / policy.lotCost price⌋ + 1) * policy.lotCost price

/-- The three limits that the capacities only approximate are respected by the
lots that the capacities admit. -/
structure CapacitiesSuffice (policy : RiskPolicy) (portfolio : PortfolioRiskSnapshot)
    (symbol industry : Text) (price invalidation grossCap : ℚ) : Prop where
  singleName : LotsFit policy portfolio industry price invalidation grossCap
    (policy.absoluteSingleNameCap * portfolio.equity - portfolio.heldValue symbol)
  gross : LotsFit policy portfolio industry price invalidation grossCap
    (grossCap * portfolio.equity - portfolio.totalValue)
  industry : LotsFit policy portfolio industry price invalidation grossCap
    (policy.industryCap * portfolio.equity - portfolio.industryValue industry)

theorem lotCost_pos (policy : RiskPolicy) {price : ℚ} (hprice : 0 < price) :
    0 < policy.lotCost price := by
  have h := policy.lotSize_pos
  have hlot : (0 : ℚ) < policy.lotSize := by exact_mod_cast h
  exact mul_pos hlot hprice

theorem targetWeight_le {policy : RiskPolicy} {portfolio : PortfolioRiskSnapshot}
    {industry : Text} {price invalidation grossCap capacity : ℚ}
    (hcapacity : capacity ∈
      capacities policy portfolio industry price invalidation grossCap) :
    targetWeight policy portfolio industry price invalidation grossCap ≤ capacity := by
  simp only [capacities, List.mem_cons, List.not_mem_nil, or_false] at hcapacity
  simp only [targetWeight, capacities, List.tail_cons, List.foldl_cons, List.foldl_nil]
  rcases hcapacity with rfl | rfl | rfl | rfl | rfl | rfl <;> simp

theorem targetWeight_mem (policy : RiskPolicy) (portfolio : PortfolioRiskSnapshot)
    (industry : Text) (price invalidation grossCap : ℚ) :
    targetWeight policy portfolio industry price invalidation grossCap ∈
      capacities policy portfolio industry price invalidation grossCap := by
  have hmin : ∀ (start : ℚ) (rest : List ℚ), rest.foldl min start ∈ start :: rest := by
    intro start rest
    induction rest generalizing start with
    | nil => simp
    | cons x xs ih =>
        rcases min_choice start x with h | h
        · have := ih start
          simp only [List.foldl_cons, h, List.mem_cons] at this ⊢
          tauto
        · have := ih x
          simp only [List.foldl_cons, h, List.mem_cons] at this ⊢
          tauto
  exact hmin _ _

/-- The cost of the suggested lots is the target weight's value, rounded down to
whole lots. -/
theorem cost_eq_lots {policy : RiskPolicy} {portfolio : PortfolioRiskSnapshot}
    {price weight : ℚ} (hprice : 0 < price) (hweight : 0 < weight) :
    ((wholeLots policy portfolio price weight * policy.lotSize : ℤ) : ℚ) * price =
      ⌊weight * portfolio.equity / policy.lotCost price⌋ * policy.lotCost price := by
  have hequity := portfolio.equity_pos
  have hraw : portfolio.equity * weight / price / policy.lotSize =
      weight * portfolio.equity / policy.lotCost price := by
    rw [RiskPolicy.lotCost, div_div, mul_comm price, mul_comm portfolio.equity]
  have hnonneg : 0 ≤ weight * portfolio.equity / policy.lotCost price :=
    div_nonneg (mul_pos hweight hequity).le (lotCost_pos policy hprice).le
  rw [wholeLots, hraw, Rounding.truncate_of_nonneg hnonneg, RiskPolicy.lotCost]
  push_cast
  ring

/-- The suggested lots fit in `room` exactly when one more lot than fits is more
than some capacity allows. -/
theorem cost_le_room_iff {policy : RiskPolicy} {portfolio : PortfolioRiskSnapshot}
    {industry : Text} {price invalidation grossCap weight : ℚ} (room : ℚ)
    (hprice : 0 < price) (hweight : 0 < weight)
    (htarget : weight =
      targetWeight policy portfolio industry price invalidation grossCap) :
    ((wholeLots policy portfolio price weight * policy.lotSize : ℤ) : ℚ) * price ≤ room ↔
      LotsFit policy portfolio industry price invalidation grossCap room := by
  have hcost := lotCost_pos policy hprice
  have hequity := portfolio.equity_pos
  have hbound : ∀ value : ℚ,
      value < (⌊room / policy.lotCost price⌋ + 1) * policy.lotCost price ↔
        ⌊value / policy.lotCost price⌋ ≤ ⌊room / policy.lotCost price⌋ := by
    intro value
    rw [← div_lt_iff₀ hcost, ← Int.lt_add_one_iff, Int.floor_lt]
    push_cast
    rfl
  have hlots : ((wholeLots policy portfolio price weight * policy.lotSize : ℤ) : ℚ) *
      price ≤ room ↔
      weight * portfolio.equity <
        (⌊room / policy.lotCost price⌋ + 1) * policy.lotCost price := by
    rw [hbound, cost_eq_lots hprice hweight, ← le_div_iff₀ hcost, Int.le_floor]
  rw [hlots]
  constructor
  · intro h
    exact ⟨weight, htarget ▸ targetWeight_mem .., h⟩
  · rintro ⟨capacity, hmember, hcapacity⟩
    have hle : weight ≤ capacity := htarget ▸ targetWeight_le hmember
    exact (mul_le_mul_of_nonneg_right hle hequity.le).trans_lt hcapacity

/-- The value bought never exceeds the value of the target weight. -/
theorem cost_le_weight {policy : RiskPolicy} {portfolio : PortfolioRiskSnapshot}
    {price weight : ℚ} (hprice : 0 < price) (hweight : 0 < weight) :
    ((wholeLots policy portfolio price weight * policy.lotSize : ℤ) : ℚ) * price ≤
      weight * portfolio.equity := by
  rw [cost_eq_lots hprice hweight, ← le_div_iff₀ (lotCost_pos policy hprice)]
  exact Int.floor_le _

/-- An allowed assessment respects every portfolio limit exactly when the three
approximate capacities admit no lot more than the limits behind them. -/
theorem newPosition_respects_caps_iff {policy : RiskPolicy}
    {portfolio : PortfolioRiskSnapshot} {symbol industry : Text}
    {price invalidation liquidity grossCap : ℚ} {regime : Text}
    {assessment : RiskAssessment}
    (hassess : assessNewPosition policy portfolio symbol industry price invalidation
      liquidity regime = .ok assessment)
    (hallowed : assessment.allowed = true)
    (hcap : policy.grossCapFor (regimeName regime) = .ok grossCap) :
    RespectsCaps policy portfolio symbol industry price invalidation grossCap
        assessment.suggestedQuantity ↔
      CapacitiesSuffice policy portfolio symbol industry price invalidation grossCap := by
  obtain ⟨cap, weight, hcap', htarget, hinvalidation, hbelow, hweight, hquantity⟩ :=
    assessNewPosition_allowed hassess hallowed
  obtain rfl : cap = grossCap := Except.ok.inj (hcap'.symm.trans hcap)
  have hprice : 0 < price := hinvalidation.trans hbelow
  have hequity := portfolio.equity_pos
  have hfit := fun room => cost_le_room_iff room hprice hweight htarget
  rw [← hquantity] at hfit
  constructor
  · intro respects
    exact ⟨(hfit _).mp (by linarith [respects.singleName]),
      (hfit _).mp (by linarith [respects.gross]),
      (hfit _).mp (by linarith [respects.industry])⟩
  · intro enough
    have hspent : (assessment.suggestedQuantity : ℚ) * price ≤
        weight * portfolio.equity := by
      rw [hquantity]
      exact cost_le_weight hprice hweight
    have hunder : ∀ capacity ∈
        capacities policy portfolio industry price invalidation cap,
        (assessment.suggestedQuantity : ℚ) * price ≤ capacity * portfolio.equity := by
      intro capacity hmember
      have hle : weight ≤ capacity := htarget ▸ targetWeight_le hmember
      exact hspent.trans (mul_le_mul_of_nonneg_right hle hequity.le)
    have hinitial := hunder policy.initialPositionCap (by simp [capacities])
    have hcash := hunder (portfolio.cash / portfolio.equity - policy.minimumCashReserve)
      (by simp [capacities])
    have hrisk := hunder (policy.plannedRiskPerPosition / (1 - invalidation / price))
      (by simp [capacities])
    have hdistance : 0 < 1 - invalidation / price := by
      rw [sub_pos, div_lt_one hprice]
      exact hbelow
    refine ⟨?_, hinitial, ?_, ?_, ?_, ?_⟩
    · linarith [(hfit _).mpr enough.singleName]
    · linarith [(hfit _).mpr enough.gross]
    · linarith [(hfit _).mpr enough.industry]
    · rw [sub_mul, div_mul_cancel₀ _ hequity.ne'] at hcash
      linarith
    · have hscaled := mul_le_mul_of_nonneg_right hrisk hdistance.le
      calc (assessment.suggestedQuantity : ℚ) * (price - invalidation)
          = assessment.suggestedQuantity * price * (1 - invalidation / price) := by
            field_simp
        _ ≤ policy.plannedRiskPerPosition / (1 - invalidation / price) *
              portfolio.equity * (1 - invalidation / price) := hscaled
        _ = policy.plannedRiskPerPosition * portfolio.equity := by
            rw [mul_right_comm, div_mul_cancel₀ _ hdistance.ne']

theorem drawdown_none : (0 : ℚ) ≤ 0 ∧ (0 : ℚ) < 1 := by norm_num

/-- A hundred thousand in equity with `held` of it already in one bank stock. -/
def bankPortfolio (held : ℚ) (hheld : 0 ≤ held) (hcash : held ≤ 100000) :
    PortfolioRiskSnapshot where
  equity := 100000
  cash := 100000 - held
  drawdown := 0
  positions := [{
    symbol := ⟨"000001".toList, Eq.refl true⟩
    marketValue := held
    industry := "银行".toList
    marketValue_nonneg := hheld
    industry_required := by decide
    industry_stripped := by decide }]
  equity_pos := by norm_num
  cash_nonneg := by linarith
  drawdown_range := drawdown_none

/-- Two more percent of a stock held at two percent stay inside every limit. -/
theorem smallHolding_respects_caps :
    RespectsCaps .conservative (bankPortfolio 2000 (by norm_num) (by norm_num))
      "000001".toList "银行".toList 10 (95 / 10) (70 / 100) 400 := by
  have hassess : assessNewPosition .conservative
      (bankPortfolio 2000 (by norm_num) (by norm_num)) "000001".toList "银行".toList 10
      (95 / 10) 100000000 "NORMAL".toList =
        .ok ⟨true, 4 / 100, 400, [.allRiskGatesPassed]⟩ := by decide +kernel
  refine (newPosition_respects_caps_iff hassess rfl (by decide +kernel)).mpr ⟨?_, ?_, ?_⟩
  · exact ⟨4 / 100, by simp [capacities, RiskPolicy.conservative], by decide +kernel⟩
  · exact ⟨4 / 100, by simp [capacities, RiskPolicy.conservative], by decide +kernel⟩
  · exact ⟨4 / 100, by simp [capacities, RiskPolicy.conservative], by decide +kernel⟩

/-- A stock held at the full single-name cap of eight percent is still sized as
a new position, up to twelve percent. -/
theorem heldPosition_exceeds_single_name_cap :
    assessNewPosition .conservative (bankPortfolio 8000 (by norm_num) (by norm_num))
        "000001".toList "银行".toList 10 (95 / 10) 100000000 "NORMAL".toList =
      .ok ⟨true, 4 / 100, 400, [.allRiskGatesPassed]⟩ ∧
    ¬ RespectsCaps .conservative (bankPortfolio 8000 (by norm_num) (by norm_num))
      "000001".toList "银行".toList 10 (95 / 10) (70 / 100) 400 := by
  refine ⟨by decide +kernel, fun respects => ?_⟩
  exact absurd respects.singleName (by decide +kernel)

end QuantWorkbench.Advisory
