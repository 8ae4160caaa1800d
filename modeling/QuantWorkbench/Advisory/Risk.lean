import QuantWorkbench.Lib.Rounding
import QuantWorkbench.Data.Normalization

/-!
The portfolio risk gates of `advisory/risk.py`. Decimals are exact rationals;
the constructors' range checks are fields of the records, so every value of
these types is one the constructors accept.
-/

namespace QuantWorkbench.Advisory

open Lib Data

/-- The number of steps of the four-decimal `_WEIGHT` grid in one. -/
def weightScale : ℕ := 10000

structure PortfolioRiskPosition where
  symbol : Symbol
  marketValue : ℚ
  industry : Text
  marketValue_nonneg : 0 ≤ marketValue
  industry_required : industry ≠ []
  industry_stripped : Text.strip industry = industry

structure PortfolioRiskSnapshot where
  equity : ℚ
  cash : ℚ
  drawdown : ℚ
  positions : List PortfolioRiskPosition
  equity_pos : 0 < equity
  cash_nonneg : 0 ≤ cash
  drawdown_range : 0 ≤ drawdown ∧ drawdown < 1

namespace PortfolioRiskSnapshot

variable (portfolio : PortfolioRiskSnapshot)

def marketValueWhere (select : PortfolioRiskPosition → Bool) : ℚ :=
  ((portfolio.positions.filter select).map (·.marketValue)).sum

def grossExposure : ℚ :=
  Rounding.quantizeDown weightScale
    ((portfolio.positions.map (·.marketValue)).sum / portfolio.equity)

/-- The caller's text is compared as it is, while positions hold stripped names. -/
def industryExposure (industry : Text) : ℚ :=
  Rounding.quantizeDown weightScale
    (portfolio.marketValueWhere (fun item => item.industry = industry) /
      portfolio.equity)

theorem marketValueWhere_nonneg (select : PortfolioRiskPosition → Bool) :
    0 ≤ portfolio.marketValueWhere select := by
  apply List.sum_nonneg
  intro value hvalue
  obtain ⟨item, _, rfl⟩ := List.mem_map.mp hvalue
  exact item.marketValue_nonneg

theorem totalMarketValue_nonneg :
    0 ≤ (portfolio.positions.map (·.marketValue)).sum := by
  simpa [marketValueWhere] using portfolio.marketValueWhere_nonneg fun _ => true

end PortfolioRiskSnapshot

structure RiskPolicy where
  normalGrossCap : ℚ := 70 / 100
  cautiousGrossCap : ℚ := 40 / 100
  riskOffGrossCap : ℚ := 20 / 100
  initialPositionCap : ℚ := 4 / 100
  absoluteSingleNameCap : ℚ := 8 / 100
  industryCap : ℚ := 25 / 100
  minimumCashReserve : ℚ := 30 / 100
  plannedRiskPerPosition : ℚ := 75 / 10000
  maximumPositions : ℕ := 10
  minimumLiquidityAmount : ℚ := 10000000
  maximumForecastUncertainty : ℚ := 35 / 100
  drawdownCaution : ℚ := 6 / 100
  drawdownNewBuyFreeze : ℚ := 8 / 100
  drawdownProtection : ℚ := 12 / 100
  lotSize : ℕ := 100
  fractions : ∀ value ∈ [normalGrossCap, cautiousGrossCap, riskOffGrossCap,
    initialPositionCap, absoluteSingleNameCap, industryCap, minimumCashReserve,
    plannedRiskPerPosition, maximumForecastUncertainty, drawdownCaution,
    drawdownNewBuyFreeze, drawdownProtection], 0 ≤ value ∧ value ≤ 1
  liquidity_pos : 0 < minimumLiquidityAmount
  maximumPositions_pos : 1 ≤ maximumPositions
  lotSize_pos : 1 ≤ lotSize
  drawdowns_ordered : drawdownCaution ≤ drawdownNewBuyFreeze ∧
    drawdownNewBuyFreeze ≤ drawdownProtection

/-- The defaults of the dataclass pass every check of its constructor. -/
def RiskPolicy.conservative : RiskPolicy where
  fractions := by
    simp only [List.forall_mem_cons, List.not_mem_nil, false_implies, implies_true]
    norm_num
  liquidity_pos := by norm_num
  maximumPositions_pos := by norm_num
  lotSize_pos := by norm_num
  drawdowns_ordered := by norm_num

inductive RiskError where
  | valueError (message : String)
  deriving DecidableEq, Repr

def regimeName (regime : Text) : Text := Text.upper (Text.strip regime)

def RiskPolicy.grossCapFor (policy : RiskPolicy) (regime : Text) :
    Except RiskError ℚ :=
  let normalized := regimeName regime
  if normalized = "NORMAL".toList then .ok policy.normalGrossCap
  else if normalized = "CAUTIOUS".toList then .ok policy.cautiousGrossCap
  else if normalized = "RISK_OFF".toList then .ok policy.riskOffGrossCap
  else .error (.valueError "regime must be NORMAL, CAUTIOUS, or RISK_OFF")

inductive RiskReason where
  | invalidInvalidation
  | liquidityTooLow
  | riskOff
  | protectionMode
  | drawdownNewBuyFreeze
  | maxPositions
  | portfolioCapacityExhausted
  | insufficientCapacityForLot
  | allRiskGatesPassed
  | drawdownCaution
  deriving DecidableEq, Repr

structure RiskAssessment where
  allowed : Bool
  targetWeight : ℚ
  suggestedQuantity : ℤ
  reasonCodes : List RiskReason
  deriving DecidableEq

def blocked (reason : RiskReason) : RiskAssessment :=
  ⟨false, 0, 0, [reason]⟩

/-- The six weights whose minimum is the target weight of a new position. The
two exposures come rounded down to four decimals, and the single-name cap is
taken whole, whatever is already held in the symbol. -/
def capacities (policy : RiskPolicy) (portfolio : PortfolioRiskSnapshot)
    (industry : Text) (price invalidation grossCap : ℚ) : List ℚ :=
  [policy.initialPositionCap,
    policy.absoluteSingleNameCap,
    grossCap - portfolio.grossExposure,
    portfolio.cash / portfolio.equity - policy.minimumCashReserve,
    policy.industryCap - portfolio.industryExposure industry,
    policy.plannedRiskPerPosition / (1 - invalidation / price)]

def targetWeight (policy : RiskPolicy) (portfolio : PortfolioRiskSnapshot)
    (industry : Text) (price invalidation grossCap : ℚ) : ℚ :=
  (capacities policy portfolio industry price invalidation grossCap).tail.foldl min
    policy.initialPositionCap

/-- `int(raw_quantity // self.policy.lot_size)`. -/
def wholeLots (policy : RiskPolicy) (portfolio : PortfolioRiskSnapshot)
    (price weight : ℚ) : ℤ :=
  Rounding.truncate (portfolio.equity * weight / price / policy.lotSize)

/-- `RiskEngine.assess_new_position`. The symbol is accepted and never read. -/
def assessNewPosition (policy : RiskPolicy) (portfolio : PortfolioRiskSnapshot)
    (_symbol industry : Text) (price invalidationPrice liquidityAmount : ℚ)
    (regime : Text) : Except RiskError RiskAssessment :=
  if price ≤ 0 ∨ invalidationPrice ≤ 0 ∨ invalidationPrice ≥ price then
    .ok (blocked .invalidInvalidation)
  else if liquidityAmount < policy.minimumLiquidityAmount then
    .ok (blocked .liquidityTooLow)
  else if regimeName regime = "RISK_OFF".toList then
    .ok (blocked .riskOff)
  else
    match policy.grossCapFor (regimeName regime) with
    | .error error => .error error
    | .ok grossCap =>
      if portfolio.drawdown ≥ policy.drawdownProtection then
        .ok (blocked .protectionMode)
      else if portfolio.drawdown ≥ policy.drawdownNewBuyFreeze then
        .ok (blocked .drawdownNewBuyFreeze)
      else if portfolio.positions.length ≥ policy.maximumPositions then
        .ok (blocked .maxPositions)
      else
        let weight := targetWeight policy portfolio industry price invalidationPrice grossCap
        if weight ≤ 0 then .ok (blocked .portfolioCapacityExhausted)
        else
          let quantity := wholeLots policy portfolio price weight * policy.lotSize
          if quantity < policy.lotSize then .ok (blocked .insufficientCapacityForLot)
          else
            .ok {
              allowed := true
              targetWeight := Rounding.quantizeDown weightScale
                (quantity * price / portfolio.equity)
              suggestedQuantity := quantity
              reasonCodes := .allRiskGatesPassed ::
                if portfolio.drawdown ≥ policy.drawdownCaution then [.drawdownCaution]
                else [] }

/-- Everything an allowed assessment establishes about its inputs. -/
theorem assessNewPosition_allowed {policy : RiskPolicy}
    {portfolio : PortfolioRiskSnapshot} {symbol industry : Text}
    {price invalidation liquidity : ℚ} {regime : Text} {assessment : RiskAssessment}
    (hassess : assessNewPosition policy portfolio symbol industry price invalidation
      liquidity regime = .ok assessment)
    (hallowed : assessment.allowed = true) :
    ∃ grossCap weight,
      policy.grossCapFor (regimeName regime) = .ok grossCap ∧
      weight = targetWeight policy portfolio industry price invalidation grossCap ∧
      0 < invalidation ∧ invalidation < price ∧ 0 < weight ∧
      assessment.suggestedQuantity =
        wholeLots policy portfolio price weight * policy.lotSize := by
  unfold assessNewPosition at hassess
  -- Every branch but the last one returns `blocked`.
  have hblocked : ∀ reason, (Except.ok (blocked reason) : Except RiskError RiskAssessment) ≠
      .ok assessment := by
    rintro reason heq
    rw [← Except.ok.inj heq] at hallowed
    cases hallowed
  split at hassess
  · exact absurd hassess (hblocked _)
  rename_i hprices
  split at hassess
  · exact absurd hassess (hblocked _)
  split at hassess
  · exact absurd hassess (hblocked _)
  split at hassess
  · cases hassess
  rename_i grossCap hcap
  split at hassess
  · exact absurd hassess (hblocked _)
  split at hassess
  · exact absurd hassess (hblocked _)
  split at hassess
  · exact absurd hassess (hblocked _)
  dsimp only at hassess
  split at hassess
  · exact absurd hassess (hblocked _)
  rename_i hweight
  split at hassess
  · exact absurd hassess (hblocked _)
  push Not at hprices hweight
  refine ⟨grossCap, _, hcap, rfl, hprices.2.1, hprices.2.2, hweight, ?_⟩
  rw [← Except.ok.inj hassess]

end QuantWorkbench.Advisory
