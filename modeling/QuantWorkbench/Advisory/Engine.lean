import QuantWorkbench.Advisory.PredictionLedger
import QuantWorkbench.Advisory.RiskMonotonicity

/-!
The engine of `advisory/engine.py`, and the guidance of the day that the workbench makes with it:
the forecast of a context is registered before the engine is asked. A purchase that it suggests
is the largest one that the capacities of the risk policy admit.
-/

namespace QuantWorkbench.Advisory

open Lib Data

/-! ### The engine -/

inductive AdvisoryState where
  | buyCandidate | addCandidate | hold | watch | reduce | exit | blocked | insufficientData
  deriving DecidableEq

/-- What the engine reads of a forecast, and the rest of it. -/
structure ForecastEvidence (R : Type) where
  dataCutoff : UtcDateTime
  predictedReturn : ℚ
  predictedProbability : ℚ
  uncertainty : ℚ
  rest : R
  deriving DecidableEq

/-- A context as its constructor leaves it, the texts stripped and in capitals. -/
structure AdvisoryContext (R : Type) where
  forecast : ForecastRecord (ForecastEvidence R)
  portfolio : PortfolioRiskSnapshot
  dataQuality : Text
  tradeable : Bool
  marketRegime : Text
  marketPrice : ℚ
  invalidationPrice : ℚ
  industry : Text
  liquidityAmount : ℚ
  eventRisk : Bool
  holdingQuantity : ℕ
  availableQuantity : ℕ
  prices_pos : 0 < marketPrice ∧ 0 < invalidationPrice ∧ 0 < liquidityAmount
  available_le : availableQuantity ≤ holdingQuantity

inductive AdvisoryReason where
  | dataQualityNotGood | notTradable | eventRisk | forecastUncertaintyTooHigh
  | forecastEdgeNotMaterial | forecastEdgeNegative | tPlusOneSellNotAvailable
  | existingPositionRemainsValid | formalForecastAndPortfolioGatesPassed
  | risk (reason : RiskReason)

structure AdvisoryDecision where
  state : AdvisoryState
  reasonCodes : List AdvisoryReason
  targetWeight : ℚ
  suggestedQuantity : ℤ
  maximumAcceptablePrice : Option ℚ
  invalidationPrice : Option ℚ
  evidenceCutoff : UtcDateTime
  validUntil : Date
  confidence : ℚ

namespace AdvisoryContext

variable {R : Type} (context : AdvisoryContext R)

def confidence : ℚ :=
  Rounding.quantizeHalfUp 10000 (context.forecast.details.predictedProbability *
    (1 - context.forecast.details.uncertainty))

/-- `_decision`: nothing is suggested. -/
def decision (state : AdvisoryState) (reasons : List AdvisoryReason) : AdvisoryDecision :=
  ⟨state, reasons, 0, 0, none, none, context.forecast.details.dataCutoff,
    context.forecast.maturityDate, context.confidence⟩

def heldPositionDecision : AdvisoryDecision :=
  if context.forecast.details.predictedReturn ≤ 0 then
    if 0 < context.availableQuantity then context.decision .reduce [.forecastEdgeNegative]
    else context.decision .watch [.tPlusOneSellNotAvailable]
  else context.decision .hold [.existingPositionRemainsValid]

/-- What the risk engine is asked. -/
def newPosition : NewPosition :=
  ⟨context.portfolio, context.forecast.symbol.text, context.industry, context.marketPrice,
    context.invalidationPrice, context.liquidityAmount, context.marketRegime⟩

def candidate (risk : RiskAssessment) : AdvisoryDecision :=
  ⟨.buyCandidate, risk.reasonCodes.map .risk ++ [.formalForecastAndPortfolioGatesPassed],
    risk.targetWeight, risk.suggestedQuantity,
    some (Rounding.quantizeHalfUp 10000 (context.marketPrice * (101 / 100))),
    some context.invalidationPrice, context.forecast.details.dataCutoff,
    context.forecast.maturityDate, context.confidence⟩

end AdvisoryContext

section

variable {R : Type} (policy : RiskPolicy) (context : AdvisoryContext R)

def evaluate : Except RiskError AdvisoryDecision :=
  let forecast := context.forecast.details
  if context.dataQuality ≠ "GOOD".toList then .ok (context.decision .blocked [.dataQualityNotGood])
  else if context.tradeable = false then .ok (context.decision .blocked [.notTradable])
  else if context.eventRisk = true then .ok (context.decision .watch [.eventRisk])
  else if policy.maximumForecastUncertainty < forecast.uncertainty then
    .ok (context.decision .insufficientData [.forecastUncertaintyTooHigh])
  else if 0 < context.holdingQuantity then .ok context.heldPositionDecision
  else if forecast.predictedReturn ≤ 0 ∨ forecast.predictedProbability < 55 / 100 then
    .ok (context.decision .watch [.forecastEdgeNotMaterial])
  else
    (context.newPosition.assess policy).map fun risk =>
      if risk.allowed = true then context.candidate risk
      else context.decision .blocked (risk.reasonCodes.map .risk)

/-- The gates of the engine before the risk engine. -/
structure AdvisoryContext.Passes : Prop where
  quality : context.dataQuality = "GOOD".toList
  tradeable : context.tradeable = true
  noEvent : context.eventRisk = false
  certain : context.forecast.details.uncertainty ≤ policy.maximumForecastUncertainty
  notHeld : context.holdingQuantity = 0
  edge : 0 < context.forecast.details.predictedReturn ∧
    55 / 100 ≤ context.forecast.details.predictedProbability

/-- The purchases in whole lots that every capacity admits. -/
def NewPosition.admitted (input : NewPosition) (grossCap : ℚ) : Set ℤ :=
  {quantity | (policy.lotSize : ℤ) ∣ quantity ∧
    ∀ capacity ∈ capacities policy input.portfolio input.industry input.price
      input.invalidationPrice grossCap,
      quantity * input.price ≤ capacity * input.portfolio.equity}

/-- The context passes every gate, and no larger purchase is admitted. -/
def JustifiedPurchase (decision : AdvisoryDecision) : Prop :=
  context.Passes policy ∧ ∃ grossCap,
    policy.grossCapFor (regimeName context.marketRegime) = .ok grossCap ∧
      IsGreatest (context.newPosition.admitted policy grossCap) decision.suggestedQuantity

/-- Nothing is to be bought, at no price. -/
structure AdvisoryDecision.SuggestsNothing (decision : AdvisoryDecision) : Prop where
  state : decision.state ≠ .buyCandidate
  quantity : decision.suggestedQuantity = 0
  weight : decision.targetWeight = 0
  prices : decision.maximumAcceptablePrice = none ∧ decision.invalidationPrice = none

end

/-! ### What the engine suggests -/

theorem suggestion_isGreatest {policy : RiskPolicy} {input : NewPosition}
    {assessment : RiskAssessment} (h : input.assess policy = .ok assessment)
    (hallowed : assessment.allowed = true) :
    ∃ grossCap, policy.grossCapFor (regimeName input.regime) = .ok grossCap ∧
      IsGreatest (input.admitted policy grossCap) assessment.suggestedQuantity := by
  obtain ⟨grossCap, weight, hcap, rfl, hinvalidation, hbelow, hweight, hquantity⟩ :=
    assessNewPosition_allowed h hallowed
  have hprice := hinvalidation.trans hbelow
  have hcost := lotCost_pos policy hprice
  refine ⟨grossCap, hcap, ⟨hquantity ▸ Dvd.intro_left _ rfl, fun capacity hmember => ?_⟩, ?_⟩
  · rw [hquantity]
    exact (cost_le_weight hprice hweight).trans
      (mul_le_mul_of_nonneg_right (targetWeight_le hmember) input.portfolio.equity_pos.le)
  · rintro _ ⟨⟨lots, rfl⟩, hadmitted⟩
    -- the target weight is a capacity itself
    have hlots := hadmitted _ (targetWeight_mem ..)
    have hfloor : lots * policy.lotCost input.price ≤
        ⌊targetWeight policy input.portfolio input.industry input.price input.invalidationPrice
          grossCap * input.portfolio.equity / policy.lotCost input.price⌋ *
            policy.lotCost input.price := by
      apply mul_le_mul_of_nonneg_right _ hcost.le
      rw [Int.cast_le, Int.le_floor, le_div_iff₀ hcost, RiskPolicy.lotCost]
      push_cast at hlots
      linarith
    rw [← cost_eq_lots hprice hweight, ← hquantity, RiskPolicy.lotCost] at hfloor
    have hscaled : ((policy.lotSize * lots : ℤ) : ℚ) * input.price ≤
        assessment.suggestedQuantity * input.price := by
      push_cast
      linarith
    exact_mod_cast le_of_mul_le_mul_right hscaled hprice

namespace NewPosition

variable {policy : RiskPolicy} {input : NewPosition}

theorem allowed_iff_pos {assessment : RiskAssessment} (h : input.assess policy = .ok assessment) :
    assessment.allowed = true ↔ 0 < assessment.suggestedQuantity := by
  have hlot := policy.lotSize_pos
  have hblocked (reason : RiskReason) :
      (blocked reason).allowed = true ↔ 0 < (blocked reason).suggestedQuantity :=
    iff_of_false Bool.false_ne_true (lt_irrefl 0)
  unfold assess assessNewPosition at h
  split at h
  · exact Except.ok.inj h ▸ hblocked _
  split at h
  · exact Except.ok.inj h ▸ hblocked _
  split at h
  · exact Except.ok.inj h ▸ hblocked _
  split at h
  · cases h
  split at h
  · exact Except.ok.inj h ▸ hblocked _
  split at h
  · exact Except.ok.inj h ▸ hblocked _
  split at h
  · exact Except.ok.inj h ▸ hblocked _
  dsimp only at h
  split at h
  · exact Except.ok.inj h ▸ hblocked _
  split at h
  · exact Except.ok.inj h ▸ hblocked _
  · rename_i hlots
    rw [← Except.ok.inj h]
    exact iff_of_true rfl ((Int.natCast_pos.mpr hlot).trans_le (not_lt.mp hlots))

/-- The shares that the target weight pays for make a lot exactly when every capacity admits one. -/
theorem shares_pos_iff (hprices : input.ValidPrices) {grossCap : ℚ} :
    0 < input.shares policy grossCap ↔ (policy.lotSize : ℤ) ∈ input.admitted policy grossCap := by
  have hequity := input.portfolio.equity_pos
  have hlot : (0 : ℚ) < policy.lotSize := by exact_mod_cast policy.lotSize_pos
  have hcost := mul_pos hlot hprices.price_pos
  have hweight : 0 < input.shares policy grossCap ↔
      policy.lotSize * input.price ≤ input.weight policy grossCap * input.portfolio.equity := by
    rw [shares, mul_pos_iff_of_pos_right (by exact_mod_cast policy.lotSize_pos),
      ← Int.add_one_le_iff, zero_add, Int.le_floor, le_div_iff₀ hlot,
      le_div_iff₀ hprices.price_pos, mul_comm _ (max _ _), max_mul_of_nonneg _ _ hequity.le]
    push_cast
    rw [one_mul, zero_mul, le_max_iff, or_iff_right (not_le.mpr hcost)]
  rw [hweight]
  constructor
  · intro h
    refine ⟨dvd_refl _, fun capacity hmember => ?_⟩
    exact_mod_cast h.trans (mul_le_mul_of_nonneg_right (targetWeight_le hmember) hequity.le)
  · intro h
    exact_mod_cast h.2 _ (targetWeight_mem ..)

theorem exists_allowed_iff :
    (∃ assessment, input.assess policy = .ok assessment ∧ assessment.allowed = true) ↔
      input.ValidPrices ∧ input.Open policy ∧ ∃ grossCap,
        policy.grossCapFor (regimeName input.regime) = .ok grossCap ∧
          (policy.lotSize : ℤ) ∈ input.admitted policy grossCap := by
  constructor
  · rintro ⟨assessment, h, hallowed⟩
    obtain ⟨_, _, _, _, hinvalidation, hbelow, _, _⟩ := assessNewPosition_allowed h hallowed
    have hprices : input.ValidPrices := ⟨hinvalidation, hbelow⟩
    have hpositive := (allowed_iff_pos h).mp hallowed
    rcases suggestedQuantity_cases hprices h with ⟨_, hnone⟩ | ⟨hopen, grossCap, hcap, hshares⟩
    · omega
    · exact ⟨hprices, hopen, grossCap, hcap, (shares_pos_iff hprices).mp (hshares ▸ hpositive)⟩
  · rintro ⟨hprices, hopen, grossCap, hcap, hlot⟩
    obtain ⟨assessment, h⟩ := exists_assess hcap
    refine ⟨assessment, h, (allowed_iff_pos h).mpr ?_⟩
    rcases suggestedQuantity_cases hprices h with ⟨hclosed, _⟩ | ⟨_, other, hother, hshares⟩
    · exact absurd hopen hclosed
    · obtain rfl := Except.ok.inj (hcap.symm.trans hother)
      exact hshares ▸ (shares_pos_iff hprices).mpr hlot

end NewPosition

section

variable {R : Type} {policy : RiskPolicy} {context : AdvisoryContext R}
  {decision : AdvisoryDecision}

theorem suggestsNothing_decision {state : AdvisoryState} {reasons : List AdvisoryReason}
    (h : state ≠ .buyCandidate) : (context.decision state reasons).SuggestsNothing :=
  ⟨h, rfl, rfl, rfl, rfl⟩

theorem suggestsNothing_held : context.heldPositionDecision.SuggestsNothing := by
  unfold AdvisoryContext.heldPositionDecision
  split_ifs <;> exact suggestsNothing_decision (by decide)

theorem evaluate_of_passes (h : context.Passes policy) : evaluate policy context =
    (context.newPosition.assess policy).map fun risk =>
      if risk.allowed = true then context.candidate risk
      else context.decision .blocked (risk.reasonCodes.map .risk) := by
  have hedge : ¬ (context.forecast.details.predictedReturn ≤ 0 ∨
      context.forecast.details.predictedProbability < 55 / 100) :=
    not_or.mpr ⟨not_le.mpr h.edge.1, not_lt.mpr h.edge.2⟩
  unfold evaluate
  rw [if_neg (not_not.mpr h.quality), if_neg (by simp [h.tradeable]), if_neg (by simp [h.noEvent]),
    if_neg (not_lt.mpr h.certain), if_neg (by simp [h.notHeld]), if_neg hedge]

theorem suggestsNothing_of_not_passes (hpasses : ¬ context.Passes policy)
    (h : evaluate policy context = .ok decision) : decision.SuggestsNothing := by
  unfold evaluate at h
  dsimp only at h
  split_ifs at h with hquality htradeable hevent huncertain hheld hedge
  · exact Except.ok.inj h ▸ suggestsNothing_decision (by decide)
  · exact Except.ok.inj h ▸ suggestsNothing_decision (by decide)
  · exact Except.ok.inj h ▸ suggestsNothing_decision (by decide)
  · exact Except.ok.inj h ▸ suggestsNothing_decision (by decide)
  · exact Except.ok.inj h ▸ suggestsNothing_held
  · exact Except.ok.inj h ▸ suggestsNothing_decision (by decide)
  · obtain ⟨hreturn, hprobability⟩ := not_or.mp hedge
    exact absurd ⟨not_not.mp hquality, Bool.eq_true_of_not_eq_false htradeable,
      Bool.eq_false_of_not_eq_true hevent, not_lt.mp huncertain, Nat.eq_zero_of_not_pos hheld,
      not_le.mp hreturn, not_lt.mp hprobability⟩ hpasses

theorem evaluate_cases (h : evaluate policy context = .ok decision) :
    decision.state = .buyCandidate ∧ JustifiedPurchase policy context decision ∨
      decision.SuggestsNothing := by
  by_cases hpasses : context.Passes policy
  · rw [evaluate_of_passes hpasses] at h
    cases hrisk : context.newPosition.assess policy with
    | error error =>
        rw [hrisk] at h
        cases h
    | ok risk =>
        rw [hrisk, Except.map, Except.ok.injEq] at h
        by_cases hallowed : risk.allowed = true
        · rw [if_pos hallowed] at h
          subst h
          have hgreatest := suggestion_isGreatest hrisk hallowed
          exact .inl ⟨rfl, hpasses, hgreatest⟩
        · rw [if_neg hallowed] at h
          exact .inr (h ▸ suggestsNothing_decision (by decide))
  · exact .inr (suggestsNothing_of_not_passes hpasses h)

end

/-! ### The guidance of the day -/

/-- `today_guidance` with a context. -/
def todayGuidance {R : Type} [DecidableEq R] (policy : RiskPolicy)
    (store : PredictionLedgerStore (ForecastEvidence R)) (context : AdvisoryContext R) :
    Except (LedgerFault ⊕ RiskError) AdvisoryDecision ×
      PredictionLedgerStore (ForecastEvidence R) :=
  let registered := store.appendPrediction context.forecast
  (do
    let _ ← registered.1.mapError .inl
    (evaluate policy context).mapError .inr, registered.2)

inductive GuidanceCall (R : Type) where
  | guidance (context : AdvisoryContext R)
  | mature (asOf : Date) (lookup : PriceLookup)

/-- The prediction ledger, and the decisions that were shown. -/
structure GuidanceRun (R : Type) where
  ledger : LedgerRun (ForecastEvidence R)
  shown : List (AdvisoryContext R × AdvisoryDecision)

namespace GuidanceRun

variable {R : Type} [DecidableEq R] (policy : RiskPolicy)

def start : GuidanceRun R := ⟨.start, []⟩

def step (run : GuidanceRun R) : GuidanceCall R → GuidanceRun R
  | .guidance context =>
      let today := todayGuidance policy run.ledger.store context
      { ledger := { run.ledger with store := today.2 }
        shown := run.shown ++ (today.1.toOption.map (Prod.mk context)).toList }
  | .mature asOf lookup => { run with ledger := run.ledger.step (.mature asOf lookup) }

/-- Every forecast is registered once, and what was shown is justified: a purchase has its forecast
in the ledger, to be held against the outcome. -/
structure Accountable (run : GuidanceRun R) : Prop where
  sound : run.ledger.Sound
  justified : ∀ shown ∈ run.shown, shown.2.SuggestsNothing ∨
    shown.2.state = .buyCandidate ∧ shown.1.forecast ∈ run.ledger.store.predictions ∧
      JustifiedPurchase policy shown.1 shown.2

variable {policy} {run : GuidanceRun R}

theorem registered_of_ok {store : PredictionLedgerStore (ForecastEvidence R)}
    {prediction : ForecastRecord (ForecastEvidence R)} {isNew : Bool}
    (h : (store.appendPrediction prediction).1 = .ok isNew) :
    prediction ∈ (store.appendPrediction prediction).2.predictions := by
  unfold PredictionLedgerStore.appendPrediction at h ⊢
  cases hfound : store.predictions.find? (fun other => other.forecastId = prediction.forecastId) with
  | none => exact List.mem_append_right _ (List.mem_singleton_self _)
  | some existing =>
      rw [hfound] at h
      dsimp only at h ⊢
      split at h
      · rename_i hsame
        rw [if_pos hsame, ← hsame]
        exact List.mem_of_find?_eq_some hfound
      · cases h

theorem todayGuidance_ok {store : PredictionLedgerStore (ForecastEvidence R)}
    {context : AdvisoryContext R} {decision : AdvisoryDecision}
    (h : (todayGuidance policy store context).1 = .ok decision) :
    context.forecast ∈ (store.appendPrediction context.forecast).2.predictions ∧
      evaluate policy context = .ok decision := by
  obtain ⟨_, hregistered, h⟩ := bind_eq_ok_iff.mp h
  constructor
  · cases hresult : (store.appendPrediction context.forecast).1 with
    | ok isNew => exact registered_of_ok hresult
    | error fault =>
        rw [hresult] at hregistered
        cases hregistered
  · cases hdecision : evaluate policy context with
    | ok other =>
        rw [hdecision] at h
        cases h
        rfl
    | error error =>
        rw [hdecision] at h
        cases h

theorem accountable_step (h : run.Accountable policy) (call : GuidanceCall R) :
    (run.step policy call).Accountable policy := by
  cases call with
  | mature asOf lookup =>
      refine ⟨h.sound.step (.mature asOf lookup), ?_⟩
      rw [step, LedgerRun.step_mature h.sound]
      exact h.justified
  | guidance context =>
      have hkept := LedgerRun.predictions_subset_step h.sound (.appendPrediction context.forecast)
      refine ⟨h.sound.append context.forecast, fun shown hshown => ?_⟩
      rcases List.mem_append.mp hshown with hearlier | hnow
      · exact (h.justified shown hearlier).imp_right fun ⟨hstate, hregistered, hpurchase⟩ =>
          ⟨hstate, hkept hregistered, hpurchase⟩
      · obtain ⟨decision, hdecision, rfl⟩ := Option.map_eq_some_iff.mp (Option.mem_toList.mp hnow)
        obtain ⟨hregistered, hevaluate⟩ := todayGuidance_ok (toOption_eq_some_iff.mp hdecision)
        exact (evaluate_cases hevaluate).symm.imp_right fun ⟨hstate, hpurchase⟩ =>
          ⟨hstate, hregistered, hpurchase⟩

end GuidanceRun

end QuantWorkbench.Advisory
