import QuantWorkbench.Advisory.PositionCaps

/-!
Whether more risk can mean more shares. Every capacity falls when a portfolio or a price gets
riskier, and every gate that is open to the riskier of two inputs is open to the other. The
regimes are the exception: their gross caps are read from the policy, which does not order them.
-/

namespace QuantWorkbench.Advisory

open Lib Data

/-! ### Inputs -/

/-- What `assess_new_position` is called with. -/
structure NewPosition where
  portfolio : PortfolioRiskSnapshot
  symbol : Text
  industry : Text
  price : ℚ
  invalidationPrice : ℚ
  liquidityAmount : ℚ
  regime : Text

namespace NewPosition

variable (policy : RiskPolicy) (input : NewPosition)

def assess : Except RiskError RiskAssessment :=
  assessNewPosition policy input.portfolio input.symbol input.industry input.price
    input.invalidationPrice input.liquidityAmount input.regime

def ValidPrices : Prop :=
  0 < input.invalidationPrice ∧ input.invalidationPrice < input.price

def holding (positions : List PortfolioRiskPosition) : NewPosition :=
  { input with portfolio := { input.portfolio with positions := positions } }

end NewPosition

/-- How far a regime is along the three that are known. -/
def regimeRank (regime : Text) : Option ℕ :=
  if regimeName regime = "NORMAL".toList then some 0
  else if regimeName regime = "CAUTIOUS".toList then some 1
  else if regimeName regime = "RISK_OFF".toList then some 2
  else none

/-- The second input differs from the first one in one respect, and is the riskier one. -/
inductive Riskier : NewPosition → NewPosition → Prop
  | lessCash (input : NewPosition) (cash : ℚ) (hcash : 0 ≤ cash)
      (h : cash ≤ input.portfolio.cash) :
      Riskier input
        { input with portfolio := { input.portfolio with cash := cash, cash_nonneg := hcash } }
  | largerPosition (input : NewPosition) (before after : List PortfolioRiskPosition)
      (position larger : PortfolioRiskPosition)
      (hpositions : input.portfolio.positions = before ++ position :: after)
      (hsymbol : larger.symbol = position.symbol) (hindustry : larger.industry = position.industry)
      (h : position.marketValue ≤ larger.marketValue) :
      Riskier input (input.holding (before ++ larger :: after))
  | additionalPosition (input : NewPosition) (before after : List PortfolioRiskPosition)
      (position : PortfolioRiskPosition)
      (hpositions : input.portfolio.positions = before ++ after) :
      Riskier input (input.holding (before ++ position :: after))
  | higherDrawdown (input : NewPosition) (drawdown : ℚ) (hrange : 0 ≤ drawdown ∧ drawdown < 1)
      (h : input.portfolio.drawdown ≤ drawdown) :
      Riskier input
        { input with
          portfolio :=
            { input.portfolio with drawdown := drawdown, drawdown_range := hrange } }
  | lowerInvalidation (input : NewPosition) (invalidation : ℚ)
      (h : invalidation ≤ input.invalidationPrice) :
      Riskier input { input with invalidationPrice := invalidation }
  | higherPrice (input : NewPosition) (price : ℚ) (h : input.price ≤ price) :
      Riskier input { input with price := price }
  | lowerLiquidity (input : NewPosition) (liquidity : ℚ) (h : liquidity ≤ input.liquidityAmount) :
      Riskier input { input with liquidityAmount := liquidity }
  | laterRegime (input : NewPosition) (regime : Text) {rank rank' : ℕ}
      (hrank : regimeRank input.regime = some rank) (hrank' : regimeRank regime = some rank')
      (h : rank ≤ rank') : Riskier input { input with regime := regime }

/-- More risk never means more shares. -/
def RiskPolicy.MonotoneInRisk (policy : RiskPolicy) : Prop :=
  ∀ safer riskier, Riskier safer riskier → safer.ValidPrices → riskier.ValidPrices →
    ∀ assessment assessment', safer.assess policy = .ok assessment →
      riskier.assess policy = .ok assessment' →
      assessment'.suggestedQuantity ≤ assessment.suggestedQuantity

/-! ### Shares -/

namespace NewPosition

variable (policy : RiskPolicy) (input : NewPosition)

/-- The gates before any capacity is computed. -/
structure Open : Prop where
  liquidity : policy.minimumLiquidityAmount ≤ input.liquidityAmount
  regime : regimeName input.regime ≠ "RISK_OFF".toList
  drawdown : input.portfolio.drawdown < policy.drawdownNewBuyFreeze
  positions : input.portfolio.positions.length < policy.maximumPositions

def weight (grossCap : ℚ) : ℚ :=
  targetWeight policy input.portfolio input.industry input.price input.invalidationPrice grossCap

/-- The whole lots that the target weight pays for. -/
def shares (grossCap : ℚ) : ℤ :=
  ⌊input.portfolio.equity * max 0 (input.weight policy grossCap) / input.price /
    policy.lotSize⌋ * policy.lotSize

variable {policy input}

theorem ValidPrices.price_pos (hprices : input.ValidPrices) : 0 < input.price :=
  hprices.1.trans hprices.2

theorem raw_nonneg (hprices : input.ValidPrices) (weight : ℚ) :
    0 ≤ input.portfolio.equity * max 0 weight / input.price / policy.lotSize := by
  have hequity := input.portfolio.equity_pos
  have hprice := hprices.price_pos
  positivity

theorem shares_nonneg (hprices : input.ValidPrices) (grossCap : ℚ) :
    0 ≤ input.shares policy grossCap :=
  mul_nonneg (Int.floor_nonneg.mpr (raw_nonneg hprices _)) (Int.natCast_nonneg _)

/-- Behind the gates, the suggested quantity is what the target weight pays for. -/
theorem suggestedQuantity_cases (hprices : input.ValidPrices) {assessment : RiskAssessment}
    (h : input.assess policy = .ok assessment) :
    (¬ input.Open policy ∧ assessment.suggestedQuantity = 0) ∨
      (input.Open policy ∧ ∃ grossCap, policy.grossCapFor (regimeName input.regime) = .ok grossCap ∧
        assessment.suggestedQuantity = input.shares policy grossCap) := by
  have hequity := input.portfolio.equity_pos
  have hprice := hprices.price_pos
  have hlot := policy.lotSize_pos
  unfold assess assessNewPosition at h
  rw [if_neg (by
    rintro (hle | hle | hle)
    · exact absurd hprice (not_lt.mpr hle)
    · exact absurd hprices.1 (not_lt.mpr hle)
    · exact absurd hprices.2 (not_lt.mpr hle))] at h
  split at h
  · rename_i hliquidity
    cases h
    exact .inl ⟨fun hopen => absurd hliquidity (not_lt.mpr hopen.liquidity), rfl⟩
  rename_i hliquidity
  split at h
  · rename_i hregime
    cases h
    exact .inl ⟨fun hopen => hopen.regime hregime, rfl⟩
  rename_i hregime
  split at h
  · cases h
  rename_i grossCap hcap
  split at h
  · rename_i hprotection
    cases h
    exact .inl ⟨fun hopen => absurd (policy.drawdowns_ordered.2.trans hprotection)
      (not_le.mpr hopen.drawdown), rfl⟩
  split at h
  · rename_i hfreeze
    cases h
    exact .inl ⟨fun hopen => absurd hfreeze (not_le.mpr hopen.drawdown), rfl⟩
  rename_i hfreeze
  split at h
  · rename_i hpositions
    cases h
    exact .inl ⟨fun hopen => absurd hpositions (not_le.mpr hopen.positions), rfl⟩
  rename_i hpositions
  refine .inr ⟨⟨not_lt.mp hliquidity, hregime, not_le.mp hfreeze, not_le.mp hpositions⟩,
    grossCap, hcap, ?_⟩
  dsimp only at h
  split at h
  · rename_i hweight
    cases h
    have hzero : max 0 (input.weight policy grossCap) = 0 := max_eq_left hweight
    rw [shares, hzero]
    simp [blocked]
  rename_i hweight
  have hmax : max 0 (input.weight policy grossCap) = input.weight policy grossCap :=
    max_eq_right (not_le.mp hweight).le
  have hlots : wholeLots policy input.portfolio input.price (input.weight policy grossCap) =
      ⌊input.portfolio.equity * max 0 (input.weight policy grossCap) / input.price /
        policy.lotSize⌋ := by
    have hraw := @raw_nonneg policy input hprices (input.weight policy grossCap)
    rw [hmax] at hraw ⊢
    exact Rounding.truncate_of_nonneg hraw
  split at h
  · rename_i hsmall
    cases h
    change wholeLots policy input.portfolio input.price (input.weight policy grossCap) *
      policy.lotSize < policy.lotSize at hsmall
    rw [hlots] at hsmall
    have hnonneg := Int.floor_nonneg.mpr (@raw_nonneg policy input hprices
      (input.weight policy grossCap))
    have hnone : ⌊input.portfolio.equity * max 0 (input.weight policy grossCap) / input.price /
        policy.lotSize⌋ = 0 := by
      by_contra hsome
      have hone := Int.add_one_le_iff.mpr (hnonneg.lt_of_ne' hsome)
      have hmany := Int.mul_le_mul_of_nonneg_right hone (Int.natCast_nonneg policy.lotSize)
      omega
    rw [shares, hnone, zero_mul]
    rfl
  · cases h
    change wholeLots policy input.portfolio input.price (input.weight policy grossCap) *
      policy.lotSize = _
    rw [hlots, shares]

theorem exists_assess {grossCap : ℚ}
    (hcap : policy.grossCapFor (regimeName input.regime) = .ok grossCap) :
    ∃ assessment, input.assess policy = .ok assessment := by
  unfold assess assessNewPosition
  rw [hcap]
  dsimp only
  split_ifs <;> exact ⟨_, rfl⟩

theorem shares_le {safer riskier : NewPosition} (hprices : safer.ValidPrices)
    (hequity : riskier.portfolio.equity = safer.portfolio.equity)
    (hprice : safer.price ≤ riskier.price) {grossCap grossCap' : ℚ}
    (hweight : riskier.weight policy grossCap' ≤ safer.weight policy grossCap) :
    riskier.shares policy grossCap' ≤ safer.shares policy grossCap := by
  have hpos := hprices.price_pos
  have hequity' := safer.portfolio.equity_pos
  unfold shares
  rw [hequity]
  refine Int.mul_le_mul_of_nonneg_right (Int.floor_le_floor ?_) (Int.natCast_nonneg _)
  gcongr

theorem weight_eq (grossCap : ℚ) :
    input.weight policy grossCap =
      min (min (min (min (min policy.initialPositionCap policy.absoluteSingleNameCap)
        (grossCap - input.portfolio.grossExposure))
        (input.portfolio.cash / input.portfolio.equity - policy.minimumCashReserve))
        (policy.industryCap - input.portfolio.industryExposure input.industry))
        (policy.plannedRiskPerPosition / (1 - input.invalidationPrice / input.price)) := rfl

end NewPosition

/-! ### Exposures -/

namespace PortfolioRiskSnapshot

variable {portfolio : PortfolioRiskSnapshot}

/-- Exposures follow the market values they are made of. -/
theorem exposure_mono {equity value value' : ℚ} (hequity : 0 < equity) (hvalue : 0 ≤ value)
    (h : value ≤ value') :
    Rounding.quantizeDown weightScale (value / equity) ≤
      Rounding.quantizeDown weightScale (value' / equity) := by
  have hscaled : value / equity * (weightScale : ℚ) ≤ value' / equity * weightScale := by
    gcongr
  have hnonneg : 0 ≤ value / equity * (weightScale : ℚ) := by positivity
  unfold Rounding.quantizeDown
  rw [Rounding.truncate_of_nonneg hnonneg, Rounding.truncate_of_nonneg (hnonneg.trans hscaled)]
  have hfloor := Int.floor_le_floor hscaled
  gcongr

theorem exposure_nonneg {equity value : ℚ} (hequity : 0 < equity) (hvalue : 0 ≤ value) :
    0 ≤ Rounding.quantizeDown weightScale (value / equity) := by
  have hzero := exposure_mono hequity le_rfl hvalue
  simpa [Rounding.quantizeDown, Rounding.truncate] using hzero

theorem grossExposure_eq (portfolio : PortfolioRiskSnapshot) :
    portfolio.grossExposure = Rounding.quantizeDown weightScale
      (portfolio.marketValueWhere (fun _ => true) / portfolio.equity) := by
  simp [grossExposure, marketValueWhere]

/-- A larger holding of one industry, or one more holding, never lowers what is held of a kind of
industry. -/
theorem marketValueWhere_le_of_larger {select : PortfolioRiskPosition → Bool}
    {before after : List PortfolioRiskPosition} {position larger : PortfolioRiskPosition}
    {positions : List PortfolioRiskPosition}
    (hpositions : portfolio.positions = before ++ position :: after)
    (hlarger : positions = before ++ larger :: after) (hselect : select larger = select position)
    (h : position.marketValue ≤ larger.marketValue) :
    portfolio.marketValueWhere select ≤
      { portfolio with positions := positions }.marketValueWhere select := by
  subst hlarger
  unfold marketValueWhere
  rw [hpositions]
  simp only [List.filter_append, List.filter_cons, hselect]
  split
  · simp only [List.map_append, List.map_cons, List.sum_append, List.sum_cons]
    linarith
  · exact le_rfl

theorem marketValueWhere_le_of_additional {select : PortfolioRiskPosition → Bool}
    {before after : List PortfolioRiskPosition} {position : PortfolioRiskPosition}
    (hpositions : portfolio.positions = before ++ after) :
    portfolio.marketValueWhere select ≤
      { portfolio with positions := before ++ position :: after }.marketValueWhere select := by
  have hnonneg := position.marketValue_nonneg
  unfold marketValueWhere
  rw [hpositions]
  simp only [List.filter_append, List.filter_cons]
  split
  · simp only [List.map_append, List.map_cons, List.sum_append, List.sum_cons]
    linarith
  · exact le_rfl

end PortfolioRiskSnapshot

/-! ### The seven respects that are monotone -/

namespace NewPosition

variable {policy : RiskPolicy} {safer riskier : NewPosition}

/-- What makes the riskier of two inputs in one regime get no more shares. -/
structure Below (policy : RiskPolicy) (safer riskier : NewPosition) : Prop where
  equity : riskier.portfolio.equity = safer.portfolio.equity
  price : safer.price ≤ riskier.price
  regime : regimeName riskier.regime = regimeName safer.regime
  gates : riskier.Open policy → safer.Open policy
  weight : ∀ grossCap, riskier.weight policy grossCap ≤ safer.weight policy grossCap

theorem Below.quantity_le (h : Below policy safer riskier) (hsafer : safer.ValidPrices)
    (hriskier : riskier.ValidPrices) {assessment assessment' : RiskAssessment}
    (hassess : safer.assess policy = .ok assessment)
    (hassess' : riskier.assess policy = .ok assessment') :
    assessment'.suggestedQuantity ≤ assessment.suggestedQuantity := by
  rcases suggestedQuantity_cases hriskier hassess' with ⟨_, hzero⟩ | ⟨hopen', cap', hcap', hshares'⟩
  · rw [hzero]
    rcases suggestedQuantity_cases hsafer hassess with ⟨_, hnone⟩ | ⟨_, cap, _, hshares⟩
    · exact hnone.ge
    · rw [hshares]
      exact shares_nonneg hsafer cap
  · rcases suggestedQuantity_cases hsafer hassess with ⟨hclosed, _⟩ | ⟨_, cap, hcap, hshares⟩
    · exact absurd (h.gates hopen') hclosed
    · rw [h.regime, hcap] at hcap'
      cases hcap'
      rw [hshares, hshares']
      exact shares_le hsafer h.equity h.price (h.weight cap')

theorem weight_le (hgross : safer.portfolio.grossExposure ≤ riskier.portfolio.grossExposure)
    (hcash : riskier.portfolio.cash / riskier.portfolio.equity ≤
      safer.portfolio.cash / safer.portfolio.equity)
    (hindustry : safer.portfolio.industryExposure safer.industry ≤
      riskier.portfolio.industryExposure riskier.industry)
    (hdistance : riskier.invalidationPrice / riskier.price ≤
      safer.invalidationPrice / safer.price)
    (hsafer : safer.ValidPrices) (grossCap : ℚ) :
    riskier.weight policy grossCap ≤ safer.weight policy grossCap := by
  have hplanned : 0 ≤ policy.plannedRiskPerPosition := (policy.fractions _ (by simp)).1
  have hpositive : 0 < 1 - safer.invalidationPrice / safer.price := by
    rw [sub_pos, div_lt_one hsafer.price_pos]
    exact hsafer.2
  rw [weight_eq, weight_eq]
  gcongr

theorem exposures_le (hequity : riskier.portfolio.equity = safer.portfolio.equity)
    (h : ∀ select : PortfolioRiskPosition → Bool,
      (∀ position other : PortfolioRiskPosition, position.industry = other.industry →
        select position = select other) →
      safer.portfolio.marketValueWhere select ≤ riskier.portfolio.marketValueWhere select)
    (hindustry : riskier.industry = safer.industry) :
    safer.portfolio.grossExposure ≤ riskier.portfolio.grossExposure ∧
      safer.portfolio.industryExposure safer.industry ≤
        riskier.portfolio.industryExposure riskier.industry := by
  have hpos := safer.portfolio.equity_pos
  constructor
  · rw [PortfolioRiskSnapshot.grossExposure_eq, PortfolioRiskSnapshot.grossExposure_eq, hequity]
    exact PortfolioRiskSnapshot.exposure_mono hpos
      (safer.portfolio.marketValueWhere_nonneg _) (h _ fun _ _ _ => rfl)
  · unfold PortfolioRiskSnapshot.industryExposure
    rw [hequity, hindustry]
    refine PortfolioRiskSnapshot.exposure_mono hpos
      (safer.portfolio.marketValueWhere_nonneg _) (h _ fun _ _ hsame => ?_)
    rw [hsame]

end NewPosition

open NewPosition in
theorem Riskier.below {policy : RiskPolicy} {safer riskier : NewPosition}
    (h : Riskier safer riskier) (hsafer : safer.ValidPrices) (hriskier : riskier.ValidPrices)
    (hregime : regimeName riskier.regime = regimeName safer.regime) :
    Below policy safer riskier := by
  have hequity := safer.portfolio.equity_pos
  have hprice := hsafer.price_pos
  cases h with
  | lessCash cash hcash h =>
      refine ⟨rfl, le_rfl, rfl, fun hopen => ⟨hopen.1, hopen.2, hopen.3, hopen.4⟩, ?_⟩
      refine weight_le le_rfl ?_ le_rfl le_rfl hsafer
      change cash / safer.portfolio.equity ≤ safer.portfolio.cash / safer.portfolio.equity
      gcongr
  | largerPosition before after position larger hpositions hsymbol hindustry h =>
      obtain ⟨hgross, hindustries⟩ := @exposures_le safer
        (safer.holding (before ++ larger :: after)) rfl
        (fun select hselect => PortfolioRiskSnapshot.marketValueWhere_le_of_larger hpositions rfl
          (hselect larger position hindustry) h) rfl
      refine ⟨rfl, le_rfl, rfl, fun hopen => ⟨hopen.1, hopen.2, hopen.3, ?_⟩,
        weight_le hgross le_rfl hindustries le_rfl hsafer⟩
      have hcount := hopen.4
      simp only [holding, List.length_append, List.length_cons] at hcount
      rw [hpositions, List.length_append, List.length_cons]
      exact hcount
  | additionalPosition before after position hpositions =>
      obtain ⟨hgross, hindustries⟩ := @exposures_le safer
        (safer.holding (before ++ position :: after)) rfl
        (fun select _ => PortfolioRiskSnapshot.marketValueWhere_le_of_additional hpositions) rfl
      refine ⟨rfl, le_rfl, rfl, fun hopen => ⟨hopen.1, hopen.2, hopen.3, ?_⟩,
        weight_le hgross le_rfl hindustries le_rfl hsafer⟩
      have hcount := hopen.4
      simp only [holding, List.length_append, List.length_cons] at hcount
      rw [hpositions, List.length_append]
      omega
  | higherDrawdown drawdown hrange h =>
      exact ⟨rfl, le_rfl, rfl, fun hopen => ⟨hopen.1, hopen.2, h.trans_lt hopen.3, hopen.4⟩,
        weight_le le_rfl le_rfl le_rfl le_rfl hsafer⟩
  | lowerInvalidation invalidation h =>
      refine ⟨rfl, le_rfl, rfl, fun hopen => ⟨hopen.1, hopen.2, hopen.3, hopen.4⟩,
        weight_le le_rfl le_rfl le_rfl ?_ hsafer⟩
      change invalidation / safer.price ≤ safer.invalidationPrice / safer.price
      gcongr
  | higherPrice price h =>
      refine ⟨rfl, h, rfl, fun hopen => ⟨hopen.1, hopen.2, hopen.3, hopen.4⟩,
        weight_le le_rfl le_rfl le_rfl ?_ hsafer⟩
      have hinvalidation := hsafer.1
      change safer.invalidationPrice / price ≤ safer.invalidationPrice / safer.price
      gcongr
  | lowerLiquidity liquidity h =>
      exact ⟨rfl, le_rfl, rfl, fun hopen => ⟨hopen.1.trans h, hopen.2, hopen.3, hopen.4⟩,
        weight_le le_rfl le_rfl le_rfl le_rfl hsafer⟩
  | laterRegime regime hrank hrank' h =>
      refine ⟨rfl, le_rfl, hregime, fun hopen => ⟨hopen.1, ?_, hopen.3, hopen.4⟩, fun _ => le_rfl⟩
      rw [← hregime]
      exact hopen.2

/-! ### Regimes -/

namespace RiskPolicy

variable (policy : RiskPolicy)

def positionRoom : ℚ :=
  min (min policy.initialPositionCap policy.absoluteSingleNameCap) policy.industryCap

/-- Some gross exposure leaves room under the cautious gross cap, and under the normal one less
than a position may take. Exposures are whole ten-thousandths, and there is none without a
position. -/
structure CapsCross : Prop where
  gate_open : 0 < policy.drawdownNewBuyFreeze
  risk_planned : 0 < policy.plannedRiskPerPosition
  room_pos : 0 < policy.positionRoom
  crossed : policy.normalGrossCap < policy.cautiousGrossCap
  exposure : ∃ steps : ℕ, (steps = 0 ∨ 2 ≤ policy.maximumPositions) ∧
    policy.normalGrossCap - policy.positionRoom < steps / weightScale ∧
    (steps / weightScale : ℚ) < policy.cautiousGrossCap

end RiskPolicy

theorem regimeRank_cases {regime : Text} {rank : ℕ} (h : regimeRank regime = some rank) :
    (regimeName regime = "NORMAL".toList ∧ rank = 0) ∨
      (regimeName regime = "CAUTIOUS".toList ∧ rank = 1) ∨
      (regimeName regime = "RISK_OFF".toList ∧ rank = 2) := by
  unfold regimeRank at h
  split at h
  · rename_i hname
    exact .inl ⟨hname, (Option.some.inj h).symm⟩
  split at h
  · rename_i hname
    exact .inr (.inl ⟨hname, (Option.some.inj h).symm⟩)
  split at h
  · rename_i hname
    exact .inr (.inr ⟨hname, (Option.some.inj h).symm⟩)
  · cases h

/-- An exposure is a number of ten-thousandths, none when nothing is held. -/
theorem grossExposure_steps (portfolio : PortfolioRiskSnapshot) :
    ∃ steps : ℕ, portfolio.grossExposure = steps / weightScale ∧
      (portfolio.positions = [] → steps = 0) := by
  have hequity := portfolio.equity_pos
  have htotal := portfolio.totalMarketValue_nonneg
  have hnonneg : 0 ≤ (portfolio.positions.map (·.marketValue)).sum / portfolio.equity *
      (weightScale : ℚ) := by positivity
  refine ⟨⌊(portfolio.positions.map (·.marketValue)).sum / portfolio.equity *
    (weightScale : ℚ)⌋.toNat, ?_, ?_⟩
  · rw [PortfolioRiskSnapshot.grossExposure, Rounding.quantizeDown,
      Rounding.truncate_of_nonneg hnonneg]
    congr 1
    have htoNat := Int.toNat_of_nonneg (Int.floor_nonneg.mpr hnonneg)
    exact_mod_cast htoNat.symm
  · intro hnone
    rw [hnone]
    simp

namespace NewPosition

variable {policy : RiskPolicy} {input : NewPosition}

theorem industryExposure_nonneg (portfolio : PortfolioRiskSnapshot) (industry : Text) :
    0 ≤ portfolio.industryExposure industry :=
  PortfolioRiskSnapshot.exposure_nonneg portfolio.equity_pos
    (portfolio.marketValueWhere_nonneg _)

variable (policy input) in
/-- The five capacities that the regime has no part in. -/
def otherRoom : ℚ :=
  min (min (min policy.initialPositionCap policy.absoluteSingleNameCap)
    (policy.industryCap - input.portfolio.industryExposure input.industry))
    (min (input.portfolio.cash / input.portfolio.equity - policy.minimumCashReserve)
      (policy.plannedRiskPerPosition / (1 - input.invalidationPrice / input.price)))

theorem weight_eq_min (grossCap : ℚ) : input.weight policy grossCap =
    min (grossCap - input.portfolio.grossExposure) (input.otherRoom policy) := by
  rw [weight_eq, otherRoom]
  ac_rfl

theorem otherRoom_le_positionRoom : input.otherRoom policy ≤ policy.positionRoom := by
  have hindustry := industryExposure_nonneg input.portfolio input.industry
  refine (min_le_left _ _).trans (min_le_min le_rfl ?_)
  linarith

theorem plannedRisk_pos_of_otherRoom (h : 0 < input.otherRoom policy) :
    0 < policy.plannedRiskPerPosition := by
  have hplanned : 0 ≤ policy.plannedRiskPerPosition := (policy.fractions _ (by simp)).1
  refine lt_of_le_of_ne hplanned fun hzero => ?_
  have hrisk := h.trans_le ((min_le_right _ _).trans (min_le_right _ _))
  rw [← hzero, zero_div] at hrisk
  exact absurd hrisk (lt_irrefl 0)

theorem capsCross_of_shares_lt (hprices : input.ValidPrices) (hopen : input.Open policy)
    (h : input.shares policy policy.normalGrossCap <
      input.shares policy policy.cautiousGrossCap) : policy.CapsCross := by
  have hweight : input.weight policy policy.normalGrossCap <
      input.weight policy policy.cautiousGrossCap := by
    by_contra hle
    exact absurd h (not_lt.mpr (shares_le hprices rfl le_rfl (not_lt.mp hle)))
  have hpositive : 0 < input.weight policy policy.cautiousGrossCap := by
    by_contra hle
    have hzero : max 0 (input.weight policy policy.cautiousGrossCap) = 0 :=
      max_eq_left (not_lt.mp hle)
    have hnone : input.shares policy policy.cautiousGrossCap = 0 := by
      rw [shares, hzero]
      simp
    rw [hnone] at h
    exact absurd h (not_lt.mpr (shares_nonneg hprices _))
  rw [weight_eq_min] at hpositive
  rw [weight_eq_min, weight_eq_min] at hweight
  obtain ⟨hgross, hother⟩ := lt_min_iff.mp hpositive
  obtain ⟨hcautious, hroom⟩ := lt_min_iff.mp hweight
  have hnormal : policy.normalGrossCap - input.portfolio.grossExposure <
      input.otherRoom policy := (min_lt_iff.mp hroom).resolve_right (lt_irrefl _)
  rw [min_eq_left hnormal.le] at hcautious
  have hposition := @otherRoom_le_positionRoom policy input
  obtain ⟨steps, hsteps, hnone⟩ := grossExposure_steps input.portfolio
  refine
    { gate_open := input.portfolio.drawdown_range.1.trans_lt hopen.drawdown
      risk_planned := plannedRisk_pos_of_otherRoom hother
      room_pos := hother.trans_le hposition
      crossed := by linarith
      exposure := ⟨steps, ?_, ?_, ?_⟩ }
  · cases hpositions : input.portfolio.positions with
    | nil => exact .inl (hnone hpositions)
    | cons position rest =>
        have hcount := hopen.positions
        rw [hpositions, List.length_cons] at hcount
        exact .inr (by omega)
  · rw [← hsteps]
    linarith
  · rw [← hsteps]
    linarith

end NewPosition

/-! ### Crossing caps -/

namespace RiskPolicy

variable (policy : RiskPolicy)

/-- A portfolio of so many ten-thousandths of its equity in one stock. -/
def crossingPortfolio (equity : ℚ) (hequity : 0 < equity) (steps : ℕ) : PortfolioRiskSnapshot where
  equity := equity
  cash := 2 * equity
  drawdown := 0
  positions :=
    if steps = 0 then [] else
      [{ symbol := ⟨"000001".toList, Eq.refl true⟩
         marketValue := steps / weightScale * equity
         industry := "B".toList
         marketValue_nonneg := by positivity
         industry_required := by decide
         industry_stripped := by decide }]
  equity_pos := hequity
  cash_nonneg := by positivity
  drawdown_range := drawdown_none

/-- One share costs one, and half of what may be risked is lost at the invalidation price. -/
def crossingInput (equity : ℚ) (hequity : 0 < equity) (steps : ℕ) (regime : Text) :
    NewPosition where
  portfolio := crossingPortfolio equity hequity steps
  symbol := "000002".toList
  industry := "A".toList
  price := 1
  invalidationPrice := 1 - policy.plannedRiskPerPosition / 2
  liquidityAmount := policy.minimumLiquidityAmount
  regime := regime

variable {policy} {equity : ℚ} {hequity : 0 < equity} {steps : ℕ} {regime : Text}

theorem grossExposure_crossing :
    (crossingPortfolio equity hequity steps).grossExposure = steps / weightScale := by
  have hvalue : ((crossingPortfolio equity hequity steps).positions.map (·.marketValue)).sum =
      steps / weightScale * equity := by
    unfold crossingPortfolio
    split
    · rename_i hzero
      simp [hzero]
    · simp
  have hscale : (weightScale : ℚ) ≠ 0 := by norm_num [weightScale]
  have hratio : (steps / weightScale * equity) / equity * (weightScale : ℚ) = (steps : ℤ) := by
    rw [mul_div_cancel_right₀ _ hequity.ne', div_mul_cancel₀ _ hscale]
    rfl
  rw [PortfolioRiskSnapshot.grossExposure, hvalue, Rounding.quantizeDown]
  change (Rounding.truncate (steps / weightScale * equity / equity * weightScale) : ℚ) / _ = _
  rw [hratio, Rounding.truncate_of_nonneg (by positivity), Int.floor_intCast]
  rfl

theorem industryExposure_crossing :
    (crossingPortfolio equity hequity steps).industryExposure "A".toList = 0 := by
  have hvalue : (crossingPortfolio equity hequity steps).marketValueWhere
      (fun item => item.industry = "A".toList) = 0 := by
    unfold PortfolioRiskSnapshot.marketValueWhere crossingPortfolio
    split <;> simp
  rw [PortfolioRiskSnapshot.industryExposure, hvalue]
  simp [Rounding.quantizeDown, Rounding.truncate]

theorem otherRoom_crossing (hrisk : 0 < policy.plannedRiskPerPosition) :
    (policy.crossingInput equity hequity steps regime).otherRoom policy = policy.positionRoom := by
  have hinitial : policy.initialPositionCap ≤ 1 := (policy.fractions _ (by simp)).2
  have hreserve : policy.minimumCashReserve ≤ 1 := (policy.fractions _ (by simp)).2
  have hroom : policy.positionRoom ≤ 1 :=
    ((min_le_left _ _).trans (min_le_left _ _)).trans hinitial
  have hcash : policy.positionRoom ≤ 2 * equity / equity - policy.minimumCashReserve := by
    rw [mul_div_cancel_right₀ _ hequity.ne']
    linarith
  have hsized : policy.positionRoom ≤
      policy.plannedRiskPerPosition / (1 - (1 - policy.plannedRiskPerPosition / 2) / 1) := by
    have htwo : policy.plannedRiskPerPosition /
        (1 - (1 - policy.plannedRiskPerPosition / 2) / 1) = 2 := by
      have hhalf : 1 - (1 - policy.plannedRiskPerPosition / 2) / 1 =
          policy.plannedRiskPerPosition / 2 := by ring
      rw [hhalf, div_eq_iff (by positivity)]
      ring
    rw [htwo]
    linarith
  have hindustry := @industryExposure_crossing equity hequity steps
  unfold NewPosition.otherRoom crossingInput
  dsimp only
  rw [hindustry, sub_zero]
  exact min_eq_left (le_min hcash hsized)

theorem crossing_open (hcross : policy.CapsCross)
    (hsteps : steps = 0 ∨ 2 ≤ policy.maximumPositions)
    (hregime : regimeName regime ≠ "RISK_OFF".toList) :
    (policy.crossingInput equity hequity steps regime).Open policy := by
  refine ⟨le_rfl, hregime, hcross.gate_open, ?_⟩
  have hmaximum := policy.maximumPositions_pos
  change (crossingPortfolio equity hequity steps).positions.length < policy.maximumPositions
  unfold crossingPortfolio
  split
  · exact hmaximum
  · rename_i hsome
    have hmany := hsteps.resolve_left hsome
    simp only [List.length_singleton]
    omega

theorem crossing_prices (hcross : policy.CapsCross) :
    (policy.crossingInput equity hequity steps regime).ValidPrices := by
  have hrisk := hcross.risk_planned
  have hplanned : policy.plannedRiskPerPosition ≤ 1 := (policy.fractions _ (by simp)).2
  constructor
  · change 0 < 1 - policy.plannedRiskPerPosition / 2
    linarith
  · change 1 - policy.plannedRiskPerPosition / 2 < 1
    linarith

/-- With enough equity, one lot more is paid for under the cautious cap. -/
theorem exists_shares_lt (hcross : policy.CapsCross)
    (hnormal : policy.normalGrossCap - policy.positionRoom < steps / weightScale)
    (hcautious : (steps / weightScale : ℚ) < policy.cautiousGrossCap) :
    ∃ (equity : ℚ) (hequity : 0 < equity), ∀ regime regime',
      (policy.crossingInput equity hequity steps regime).shares policy policy.normalGrossCap <
        (policy.crossingInput equity hequity steps regime').shares policy
          policy.cautiousGrossCap := by
  have hroom := hcross.room_pos
  have hcrossed := hcross.crossed
  have hlot := policy.lotSize_pos
  have hlotPos : (0 : ℚ) < policy.lotSize := by exact_mod_cast hlot
  let low := max 0 (min (policy.normalGrossCap - steps / weightScale) policy.positionRoom)
  let high := max 0 (min (policy.cautiousGrossCap - steps / weightScale) policy.positionRoom)
  have hlt : low < high := by
    have hhigh : 0 < min (policy.cautiousGrossCap - steps / weightScale) policy.positionRoom :=
      lt_min (by linarith) hroom
    refine lt_max_of_lt_right (max_lt hhigh (lt_min ?_ ?_))
    · exact (min_le_left _ _).trans_lt (by linarith)
    · exact (min_le_left _ _).trans_lt (by linarith)
  have hgap : 0 < high - low := sub_pos.mpr hlt
  have hequity : 0 < policy.lotSize / (high - low) := div_pos hlotPos hgap
  refine ⟨policy.lotSize / (high - low), hequity, fun regime regime' => ?_⟩
  unfold NewPosition.shares
  rw [NewPosition.weight_eq_min, NewPosition.weight_eq_min, otherRoom_crossing hcross.risk_planned,
    otherRoom_crossing hcross.risk_planned]
  have hgross := @grossExposure_crossing (policy.lotSize / (high - low)) hequity steps
  unfold crossingInput
  dsimp only
  rw [hgross]
  change ⌊policy.lotSize / (high - low) * low / 1 / policy.lotSize⌋ * _ <
    ⌊policy.lotSize / (high - low) * high / 1 / policy.lotSize⌋ * _
  have hstep : (policy.lotSize / (high - low) * high / 1 / policy.lotSize : ℚ) =
      policy.lotSize / (high - low) * low / 1 / policy.lotSize + 1 := by
    field_simp
    ring
  rw [hstep, Int.floor_add_one]
  have hlotInt : (0 : ℤ) < policy.lotSize := by exact_mod_cast hlot
  exact Int.mul_lt_mul_of_pos_right (lt_add_one _) hlotInt

end RiskPolicy

namespace NewPosition

variable {policy : RiskPolicy} {input : NewPosition}

theorem quantity_nonneg (hprices : input.ValidPrices) {assessment : RiskAssessment}
    (h : input.assess policy = .ok assessment) : 0 ≤ assessment.suggestedQuantity := by
  rcases suggestedQuantity_cases hprices h with ⟨_, hzero⟩ | ⟨_, grossCap, _, hshares⟩
  · exact hzero.ge
  · rw [hshares]
    exact shares_nonneg hprices grossCap

theorem quantity_of_open (hprices : input.ValidPrices) (hopen : input.Open policy) {grossCap : ℚ}
    (hcap : policy.grossCapFor (regimeName input.regime) = .ok grossCap)
    {assessment : RiskAssessment} (h : input.assess policy = .ok assessment) :
    assessment.suggestedQuantity = input.shares policy grossCap := by
  rcases suggestedQuantity_cases hprices h with ⟨hclosed, _⟩ | ⟨_, grossCap', hcap', hshares⟩
  · exact absurd hopen hclosed
  · rw [hcap] at hcap'
    cases hcap'
    exact hshares

end NewPosition

theorem grossCapFor_normal (policy : RiskPolicy) {regime : Text}
    (h : regimeName regime = "NORMAL".toList) :
    policy.grossCapFor (regimeName regime) = .ok policy.normalGrossCap := by
  rw [h]
  rfl

theorem grossCapFor_cautious (policy : RiskPolicy) {regime : Text}
    (h : regimeName regime = "CAUTIOUS".toList) :
    policy.grossCapFor (regimeName regime) = .ok policy.cautiousGrossCap := by
  rw [h]
  rfl

namespace RiskPolicy

open NewPosition

/-- Caps that cross give an input more shares when its regime turns from normal to cautious. -/
theorem not_monotoneInRisk_of_capsCross {policy : RiskPolicy} (hcross : policy.CapsCross) :
    ¬ policy.MonotoneInRisk := by
  intro hmonotone
  obtain ⟨steps, hsteps, hnormal, hcautious⟩ := hcross.exposure
  obtain ⟨equity, hequity, hshares⟩ := exists_shares_lt hcross hnormal hcautious
  let safer := policy.crossingInput equity hequity steps "NORMAL".toList
  let riskier := policy.crossingInput equity hequity steps "CAUTIOUS".toList
  have hcap : policy.grossCapFor (regimeName safer.regime) = .ok policy.normalGrossCap :=
    grossCapFor_normal policy rfl
  have hcap' : policy.grossCapFor (regimeName riskier.regime) = .ok policy.cautiousGrossCap :=
    grossCapFor_cautious policy rfl
  have hopen : safer.Open policy := crossing_open hcross hsteps (by decide)
  have hopen' : riskier.Open policy := crossing_open hcross hsteps (by decide)
  have hprices : safer.ValidPrices := crossing_prices hcross
  have hprices' : riskier.ValidPrices := crossing_prices hcross
  obtain ⟨assessment, hassess⟩ := @exists_assess policy safer _ hcap
  obtain ⟨assessment', hassess'⟩ := @exists_assess policy riskier _ hcap'
  have hriskier : Riskier safer riskier :=
    @Riskier.laterRegime safer "CAUTIOUS".toList 0 1 rfl rfl (Nat.zero_le 1)
  have hle := hmonotone safer riskier hriskier hprices hprices' assessment assessment' hassess
    hassess'
  rw [quantity_of_open hprices hopen hcap hassess, quantity_of_open hprices' hopen' hcap' hassess']
    at hle
  exact absurd (hshares _ _) (not_lt.mpr hle)

/-- Where caps do not cross, a later regime never means more shares. -/
theorem quantity_le_of_laterRegime {policy : RiskPolicy} (hcross : ¬ policy.CapsCross)
    {input : NewPosition} {regime : Text} {rank rank' : ℕ}
    (hrank : regimeRank input.regime = some rank) (hrank' : regimeRank regime = some rank')
    (h : rank ≤ rank') (hchanged : regimeName regime ≠ regimeName input.regime)
    (hprices : input.ValidPrices) {assessment assessment' : RiskAssessment}
    (hassess : input.assess policy = .ok assessment)
    (hassess' : { input with regime := regime }.assess policy = .ok assessment') :
    assessment'.suggestedQuantity ≤ assessment.suggestedQuantity := by
  have hprices' : { input with regime := regime }.ValidPrices := hprices
  by_contra hlt
  rw [not_le] at hlt
  have hpositive := (quantity_nonneg hprices hassess).trans_lt hlt
  -- More shares than none are only suggested behind the gates.
  rcases suggestedQuantity_cases hprices' hassess' with ⟨_, hzero⟩ | ⟨hopen', cap', hcap', hshares'⟩
  · rw [hzero] at hpositive
    exact absurd hpositive (lt_irrefl 0)
  rcases regimeRank_cases hrank' with ⟨hname', rfl⟩ | ⟨hname', rfl⟩ | ⟨hname', rfl⟩
  · rcases regimeRank_cases hrank with ⟨hname, _⟩ | ⟨_, rfl⟩ | ⟨_, rfl⟩
    · exact hchanged (hname'.trans hname.symm)
    · omega
    · omega
  · rcases regimeRank_cases hrank with ⟨hname, _⟩ | ⟨hname, _⟩ | ⟨_, rfl⟩
    · have hopen : input.Open policy := by
        refine ⟨hopen'.1, ?_, hopen'.3, hopen'.4⟩
        rw [hname]
        decide
      have hcap := grossCapFor_normal policy hname
      rw [grossCapFor_cautious policy hname'] at hcap'
      cases hcap'
      rw [quantity_of_open hprices hopen hcap hassess, hshares'] at hlt
      exact hcross (capsCross_of_shares_lt hprices hopen hlt)
    · exact hchanged (hname'.trans hname.symm)
    · omega
  · exact hopen'.regime hname'

/-- More risk never means more shares exactly if the gross caps of the regimes do not cross where
a position still has room. -/
theorem monotoneInRisk_iff (policy : RiskPolicy) :
    policy.MonotoneInRisk ↔ ¬ policy.CapsCross := by
  constructor
  · exact fun hmonotone hcross => not_monotoneInRisk_of_capsCross hcross hmonotone
  · intro hcross safer riskier hriskier hprices hprices' assessment assessment' hassess hassess'
    by_cases hregime : regimeName riskier.regime = regimeName safer.regime
    · exact (hriskier.below hprices hprices' hregime).quantity_le hprices hprices' hassess hassess'
    · cases hriskier with
      | laterRegime regime hrank hrank' h =>
          exact quantity_le_of_laterRegime hcross hrank hrank' h hregime hprices hassess hassess'
      | _ => exact absurd rfl hregime

def crossedCaps : RiskPolicy :=
  { conservative with
    normalGrossCap := 40 / 100
    cautiousGrossCap := 70 / 100
    fractions := by
      simp only [List.forall_mem_cons, List.not_mem_nil, false_implies, implies_true, conservative]
      norm_num }

/-- A buy of another industry on top of forty percent in one bank stock. -/
def besideBank (regime : Text) : NewPosition where
  portfolio := bankPortfolio 40000 (by norm_num) (by norm_num)
  symbol := "600000".toList
  industry := "电子".toList
  price := 10
  invalidationPrice := 95 / 10
  liquidityAmount := 100000000
  regime := regime

/-- The normal regime leaves no room beside forty percent, and the cautious one does. -/
theorem crossedCaps_not_monotone :
    (besideBank "NORMAL".toList).assess crossedCaps = .ok (blocked .portfolioCapacityExhausted) ∧
      (besideBank "CAUTIOUS".toList).assess crossedCaps =
        .ok ⟨true, 4 / 100, 400, [.allRiskGatesPassed]⟩ ∧
      ¬ crossedCaps.MonotoneInRisk := by
  have hnormal : (besideBank "NORMAL".toList).assess crossedCaps =
      .ok (blocked .portfolioCapacityExhausted) := by decide +kernel
  have hcautious : (besideBank "CAUTIOUS".toList).assess crossedCaps =
      .ok ⟨true, 4 / 100, 400, [.allRiskGatesPassed]⟩ := by decide +kernel
  have hprices : ∀ regime, (besideBank regime).ValidPrices := fun _ => by
    constructor <;> norm_num [besideBank]
  refine ⟨hnormal, hcautious, fun hmonotone => ?_⟩
  have hriskier := @Riskier.laterRegime (besideBank "NORMAL".toList) "CAUTIOUS".toList 0 1 rfl rfl
    (Nat.zero_le 1)
  have hle := hmonotone _ _ hriskier (hprices _) (hprices _) _ _ hnormal hcautious
  exact absurd hle (by decide)

end RiskPolicy

end QuantWorkbench.Advisory
