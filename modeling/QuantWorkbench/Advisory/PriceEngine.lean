import QuantWorkbench.Advisory.PriceContracts

/-!
The engine of price guidance: it computes a plan from the features of one symbol, in exact
decimals, and rejects a plan whose boundaries or whose distance to the protection price are not
conservative.
-/

namespace QuantWorkbench.Advisory

open Lib Data

/-! ### Features -/

/-- The features of one symbol at the cutoff. -/
structure PriceFeatures where
  symbol : Symbol
  cutoff : Date
  rawClose : ℚ
  atr14 : ℚ
  ma20 : ℚ
  ma60 : ℚ
  support20 : ℚ
  adjustmentFactor : ℚ
  dataVersion : Text
  featureVersion : Text

def PriceFeatures.toActual (features : PriceFeatures) (adjustedPrice : ℚ) : ℚ :=
  Rounding.quantizeHalfEven 100 (adjustedPrice * features.adjustmentFactor)

/-- The prefixes of the symbols whose rules are known. -/
def supportedPrefixes : List Text :=
  ["000".toList, "001".toList, "002".toList, "003".toList, "300".toList, "600".toList,
    "601".toList, "603".toList, "605".toList]

/-- `resolve_security_rule` without flags: the tick is a hundredth. -/
def resolveTickSize (symbol : Symbol) : Except Text ℚ := do
  require (symbol.text.take 3 ∈ supportedPrefixes) "UNSUPPORTED_SECURITY_RULES".toList
  return 1 / 100

def roundUp (value tick : ℚ) : ℚ := ⌈value / tick⌉ * tick

def roundDown (value tick : ℚ) : ℚ := ⌊value / tick⌋ * tick

/-! ### Plans -/

/-- Why there is no plan. -/
inductive GuidanceError where
  | validation (reasonCodes : List Text)
  | other (message : Text)
  deriving DecidableEq

/-- The prices of the formula before they are rounded to the tick. -/
structure Boundaries where
  lower : ℚ
  upper : ℚ
  maximum : ℚ
  invalidation : ℚ

namespace PriceFeatures

def boundaries (features : PriceFeatures) : Boundaries :=
  let close := features.rawClose
  let atr := features.toActual features.atr14
  let ma20 := features.toActual features.ma20
  let ma60 := features.toActual features.ma60
  let support := features.toActual features.support20
  let anchor := min close (ma20 + 1 / 2 * atr)
  let lower := anchor - 1 / 2 * atr
  let upper := anchor + 1 / 4 * atr
  { lower
    upper
    maximum := min upper (close * (101 / 100))
    invalidation := max (max (support - 1 / 4 * atr) (ma60 - 1 / 2 * atr)) (close - 2 * atr) }

end PriceFeatures

def Boundaries.onTick (boundaries : Boundaries) (tick : ℚ) : Boundaries where
  lower := roundUp boundaries.lower tick
  upper := roundDown boundaries.upper tick
  maximum := roundDown boundaries.maximum tick
  invalidation := roundUp boundaries.invalidation tick

def boundaryReasons (boundaries : Boundaries) : List Text :=
  if boundaries.invalidation < boundaries.lower ∧ boundaries.lower ≤ boundaries.upper ∧
      boundaries.upper ≤ boundaries.maximum then []
  else
    let reasons :=
      (if boundaries.lower ≤ boundaries.invalidation then
        ["INVALIDATION_NOT_BELOW_ENTRY".toList] else []) ++
      (if boundaries.upper < boundaries.lower then ["ENTRY_RANGE_INVERTED".toList] else []) ++
      (if boundaries.maximum < boundaries.upper then ["ENTRY_ABOVE_MAXIMUM".toList] else [])
    if reasons = [] then ["PRICE_BOUNDARIES_INCONSISTENT".toList] else reasons

def distanceReasons (close protection : ℚ) : List Text :=
  let riskDistance := (close - protection) / close
  if riskDistance < 2 / 100 then ["RISK_DISTANCE_TOO_LOW".toList]
  else if 12 / 100 < riskDistance then ["RISK_DISTANCE_TOO_HIGH".toList]
  else []

/-- What the constructor of a plan raises. -/
def planError (result : Except String PriceGuidancePlan) : Except GuidanceError PriceGuidancePlan :=
  match result with
  | .ok plan => .ok plan
  | .error message => .error (.other message.toList)

theorem planError_eq_ok_iff {result : Except String PriceGuidancePlan} {plan : PriceGuidancePlan} :
    planError result = .ok plan ↔ result = .ok plan := by
  cases result with
  | error message => exact ⟨(fun h => nomatch h), fun h => nomatch h⟩
  | ok other => exact ⟨fun h => by cases h; rfl, fun h => by cases h; rfl⟩

def planConfigVersion : Text := "price-guidance-rule-v1".toList

def candidatePlan (features : PriceFeatures) (promoted : Bool) (previousProtection : Option ℚ)
    (calculationDate validFor : Date) : Except GuidanceError PriceGuidancePlan := do
  let tick ← (resolveTickSize features.symbol).mapError .other
  let close := features.rawClose
  let atr := features.toActual features.atr14
  let ma20 := features.toActual features.ma20
  let boundaries := features.boundaries.onTick tick
  let protection := roundUp (match previousProtection with
    | some previous => max previous features.boundaries.invalidation
    | none => features.boundaries.invalidation) tick
  require (close ≠ 0) (.other "division by zero".toList)
  let reasons := boundaryReasons boundaries ++ distanceReasons close protection
  require (reasons = []) (.validation reasons)
  planError (PriceGuidancePlan.create
    ("price-".toList ++ (features.symbol.text ++ '-' :: features.cutoff.isoformat))
    features.symbol.text .dailyCandidate
    (if promoted = true then .conditionsMet else .researchReference)
    (if promoted = true then .conditionsMet else .researchReference) calculationDate validFor
    { entryLower := some boundaries.lower
      entryUpper := some boundaries.upper
      maximumAcceptablePrice := some boundaries.maximum
      invalidationPrice := some boundaries.invalidation
      protectionPrice := some protection
      reduceLower := some (ma20 + 2 * atr)
      reduceUpper := some (ma20 + 3 * atr) }
    0 ⟨calculationDate, 0, 0, 0, 0⟩ "rule-v1".toList features.featureVersion planConfigVersion
    features.dataVersion
    (if promoted = true then ["FORMAL_MODEL_PROMOTED".toList] else ["RESEARCH_ONLY".toList]) true)

/-! ### What the engine accepts -/

def structuralProtection (features : PriceFeatures) : ℚ :=
  roundUp features.boundaries.invalidation (1 / 100)

/-- The edges of the range in which a holding may be reduced, in hundredths. -/
def reduceCents (features : PriceFeatures) (multiple : ℚ) : ℤ :=
  Rounding.halfUp
    ((features.toActual features.ma20 + multiple * features.toActual features.atr14) * 100)

/-- Features of which the engine makes a plan. -/
structure Acceptable (features : PriceFeatures) : Prop where
  supported : features.symbol.text.take 3 ∈ supportedPrefixes
  traded : features.rawClose ≠ 0
  boundaries : boundaryReasons (features.boundaries.onTick (1 / 100)) = []
  distance : distanceReasons features.rawClose (structuralProtection features) = []
  positive : 0 < structuralProtection features
  bounded : (features.boundaries.onTick (1 / 100)).maximum < 10 ^ 26
  reduce : 0 < reduceCents features 2 ∧ reduceCents features 2 ≤ reduceCents features 3 ∧
    reduceCents features 3 < 10 ^ 28
  featureVersion : Text.strip features.featureVersion ≠ []
  dataVersion : Text.strip features.dataVersion ≠ []

/-- A price on the tick is kept as it is. -/
theorem halfUp_onTick (ticks : ℤ) : Rounding.halfUp (ticks * (1 / 100) * 100) = ticks := by
  have hsame : (ticks : ℚ) * (1 / 100) * 100 = ticks := by ring
  rw [hsame, Rounding.halfUp_intCast]

theorem onTick_lt {ticks other : ℤ} :
    (ticks : ℚ) * (1 / 100) < other * (1 / 100) ↔ ticks < other := by
  rw [mul_lt_mul_iff_left₀ (by norm_num)]
  exact Int.cast_lt

theorem onTick_le {ticks other : ℤ} :
    (ticks : ℚ) * (1 / 100) ≤ other * (1 / 100) ↔ ticks ≤ other := by
  rw [mul_le_mul_iff_left₀ (by norm_num)]
  exact Int.cast_le

theorem boundaryReasons_eq_nil {boundaries : Boundaries} (h : boundaryReasons boundaries = []) :
    boundaries.invalidation < boundaries.lower ∧ boundaries.lower ≤ boundaries.upper ∧
      boundaries.upper ≤ boundaries.maximum := by
  have hnonempty (reasons : List Text) :
      (if reasons = [] then ["PRICE_BOUNDARIES_INCONSISTENT".toList] else reasons) ≠ [] := by
    split
    · simp
    · assumption
  by_contra hwrong
  rw [boundaryReasons, if_neg hwrong] at h
  exact hnonempty _ h

theorem distanceReasons_eq_nil {close protection : ℚ} (h : distanceReasons close protection = []) :
    2 / 100 ≤ (close - protection) / close ∧ (close - protection) / close ≤ 12 / 100 := by
  rw [distanceReasons] at h
  split_ifs at h with hlow hhigh
  exact ⟨not_lt.mp hlow, not_lt.mp hhigh⟩

theorem candidatePlan_ok {features : PriceFeatures} (h : Acceptable features) {promoted : Bool}
    {calculation validFor : Date} (hvalid : calculation < validFor) :
    ∃ plan, candidatePlan features promoted none calculation validFor = .ok plan := by
  obtain ⟨hbelow, hordered, hcapped⟩ := boundaryReasons_eq_nil h.boundaries
  obtain ⟨hreduce, hreduce', hreduce''⟩ := h.reduce
  -- the prices in hundredths
  have hzero : (0 : ℚ) = ((0 : ℤ) : ℚ) * (1 / 100) := by norm_num
  have htop : (10 : ℚ) ^ 26 = ((10 ^ 28 : ℤ) : ℚ) * (1 / 100) := by norm_num
  have hpositive : 0 < ⌈features.boundaries.invalidation / (1 / 100)⌉ :=
    onTick_lt.mp (hzero ▸ h.positive)
  have hbelow : ⌈features.boundaries.invalidation / (1 / 100)⌉ <
      ⌈features.boundaries.lower / (1 / 100)⌉ := onTick_lt.mp hbelow
  have hordered : ⌈features.boundaries.lower / (1 / 100)⌉ ≤
      ⌊features.boundaries.upper / (1 / 100)⌋ := onTick_le.mp hordered
  have hcapped : ⌊features.boundaries.upper / (1 / 100)⌋ ≤
      ⌊features.boundaries.maximum / (1 / 100)⌋ := onTick_le.mp hcapped
  have hbounded : ⌊features.boundaries.maximum / (1 / 100)⌋ < 10 ^ 28 :=
    onTick_lt.mp (htop ▸ h.bounded)
  have hreasons : boundaryReasons (features.boundaries.onTick (1 / 100)) ++
      distanceReasons features.rawClose (roundUp features.boundaries.invalidation (1 / 100)) =
        [] := List.append_eq_nil_iff.mpr ⟨h.boundaries, h.distance⟩
  obtain ⟨codes, hcodes⟩ : ∃ codes, checkReasons
      (if promoted = true then ["FORMAL_MODEL_PROMOTED".toList] else ["RESEARCH_ONLY".toList]) =
        .ok codes := by
    cases promoted <;> exact ⟨_, rfl⟩
  simp only [candidatePlan, resolveTickSize, require, if_pos h.supported, if_pos h.traded,
    if_pos hreasons, bind, Except.bind, pure, Except.pure, Except.mapError]
  refine (exists_congr fun plan => planError_eq_ok_iff).mpr
    (PriceGuidancePlan.exists_create (Text.strip_cons_ne_nil _ (by decide))
      (checkSymbol_text features.symbol) hvalid
      (Price.check_of_halfUp (halfUp_onTick _) (by omega) (by omega))
      (Price.check_of_halfUp (halfUp_onTick _) (by omega) (by omega))
      (Price.check_of_halfUp (halfUp_onTick _) (by omega) (by omega))
      (Price.check_of_halfUp (halfUp_onTick _) hpositive (by omega))
      (Price.check_of_halfUp (halfUp_onTick _) hpositive (by omega))
      (Price.check_of_halfUp rfl hreduce (hreduce'.trans_lt hreduce''))
      (Price.check_of_halfUp rfl (hreduce.trans_le hreduce') hreduce'') ?_ ?_ (by decide)
      h.featureVersion (by decide) h.dataVersion hcodes)
  · simp only [boundariesConsistent, decide_eq_true_eq]
    omega
  · simp only [reduceConsistent, decide_eq_true_eq]
    exact Int.toNat_le_toNat hreduce'

/-- The prices of a plan, before they are checked. -/
def PriceFeatures.prices (features : PriceFeatures) : RawPrices :=
  let boundaries := features.boundaries.onTick (1 / 100)
  let ma20 := features.toActual features.ma20
  let atr := features.toActual features.atr14
  { entryLower := some boundaries.lower
    entryUpper := some boundaries.upper
    maximumAcceptablePrice := some boundaries.maximum
    invalidationPrice := some boundaries.invalidation
    protectionPrice := some (structuralProtection features)
    reduceLower := some (ma20 + 2 * atr)
    reduceUpper := some (ma20 + 3 * atr) }

section

variable {features : PriceFeatures} {promoted : Bool} {calculation validFor : Date}
  {plan : PriceGuidancePlan}

/-- All that a plan of the engine went through. -/
theorem candidatePlan_cases
    (h : candidatePlan features promoted none calculation validFor = .ok plan) :
    features.symbol.text.take 3 ∈ supportedPrefixes ∧ features.rawClose ≠ 0 ∧
      boundaryReasons (features.boundaries.onTick (1 / 100)) = [] ∧
      distanceReasons features.rawClose (structuralProtection features) = [] ∧
      plan.MadeFrom features.symbol.text .dailyCandidate calculation validFor features.prices
        features.featureVersion features.dataVersion := by
  obtain ⟨tick, htick, h⟩ := bind_eq_ok_iff.mp h
  obtain ⟨_, htraded, h⟩ := bind_eq_ok_iff.mp h
  obtain ⟨_, hreasons, h⟩ := bind_eq_ok_iff.mp h
  unfold resolveTickSize require at htick
  split at htick
  · rename_i hsupported
    cases htick
    obtain ⟨hboundaries, hdistance⟩ := List.append_eq_nil_iff.mp (require_eq_ok_iff.mp hreasons)
    exact ⟨hsupported, require_eq_ok_iff.mp htraded, hboundaries, hdistance,
      PriceGuidancePlan.create_madeFrom (planError_eq_ok_iff.mp h)⟩
  · cases htick

theorem value_of_check {field : String} {ticks : ℤ} {price : Option Price}
    (h : Price.check field (some (ticks * (1 / 100))) = .ok price) :
    ∃ checked ∈ price, checked.value = ticks * (1 / 100) := by
  obtain ⟨checked, hchecked, hcents⟩ := Price.halfUp_of_check h
  rw [halfUp_onTick] at hcents
  refine ⟨checked, hchecked, ?_⟩
  rw [Price.value, ← hcents]
  push_cast
  ring

theorem candidatePlan_protection
    (h : candidatePlan features promoted none calculation validFor = .ok plan) :
    plan.symbol = features.symbol ∧ ∃ protection ∈ plan.protectionPrice,
      protection.value = structuralProtection features := by
  obtain ⟨_, _, _, _, hmade⟩ := candidatePlan_cases h
  have hsymbol := hmade.symbol
  rw [checkSymbol_text] at hsymbol
  exact ⟨(Except.ok.inj hsymbol).symm, value_of_check hmade.protectionPrice⟩

theorem price_bounds (price : Price) : 0 < price.value ∧ price.value < 10 ^ 26 := by
  have hpositive : (0 : ℚ) < price.cents := by exact_mod_cast price.positive
  have hprecise : (price.cents : ℚ) < 10 ^ 28 := by exact_mod_cast price.precise
  rw [Price.value]
  constructor <;> linarith

theorem acceptable_of_candidatePlan
    (h : candidatePlan features promoted none calculation validFor = .ok plan) :
    Acceptable features := by
  obtain ⟨hsupported, htraded, hboundaries, hdistance, hmade⟩ := candidatePlan_cases h
  obtain ⟨protection, _, hprotection⟩ := value_of_check hmade.protectionPrice
  obtain ⟨maximum, _, hmaximum⟩ := value_of_check hmade.maximumAcceptablePrice
  obtain ⟨lower, hlower, hlowerCents⟩ := Price.halfUp_of_check hmade.reduceLower
  obtain ⟨upper, hupper, hupperCents⟩ := Price.halfUp_of_check hmade.reduceUpper
  have hprotection : protection.value = structuralProtection features := hprotection
  have hmaximum : maximum.value = (features.boundaries.onTick (1 / 100)).maximum := hmaximum
  have hlowerCents : (lower.cents : ℤ) = reduceCents features 2 := hlowerCents
  have hupperCents : (upper.cents : ℤ) = reduceCents features 3 := hupperCents
  have hreduce := plan.reduce
  rw [hlower, hupper, reduceConsistent, decide_eq_true_eq] at hreduce
  have hpositive := lower.positive
  have hprecise := upper.precise
  have hstripped : ∀ {field : String} {raw : Text} {checked : RequiredText},
      RequiredText.check field raw = .ok checked → Text.strip raw ≠ [] := by
    intro field raw checked hchecked hempty
    rw [RequiredText.check, dif_pos hempty] at hchecked
    cases hchecked
  exact {
    supported := hsupported
    traded := htraded
    boundaries := hboundaries
    distance := hdistance
    positive := hprotection ▸ (price_bounds protection).1
    bounded := hmaximum ▸ (price_bounds maximum).2
    reduce := by
      rw [← hlowerCents, ← hupperCents]
      omega
    featureVersion := hstripped hmade.featureVersion
    dataVersion := hstripped hmade.dataVersion }

/-! ### The formula -/

/-- The formula over actual prices. -/
def formula (close atr ma20 ma60 support : ℚ) : Boundaries :=
  let anchor := min close (ma20 + 1 / 2 * atr)
  let upper := anchor + 1 / 4 * atr
  { lower := anchor - 1 / 2 * atr
    upper
    maximum := min upper (close * (101 / 100))
    invalidation := max (max (support - 1 / 4 * atr) (ma60 - 1 / 2 * atr)) (close - 2 * atr) }

/-- The boundaries of the formula when no actual price is rounded to the cent. -/
def PriceFeatures.exactBoundaries (features : PriceFeatures) : Boundaries :=
  formula features.rawClose (features.atr14 * features.adjustmentFactor)
    (features.ma20 * features.adjustmentFactor) (features.ma60 * features.adjustmentFactor)
    (features.support20 * features.adjustmentFactor)

theorem PriceFeatures.abs_toActual_sub_le (features : PriceFeatures) (price : ℚ) :
    |features.toActual price - price * features.adjustmentFactor| ≤ 1 / 200 := by
  have hround := Rounding.abs_halfEven_sub_le (price * features.adjustmentFactor * 100)
  rw [toActual, Rounding.quantizeHalfEven]
  rw [abs_le] at hround ⊢
  push_cast
  constructor <;> linarith [hround.1, hround.2]

/-- Prices half a cent apart have boundaries at most a cent apart. -/
theorem formula_near {close atr ma20 ma60 support atr' ma20' ma60' support' : ℚ}
    (hatr : |atr - atr'| ≤ 1 / 200) (hma20 : |ma20 - ma20'| ≤ 1 / 200)
    (hma60 : |ma60 - ma60'| ≤ 1 / 200) (hsupport : |support - support'| ≤ 1 / 200) :
    let cents := formula close atr ma20 ma60 support
    let exact := formula close atr' ma20' ma60' support'
    |cents.lower - exact.lower| ≤ 1 / 100 ∧ |cents.maximum - exact.maximum| ≤ 1 / 100 ∧
      |cents.invalidation - exact.invalidation| ≤ 1 / 100 := by
  rw [abs_le] at hatr hma20 hma60 hsupport
  obtain ⟨hatr, hatr'⟩ := hatr
  have hanchor : |min close (ma20 + 1 / 2 * atr) - min close (ma20' + 1 / 2 * atr')| ≤ 3 / 400 := by
    refine (abs_min_sub_min_le_max _ _ _ _).trans (max_le ?_ ?_)
    · rw [sub_self, abs_zero]
      norm_num
    · rw [abs_le]
      constructor <;> linarith [hma20.1, hma20.2]
  obtain ⟨hanchor, hanchor'⟩ := abs_le.mp hanchor
  refine ⟨?_, (abs_min_sub_min_le_max _ _ _ _).trans (max_le ?_ ?_),
    (abs_max_sub_max_le_max _ _ _ _).trans (max_le
      ((abs_max_sub_max_le_max _ _ _ _).trans (max_le ?_ ?_)) ?_)⟩
  · rw [abs_le]
    simp only [formula]
    constructor <;> linarith
  · rw [abs_le]
    constructor <;> linarith
  · rw [sub_self, abs_zero]
    norm_num
  · rw [abs_le]
    constructor <;> linarith [hsupport.1, hsupport.2]
  · rw [abs_le]
    constructor <;> linarith [hma60.1, hma60.2]
  · rw [abs_le]
    constructor <;> linarith

/-- A price of a plan is less than two ticks from what the formula says. -/
def Near (price : Option Price) (exact : ℚ) : Prop :=
  ∃ checked ∈ price, |checked.value - exact| < 2 / 100

theorem near_of_check {field : String} {value cents exact : ℚ} {ticks : ℤ} {price : Option Price}
    (h : Price.check field (some value) = .ok price) (hticks : value = ticks * (1 / 100))
    (hround : |value - cents| < 1 / 100) (hcents : |cents - exact| ≤ 1 / 100) :
    Near price exact := by
  obtain ⟨checked, hchecked, hvalue⟩ := value_of_check (hticks ▸ h)
  refine ⟨checked, hchecked, ?_⟩
  rw [hvalue, ← hticks]
  linarith [abs_sub_le value cents exact]

theorem abs_roundUp_sub_lt (value : ℚ) : |roundUp value (1 / 100) - value| < 1 / 100 := by
  have hle := Int.le_ceil (value / (1 / 100))
  have hlt := Int.ceil_lt_add_one (value / (1 / 100))
  rw [roundUp, abs_lt]
  constructor <;> linarith

theorem abs_roundDown_sub_lt (value : ℚ) : |roundDown value (1 / 100) - value| < 1 / 100 := by
  have hle := Int.floor_le (value / (1 / 100))
  have hlt := Int.lt_floor_add_one (value / (1 / 100))
  rw [roundDown, abs_lt]
  constructor <;> linarith

theorem eq_of_check {field field' : String} {value : ℚ} {price price' : Option Price}
    (h : Price.check field (some value) = .ok price)
    (h' : Price.check field' (some value) = .ok price') : price = price' := by
  obtain ⟨⟨cents, _, _⟩, rfl, hcents⟩ := Price.halfUp_of_check h
  obtain ⟨⟨cents', _, _⟩, rfl, hcents'⟩ := Price.halfUp_of_check h'
  obtain rfl : cents = cents' := Int.natCast_inj.mp (hcents.trans hcents'.symm)
  rfl

/-- The protection price of a plan lies two to twelve percent below the close. -/
theorem protection_range
    (h : candidatePlan features promoted none calculation validFor = .ok plan) :
    88 / 100 * features.rawClose ≤ structuralProtection features ∧
      structuralProtection features ≤ 98 / 100 * features.rawClose := by
  obtain ⟨_, htraded, _, hdistance, _⟩ := candidatePlan_cases h
  obtain ⟨hlow, hhigh⟩ := distanceReasons_eq_nil hdistance
  have hpositive := (acceptable_of_candidatePlan h).positive
  have hclose : 0 < features.rawClose := by
    by_contra hnegative
    have hnegative := lt_of_le_of_ne (not_lt.mp hnegative) htraded
    have hfar : 1 ≤ (features.rawClose - structuralProtection features) / features.rawClose := by
      rw [le_div_iff_of_neg hnegative]
      linarith
    linarith
  rw [le_div_iff₀ hclose] at hlow
  rw [div_le_iff₀ hclose] at hhigh
  constructor <;> linarith

/-- The prices of a plan and those of the formula. The entry range ends at the maximum acceptable
price: where one percent over the close is lower, there is no plan. -/
structure PriceFeatures.PricedBy (features : PriceFeatures) (plan : PriceGuidancePlan) : Prop where
  lower : Near plan.entryLower features.exactBoundaries.lower
  maximum : Near plan.maximumAcceptablePrice features.exactBoundaries.maximum
  invalidation : Near plan.invalidationPrice features.exactBoundaries.invalidation
  upper : plan.entryUpper = plan.maximumAcceptablePrice
  protection : plan.protectionPrice = plan.invalidationPrice
  range : ∃ protection ∈ plan.protectionPrice, 88 / 100 * features.rawClose ≤ protection.value ∧
    protection.value ≤ 98 / 100 * features.rawClose

theorem candidatePlan_pricedBy
    (h : candidatePlan features promoted none calculation validFor = .ok plan) :
    features.PricedBy plan := by
  obtain ⟨_, _, hboundaries, _, hmade⟩ := candidatePlan_cases h
  obtain ⟨_, _, hcapped⟩ := boundaryReasons_eq_nil hboundaries
  obtain ⟨hlower, hmaximum, hinvalidation⟩ :=
    formula_near (features.abs_toActual_sub_le features.atr14)
      (features.abs_toActual_sub_le features.ma20) (features.abs_toActual_sub_le features.ma60)
      (features.abs_toActual_sub_le features.support20)
  have hbelow : (features.boundaries.onTick (1 / 100)).maximum ≤
      (features.boundaries.onTick (1 / 100)).upper :=
    onTick_le.mpr (Int.floor_le_floor (div_le_div_of_nonneg_right (min_le_left _ _) (by norm_num)))
  have hupper := hmade.entryUpper
  rw [PriceFeatures.prices, le_antisymm hcapped hbelow] at hupper
  obtain ⟨_, protection, hprotection, hvalue⟩ := candidatePlan_protection h
  exact {
    lower := near_of_check hmade.entryLower rfl (abs_roundUp_sub_lt _) hlower
    maximum := near_of_check hmade.maximumAcceptablePrice rfl (abs_roundDown_sub_lt _) hmaximum
    invalidation := near_of_check hmade.invalidationPrice rfl (abs_roundUp_sub_lt _) hinvalidation
    upper := eq_of_check hupper hmade.maximumAcceptablePrice
    protection := eq_of_check hmade.protectionPrice hmade.invalidationPrice
    range := ⟨protection, hprotection, hvalue ▸ protection_range h⟩ }

end

end QuantWorkbench.Advisory
