import QuantWorkbench.Data.Normalization
import QuantWorkbench.Lib.DecimalText
import QuantWorkbench.Lib.Fields
import QuantWorkbench.Lib.JsonRecords
import QuantWorkbench.Lib.Rounding

/-!
The contracts of price guidance on paper: the plan of one symbol for the next session, and the
observation of a price against a plan. Prices are kept in hundredths.
-/

namespace QuantWorkbench.Advisory

open Lib Data

/-! ### Fields -/

inductive PricePlanType where
  | dailyCandidate
  | holding
  deriving DecidableEq

namespace PricePlanType

def value : PricePlanType → Text
  | dailyCandidate => "DAILY_CANDIDATE".toList
  | holding => "HOLDING".toList

def ofValue? (text : Text) : Option PricePlanType :=
  [dailyCandidate, holding].find? fun planType => planType.value = text

@[simp] theorem ofValue?_value (planType : PricePlanType) :
    ofValue? planType.value = some planType := by
  cases planType <;> decide

end PricePlanType

inductive GuidanceLevel where
  | researchReference
  | conditionsMet
  deriving DecidableEq

namespace GuidanceLevel

def value : GuidanceLevel → Text
  | researchReference => "RESEARCH_REFERENCE".toList
  | conditionsMet => "CONDITIONS_MET".toList

def ofValue? (text : Text) : Option GuidanceLevel :=
  [researchReference, conditionsMet].find? fun level => level.value = text

@[simp] theorem ofValue?_value (level : GuidanceLevel) : ofValue? level.value = some level := by
  cases level <;> decide

end GuidanceLevel

inductive GuidanceState where
  | researchReference
  | conditionsMet
  | waitForPrice
  | priceTooHigh
  | invalidated
  | riskAlert
  | noReliableGuidance
  | tPlusOneBlocked
  | reduceWatch
  | holdWatch
  deriving DecidableEq

namespace GuidanceState

def value : GuidanceState → Text
  | researchReference => "RESEARCH_REFERENCE".toList
  | conditionsMet => "CONDITIONS_MET".toList
  | waitForPrice => "WAIT_FOR_PRICE".toList
  | priceTooHigh => "PRICE_TOO_HIGH".toList
  | invalidated => "INVALIDATED".toList
  | riskAlert => "RISK_ALERT".toList
  | noReliableGuidance => "NO_RELIABLE_GUIDANCE".toList
  | tPlusOneBlocked => "T_PLUS_ONE_BLOCKED".toList
  | reduceWatch => "REDUCE_WATCH".toList
  | holdWatch => "HOLD_WATCH".toList

def all : List GuidanceState :=
  [researchReference, conditionsMet, waitForPrice, priceTooHigh, invalidated, riskAlert,
    noReliableGuidance, tPlusOneBlocked, reduceWatch, holdWatch]

def ofValue? (text : Text) : Option GuidanceState := all.find? fun state => state.value = text

@[simp] theorem ofValue?_value (state : GuidanceState) : ofValue? state.value = some state := by
  cases state <;> decide

end GuidanceState

inductive DataQuality where
  | good
  | stale
  | failed
  | degraded
  deriving DecidableEq

namespace DataQuality

def value : DataQuality → Text
  | good => "GOOD".toList
  | stale => "STALE".toList
  | failed => "FAILED".toList
  | degraded => "DEGRADED".toList

def ofText? [CaseTable] (raw : Text) : Option DataQuality :=
  [good, stale, failed, degraded].find? fun quality =>
    quality.value = CaseTable.upper (Text.strip raw)

@[simp] theorem ofText?_value [CaseTable] (quality : DataQuality) :
    ofText? quality.value = some quality := by
  have hcapitals : ∀ quality : DataQuality, ∀ c ∈ quality.value, c.isUpper ∨ c = '_' := by
    rintro (_ | _ | _ | _) <;> decide
  have hstrip : Text.strip quality.value = quality.value := by cases quality <;> decide
  rw [ofText?, hstrip, CaseTable.upper_of_capitals _ (hcapitals quality)]
  cases quality <;> decide

end DataQuality

/-- A price of the guidance: a decimal of at most 28 digits, in hundredths. -/
structure Price where
  cents : ℕ
  positive : 0 < cents
  precise : cents < 10 ^ 28
  deriving DecidableEq

namespace Price

def value (price : Price) : ℚ := price.cents / 100

def text (price : Price) : Text := DecimalText.format 2 price.cents

/-- `_decimal`, which rounds to hundredths. -/
def check (field : String) : Option ℚ → Except String (Option Price)
  | none => return none
  | some raw =>
      let cents := Rounding.halfUp (raw * 100)
      if precise : cents.toNat < 10 ^ 28 then
        if positive : 0 < cents.toNat then return some ⟨cents.toNat, positive, precise⟩
        else .error s!"{field} must be positive"
      else .error "quantize result has too many digits for current context"

theorem halfUp_value (price : Price) : Rounding.halfUp (price.value * 100) = price.cents := by
  have hsame : price.value * 100 = ((price.cents : ℤ) : ℚ) := by
    rw [value]
    push_cast
    ring
  rw [hsame, Rounding.halfUp_intCast]

@[simp] theorem check_value (field : String) (price : Option Price) :
    check field (price.map value) = .ok price := by
  cases price with
  | none => rfl
  | some price =>
      rw [Option.map_some, check]
      simp only [halfUp_value, Int.toNat_natCast, dif_pos price.precise, dif_pos price.positive]
      rfl

theorem check_of_halfUp {field : String} {raw : ℚ} {cents : ℤ}
    (h : Rounding.halfUp (raw * 100) = cents) (hpositive : 0 < cents)
    (hprecise : cents < 10 ^ 28) :
    check field (some raw) = .ok (some ⟨cents.toNat, by omega, by omega⟩) := by
  have hprecise' : cents.toNat < 10 ^ 28 := by omega
  have hpositive' : 0 < cents.toNat := by omega
  simp only [check, h, dif_pos hprecise', dif_pos hpositive']
  rfl

theorem halfUp_of_check {field : String} {raw : ℚ} {price : Option Price}
    (h : check field (some raw) = .ok price) :
    ∃ checked, price = some checked ∧ (checked.cents : ℤ) = Rounding.halfUp (raw * 100) := by
  simp only [check] at h
  split at h
  · split at h
    · rename_i hprecise hpositive
      cases h
      exact ⟨_, rfl, Int.toNat_of_nonneg (by omega)⟩
    · cases h
  · cases h

/-- A written price is read back. -/
theorem parse_text (price : Price) : DecimalText.parse price.text = some price.value := by
  rw [text, DecimalText.parse_format, value]
  norm_num

end Price

def priceJson (price : Option Price) : Json := Json.nullable Json.str (price.map Price.text)

/-- The number that a text of a record is for `Decimal`. -/
def decimalOf : Json → Option ℚ
  | .str text => DecimalText.parse text
  | _ => none

theorem decimalOf_priceJson (price : Option Price) :
    Json.asNullable decimalOf (priceJson price) = some (price.map Price.value) := by
  cases price with
  | none => rfl
  | some price =>
      change (DecimalText.parse price.text).map some = _
      rw [price.parse_text]
      rfl

theorem priceJson_canonical (price : Option Price) : (priceJson price).Canonical :=
  Json.Canonical.nullable Json.Canonical.str (price.map Price.text)

/-- The reasons of a plan or an observation. -/
def checkReasons (raw : List Text) : Except String (List RequiredText) :=
  orRaise (raw.mapM RequiredText.ofText?) "reason_codes cannot contain empty values"

@[simp] theorem checkReasons_texts (reasons : List RequiredText) :
    checkReasons (reasons.map RequiredText.text) = .ok reasons := by
  rw [checkReasons, Json.mapM_map_some RequiredText.ofText?_text]
  rfl

/-! ### Plans -/

/-- The boundaries of the entry are all there, in their order, or none of them is. -/
def boundariesConsistent : (invalidation lower upper maximum : Option Price) → Bool
  | none, none, none, none => true
  | some invalidation, some lower, some upper, some maximum =>
      invalidation.cents < lower.cents ∧ lower.cents ≤ upper.cents ∧ upper.cents ≤ maximum.cents
  | _, _, _, _ => false

def reduceConsistent : (lower upper : Option Price) → Bool
  | none, none => true
  | some lower, some upper => lower.cents ≤ upper.cents
  | _, _ => false

structure PriceGuidancePlan where
  planId : RequiredText
  symbol : Symbol
  planType : PricePlanType
  guidanceLevel : GuidanceLevel
  state : GuidanceState
  calculationDate : Date
  validFor : Date
  entryLower : Option Price
  entryUpper : Option Price
  maximumAcceptablePrice : Option Price
  invalidationPrice : Option Price
  protectionPrice : Option Price
  reduceLower : Option Price
  reduceUpper : Option Price
  suggestedQuantity : ℕ
  evidenceCutoff : UtcDateTime
  modelVersion : RequiredText
  featureVersion : RequiredText
  configVersion : RequiredText
  dataVersion : RequiredText
  reasonCodes : List RequiredText
  validLater : calculationDate < validFor
  boundaries :
    boundariesConsistent invalidationPrice entryLower entryUpper maximumAcceptablePrice = true
  reduce : reduceConsistent reduceLower reduceUpper = true
  researchQuantity : guidanceLevel = .researchReference → suggestedQuantity = 0
  deriving DecidableEq

/-- The prices of a plan as they are given to its constructor. -/
structure RawPrices where
  entryLower : Option ℚ
  entryUpper : Option ℚ
  maximumAcceptablePrice : Option ℚ
  invalidationPrice : Option ℚ
  protectionPrice : Option ℚ
  reduceLower : Option ℚ
  reduceUpper : Option ℚ

namespace PriceGuidancePlan

/-- The constructor of a plan that is executed by hand. -/
def create (planId symbol : Text) (planType : PricePlanType) (guidanceLevel : GuidanceLevel)
    (state : GuidanceState) (calculationDate validFor : Date) (prices : RawPrices)
    (suggestedQuantity : ℤ) (evidenceCutoff : UtcDateTime)
    (modelVersion featureVersion configVersion dataVersion : Text) (reasonCodes : List Text)
    (manualExecutionRequired : Bool) : Except String PriceGuidancePlan := do
  let planId ← RequiredText.check "plan_id" planId
  let symbol ← checkSymbol symbol
  if validLater : calculationDate < validFor then
    let entryLower ← Price.check "entry_lower" prices.entryLower
    let entryUpper ← Price.check "entry_upper" prices.entryUpper
    let maximumAcceptablePrice ←
      Price.check "maximum_acceptable_price" prices.maximumAcceptablePrice
    let invalidationPrice ← Price.check "invalidation_price" prices.invalidationPrice
    let protectionPrice ← Price.check "protection_price" prices.protectionPrice
    let reduceLower ← Price.check "reduce_lower" prices.reduceLower
    let reduceUpper ← Price.check "reduce_upper" prices.reduceUpper
    if boundaries : boundariesConsistent invalidationPrice entryLower entryUpper
        maximumAcceptablePrice = true then
      if reduce : reduceConsistent reduceLower reduceUpper = true then
        require (0 ≤ suggestedQuantity) "suggested_quantity must be a non-negative integer"
        if researchQuantity : guidanceLevel = .researchReference → suggestedQuantity.toNat = 0 then
          require (manualExecutionRequired = true) "manual execution is required"
          let modelVersion ← RequiredText.check "model_version" modelVersion
          let featureVersion ← RequiredText.check "feature_version" featureVersion
          let configVersion ← RequiredText.check "config_version" configVersion
          let dataVersion ← RequiredText.check "data_version" dataVersion
          let reasonCodes ← checkReasons reasonCodes
          return {
            planId
            symbol
            planType
            guidanceLevel
            state
            calculationDate
            validFor
            entryLower
            entryUpper
            maximumAcceptablePrice
            invalidationPrice
            protectionPrice
            reduceLower
            reduceUpper
            suggestedQuantity := suggestedQuantity.toNat
            evidenceCutoff
            modelVersion
            featureVersion
            configVersion
            dataVersion
            reasonCodes
            validLater
            boundaries
            reduce
            researchQuantity }
        else .error "research guidance quantity must be zero"
      else .error "price boundaries are inconsistent"
    else .error "price boundaries are inconsistent"
  else .error "valid_for must be after calculation_date"

/-- What a plan keeps of the arguments of its constructor. -/
structure MadeFrom (plan : PriceGuidancePlan) (symbol : Text) (planType : PricePlanType)
    (calculationDate validFor : Date) (prices : RawPrices) (featureVersion dataVersion : Text) :
    Prop where
  symbol : checkSymbol symbol = .ok plan.symbol
  planType : plan.planType = planType
  validLater : calculationDate < validFor
  entryLower : Price.check "entry_lower" prices.entryLower = .ok plan.entryLower
  entryUpper : Price.check "entry_upper" prices.entryUpper = .ok plan.entryUpper
  maximumAcceptablePrice : Price.check "maximum_acceptable_price" prices.maximumAcceptablePrice =
    .ok plan.maximumAcceptablePrice
  invalidationPrice : Price.check "invalidation_price" prices.invalidationPrice =
    .ok plan.invalidationPrice
  protectionPrice : Price.check "protection_price" prices.protectionPrice =
    .ok plan.protectionPrice
  reduceLower : Price.check "reduce_lower" prices.reduceLower = .ok plan.reduceLower
  reduceUpper : Price.check "reduce_upper" prices.reduceUpper = .ok plan.reduceUpper
  featureVersion : RequiredText.check "feature_version" featureVersion = .ok plan.featureVersion
  dataVersion : RequiredText.check "data_version" dataVersion = .ok plan.dataVersion

theorem create_madeFrom {planId symbol : Text} {planType : PricePlanType}
    {guidanceLevel : GuidanceLevel} {state : GuidanceState} {calculationDate validFor : Date}
    {prices : RawPrices} {suggestedQuantity : ℤ} {evidenceCutoff : UtcDateTime}
    {modelVersion featureVersion configVersion dataVersion : Text} {reasonCodes : List Text}
    {manualExecutionRequired : Bool} {plan : PriceGuidancePlan}
    (h : create planId symbol planType guidanceLevel state calculationDate validFor prices
      suggestedQuantity evidenceCutoff modelVersion featureVersion configVersion dataVersion
      reasonCodes manualExecutionRequired = .ok plan) :
    MadeFrom plan symbol planType calculationDate validFor prices featureVersion dataVersion := by
  obtain ⟨_, _, h⟩ := bind_eq_ok_iff.mp h
  obtain ⟨_, hsymbol, h⟩ := bind_eq_ok_iff.mp h
  split at h
  · rename_i hvalid
    obtain ⟨_, hlower, h⟩ := bind_eq_ok_iff.mp h
    obtain ⟨_, hupper, h⟩ := bind_eq_ok_iff.mp h
    obtain ⟨_, hmaximum, h⟩ := bind_eq_ok_iff.mp h
    obtain ⟨_, hinvalidation, h⟩ := bind_eq_ok_iff.mp h
    obtain ⟨_, hprotection, h⟩ := bind_eq_ok_iff.mp h
    obtain ⟨_, hreduceLower, h⟩ := bind_eq_ok_iff.mp h
    obtain ⟨_, hreduceUpper, h⟩ := bind_eq_ok_iff.mp h
    split at h
    · split at h
      · obtain ⟨_, _, h⟩ := bind_eq_ok_iff.mp h
        split at h
        · obtain ⟨_, _, h⟩ := bind_eq_ok_iff.mp h
          obtain ⟨_, _, h⟩ := bind_eq_ok_iff.mp h
          obtain ⟨_, hfeature, h⟩ := bind_eq_ok_iff.mp h
          obtain ⟨_, _, h⟩ := bind_eq_ok_iff.mp h
          obtain ⟨_, hdata, h⟩ := bind_eq_ok_iff.mp h
          obtain ⟨_, _, h⟩ := bind_eq_ok_iff.mp h
          cases h
          exact ⟨hsymbol, rfl, hvalid, hlower, hupper, hmaximum, hinvalidation, hprotection,
            hreduceLower, hreduceUpper, hfeature, hdata⟩
        · cases h
      · cases h
    · cases h
  · cases h

def rawPrices (plan : PriceGuidancePlan) : RawPrices where
  entryLower := plan.entryLower.map Price.value
  entryUpper := plan.entryUpper.map Price.value
  maximumAcceptablePrice := plan.maximumAcceptablePrice.map Price.value
  invalidationPrice := plan.invalidationPrice.map Price.value
  protectionPrice := plan.protectionPrice.map Price.value
  reduceLower := plan.reduceLower.map Price.value
  reduceUpper := plan.reduceUpper.map Price.value

/-- A plan with other text for its identity and of another kind is accepted too. -/
theorem create_again (plan : PriceGuidancePlan) {raw : Text} {planId : RequiredText}
    (h : RequiredText.check "plan_id" raw = .ok planId) (planType : PricePlanType) :
    create raw plan.symbol.text planType plan.guidanceLevel plan.state
      plan.calculationDate plan.validFor plan.rawPrices plan.suggestedQuantity plan.evidenceCutoff
      plan.modelVersion.text plan.featureVersion.text plan.configVersion.text plan.dataVersion.text
      (plan.reasonCodes.map RequiredText.text) true = .ok { plan with planId, planType } := by
  have hquantity : require (0 ≤ (plan.suggestedQuantity : ℤ))
      "suggested_quantity must be a non-negative integer" = .ok () :=
    require_eq_ok_iff.mpr (Int.natCast_nonneg _)
  have hresearch : plan.guidanceLevel = .researchReference →
      (plan.suggestedQuantity : ℤ).toNat = 0 := plan.researchQuantity
  rw [create]
  simp only [h, RequiredText.check_text, checkSymbol_text, rawPrices,
    Price.check_value, checkReasons_texts, bind, Except.bind, dif_pos plan.validLater,
    dif_pos plan.boundaries, dif_pos plan.reduce, hquantity, dif_pos hresearch]
  rfl

/-- A plan is accepted unchanged when it is checked again. -/
theorem create_self (plan : PriceGuidancePlan) :
    create plan.planId.text plan.symbol.text plan.planType plan.guidanceLevel plan.state
      plan.calculationDate plan.validFor plan.rawPrices plan.suggestedQuantity plan.evidenceCutoff
      plan.modelVersion.text plan.featureVersion.text plan.configVersion.text plan.dataVersion.text
      (plan.reasonCodes.map RequiredText.text) true = .ok plan :=
  plan.create_again (RequiredText.check_text _ _) plan.planType

/-- A plan without a quantity is accepted if each of its fields is. -/
theorem exists_create {planId symbol : Text} {planType : PricePlanType}
    {guidanceLevel : GuidanceLevel} {state : GuidanceState} {calculationDate validFor : Date}
    {prices : RawPrices} {evidenceCutoff : UtcDateTime}
    {modelVersion featureVersion configVersion dataVersion : Text} {reasonCodes : List Text}
    {entryLower entryUpper maximumAcceptablePrice invalidationPrice protectionPrice reduceLower
      reduceUpper : Option Price}
    (hplanId : Text.strip planId ≠ []) {checked : Symbol}
    (hsymbol : checkSymbol symbol = .ok checked)
    (hvalid : calculationDate < validFor)
    (hentryLower : Price.check "entry_lower" prices.entryLower = .ok entryLower)
    (hentryUpper : Price.check "entry_upper" prices.entryUpper = .ok entryUpper)
    (hmaximum : Price.check "maximum_acceptable_price" prices.maximumAcceptablePrice =
      .ok maximumAcceptablePrice)
    (hinvalidation : Price.check "invalidation_price" prices.invalidationPrice =
      .ok invalidationPrice)
    (hprotection : Price.check "protection_price" prices.protectionPrice = .ok protectionPrice)
    (hreduceLower : Price.check "reduce_lower" prices.reduceLower = .ok reduceLower)
    (hreduceUpper : Price.check "reduce_upper" prices.reduceUpper = .ok reduceUpper)
    (hboundaries : boundariesConsistent invalidationPrice entryLower entryUpper
      maximumAcceptablePrice = true)
    (hreduce : reduceConsistent reduceLower reduceUpper = true)
    (hmodel : Text.strip modelVersion ≠ []) (hfeature : Text.strip featureVersion ≠ [])
    (hconfig : Text.strip configVersion ≠ []) (hdata : Text.strip dataVersion ≠ [])
    {reasons : List RequiredText} (hreasons : checkReasons reasonCodes = .ok reasons) :
    ∃ plan, create planId symbol planType guidanceLevel state calculationDate
      validFor prices 0 evidenceCutoff modelVersion featureVersion configVersion dataVersion
      reasonCodes true = .ok plan := by
  have hquantity : guidanceLevel = .researchReference → (0 : ℤ).toNat = 0 := fun _ => rfl
  simp only [create, RequiredText.check, dif_neg hplanId, hsymbol,
    dif_pos hvalid, hentryLower, hentryUpper, hmaximum, hinvalidation, hprotection, hreduceLower,
    hreduceUpper, dif_pos hboundaries, dif_pos hreduce, require, le_refl, if_true,
    dif_pos hquantity, dif_neg hmodel, dif_neg hfeature, dif_neg hconfig, dif_neg hdata, hreasons,
    bind, Except.bind]
  exact ⟨_, rfl⟩

def fields : List Text :=
  ["calculation_date".toList, "config_version".toList, "data_version".toList,
    "entry_lower".toList, "entry_upper".toList, "evidence_cutoff".toList,
    "feature_version".toList, "guidance_level".toList, "invalidation_price".toList,
    "manual_execution_required".toList, "maximum_acceptable_price".toList,
    "model_version".toList, "plan_id".toList, "plan_type".toList, "protection_price".toList,
    "reason_codes".toList, "reduce_lower".toList, "reduce_upper".toList, "state".toList,
    "suggested_quantity".toList, "symbol".toList, "valid_for".toList]

/-- `to_dict`, with its keys in the order in which they are written. -/
def toDict (plan : PriceGuidancePlan) : Json :=
  .obj [("calculation_date".toList, .str plan.calculationDate.isoformat),
    ("config_version".toList, .str plan.configVersion.text),
    ("data_version".toList, .str plan.dataVersion.text),
    ("entry_lower".toList, priceJson plan.entryLower),
    ("entry_upper".toList, priceJson plan.entryUpper),
    ("evidence_cutoff".toList, .str plan.evidenceCutoff.isoformat),
    ("feature_version".toList, .str plan.featureVersion.text),
    ("guidance_level".toList, .str plan.guidanceLevel.value),
    ("invalidation_price".toList, priceJson plan.invalidationPrice),
    ("manual_execution_required".toList, .bool true),
    ("maximum_acceptable_price".toList, priceJson plan.maximumAcceptablePrice),
    ("model_version".toList, .str plan.modelVersion.text),
    ("plan_id".toList, .str plan.planId.text),
    ("plan_type".toList, .str plan.planType.value),
    ("protection_price".toList, priceJson plan.protectionPrice),
    ("reason_codes".toList, .arr ((plan.reasonCodes.map RequiredText.text).map Json.str)),
    ("reduce_lower".toList, priceJson plan.reduceLower),
    ("reduce_upper".toList, priceJson plan.reduceUpper),
    ("state".toList, .str plan.state.value),
    ("suggested_quantity".toList, .int plan.suggestedQuantity),
    ("symbol".toList, .str plan.symbol.text),
    ("valid_for".toList, .str plan.validFor.isoformat)]

/-- Whether a plan is executed by hand, which it is unless its record says otherwise. -/
def manualExecution? (payload : Json) : Option Bool :=
  if payload.hasKeys (fields.filter (· ≠ "manual_execution_required".toList)) = true then some true
  else if payload.hasKeys fields = true then
    payload.field "manual_execution_required" Json.asBool
  else none

def decodePrice (key : String) (payload : Json) : Option (Option ℚ) :=
  payload.field key (Json.asNullable decimalOf)

def decodePrices (payload : Json) : Option RawPrices := do
  let entryLower ← decodePrice "entry_lower" payload
  let entryUpper ← decodePrice "entry_upper" payload
  let maximumAcceptablePrice ← decodePrice "maximum_acceptable_price" payload
  let invalidationPrice ← decodePrice "invalidation_price" payload
  let protectionPrice ← decodePrice "protection_price" payload
  let reduceLower ← decodePrice "reduce_lower" payload
  let reduceUpper ← decodePrice "reduce_upper" payload
  return { entryLower, entryUpper, maximumAcceptablePrice, invalidationPrice, protectionPrice,
           reduceLower, reduceUpper }

def fromDict (payload : Json) : Option PriceGuidancePlan := do
  let manualExecutionRequired ← manualExecution? payload
  let planType ← (payload.text? "plan_type").bind PricePlanType.ofValue?
  let guidanceLevel ← (payload.text? "guidance_level").bind GuidanceLevel.ofValue?
  let state ← (payload.text? "state").bind GuidanceState.ofValue?
  let calculationDate ← (payload.text? "calculation_date").bind Date.fromisoformat
  let validFor ← (payload.text? "valid_for").bind Date.fromisoformat
  let evidenceCutoff ← (payload.text? "evidence_cutoff").bind UtcDateTime.fromisoformat
  let reasonCodes ← payload.field "reason_codes" Json.asTexts
  let planId ← payload.text? "plan_id"
  let symbol ← payload.text? "symbol"
  let prices ← decodePrices payload
  let suggestedQuantity ← payload.field "suggested_quantity" Json.asInt
  let modelVersion ← payload.text? "model_version"
  let featureVersion ← payload.text? "feature_version"
  let configVersion ← payload.text? "config_version"
  let dataVersion ← payload.text? "data_version"
  (create planId symbol planType guidanceLevel state calculationDate validFor prices
    suggestedQuantity evidenceCutoff modelVersion featureVersion configVersion dataVersion
    reasonCodes manualExecutionRequired).toOption

theorem decodePrices_toDict (plan : PriceGuidancePlan) :
    decodePrices plan.toDict = some plan.rawPrices := by
  have hread : ∀ (key : String) (price : Option Price),
      plan.toDict.member? key.toList = some (priceJson price) →
        decodePrice key plan.toDict = some (price.map Price.value) := by
    intro key price hmember
    rw [decodePrice, Json.field, hmember]
    exact decimalOf_priceJson price
  rw [decodePrices, hread "entry_lower" plan.entryLower rfl,
    hread "entry_upper" plan.entryUpper rfl,
    hread "maximum_acceptable_price" plan.maximumAcceptablePrice rfl,
    hread "invalidation_price" plan.invalidationPrice rfl,
    hread "protection_price" plan.protectionPrice rfl,
    hread "reduce_lower" plan.reduceLower rfl, hread "reduce_upper" plan.reduceUpper rfl]
  rfl

/-- A written plan is read back. -/
theorem fromDict_toDict (plan : PriceGuidancePlan) : fromDict plan.toDict = some plan := by
  have hmanual : manualExecution? plan.toDict = some true := rfl
  have htype : plan.toDict.text? "plan_type" = some plan.planType.value := rfl
  have hlevel : plan.toDict.text? "guidance_level" = some plan.guidanceLevel.value := rfl
  have hstate : plan.toDict.text? "state" = some plan.state.value := rfl
  have hcalculation : plan.toDict.text? "calculation_date" =
      some plan.calculationDate.isoformat := rfl
  have hvalid : plan.toDict.text? "valid_for" = some plan.validFor.isoformat := rfl
  have hevidence : plan.toDict.text? "evidence_cutoff" = some plan.evidenceCutoff.isoformat := rfl
  have hreasons : plan.toDict.field "reason_codes" Json.asTexts =
      some (plan.reasonCodes.map RequiredText.text) := Json.asTexts_map _
  have hid : plan.toDict.text? "plan_id" = some plan.planId.text := rfl
  have hsymbol : plan.toDict.text? "symbol" = some plan.symbol.text := rfl
  have hquantity : plan.toDict.field "suggested_quantity" Json.asInt =
      some (plan.suggestedQuantity : ℤ) := rfl
  have hmodel : plan.toDict.text? "model_version" = some plan.modelVersion.text := rfl
  have hfeature : plan.toDict.text? "feature_version" = some plan.featureVersion.text := rfl
  have hconfig : plan.toDict.text? "config_version" = some plan.configVersion.text := rfl
  have hdata : plan.toDict.text? "data_version" = some plan.dataVersion.text := rfl
  rw [fromDict, hmanual, htype, hlevel, hstate, hcalculation, hvalid, hevidence, hreasons, hid,
    hsymbol, decodePrices_toDict, hquantity, hmodel, hfeature, hconfig, hdata]
  simp only [Option.bind_eq_bind, Option.bind_some, PricePlanType.ofValue?_value,
    GuidanceLevel.ofValue?_value, GuidanceState.ofValue?_value, Date.fromisoformat_isoformat,
    UtcDateTime.fromisoformat_isoformat, plan.create_self]
  rfl

theorem toDict_canonical (plan : PriceGuidancePlan) : plan.toDict.Canonical := by
  have hreasons := Json.Canonical.arr_map Json.Canonical.str
    (plan.reasonCodes.map RequiredText.text)
  refine Json.Canonical.obj fields rfl (by decide) ?_
  simp [-List.map_map, Json.Canonical.str, Json.Canonical.int, Json.Canonical.bool,
    priceJson_canonical, hreasons]

/-- A research plan without prices. -/
def reference : PriceGuidancePlan where
  planId := .of "price-600000".toList
  symbol := ⟨"600000".toList, Eq.refl true⟩
  planType := .dailyCandidate
  guidanceLevel := .researchReference
  state := .researchReference
  calculationDate := .of 2026 1 5
  validFor := .of 2026 1 6
  entryLower := none
  entryUpper := none
  maximumAcceptablePrice := none
  invalidationPrice := none
  protectionPrice := none
  reduceLower := none
  reduceUpper := none
  suggestedQuantity := 0
  evidenceCutoff := ⟨.of 2026 1 5, 0, 0, 0, 0⟩
  modelVersion := .of "rule-v1".toList
  featureVersion := .of "price-features-v1".toList
  configVersion := .of "price-guidance-rule-v1".toList
  dataVersion := .of "lake".toList
  reasonCodes := []
  validLater := by decide
  boundaries := rfl
  reduce := rfl
  researchQuantity _ := rfl

end PriceGuidancePlan

/-! ### Observations -/

structure PriceGuidanceObservation where
  observationId : RequiredText
  planId : RequiredText
  symbol : Symbol
  observedAt : UtcDateTime
  quoteTimestamp : UtcDateTime
  currentPrice : Option Price
  dataQuality : DataQuality
  state : GuidanceState
  reasonCodes : List RequiredText
  deriving DecidableEq

namespace PriceGuidanceObservation

/-- No later than five minutes from now, which is given in microseconds. -/
def InTime (observation : PriceGuidanceObservation) (now : ℤ) : Prop :=
  observation.observedAt.microseconds ≤ now + 5 * 60 * 1000000

instance (observation : PriceGuidanceObservation) (now : ℤ) : Decidable (observation.InTime now) :=
  inferInstanceAs (Decidable (_ ≤ _))

variable [CaseTable]

/-- The constructor of an observation at some time. -/
def create (now : ℤ) (observationId planId symbol : Text) (observedAt quoteTimestamp : UtcDateTime)
    (currentPrice : Option ℚ) (dataQuality : Text) (state : GuidanceState)
    (reasonCodes : List Text) : Except String PriceGuidanceObservation := do
  let observationId ← RequiredText.check "observation_id" observationId
  let planId ← RequiredText.check "plan_id" planId
  let symbol ← checkSymbol symbol
  require (observedAt.microseconds ≤ now + 5 * 60 * 1000000) "observed_at cannot be in the future"
  let currentPrice ← Price.check "current_price" currentPrice
  let dataQuality ← orRaise (DataQuality.ofText? dataQuality) "invalid data quality"
  let reasonCodes ← checkReasons reasonCodes
  return { observationId, planId, symbol, observedAt, quoteTimestamp, currentPrice, dataQuality,
           state, reasonCodes }

/-- An observation that is in time is accepted unchanged when it is checked again. -/
theorem create_self {observation : PriceGuidanceObservation} {now : ℤ} (h : observation.InTime now)
    :
    create now observation.observationId.text observation.planId.text observation.symbol.text
      observation.observedAt observation.quoteTimestamp
      (observation.currentPrice.map Price.value) observation.dataQuality.value observation.state
      (observation.reasonCodes.map RequiredText.text) = .ok observation := by
  have htime : require (observation.observedAt.microseconds ≤ now + 5 * 60 * 1000000)
      "observed_at cannot be in the future" = .ok () := require_eq_ok_iff.mpr h
  rw [create]
  simp only [RequiredText.check_text, checkSymbol_text, Price.check_value, checkReasons_texts, bind,
    Except.bind, htime, DataQuality.ofText?_value]
  rfl

def fields : List Text :=
  ["current_price".toList, "data_quality".toList, "observation_id".toList, "observed_at".toList,
    "plan_id".toList, "quote_timestamp".toList, "reason_codes".toList, "state".toList,
    "symbol".toList]

/-- `to_dict`, with its keys in the order in which they are written. -/
def toDict (observation : PriceGuidanceObservation) : Json :=
  .obj [("current_price".toList, priceJson observation.currentPrice),
    ("data_quality".toList, .str observation.dataQuality.value),
    ("observation_id".toList, .str observation.observationId.text),
    ("observed_at".toList, .str observation.observedAt.isoformat),
    ("plan_id".toList, .str observation.planId.text),
    ("quote_timestamp".toList, .str observation.quoteTimestamp.isoformat),
    ("reason_codes".toList, .arr ((observation.reasonCodes.map RequiredText.text).map Json.str)),
    ("state".toList, .str observation.state.value),
    ("symbol".toList, .str observation.symbol.text)]

/-- `from_dict`, which makes the observation at the time of reading. -/
def fromDict (now : ℤ) (payload : Json) : Option PriceGuidanceObservation := do
  guard (payload.hasKeys fields = true)
  let observedAt ← (payload.text? "observed_at").bind UtcDateTime.fromisoformat
  let quoteTimestamp ← (payload.text? "quote_timestamp").bind UtcDateTime.fromisoformat
  let state ← (payload.text? "state").bind GuidanceState.ofValue?
  let reasonCodes ← payload.field "reason_codes" Json.asTexts
  let observationId ← payload.text? "observation_id"
  let planId ← payload.text? "plan_id"
  let symbol ← payload.text? "symbol"
  let currentPrice ← payload.field "current_price" (Json.asNullable decimalOf)
  let dataQuality ← payload.text? "data_quality"
  (create now observationId planId symbol observedAt quoteTimestamp currentPrice dataQuality state
    reasonCodes).toOption

/-- A written observation that is in time is read back. -/
theorem fromDict_toDict {observation : PriceGuidanceObservation} {now : ℤ}
    (h : observation.InTime now) : fromDict now observation.toDict = some observation := by
  have hkeys : observation.toDict.hasKeys fields = true := Json.hasKeys_obj fields rfl
  have hobserved : observation.toDict.text? "observed_at" =
      some observation.observedAt.isoformat := rfl
  have hquote : observation.toDict.text? "quote_timestamp" =
      some observation.quoteTimestamp.isoformat := rfl
  have hstate : observation.toDict.text? "state" = some observation.state.value := rfl
  have hreasons : observation.toDict.field "reason_codes" Json.asTexts =
      some (observation.reasonCodes.map RequiredText.text) := Json.asTexts_map _
  have hid : observation.toDict.text? "observation_id" =
      some observation.observationId.text := rfl
  have hplan : observation.toDict.text? "plan_id" = some observation.planId.text := rfl
  have hsymbol : observation.toDict.text? "symbol" = some observation.symbol.text := rfl
  have hprice : observation.toDict.field "current_price" (Json.asNullable decimalOf) =
      some (observation.currentPrice.map Price.value) := decimalOf_priceJson _
  have hquality : observation.toDict.text? "data_quality" =
      some observation.dataQuality.value := rfl
  rw [fromDict, hkeys, hobserved, hquote, hstate, hreasons, hid, hplan, hsymbol, hprice, hquality]
  simp only [guard, if_true, Option.bind_eq_bind, Option.bind_some, Option.pure_def,
    UtcDateTime.fromisoformat_isoformat, GuidanceState.ofValue?_value, create_self h]
  rfl

/-- What is accepted at one time is accepted at any later time. -/
theorem create_later {now later : ℤ} (hlater : now ≤ later) {observationId planId symbol : Text}
    {observedAt quoteTimestamp : UtcDateTime} {currentPrice : Option ℚ} {dataQuality : Text}
    {state : GuidanceState} {reasonCodes : List Text} {observation : PriceGuidanceObservation}
    (h : create now observationId planId symbol observedAt quoteTimestamp currentPrice dataQuality
      state reasonCodes = .ok observation) :
    create later observationId planId symbol observedAt quoteTimestamp currentPrice dataQuality
      state reasonCodes = .ok observation := by
  obtain ⟨_, hid, h⟩ := bind_eq_ok_iff.mp h
  obtain ⟨_, hplan, h⟩ := bind_eq_ok_iff.mp h
  obtain ⟨_, hsymbol, h⟩ := bind_eq_ok_iff.mp h
  obtain ⟨_, htime, h⟩ := bind_eq_ok_iff.mp h
  have hintime := require_eq_ok_iff.mp htime
  have hlaterTime : require (observedAt.microseconds ≤ later + 5 * 60 * 1000000)
      "observed_at cannot be in the future" = .ok () := require_eq_ok_iff.mpr (by omega)
  refine bind_eq_ok_iff.mpr ⟨_, hid, bind_eq_ok_iff.mpr ⟨_, hplan, ?_⟩⟩
  refine bind_eq_ok_iff.mpr ⟨_, hsymbol, bind_eq_ok_iff.mpr ⟨_, hlaterTime, ?_⟩⟩
  exact h

theorem fromDict_later {now later : ℤ} (hlater : now ≤ later) {payload : Json}
    {observation : PriceGuidanceObservation} (h : fromDict now payload = some observation) :
    fromDict later payload = some observation := by
  simp only [fromDict, Option.bind_eq_bind, Option.bind_eq_some_iff] at h ⊢
  obtain ⟨_, hkeys, _, hobserved, _, hquote, _, hstate, _, hreasons, _, hid, _, hplan, _, hsymbol,
    _,
    hprice, _, hquality, hcreate⟩ := h
  refine ⟨_, hkeys, _, hobserved, _, hquote, _, hstate, _, hreasons, _, hid, _, hplan, _, hsymbol,
    _,
    hprice, _, hquality, ?_⟩
  exact toOption_eq_some_iff.mpr (create_later hlater (toOption_eq_some_iff.mp hcreate))

omit [CaseTable] in
theorem InTime.mono {observation : PriceGuidanceObservation} {now later : ℤ}
    (h : observation.InTime now) (hlater : now ≤ later) : observation.InTime later := by
  unfold InTime at h ⊢
  omega

omit [CaseTable] in
theorem toDict_canonical (observation : PriceGuidanceObservation) :
    observation.toDict.Canonical := by
  have hreasons :=
    Json.Canonical.arr_map Json.Canonical.str (observation.reasonCodes.map RequiredText.text)
  refine Json.Canonical.obj fields rfl (by decide) ?_
  simp [-List.map_map, Json.Canonical.str, priceJson_canonical, hreasons]

end PriceGuidanceObservation

end QuantWorkbench.Advisory
