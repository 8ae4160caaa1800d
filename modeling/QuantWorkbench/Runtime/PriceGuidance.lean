import QuantWorkbench.Advisory.PriceEngine
import QuantWorkbench.Market.TradingCalendar
import QuantWorkbench.Storage.PriceGuidance

/-!
The refresh of price guidance: a plan for each symbol of the latest official signals, and for
each holding, computed from the daily bars of the lake and put in the place of the plans before.
-/

namespace QuantWorkbench.Runtime

open Lib Data Advisory QuantWorkbench.Storage

/-- What the features of price guidance read of a frame of daily bars. -/
class PriceBars (B : Type) where
  /-- The latest date of the frame, if it has one. -/
  latestDate : B → Option Date
  /-- `build_price_features` at a cutoff. -/
  features : B → Date → Except Text PriceFeatures

/-- A position that is held, with the protection price of its plan before, if it is known. -/
structure HoldingPosition where
  symbol : Symbol
  previousProtection : Option ℚ

/-! ### One plan -/

def reasonOf (message : Text) : Text :=
  let text := Text.strip message
  if text = "NO_RELIABLE_GUIDANCE".toList then text
  else if text = "STALE_DAILY_INPUT".toList then text
  else if "252".toList <:+: text then "INSUFFICIENT_HISTORY".toList
  else if "UNSUPPORTED_SECURITY_RULES".toList <:+: text then "UNSUPPORTED_SECURITY_RULES".toList
  else if "risk distance".toList <:+: text then "RISK_DISTANCE_INVALID".toList
  else "NO_RELIABLE_GUIDANCE".toList

def unavailablePlan (symbol : Symbol) (planType : PricePlanType) (calculation validFor : Date)
    (reasons : List Text) : Except String PriceGuidancePlan :=
  PriceGuidancePlan.create
    ("price-".toList ++ (symbol.text ++ '-' :: (planType.value.map Char.toLower ++
      '-' :: calculation.isoformat)))
    symbol.text planType .researchReference .noReliableGuidance calculation validFor
    ⟨none, none, none, none, none, none, none⟩ 0 ⟨calculation, 0, 0, 0, 0⟩ "rule-v1".toList
    "price-features-v1".toList planConfigVersion "unavailable".toList
    (if reasons = [] then ["NO_RELIABLE_GUIDANCE".toList] else reasons) true

/-- `str.replace` of the first occurrence. -/
def replaceFirst (old new : Text) : Text → Text
  | [] => []
  | c :: rest =>
      if old <+: c :: rest then new ++ (c :: rest).drop old.length
      else c :: replaceFirst old new rest

def asHoldingPlan (plan : PriceGuidancePlan) (reasons : List Text) :
    Except String PriceGuidancePlan :=
  PriceGuidancePlan.create
    (replaceFirst "price-".toList "price-holding-".toList plan.planId.text) plan.symbol.text
    .holding plan.guidanceLevel plan.state plan.calculationDate plan.validFor plan.rawPrices
    plan.suggestedQuantity plan.evidenceCutoff plan.modelVersion.text plan.featureVersion.text
    plan.configVersion.text plan.dataVersion.text reasons true

variable {B : Type} [PriceBars B]

/-- What `generate` tries for one symbol. -/
def tryPlan (bars : Option B) (position : Option HoldingPosition) (requireCurrentSession : Bool)
    (planType : PricePlanType) (calculation validFor : Date) :
    Except GuidanceError PriceGuidancePlan := do
  let bars ← orRaise bars (.other "NO_RELIABLE_GUIDANCE".toList)
  require (requireCurrentSession = true → PriceBars.latestDate bars = some calculation)
    (.other "STALE_DAILY_INPUT".toList)
  let features ← (PriceBars.features bars calculation).mapError .other
  let previous := position.bind HoldingPosition.previousProtection
  let corporateAction : Bool :=
    previous ≠ none ∧ 1 / 1000000 < |features.adjustmentFactor - 1|
  let plan ← candidatePlan features false (if corporateAction = true then none else previous)
    calculation validFor
  match planType with
  | .dailyCandidate => return plan
  | .holding =>
      planError (asHoldingPlan plan (plan.reasonCodes.map RequiredText.text ++
        (if corporateAction = true then ["CORPORATE_ACTION_RECALCULATED".toList] else []) ++
        (if previous ≠ none then ["PREVIOUS_PROTECTION_REBASED".toList] else [])))

/-- The plan of one symbol, which is an unavailable one where the attempt raises. -/
def guidancePlan (bars : Option B) (position : Option HoldingPosition)
    (requireCurrentSession : Bool) (symbol : Symbol) (planType : PricePlanType)
    (calculation validFor : Date) : Except String PriceGuidancePlan :=
  match tryPlan bars position requireCurrentSession planType calculation validFor with
  | .ok plan => .ok plan
  | .error (.validation reasons) => unavailablePlan symbol planType calculation validFor reasons
  | .error (.other message) =>
      unavailablePlan symbol planType calculation validFor [reasonOf message]

/-! ### All plans -/

def requestOrder (request : Symbol × PricePlanType) : Text ×ₗ Text :=
  toLex (request.1.text, request.2.value)

/-- The symbols with the kinds of their plans, each once and in order. -/
def requestedPlans (candidateSymbols : List Symbol) (positions : List HoldingPosition) :
    List (Symbol × PricePlanType) :=
  ((candidateSymbols.map fun symbol => (symbol, PricePlanType.dailyCandidate)) ++
    positions.map fun position => (position.symbol, PricePlanType.holding)).dedup.insertionSort
      fun request other => requestOrder request ≤ requestOrder other

/-- `PriceGuidanceRuntime.generate` up to the store. -/
def generatePlans (bars : Symbol → Option B) (candidateSymbols : List Symbol)
    (positions : List HoldingPosition) (requireCurrentSession : Bool)
    (calculation validFor : Date) : Except String (List PriceGuidancePlan) := do
  require (calculation < validFor) "valid_for must be after calculation_date"
  (requestedPlans candidateSymbols positions).mapM fun request =>
    guidancePlan (bars request.1)
      (positions.reverse.find? fun position => position.symbol = request.1) requireCurrentSession
      request.1 request.2 calculation validFor

/-! ### The refresh -/

/-- What the refresh reads of an official signal. -/
structure CandidateSignal where
  symbol : Symbol
  dataCutoff : Date

/-- The surroundings of a refresh: the latest official signals, the bars of the lake, and what
fails. -/
structure RefreshRequest (B : Type) where
  signals : List CandidateSignal
  bars : Symbol → Option B
  loadFault : Option String
  firstFault : Option String
  secondFault : Option String

namespace RefreshRequest

def candidateSymbols (request : RefreshRequest B) : List Symbol :=
  request.signals.map CandidateSignal.symbol

/-- The latest cutoff of the signals, if there are any. -/
def calculation? (request : RefreshRequest B) : Option Date :=
  match request.signals with
  | [] => none
  | first :: rest => some ((rest.map CandidateSignal.dataCutoff).foldl max first.dataCutoff)

end RefreshRequest

/-- The plans of a refresh, unless there is no bar at all and no holding to be looked at. -/
def refreshPlans (request : RefreshRequest B) (holdingSymbols : Option (List Symbol))
    (calculation : Date) : Except String (Option (List PriceGuidancePlan)) := do
  let validFor ← Market.nextSession calculation
  if let some error := request.loadFault then
    .error error
  let holdings := holdingSymbols.getD []
  if holdingSymbols = none ∧ ∀ symbol ∈ request.candidateSymbols, (request.bars symbol).isNone then
    return none
  else
    let plans ← generatePlans request.bars request.candidateSymbols
      (holdings.map fun symbol => ⟨symbol, none⟩) holdingSymbols.isSome calculation validFor
    return some plans

def storePlans (memory : GuidanceMemory) (plans : List PriceGuidancePlan) (fault : Option String) :
    Except String GuidanceMemory := do
  let changed ← replacePlans memory plans
  let _ ← persistGuidance changed fault
  return changed

def holdingPlans (memory : GuidanceMemory) : List PriceGuidancePlan :=
  memory.planList.filter fun plan => plan.planType = .holding

/-- `load_or_generate_price_guidance_store` on a store that was opened: the contents that its file
has one after the other. A process that is killed leaves one of them, and one that returns or
raises the last. -/
def refreshStates (memory : GuidanceMemory) (request : RefreshRequest B)
    (holdingSymbols : Option (List Symbol)) : List GuidanceMemory :=
  match request.calculation? with
  | none => [memory]
  | some calculation =>
      match refreshPlans request holdingSymbols calculation with
      | .error _ => [memory]
      | .ok none => [memory]
      | .ok (some plans) =>
          match storePlans memory plans request.firstFault with
          | .error _ => [memory]
          | .ok replaced =>
              if holdingPlans memory ≠ [] ∧ holdingSymbols = none then
                match storePlans replaced (plans ++ holdingPlans memory) request.secondFault with
                | .error _ => [memory, replaced]
                | .ok restored => [memory, replaced, restored]
              else [memory, replaced]

end QuantWorkbench.Runtime
