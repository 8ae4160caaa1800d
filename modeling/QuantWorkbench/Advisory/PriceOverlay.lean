import QuantWorkbench.Advisory.PriceContracts
import QuantWorkbench.Data.RealtimeQuality

/-!
`PriceGuidanceOverlay` of `advisory/price_overlay.py`: the state of a frozen plan at one quote. The
overlay reads the plan and writes nothing.
-/

namespace QuantWorkbench.Advisory

open Lib Data

/-- A `datetime` with an offset from universal time, in seconds, and the same moment there. -/
structure AwareDateTime where
  wall : UtcDateTime
  offset : ℤ
  utc : UtcDateTime
  sameMoment : Day.instant wall offset = utc.microseconds
  deriving DecidableEq

namespace AwareDateTime

def date (moment : AwareDateTime) : Date := moment.wall.date

def isoformat (moment : AwareDateTime) : Text :=
  Day.isoformat (.datetime moment.wall (some moment.offset))

end AwareDateTime

/-- The entries of a quote that the overlay reads; a price is given as a text. -/
structure OverlayQuote where
  currentPrice : Option Text
  dataQuality : DataQualityStatus
  quoteTimestamp : Option AwareDateTime
  observedAt : Option AwareDateTime

structure PriceGuidanceObservationResult where
  planId : RequiredText
  symbol : Symbol
  state : GuidanceState
  currentPrice : Option ℚ
  entryLower : Option Price
  entryUpper : Option Price
  maximumAcceptablePrice : Option Price
  invalidationPrice : Option Price
  quoteTimestamp : Option UtcDateTime
  observedAt : UtcDateTime
  dataQuality : DataQualityStatus
  reasonCodes : List Text

namespace PriceGuidanceOverlay

def observedPrice : Option Text → Except String (Option ℚ)
  | none => return none
  | some text =>
      match DecimalText.parse text with
      | none => .error "current price must be positive"
      | some price =>
          if 0 < price then return some price else .error "current price must be positive"

def stateAt (plan : PriceGuidancePlan) (quality : DataQualityStatus)
    (timestamp : Option UtcDateTime) : Option ℚ → GuidanceState × Text
  | none => (.noReliableGuidance, "DATA_QUALITY_NOT_GOOD".toList)
  | some price =>
      if quality ≠ .good ∨ timestamp = none then
        (.noReliableGuidance, "DATA_QUALITY_NOT_GOOD".toList)
      else if plan.invalidationPrice.any fun bound => price < bound.value then
        (.invalidated, "PRICE_BELOW_INVALIDATION".toList)
      else if plan.maximumAcceptablePrice.any fun bound => bound.value < price then
        (.priceTooHigh, "PRICE_ABOVE_MAXIMUM".toList)
      else if (plan.entryLower.any fun bound => bound.value ≤ price) ∧
          (plan.entryUpper.any fun bound => price ≤ bound.value) then
        (if plan.guidanceLevel = .conditionsMet then .conditionsMet else .researchReference,
          "IN_ENTRY_RANGE".toList)
      else (.waitForPrice, "WAIT_FOR_ENTRY_RANGE".toList)

def evaluate (plan : PriceGuidancePlan) (quote : OverlayQuote) (now : AwareDateTime) :
    Except String PriceGuidanceObservationResult := do
  require (now.date ≤ plan.validFor) "plan is no longer valid"
  let quoteTimestamp := quote.quoteTimestamp.map AwareDateTime.utc
  let observedAt := (quote.observedAt.map AwareDateTime.utc).getD now.utc
  require (observedAt ≤ now.utc) "observed_at is in the future"
  require (∀ timestamp ∈ quoteTimestamp, timestamp ≤ now.utc) "quote timestamp is in the future"
  let currentPrice ← observedPrice quote.currentPrice
  return {
    planId := plan.planId
    symbol := plan.symbol
    state := (stateAt plan quote.dataQuality quoteTimestamp currentPrice).1
    currentPrice
    entryLower := plan.entryLower
    entryUpper := plan.entryUpper
    maximumAcceptablePrice := plan.maximumAcceptablePrice
    invalidationPrice := plan.invalidationPrice
    quoteTimestamp
    observedAt
    dataQuality := quote.dataQuality
    reasonCodes := [(stateAt plan quote.dataQuality quoteTimestamp currentPrice).2] }

theorem stateAt_unreliable {plan : PriceGuidancePlan} {quality : DataQualityStatus}
    {timestamp : Option UtcDateTime} {price : Option ℚ} (h : quality ≠ .good) :
    (stateAt plan quality timestamp price).1 = .noReliableGuidance := by
  cases price with
  | none => rfl
  | some price => rw [stateAt, if_pos (Or.inl h)]

/-- An evaluation that succeeds is of a plan in its time, at a quote of the past. -/
structure InTime (plan : PriceGuidancePlan) (quote : OverlayQuote) (now : AwareDateTime)
    (result : PriceGuidanceObservationResult) : Prop where
  valid : now.date ≤ plan.validFor
  quoted : ∀ timestamp ∈ quote.quoteTimestamp, timestamp.utc ≤ now.utc
  timestamp : result.quoteTimestamp = quote.quoteTimestamp.map AwareDateTime.utc
  observed : result.observedAt = (quote.observedAt.map AwareDateTime.utc).getD now.utc
  price : observedPrice quote.currentPrice = .ok result.currentPrice
  state : result.state =
    (stateAt plan quote.dataQuality result.quoteTimestamp result.currentPrice).1

theorem inTime_of_evaluate {plan : PriceGuidancePlan} {quote : OverlayQuote} {now : AwareDateTime}
    {result : PriceGuidanceObservationResult} (h : evaluate plan quote now = .ok result) :
    InTime plan quote now result := by
  obtain ⟨_, hvalid, h⟩ := bind_eq_ok_iff.mp h
  obtain ⟨_, _, h⟩ := bind_eq_ok_iff.mp h
  obtain ⟨_, hquoted, h⟩ := bind_eq_ok_iff.mp h
  obtain ⟨price, hprice, h⟩ := bind_eq_ok_iff.mp h
  cases h
  have hpast := require_eq_ok_iff.mp hquoted
  refine ⟨require_eq_ok_iff.mp hvalid, ?_, rfl, rfl, hprice, rfl⟩
  intro timestamp htimestamp
  exact hpast timestamp.utc (Option.mem_map_of_mem AwareDateTime.utc htimestamp)

end PriceGuidanceOverlay

end QuantWorkbench.Advisory
