import QuantWorkbench.Data.Normalization
import QuantWorkbench.Lib.Calendar
import QuantWorkbench.Lib.Rounding

/-!
The value objects of `account/contracts.py`. Decimals are exact rationals, and a
quantized price is kept as its coefficient. The checks of each constructor are
fields of the record, so a value of the type is one the constructor accepts.

The type `D` of trade dates is a parameter: the ledger only compares dates, the
durable store only writes and reads them.
-/

namespace QuantWorkbench.Account

open Lib Data

inductive LedgerError where
  | invalidSymbol
  | initialCashNegative
  | lotSizeNotPositive
  | knownNameEmpty
  | notionalNotPositive
  | eventIdRequired
  | unknownSide
  | quantityNotPositive
  | priceNotPositive
  | sourceRequired
  | correctionIdsRequired
  | nameRequired
  | nameMismatch
  | notLotMultiple (lotSize : ℕ)
  | insufficientCash
  | insufficientAvailable
  | originalMissing
  | originalCorrected
  | replacementExists
  | replacementSideOrSymbol
  | replacementTradeDate
  | eventIdReused
  | tradeDateBeforeLatest
  deriving DecidableEq, Repr

/-- The text of the `ValueError`. -/
def LedgerError.message : LedgerError → String
  | .invalidSymbol => "invalid A-share symbol"
  | .initialCashNegative => "initial_cash must be non-negative"
  | .lotSizeNotPositive => "lot_size must be positive"
  | .knownNameEmpty => "known instrument names cannot be empty"
  | .notionalNotPositive => "notional must be positive"
  | .eventIdRequired => "event_id is required"
  | .unknownSide => "is not a valid TradeSide"
  | .quantityNotPositive => "quantity must be a positive integer"
  | .priceNotPositive => "price must be positive"
  | .sourceRequired => "source is required"
  | .correctionIdsRequired => "correction_id and original_event_id are required"
  | .nameRequired => "name is required"
  | .nameMismatch => "name does not match the stock code"
  | .notLotMultiple lotSize => s!"buy quantity must be a multiple of {lotSize}"
  | .insufficientCash => "insufficient cash for this buy"
  | .insufficientAvailable => "available quantity is insufficient for this sell"
  | .originalMissing => "original event does not exist"
  | .originalCorrected => "original event has already been corrected"
  | .replacementExists => "replacement event_id already exists"
  | .replacementSideOrSymbol => "replacement must keep the original side and symbol"
  | .replacementTradeDate => "replacement must keep the original trade_date"
  | .eventIdReused => "event_id already exists with different details"
  | .tradeDateBeforeLatest => "trade_date cannot precede the latest recorded event"

def moneyScale : ℕ := 100

def priceScale : ℕ := 10000

def money (value : ℚ) : ℚ := Rounding.quantizeHalfUp moneyScale value

abbrev IsMoney (value : ℚ) : Prop := Rounding.OnGrid moneyScale value

theorem money_isMoney (value : ℚ) : IsMoney (money value) :=
  Rounding.quantizeHalfUp_onGrid moneyScale value

theorem money_of_isMoney {value : ℚ} (h : IsMoney value) : money value = value :=
  Rounding.quantizeHalfUp_of_onGrid (by decide) h

theorem money_mono {x y : ℚ} (h : x ≤ y) : money x ≤ money y :=
  Rounding.quantizeHalfUp_mono h

theorem money_nonneg {x : ℚ} (h : 0 ≤ x) : 0 ≤ money x :=
  Rounding.quantizeHalfUp_nonneg h

inductive Exchange where
  | sse
  | szse
  deriving DecidableEq, Repr

/-- Ordinary A-share codes by their first digit. -/
def exchangeForSymbol (symbol : Symbol) : Exchange :=
  if symbol.text.head? ∈ [some '5', some '6', some '9'] then .sse else .szse

inductive TradeSide where
  | buy
  | sell
  deriving DecidableEq, Repr

def TradeSide.value : TradeSide → Text
  | .buy => "BUY".toList
  | .sell => "SELL".toList

def TradeSide.ofText? (text : Text) : Option TradeSide :=
  if text = "BUY".toList then some .buy
  else if text = "SELL".toList then some .sell
  else none

@[simp] theorem TradeSide.ofText?_upper_value (side : TradeSide) :
    TradeSide.ofText? (Text.upper side.value) = some side := by
  cases side <;> decide

structure FeeBreakdown where
  commission : ℚ
  stampDuty : ℚ
  transferFee : ℚ

def FeeBreakdown.total (fees : FeeBreakdown) : ℚ :=
  money (fees.commission + fees.stampDuty + fees.transferFee)

structure FeeSchedule where
  commissionRate : ℚ := 3 / 10000
  minimumCommission : ℚ := 5
  sellStampDutyRate : ℚ := 5 / 10000
  sseTransferFeeRate : ℚ := 1 / 100000
  nonneg : ∀ value ∈ [commissionRate, minimumCommission, sellStampDutyRate,
    sseTransferFeeRate], 0 ≤ value

def FeeSchedule.default : FeeSchedule where
  nonneg := by
    simp only [List.forall_mem_cons, List.not_mem_nil, false_implies, implies_true]
    norm_num

/-- What `calculate` returns for a positive notional. -/
def FeeSchedule.fees (schedule : FeeSchedule) (side : TradeSide) (symbol : Symbol)
    (notional : ℚ) : FeeBreakdown where
  commission := money (max (notional * schedule.commissionRate) schedule.minimumCommission)
  stampDuty := if side = .sell then money (notional * schedule.sellStampDutyRate) else 0
  transferFee :=
    if exchangeForSymbol symbol = .sse then money (notional * schedule.sseTransferFeeRate)
    else 0

def FeeSchedule.calculate (schedule : FeeSchedule) (side : TradeSide) (symbol : Symbol)
    (notional : ℚ) : Except LedgerError FeeBreakdown :=
  if notional ≤ 0 then .error .notionalNotPositive
  else .ok (schedule.fees side symbol notional)

theorem FeeSchedule.total_isMoney (schedule : FeeSchedule) (side : TradeSide)
    (symbol : Symbol) (notional : ℚ) :
    IsMoney (schedule.fees side symbol notional).total := money_isMoney _

theorem FeeSchedule.total_nonneg (schedule : FeeSchedule) (side : TradeSide)
    (symbol : Symbol) {notional : ℚ} (hnotional : 0 ≤ notional) :
    0 ≤ (schedule.fees side symbol notional).total := by
  have hmin := schedule.nonneg schedule.minimumCommission (by simp)
  have hduty := schedule.nonneg schedule.sellStampDutyRate (by simp)
  have htransfer := schedule.nonneg schedule.sseTransferFeeRate (by simp)
  have hcommission : 0 ≤ (schedule.fees side symbol notional).commission :=
    money_nonneg (hmin.trans (le_max_right _ _))
  have hstamp : 0 ≤ (schedule.fees side symbol notional).stampDuty := by
    dsimp only [FeeSchedule.fees]
    split
    · exact money_nonneg (mul_nonneg hnotional hduty)
    · exact le_rfl
  have hfee : 0 ≤ (schedule.fees side symbol notional).transferFee := by
    dsimp only [FeeSchedule.fees]
    split
    · exact money_nonneg (mul_nonneg hnotional htransfer)
    · exact le_rfl
  exact money_nonneg (by positivity)

/-- One immutable manual or imported fill. -/
structure FillEvent (D : Type) where
  eventId : Text
  side : TradeSide
  symbol : Symbol
  quantity : ℤ
  /-- The coefficient of the price, whose exponent is four decimals. -/
  priceTicks : ℤ
  tradeDate : D
  name : Text
  source : Text
  recordedAt : UtcDateTime
  eventId_required : eventId ≠ []
  eventId_stripped : Text.strip eventId = eventId
  quantity_pos : 0 < quantity
  price_pos : 0 < priceTicks
  name_stripped : Text.strip name = name
  source_required : source ≠ []
  source_stripped : Text.strip source = source
  deriving DecidableEq

namespace FillEvent

variable {D : Type}

def price (event : FillEvent D) : ℚ := event.priceTicks / priceScale

def notional (event : FillEvent D) : ℚ := money (event.price * event.quantity)

/-- `FillEvent.__post_init__` on raw values; the numbers come already parsed. -/
def make (eventId side symbol : Text) (quantity : ℤ) (price : ℚ) (tradeDate : D)
    (name source : Text) (recordedAt : UtcDateTime) : Except LedgerError (FillEvent D) :=
  if hid : Text.strip eventId = [] then .error .eventIdRequired
  else
    match TradeSide.ofText? (Text.upper side) with
    | none => .error .unknownSide
    | some parsedSide =>
      match normalizeSymbol symbol with
      | none => .error .invalidSymbol
      | some normalized =>
        if hquantity : quantity ≤ 0 then .error .quantityNotPositive
        else if hprice : Rounding.halfUp (price * priceScale) ≤ 0 then
          .error .priceNotPositive
        else if hsource : Text.strip source = [] then .error .sourceRequired
        else .ok {
          eventId := Text.strip eventId
          side := parsedSide
          symbol := normalized
          quantity := quantity
          priceTicks := Rounding.halfUp (price * priceScale)
          tradeDate := tradeDate
          name := Text.strip name
          source := Text.strip source
          recordedAt := recordedAt
          eventId_required := hid
          eventId_stripped := Text.strip_strip _
          quantity_pos := not_le.mp hquantity
          price_pos := not_le.mp hprice
          name_stripped := Text.strip_strip _
          source_required := hsource
          source_stripped := Text.strip_strip _ }

/-- Passing the values of an event to the constructor gives the event back. -/
theorem make_self (event : FillEvent D) :
    make event.eventId event.side.value event.symbol.text event.quantity event.price
      event.tradeDate event.name event.source event.recordedAt = .ok event := by
  have hticks : Rounding.halfUp (event.price * priceScale) = event.priceTicks := by
    rw [price, div_mul_cancel₀ _ (by norm_num [priceScale]), Rounding.halfUp_intCast]
  have hid : Text.strip event.eventId ≠ [] := by
    rw [event.eventId_stripped]
    exact event.eventId_required
  have hsource : Text.strip event.source ≠ [] := by
    rw [event.source_stripped]
    exact event.source_required
  simp only [make, TradeSide.ofText?_upper_value, normalizeSymbol_text, hticks]
  rw [dif_neg hid, dif_neg (not_le.mpr event.quantity_pos),
    dif_neg (not_le.mpr event.price_pos), dif_neg hsource]
  simp only [event.eventId_stripped, event.name_stripped, event.source_stripped]

theorem notional_isMoney (event : FillEvent D) : IsMoney event.notional :=
  money_isMoney _

end FillEvent

/-- A record that voids one fill and replaces its accounting effect. -/
structure LedgerCorrection (D : Type) where
  correctionId : Text
  originalEventId : Text
  replacement : FillEvent D
  recordedAt : UtcDateTime
  correctionId_required : correctionId ≠ []
  correctionId_stripped : Text.strip correctionId = correctionId
  originalEventId_required : originalEventId ≠ []
  originalEventId_stripped : Text.strip originalEventId = originalEventId
  deriving DecidableEq

namespace LedgerCorrection

variable {D : Type}

/-- `LedgerCorrection.__post_init__`. -/
def make (correctionId originalEventId : Text) (replacement : FillEvent D)
    (recordedAt : UtcDateTime) : Except LedgerError (LedgerCorrection D) :=
  if h : Text.strip correctionId = [] ∨ Text.strip originalEventId = [] then
    .error .correctionIdsRequired
  else .ok {
    correctionId := Text.strip correctionId
    originalEventId := Text.strip originalEventId
    replacement := replacement
    recordedAt := recordedAt
    correctionId_required := fun hid => h (.inl hid)
    correctionId_stripped := Text.strip_strip _
    originalEventId_required := fun hid => h (.inr hid)
    originalEventId_stripped := Text.strip_strip _ }

theorem make_self (correction : LedgerCorrection D) :
    make correction.correctionId correction.originalEventId correction.replacement
      correction.recordedAt = .ok correction := by
  have h : ¬ (Text.strip correction.correctionId = [] ∨
      Text.strip correction.originalEventId = []) := by
    rw [correction.correctionId_stripped, correction.originalEventId_stripped]
    rintro (hid | hid)
    · exact correction.correctionId_required hid
    · exact correction.originalEventId_required hid
  rw [make, dif_neg h]
  simp only [correction.correctionId_stripped, correction.originalEventId_stripped]

end LedgerCorrection

inductive LedgerRecord (D : Type) where
  | fill (event : FillEvent D)
  | correction (correction : LedgerCorrection D)
  deriving DecidableEq

structure PositionSnapshot where
  symbol : Symbol
  name : Text
  totalQuantity : ℤ
  availableQuantity : ℤ
  frozenQuantity : ℤ
  averageCost : ℚ
  deriving DecidableEq

structure AccountSnapshot (D : Type) where
  asOf : D
  cash : ℚ
  realizedPnl : ℚ
  positions : List PositionSnapshot
  deriving DecidableEq

/-- The caller's symbol is normalized by then. -/
def AccountSnapshot.position {D : Type} (snapshot : AccountSnapshot D)
    (symbol : Symbol) : Option PositionSnapshot :=
  snapshot.positions.find? fun item => item.symbol = symbol

end QuantWorkbench.Account
