import QuantWorkbench.Account.Contracts
import QuantWorkbench.Lib.DecimalText

/-!
Ledger records as JSON: `to_dict` and `from_dict` of `account/contracts.py`. A
record whose trade date is read back from its text is itself read back.
-/

namespace QuantWorkbench.Account

open Lib Data

/-- Trade dates as text. A text is read as the date it was written for or not
at all. -/
class TradeDateText (D : Type) where
  isoformat : D → Text
  fromisoformat : Text → Option D
  fromisoformat_eq : ∀ d d', fromisoformat (isoformat d) = some d' → d' = d
  isPlain : ∀ d, ∀ c ∈ isoformat d, Json.IsPlain c

def readBack {D : Type} [TradeDateText D] (d : D) : Option D :=
  TradeDateText.fromisoformat (TradeDateText.isoformat d)

def ReadsBack {D : Type} [TradeDateText D] (d : D) : Prop := readBack d = some d

theorem readBack_eq {D : Type} [TradeDateText D] {d d' : D} (h : readBack d = some d') :
    d' = d :=
  TradeDateText.fromisoformat_eq d d' h

instance : TradeDateText Date where
  isoformat := Date.isoformat
  fromisoformat := Date.fromisoformat
  fromisoformat_eq := by
    intro d d' h
    rw [Date.fromisoformat_isoformat] at h
    exact (Option.some.inj h).symm
  isPlain := Date.isPlain_isoformat

theorem Date.readsBack (d : Date) : ReadsBack d := Date.fromisoformat_isoformat d

/-- An offset from universal time in whole minutes. -/
structure UtcOffset where
  negative : Bool
  hours : Fin 24
  minutes : Fin 60
  deriving DecidableEq

def UtcOffset.text (offset : UtcOffset) : Text :=
  (if offset.negative then '-' else '+') ::
    (digitsText 2 offset.hours ++ ':' :: digitsText 2 offset.minutes)

/-- What passes `isinstance(value, date)`: a date, or a datetime, which is a date
too. The fields of a datetime are local; it may have no offset. -/
inductive TradeDate where
  | date (value : Date)
  | datetime (value : UtcDateTime) (offset : Option UtcOffset)
  deriving DecidableEq

namespace TradeDate

def offsetText : Option UtcOffset → Text
  | none => []
  | some offset => offset.text

def isoformat : TradeDate → Text
  | .date value => value.isoformat
  | .datetime value offset =>
      value.date.isoformat ++ 'T' :: (value.timeText ++ offsetText offset)

/-- `date.fromisoformat`, which only reads dates. -/
def fromisoformat (text : Text) : Option TradeDate :=
  (Date.fromisoformat text).map .date

/-- The text of a datetime is not the text of a date. -/
theorem fromisoformat_datetime (value : UtcDateTime) (offset : Option UtcOffset) :
    fromisoformat (isoformat (.datetime value offset)) = none := by
  rw [fromisoformat, isoformat, Date.fromisoformat, Date.scan_isoformat]
  rfl

theorem isPlain_offsetText (offset : Option UtcOffset) :
    ∀ c ∈ offsetText offset, Json.IsPlain c := by
  intro c hc
  cases offset with
  | none => simp [offsetText] at hc
  | some offset =>
      simp only [offsetText, UtcOffset.text, List.mem_cons, List.mem_append] at hc
      rcases hc with rfl | hc | rfl | hc
      · split <;> decide
      · exact isPlain_digitsText _ _ c hc
      · decide
      · exact isPlain_digitsText _ _ c hc

instance : TradeDateText TradeDate where
  isoformat := isoformat
  fromisoformat := fromisoformat
  fromisoformat_eq := by
    intro d d' h
    cases d with
    | date value =>
        rw [fromisoformat, isoformat, Date.fromisoformat_isoformat] at h
        exact (Option.some.inj h).symm
    | datetime value offset =>
        rw [fromisoformat_datetime] at h
        cases h
  isPlain := by
    intro d c hc
    cases d with
    | date value => exact Date.isPlain_isoformat value c hc
    | datetime value offset =>
        rcases List.mem_append.mp hc with hc | hc
        · exact Date.isPlain_isoformat value.date c hc
        · rcases List.mem_cons.mp hc with rfl | hc
          · decide
          · rcases List.mem_append.mp hc with hc | hc
            · exact UtcDateTime.isPlain_timeText value c hc
            · exact isPlain_offsetText offset c hc

/-- Exactly the plain dates are read back. -/
theorem readsBack_iff (d : TradeDate) : ReadsBack d ↔ ∃ value, d = .date value := by
  cases d with
  | date value =>
      refine ⟨fun _ => ⟨value, rfl⟩, fun _ => ?_⟩
      change fromisoformat (isoformat (.date value)) = _
      rw [fromisoformat, isoformat, Date.fromisoformat_isoformat]
      rfl
  | datetime value offset =>
      constructor
      · intro h
        change fromisoformat (isoformat (.datetime value offset)) = _ at h
        rw [fromisoformat_datetime] at h
        cases h
      · rintro ⟨_, h⟩
        cases h

end TradeDate

/-! ### Fields -/

def textOf : Json → Option Text
  | .str text => some text
  | _ => none

/-- A text field of a payload. Only rows that the store wrote are read, and in
them these fields are strings. -/
def textField (payload : Json) (key : String) : Option Text :=
  (payload.member? key.toList).bind textOf

def intOf : Json → Option ℤ
  | .int value => some value
  | .bool value => some value.toInt
  | _ => none

def decimalOf : Json → Option ℚ
  | .str text => DecimalText.parse text
  | .int value => some value
  | .float lexeme => DecimalText.parse lexeme
  | _ => none

section Sorted

variable {members : List (Text × Json)} (h : (members.map (·.1)).Nodup)

include h

theorem textField_sorted (key : String) :
    textField (Json.obj members).sorted key = textField (.obj members) key := by
  have hvalue : ∀ value : Json, textOf value.sorted = textOf value := by
    intro value
    cases value <;> simp [Json.sorted, textOf]
  rw [textField, Json.member?_sorted h, textField, Option.bind_map]
  congr 1
  exact funext hvalue

theorem intField_sorted (key : Text) :
    ((Json.obj members).sorted.member? key).bind intOf =
      ((Json.obj members).member? key).bind intOf := by
  have hvalue : ∀ value : Json, intOf value.sorted = intOf value := by
    intro value
    cases value <;> simp [Json.sorted, intOf]
  rw [Json.member?_sorted h, Option.bind_map]
  congr 1
  exact funext hvalue

theorem decimalField_sorted (key : Text) :
    ((Json.obj members).sorted.member? key).bind decimalOf =
      ((Json.obj members).member? key).bind decimalOf := by
  have hvalue : ∀ value : Json, decimalOf value.sorted = decimalOf value := by
    intro value
    cases value <;> simp [Json.sorted, decimalOf]
  rw [Json.member?_sorted h, Option.bind_map]
  congr 1
  exact funext hvalue

end Sorted

variable {D : Type} [TradeDateText D]

/-! ### Fills -/

namespace FillEvent

def members (event : FillEvent D) : List (Text × Json) :=
  [("event_id".toList, .str event.eventId),
    ("side".toList, .str event.side.value),
    ("symbol".toList, .str event.symbol.text),
    ("quantity".toList, .int event.quantity),
    ("price".toList, .str (DecimalText.format 4 event.priceTicks.toNat)),
    ("trade_date".toList, .str (TradeDateText.isoformat event.tradeDate)),
    ("name".toList, .str event.name),
    ("source".toList, .str event.source),
    ("recorded_at".toList, .str event.recordedAt.isoformat)]

def toDict (event : FillEvent D) : Json := .obj event.members

def fromDict (payload : Json) : Option (FillEvent D) := do
  let eventId ← textField payload "event_id"
  let side ← textField payload "side"
  let symbol ← textField payload "symbol"
  let quantity ← (payload.member? "quantity".toList).bind intOf
  let price ← (payload.member? "price".toList).bind decimalOf
  let tradeDate ← (textField payload "trade_date").bind TradeDateText.fromisoformat
  let name := (textField payload "name").getD []
  let source := (textField payload "source").getD "manual".toList
  let recordedAt ← (textField payload "recorded_at").bind UtcDateTime.fromisoformat
  (make eventId side symbol quantity price tradeDate name source recordedAt).toOption

theorem members_nodup (event : FillEvent D) : (event.members.map (·.1)).Nodup := by
  change ["event_id".toList, "side".toList, "symbol".toList, "quantity".toList, "price".toList,
    "trade_date".toList, "name".toList, "source".toList, "recorded_at".toList].Nodup
  decide

theorem toDict_writable (event : FillEvent D) : event.toDict.Writable := by
  refine ⟨event.members_nodup, ?_⟩
  simp [members, Json.WritableMembers, Json.Writable]

omit [TradeDateText D] in
theorem parse_price (event : FillEvent D) :
    DecimalText.parse (DecimalText.format 4 event.priceTicks.toNat) = some event.price := by
  have hticks : (event.priceTicks.toNat : ℚ) = event.priceTicks := by
    exact_mod_cast Int.toNat_of_nonneg event.price_pos.le
  rw [DecimalText.parse_format, hticks, price]
  norm_num [priceScale]

/-- The order of the keys does not matter. -/
theorem fromDict_sorted {members : List (Text × Json)} (h : (members.map (·.1)).Nodup) :
    (fromDict (Json.obj members).sorted : Option (FillEvent D)) = fromDict (.obj members) := by
  simp only [fromDict, textField_sorted h, intField_sorted h, decimalField_sorted h]

theorem fromDict_toDict (event : FillEvent D) :
    (fromDict event.toDict : Option (FillEvent D)) =
      (readBack event.tradeDate).map fun _ => event := by
  have hid : textField event.toDict "event_id" = some event.eventId := rfl
  have hside : textField event.toDict "side" = some event.side.value := rfl
  have hsymbol : textField event.toDict "symbol" = some event.symbol.text := rfl
  have hquantity : (event.toDict.member? "quantity".toList).bind intOf =
      some event.quantity := rfl
  have hprice : (event.toDict.member? "price".toList).bind decimalOf = some event.price :=
    event.parse_price
  have hdate : textField event.toDict "trade_date" =
      some (TradeDateText.isoformat event.tradeDate) := rfl
  have hname : textField event.toDict "name" = some event.name := rfl
  have hsource : textField event.toDict "source" = some event.source := rfl
  have hrecorded : (textField event.toDict "recorded_at").bind UtcDateTime.fromisoformat =
      some event.recordedAt := event.recordedAt.fromisoformat_isoformat
  simp only [fromDict, hid, hside, hsymbol, hquantity, hprice, hdate, hname, hsource, hrecorded,
    Option.bind_eq_bind, Option.bind_some, Option.getD_some]
  change (readBack event.tradeDate).bind _ = _
  cases hread : readBack event.tradeDate with
  | none => rfl
  | some date =>
      obtain rfl := readBack_eq hread
      rw [Option.bind_some, event.make_self]
      rfl

end FillEvent

/-! ### Corrections -/

namespace LedgerCorrection

def members (correction : LedgerCorrection D) : List (Text × Json) :=
  [("correction_id".toList, .str correction.correctionId),
    ("original_event_id".toList, .str correction.originalEventId),
    ("replacement".toList, correction.replacement.toDict),
    ("recorded_at".toList, .str correction.recordedAt.isoformat)]

def toDict (correction : LedgerCorrection D) : Json := .obj correction.members

def fromDict (payload : Json) : Option (LedgerCorrection D) := do
  let correctionId ← textField payload "correction_id"
  let originalEventId ← textField payload "original_event_id"
  let replacement ← (payload.member? "replacement".toList).bind FillEvent.fromDict
  let recordedAt ← (textField payload "recorded_at").bind UtcDateTime.fromisoformat
  (make correctionId originalEventId replacement recordedAt).toOption

theorem members_nodup (correction : LedgerCorrection D) :
    (correction.members.map (·.1)).Nodup := by
  change ["correction_id".toList, "original_event_id".toList, "replacement".toList,
    "recorded_at".toList].Nodup
  decide

theorem toDict_writable (correction : LedgerCorrection D) : correction.toDict.Writable := by
  refine ⟨correction.members_nodup, ?_⟩
  simp [members, Json.WritableMembers, Json.Writable, FillEvent.toDict_writable]

/-- The written correction is read back, with its keys in order, when its trade
date is. -/
theorem fromDict_sorted_toDict (correction : LedgerCorrection D) :
    (fromDict correction.toDict.sorted : Option (LedgerCorrection D)) =
      (readBack correction.replacement.tradeDate).map fun _ => correction := by
  have hnodup := correction.members_nodup
  have hid : textField correction.toDict.sorted "correction_id" =
      some correction.correctionId := textField_sorted hnodup _
  have horiginal : textField correction.toDict.sorted "original_event_id" =
      some correction.originalEventId := textField_sorted hnodup _
  have hreplacement : correction.toDict.sorted.member? "replacement".toList =
      some correction.replacement.toDict.sorted := Json.member?_sorted hnodup _
  have hrecorded : textField correction.toDict.sorted "recorded_at" =
      some correction.recordedAt.isoformat := textField_sorted hnodup _
  have hfill : (FillEvent.fromDict correction.replacement.toDict.sorted :
      Option (FillEvent D)) = FillEvent.fromDict correction.replacement.toDict :=
    FillEvent.fromDict_sorted correction.replacement.members_nodup
  simp only [fromDict, hid, horiginal, hreplacement, hrecorded, Option.bind_eq_bind,
    Option.bind_some, hfill, FillEvent.fromDict_toDict, UtcDateTime.fromisoformat_isoformat]
  cases readBack correction.replacement.tradeDate with
  | none => rfl
  | some _ =>
      rw [Option.map_some, Option.bind_some, correction.make_self]
      rfl

end LedgerCorrection

/-! ### Records -/

namespace LedgerRecord

def kind : LedgerRecord D → Text
  | .fill _ => "fill".toList
  | .correction _ => "correction".toList

def toDict : LedgerRecord D → Json
  | .fill event => event.toDict
  | .correction item => item.toDict

/-- The record of a row by its kind. -/
def fromDict (kind : Text) (payload : Json) : Option (LedgerRecord D) :=
  if kind = "fill".toList then (FillEvent.fromDict payload).map .fill
  else if kind = "correction".toList then (LedgerCorrection.fromDict payload).map .correction
  else none

def identity : LedgerRecord D → Text × Text
  | .fill event => ("fill".toList, event.eventId)
  | .correction item => ("correction".toList, item.correctionId)

def tradeDate : LedgerRecord D → D
  | .fill event => event.tradeDate
  | .correction item => item.replacement.tradeDate

theorem toDict_writable (record : LedgerRecord D) : record.toDict.Writable := by
  cases record with
  | fill event => exact event.toDict_writable
  | correction item => exact item.toDict_writable

theorem fromDict_fill (payload : Json) :
    (fromDict "fill".toList payload : Option (LedgerRecord D)) =
      (FillEvent.fromDict payload).map .fill := by
  rw [fromDict, if_pos rfl]

theorem fromDict_correction (payload : Json) :
    (fromDict "correction".toList payload : Option (LedgerRecord D)) =
      (LedgerCorrection.fromDict payload).map .correction := by
  rw [fromDict, if_neg (by decide), if_pos rfl]

theorem fromDict_sorted_toDict (record : LedgerRecord D) :
    (fromDict record.kind record.toDict.sorted : Option (LedgerRecord D)) =
      (readBack record.tradeDate).map fun _ => record := by
  cases record with
  | fill event =>
      have hread : (FillEvent.fromDict event.toDict.sorted : Option (FillEvent D)) = _ :=
        (FillEvent.fromDict_sorted event.members_nodup).trans event.fromDict_toDict
      refine (fromDict_fill event.toDict.sorted).trans ?_
      rw [hread, Option.map_map]
      rfl
  | correction item =>
      refine (fromDict_correction item.toDict.sorted).trans ?_
      rw [item.fromDict_sorted_toDict, Option.map_map]
      rfl

/-- A record is read back exactly when its trade date is, and never as another. -/
theorem fromDict_eq_some_iff (record other : LedgerRecord D) :
    fromDict record.kind record.toDict.sorted = some other ↔
      ReadsBack record.tradeDate ∧ other = record := by
  rw [fromDict_sorted_toDict]
  unfold ReadsBack
  constructor
  · intro h
    obtain ⟨date, hdate, rfl⟩ := Option.map_eq_some_iff.mp h
    obtain rfl := readBack_eq hdate
    exact ⟨hdate, rfl⟩
  · rintro ⟨hdate, rfl⟩
    rw [hdate]
    rfl

end LedgerRecord

end QuantWorkbench.Account
