import QuantWorkbench.Account.Contracts
import QuantWorkbench.Lib.DecimalText
import QuantWorkbench.Lib.Decimals
import QuantWorkbench.Lib.Raised
import QuantWorkbench.Lib.Sha256

/-!
The preview of broker rows. Each row is read into a fill or rejected; of the errors of a row the
loop handles a missing column and a `ValueError`, and not what decimal arithmetic signals.
-/

namespace QuantWorkbench.Account

open Lib Data

/-- What reading a row may end in. -/
inductive RowError where
  | keyError
  | valueError
  /-- `decimal.InvalidOperation`, an `ArithmeticError`. -/
  | invalidOperation
  deriving DecidableEq

/-- `except (KeyError, TypeError, ValueError)`. -/
def RowError.handled : RowError → Bool
  | .invalidOperation => false
  | _ => true

/-- What is read of a cell: nothing, a date with the day of it, or any other object as `str` and
`bool` see it. -/
inductive BrokerCell (D : Type) where
  | none
  | date (value day : D) (str : Text)
  | object (str : Text) (truthy : Bool)
  deriving DecidableEq

namespace BrokerCell

variable {D : Type}

def str : BrokerCell D → Text
  | none => "None".toList
  | date _ _ str => str
  | object str _ => str

def truthy : BrokerCell D → Bool
  | none => false
  | date _ _ _ => true
  | object _ truthy => truthy

/-- `value is None or not str(value).strip()`. -/
def isBlank (cell : BrokerCell D) : Bool :=
  cell matches .none || Text.strip cell.str = []

end BrokerCell

abbrev BrokerRow (D : Type) := List (Text × BrokerCell D)

/-- Dates as rows hold and spell them. -/
class DateText (D : Type) where
  /-- `date.fromisoformat`; `none` is its `ValueError`. -/
  fromisoformat : Text → Option D
  isoformat : D → Text

section Decimals

variable {D : Type}

/-- The texts of infinities and of what is not a number, without a sign. -/
def specialDecimal (text : Text) : Option Decimal :=
  let lower := text.map Char.toLower
  if lower = "inf".toList ∨ lower = "infinity".toList then some (.infinite false)
  else if ("nan".toList <+: lower ∧ (lower.drop 3).all Text.isDigit) ∨
      ("snan".toList <+: lower ∧ (lower.drop 4).all Text.isDigit) then some .nan
  else none

/-- `Decimal(text)`; `none` is its `InvalidOperation`. -/
def decimal? (text : Text) : Option Decimal :=
  match DecimalText.parse text with
  | some value => some (.finite value)
  | none => specialDecimal (DecimalText.unsigned ((Text.strip text).filter (· ≠ '_')))

/-- `as_decimal`, whose handler takes every exception of the constructor. -/
def asDecimal (cell : BrokerCell D) : Except RowError ℚ :=
  orRaise ((decimal? cell.str).bind Decimal.finite?) .valueError

/-- `quantize` to a grid with half up; the digits of its result are limited by the context. -/
def quantize (scale : ℕ) (value : ℚ) : Except RowError ℤ :=
  if 10 ^ DecimalContext.default.precision ≤ |Rounding.halfUp (value * scale)| then
    .error .invalidOperation
  else .ok (Rounding.halfUp (value * scale))

/-- `price`, as the coefficient of its four decimals. -/
def priceOf (cell : BrokerCell D) : Except RowError ℤ := do quantize priceScale (← asDecimal cell)

/-- `money`, as the coefficient of its two decimals. -/
def moneyOf (cell : BrokerCell D) : Except RowError ℤ := do quantize moneyScale (← asDecimal cell)

def wholeNumber (refused : ℚ → Bool) (cell : BrokerCell D) : Except RowError ℤ :=
  match decimal? cell.str with
  | none => .error .invalidOperation
  | some (.finite value) =>
      if refused value || value.den ≠ 1 then .error .valueError else .ok value.num
  | some _ => .error .valueError

def positiveInteger (cell : BrokerCell D) : Except RowError ℤ := wholeNumber (· ≤ 0) cell

def nonNegativeInteger (cell : BrokerCell D) : Except RowError ℤ := wholeNumber (· < 0) cell

end Decimals

/-- The columns that broker rows are read from; those that every row needs have a name. -/
structure BrokerMapping where
  symbol : Text
  quantity : Text
  price : Text
  side : Option Text
  tradeDate : Option Text
  name : Option Text
  required : ∀ column ∈ [symbol, quantity, price], Text.strip column ≠ []

namespace BrokerMapping

def requiredFields : List Text := ["symbol".toList, "quantity".toList, "price".toList]

def supportedFields : List Text :=
  ["name".toList, "symbol".toList, "quantity".toList, "price".toList, "side".toList,
    "trade_date".toList]

def validate (mapping : List (Text × Text)) : Except RowError BrokerMapping :=
  let column := fun field => (mapping.lookup field).getD []
  if h : ∀ name ∈ [column "symbol".toList, column "quantity".toList, column "price".toList],
      Text.strip name ≠ [] then
    if ∀ entry ∈ mapping, entry.1 ∈ supportedFields then
      .ok {
        symbol := column "symbol".toList
        quantity := column "quantity".toList
        price := column "price".toList
        side := mapping.lookup "side".toList
        tradeDate := mapping.lookup "trade_date".toList
        name := mapping.lookup "name".toList
        required := h }
    else .error .valueError
  else .error .valueError

def toJson (mapping : BrokerMapping) : Json :=
  .obj ([("symbol".toList, .str mapping.symbol), ("quantity".toList, .str mapping.quantity),
      ("price".toList, .str mapping.price)] ++
    (mapping.side.map fun column => ("side".toList, Json.str column)).toList ++
    (mapping.tradeDate.map fun column => ("trade_date".toList, Json.str column)).toList ++
    (mapping.name.map fun column => ("name".toList, Json.str column)).toList)

end BrokerMapping

section Rows

variable {D : Type}

def cleanExportValue (cell : BrokerCell D) : Text :=
  let text := Text.strip cell.str
  if 4 ≤ text.length ∧ "=\"".toList <+: text ∧ "\"".toList <:+ text then
    Text.strip ((text.drop 2).dropLast)
  else if text.head? = some '\'' then Text.strip text.tail
  else text

def parseTradeSide (cell : BrokerCell D) : Except RowError TradeSide :=
  if cell.isBlank then .ok .buy
  else
    let normalized := Text.upper (Text.strip cell.str)
    if normalized ∈ ["BUY".toList, "B".toList, "买入".toList, "证券买入".toList, "买".toList] then
      .ok .buy
    else if normalized ∈
        ["SELL".toList, "S".toList, "卖出".toList, "证券卖出".toList, "卖".toList] then
      .ok .sell
    else .error .valueError

def parseTradeDate [DateText D] (cell : BrokerCell D) (default : D) : Except RowError D :=
  if cell.isBlank then .ok default
  else
    match cell with
    | .date value _ _ => .ok value
    | _ => orRaise (DateText.fromisoformat cell.str) .valueError

def BrokerRow.cell (row : BrokerRow D) (column : Text) : Except RowError (BrokerCell D) :=
  orRaise (row.lookup column) .keyError

/-- `row.get(mapping.get(field, ""))`: without the field, the column without a name. -/
def BrokerRow.optional (row : BrokerRow D) (column : Option Text) : BrokerCell D :=
  (row.lookup (column.getD [])).getD .none

def BrokerRow.symbol (row : BrokerRow D) (column : Text) : Except RowError Symbol := do
  orRaise (normalizeSymbol (cleanExportValue (← row.cell column))) .valueError

def BrokerRow.name (row : BrokerRow D) (column : Option Text) : Text :=
  Text.strip (((row.lookup (column.getD [])).map BrokerCell.str).getD [])

end Rows

/-- What a preview is made from, apart from its rows. -/
structure PreviewSource (D : Type) where
  mapping : BrokerMapping
  defaultTradeDate : D
  sourceBytes : List UInt8
  /-- The clock when the fill of a row is made. -/
  now : ℕ → UtcDateTime

namespace PreviewSource

variable {D : Type} [DateText D] (source : PreviewSource D)

def sha256 : Text := Sha256.hexdigest source.sourceBytes

def eventId (rowNumber : ℕ) : Text :=
  "import-".toList ++ source.sha256.take 16 ++ '-' :: Nat.toDigits 10 rowNumber

/-- `FillEvent.__post_init__` once more, of values that were already read. -/
def fillEvent (rowNumber : ℕ) (side : TradeSide) (symbol : Symbol) (quantity priceTicks : ℤ)
    (tradeDate : D) (name : Text) : Except RowError (FillEvent D) :=
  match FillEvent.make (source.eventId rowNumber) side.value symbol.text quantity
      (priceTicks / priceScale) tradeDate name "broker_import".toList (source.now rowNumber) with
  | .ok event => .ok event
  | .error _ => .error .valueError

def rowToEvent (rowNumber : ℕ) (row : BrokerRow D) : Except RowError (FillEvent D) := do
  let side ← parseTradeSide (row.optional source.mapping.side)
  let symbol ← row.symbol source.mapping.symbol
  let quantity ← positiveInteger (← row.cell source.mapping.quantity)
  let priceTicks ← priceOf (← row.cell source.mapping.price)
  require (0 < priceTicks) .valueError
  let tradeDate ← parseTradeDate (row.optional source.mapping.tradeDate) source.defaultTradeDate
  let name := row.name source.mapping.name
  require (¬ (side = .buy ∧ name = [])) .valueError
  source.fillEvent rowNumber side symbol quantity priceTicks tradeDate name

end PreviewSource

structure ImportIssue where
  rowNumber : ℕ
  reason : String
  deriving DecidableEq

structure ImportPreview (D : Type) where
  previewId : Text
  sourceSha256 : Text
  candidateEvents : List (FillEvent D)
  rejectedRows : List ImportIssue

def validationError (rowNumber : ℕ) : ImportIssue := ⟨rowNumber, "VALIDATION_ERROR"⟩

section Preview

variable {D : Type} [DateText D] (source : PreviewSource D)

/-- The loop of `preview_broker_rows` from a row number on. -/
def triage : ℕ → List (BrokerRow D) →
    Except RowError (List (FillEvent D) × List ImportIssue)
  | _, [] => .ok ([], [])
  | rowNumber, row :: rest =>
      match source.rowToEvent rowNumber row with
      | .ok event => do
          let (candidates, rejected) ← triage (rowNumber + 1) rest
          .ok (event :: candidates, rejected)
      | .error error =>
          if error.handled then do
            let (candidates, rejected) ← triage (rowNumber + 1) rest
            .ok (candidates, validationError rowNumber :: rejected)
          else .error error

def brokerPreviewId : Text :=
  Sha256.ofText (Json.dumps (.obj [
    ("source_sha256".toList, .str source.sha256),
    ("mapping".toList, source.mapping.toJson),
    ("default_trade_date".toList, .str (DateText.isoformat source.defaultTradeDate))]))

def previewBrokerRows (rows : List (BrokerRow D)) : Except RowError (ImportPreview D) := do
  let (candidates, rejected) ← triage source 1 rows
  .ok {
    previewId := brokerPreviewId source
    sourceSha256 := source.sha256
    candidateEvents := candidates
    rejectedRows := rejected }

end Preview

end QuantWorkbench.Account
