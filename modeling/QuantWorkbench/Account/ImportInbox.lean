import QuantWorkbench.Account.Importer

/-!
The preview of position rows. A position joins the preview before the cash and the date of its row
are read, and an error of these rejects the row as well.
-/

namespace QuantWorkbench.Account

open Lib Data

/-- The columns that positions are read from, as they were found among the headers. -/
structure PositionMapping where
  symbol : Text
  totalQuantity : Text
  averageCost : Text
  name : Option Text
  availableQuantity : Option Text
  frozenQuantity : Option Text
  cash : Option Text
  asOf : Option Text

structure ImportedPosition where
  symbol : Symbol
  name : Text
  totalQuantity : ℤ
  availableQuantity : ℤ
  frozenQuantity : ℤ
  /-- The coefficient of the average cost, whose exponent is four decimals. -/
  costTicks : ℤ
  available_nonneg : 0 ≤ availableQuantity
  frozen_nonneg : 0 ≤ frozenQuantity
  consistent : availableQuantity + frozenQuantity = totalQuantity
  cost_nonneg : 0 ≤ costTicks
  name_stripped : Text.strip name = name

section Quantities

variable {total available frozen : ℤ}

theorem available_of_valid (h : ¬ (available < 0 ∨ frozen < 0)) : 0 ≤ available :=
  not_lt.mp fun hlt => h (.inl hlt)

theorem frozen_of_valid (h : ¬ (available < 0 ∨ frozen < 0)) : 0 ≤ frozen :=
  not_lt.mp fun hlt => h (.inr hlt)

theorem quantities_consistent (h : ¬ available + frozen ≠ total) : available + frozen = total :=
  not_not.mp h

end Quantities

/-- `ImportedPosition.__post_init__`; a cost that was read is its own `price`. -/
def ImportedPosition.make (symbol : Symbol) (name : Text) (total available frozen costTicks : ℤ) :
    Except RowError ImportedPosition :=
  if total < 0 then .error .valueError
  else if hquantities : available < 0 ∨ frozen < 0 then .error .valueError
  else if hsum : available + frozen ≠ total then .error .valueError
  else if hcost : costTicks < 0 then .error .valueError
  else .ok {
    symbol := symbol
    name := Text.strip name
    totalQuantity := total
    availableQuantity := available
    frozenQuantity := frozen
    costTicks := costTicks
    available_nonneg := available_of_valid hquantities
    frozen_nonneg := frozen_of_valid hquantities
    consistent := quantities_consistent hsum
    cost_nonneg := not_lt.mp hcost
    name_stripped := Text.strip_strip _ }

section Rows

variable {D : Type}

/-- The cell of a column that is mapped, unless `str(row.get(column, "")).strip()` is empty. -/
def BrokerRow.filled (row : BrokerRow D) (column : Option Text) : Option (BrokerCell D) := do
  let cell ← row.lookup (← column)
  if Text.strip cell.str = [] then none else some cell

def BrokerRow.positionName (row : BrokerRow D) (column : Option Text) : Text :=
  match row.lookup (column.getD []) with
  | some cell => if cell.truthy then Text.strip cell.str else []
  | none => []

/-- A cell that is filled, read as a quantity, or else another quantity. -/
def quantityOr (cell : Option (BrokerCell D)) (other : ℤ) : Except RowError ℤ :=
  match cell with
  | some cell => nonNegativeInteger cell
  | none => .ok other

structure Quantities where
  total : ℤ
  available : ℤ
  frozen : ℤ

def readQuantities (mapping : PositionMapping) (row : BrokerRow D) :
    Except RowError Quantities := do
  let total ← nonNegativeInteger (← row.cell mapping.totalQuantity)
  let available ← quantityOr (row.filled mapping.availableQuantity) total
  let frozen ← quantityOr (row.filled mapping.frozenQuantity) (total - available)
  require (available + frozen = total) .valueError
  .ok ⟨total, available, frozen⟩

def readPosition (mapping : PositionMapping) (symbol : Symbol) (row : BrokerRow D) :
    Except RowError ImportedPosition := do
  let quantities ← readQuantities mapping row
  let costTicks ← priceOf (← row.cell mapping.averageCost)
  require (0 ≤ costTicks) .valueError
  ImportedPosition.make symbol (row.positionName mapping.name) quantities.total
    quantities.available quantities.frozen costTicks

def readCash (mapping : PositionMapping) (row : BrokerRow D) : Except RowError (Option ℤ) :=
  match row.filled mapping.cash with
  | some cell => do .ok (some (← moneyOf cell))
  | none => .ok none

def parseDate [DateText D] (cell : BrokerCell D) (default : D) : Except RowError D :=
  if cell.isBlank then .ok default
  else
    match cell with
    | .date _ day _ => .ok day
    | _ => orRaise (DateText.fromisoformat ((Text.strip cell.str).take 10)) .valueError

def readAsOf [DateText D] (mapping : PositionMapping) (default : D) (row : BrokerRow D) :
    Except RowError (Option D) :=
  match row.filled mapping.asOf with
  | some cell => do .ok (some (← parseDate cell default))
  | none => .ok none

end Rows

/-- What the loop over the rows has gathered. -/
structure PositionScan (D : Type) where
  positions : List ImportedPosition
  rejected : List ImportIssue
  seenSymbols : List Symbol
  cashValues : List ℤ
  asOfValues : List D

namespace PositionScan

variable {D : Type}

def empty : PositionScan D := ⟨[], [], [], [], []⟩

/-- The handler of a row, which keeps what the row has done so far. -/
def reject (scan : PositionScan D) (rowNumber : ℕ) (error : RowError) :
    Except RowError (PositionScan D) :=
  if error.handled then
    .ok { scan with rejected := scan.rejected ++ [validationError rowNumber] }
  else .error error

def seen (scan : PositionScan D) (symbol : Symbol) : PositionScan D :=
  { scan with seenSymbols := symbol :: scan.seenSymbols }

def append (scan : PositionScan D) (position : ImportedPosition) : PositionScan D :=
  { scan with positions := scan.positions ++ [position] }

variable [DecidableEq D]

def addCash (scan : PositionScan D) (cash : Option ℤ) : PositionScan D :=
  { scan with cashValues := cash.elim scan.cashValues fun value => scan.cashValues.insert value }

def addAsOf (scan : PositionScan D) (asOf : Option D) : PositionScan D :=
  { scan with asOfValues := asOf.elim scan.asOfValues fun value => scan.asOfValues.insert value }

variable [DateText D] (mapping : PositionMapping) (default : D)

def row (scan : PositionScan D) (rowNumber : ℕ) (row : BrokerRow D) :
    Except RowError (PositionScan D) :=
  match row.symbol mapping.symbol with
  | .error error => scan.reject rowNumber error
  | .ok symbol =>
      if symbol ∈ scan.seenSymbols then scan.reject rowNumber .valueError
      else
        match readPosition mapping symbol row with
        | .error error => (scan.seen symbol).reject rowNumber error
        | .ok position =>
            let appended := (scan.seen symbol).append position
            match readCash mapping row with
            | .error error => appended.reject rowNumber error
            | .ok cash =>
                match readAsOf mapping default row with
                | .error error => (appended.addCash cash).reject rowNumber error
                | .ok asOf => .ok ((appended.addCash cash).addAsOf asOf)

def rows : ℕ → List (BrokerRow D) → PositionScan D → Except RowError (PositionScan D)
  | _, [], scan => .ok scan
  | rowNumber, row :: rest, scan => do
      let next ← scan.row mapping default rowNumber row
      rows (rowNumber + 1) rest next

end PositionScan

/-- `AccountFilePreview` of positions, of which there is one. -/
structure PositionPreview (D : Type) where
  previewId : Text
  fileId : Text
  sourceSha256 : Text
  sourceName : Text
  detectedMapping : PositionMapping
  positions : List ImportedPosition
  cash : Option ℤ
  asOf : D
  rejectedRows : List ImportIssue
  positions_ne_nil : positions ≠ []

/-- The file whose rows are previewed. -/
structure PositionFile where
  fileId : Text
  sourceName : Text
  sourceSha256 : Text
  mapping : PositionMapping

section Preview

variable {D : Type} [DecidableEq D] [DateText D]

/-- `str` of a decimal with fixed places. -/
def decimalText (places : ℕ) (ticks : ℤ) : Text :=
  (if ticks < 0 then ['-'] else []) ++ DecimalText.format places ticks.natAbs

def PositionMapping.toJson (mapping : PositionMapping) : Json :=
  let optional := fun (field : String) (column : Option Text) =>
    (column.map fun column => (field.toList, Json.str column)).toList
  .obj ([("symbol".toList, .str mapping.symbol),
      ("total_quantity".toList, .str mapping.totalQuantity),
      ("average_cost".toList, .str mapping.averageCost)] ++
    optional "name" mapping.name ++ optional "available_quantity" mapping.availableQuantity ++
    optional "frozen_quantity" mapping.frozenQuantity ++ optional "cash" mapping.cash ++
    optional "as_of" mapping.asOf)

def ImportedPosition.toJson (position : ImportedPosition) : Json :=
  .obj [
    ("symbol".toList, .str position.symbol.text),
    ("name".toList, .str position.name),
    ("total_quantity".toList, .int position.totalQuantity),
    ("available_quantity".toList, .int position.availableQuantity),
    ("frozen_quantity".toList, .int position.frozenQuantity),
    ("average_cost".toList, .str (decimalText 4 position.costTicks))]

def positionPreviewId (file : PositionFile) (positions : List ImportedPosition)
    (cash : Option ℤ) (asOf : D) : Text :=
  Sha256.ofText (Json.dumps (.obj [
    ("file_id".toList, .str file.fileId),
    ("source_sha256".toList, .str file.sourceSha256),
    ("mapping".toList, file.mapping.toJson),
    ("as_of".toList, .str (DateText.isoformat asOf)),
    ("positions".toList, .arr (positions.map ImportedPosition.toJson)),
    ("cash".toList, (cash.map fun ticks => Json.str (decimalText 2 ticks)).getD .null)]))

def positionPreview (file : PositionFile) (default : D) (rows : List (BrokerRow D)) :
    Except RowError (PositionPreview D) := do
  let scan ← PositionScan.empty.rows file.mapping default 1 rows
  if h : scan.positions = [] then .error .valueError
  else if 1 < scan.cashValues.length then .error .valueError
  else if 1 < scan.asOfValues.length then .error .valueError
  else
    let asOf := scan.asOfValues.head?.getD default
    .ok {
      previewId := positionPreviewId file scan.positions scan.cashValues.head? asOf
      fileId := file.fileId
      sourceSha256 := file.sourceSha256
      sourceName := file.sourceName
      detectedMapping := file.mapping
      positions := scan.positions
      cash := scan.cashValues.head?
      asOf := asOf
      rejectedRows := scan.rejected
      positions_ne_nil := h }

end Preview

end QuantWorkbench.Account
