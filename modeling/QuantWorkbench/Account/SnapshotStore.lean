import QuantWorkbench.Account.ImportInbox
import QuantWorkbench.Account.RecordText
import QuantWorkbench.Lib.Fields
import QuantWorkbench.Lib.JsonBytes
import QuantWorkbench.Lib.Raising
import QuantWorkbench.Storage.ResearchManifest

/-!
`AccountSnapshotStore` of `account/snapshot_store.py`: the confirmed positions of a broker file, in
one file that is replaced as a whole. What the snapshot, its encoder and its decoder accept differs:
a snapshot without positions, or one whose date is a datetime, is saved and not loaded again.
-/

namespace QuantWorkbench.Account

open Lib Data

/-! ### Snapshots -/

/-- A coefficient that fits into the digits of the decimal context. -/
structure Ticks where
  value : ℤ
  digits : |value| < 10 ^ DecimalContext.default.precision

def quantizeTicks (scale : ℕ) (value : Decimal) : Except RowError Ticks :=
  match value.finite? with
  | none => .error .valueError
  | some value =>
      if h : |Rounding.halfUp (value * scale)| < 10 ^ DecimalContext.default.precision then
        .ok ⟨_, h⟩
      else .error .invalidOperation

/-- A position whose cost is its own `price`. -/
structure PricedPosition extends ImportedPosition where
  cost_digits : |costTicks| < 10 ^ DecimalContext.default.precision

/-- `ImportedPosition.__post_init__`. -/
def PricedPosition.make (symbol : Symbol) (name : Text) (total available frozen : ℤ)
    (cost : Decimal) : Except RowError PricedPosition :=
  if total < 0 then .error .valueError
  else if hquantities : available < 0 ∨ frozen < 0 then .error .valueError
  else if hsum : available + frozen ≠ total then .error .valueError
  else do
    let ticks ← quantizeTicks priceScale cost
    if hcost : ticks.value < 0 then .error .valueError
    else .ok {
      symbol := symbol
      name := Text.strip name
      totalQuantity := total
      availableQuantity := available
      frozenQuantity := frozen
      costTicks := ticks.value
      available_nonneg := available_of_valid hquantities
      frozen_nonneg := frozen_of_valid hquantities
      consistent := quantities_consistent hsum
      cost_nonneg := not_lt.mp hcost
      name_stripped := Text.strip_strip _
      cost_digits := ticks.digits }

structure ImportedAccountSnapshot where
  snapshotId : Text
  sourceSha256 : Storage.Digest
  sourceName : Text
  asOf : TradeDate
  importedAt : UtcDateTime
  /-- The coefficient of the cash, whose exponent is two decimals. -/
  cash : Option Ticks
  positions : List PricedPosition
  identified : Text.strip snapshotId ≠ []
  name_stripped : Text.strip sourceName = sourceName
  name_valid : ¬ (sourceName = [] ∨ '/' ∈ sourceName ∨ '\\' ∈ sourceName)
  distinct : (positions.map fun position => position.symbol).Nodup

def ImportedAccountSnapshot.make (snapshotId sourceSha256 sourceName : Text) (asOf : TradeDate)
    (importedAt : UtcDateTime) (cash : Option Decimal) (positions : List PricedPosition) :
    Except RowError ImportedAccountSnapshot :=
  if hid : Text.strip snapshotId = [] then .error .valueError
  else do
    let digest ← orRaise (Storage.Digest.ofText? sourceSha256) .valueError
    let name := Text.strip sourceName
    if hname : name = [] ∨ '/' ∈ name ∨ '\\' ∈ name then .error .valueError
    else
      let ticks ← cash.mapM (quantizeTicks moneyScale)
      if hdistinct : (positions.map fun position => position.symbol).Nodup then
        .ok {
          snapshotId := snapshotId
          sourceSha256 := digest
          sourceName := name
          asOf := asOf
          importedAt := importedAt
          cash := ticks
          positions := positions
          identified := hid
          name_stripped := Text.strip_strip _
          name_valid := hname
          distinct := hdistinct }
      else .error .valueError

/-! ### The file -/

def maxSnapshotBytes : ℕ := 5 * 1024 * 1024

def PricedPosition.payload (position : PricedPosition) : Json :=
  .obj [
    ("available_quantity".toList, .int position.availableQuantity),
    ("average_cost".toList, .str (decimalText 4 position.costTicks)),
    ("frozen_quantity".toList, .int position.frozenQuantity),
    ("name".toList, .str position.name),
    ("symbol".toList, .str position.symbol.text),
    ("total_quantity".toList, .int position.totalQuantity)]

def positionFields : List Text :=
  ["available_quantity".toList, "average_cost".toList, "frozen_quantity".toList, "name".toList,
    "symbol".toList, "total_quantity".toList]

def payloadFields : List Text :=
  ["as_of".toList, "cash".toList, "imported_at".toList, "positions".toList, "snapshot_id".toList,
    "source_name".toList, "source_sha256".toList]

def envelopeFields : List Text :=
  ["format_version".toList, "payload".toList, "payload_sha256".toList]

def cashPayload : Option Ticks → Json := Json.nullable fun ticks => .str (decimalText 2 ticks.value)

namespace ImportedAccountSnapshot

/-- `_payload`, with its keys in order. -/
def payload (snapshot : ImportedAccountSnapshot) : Json :=
  .obj [
    ("as_of".toList, .str snapshot.asOf.isoformat),
    ("cash".toList, cashPayload snapshot.cash),
    ("imported_at".toList, .str snapshot.importedAt.isoformat),
    ("positions".toList, .arr (snapshot.positions.map PricedPosition.payload)),
    ("snapshot_id".toList, .str snapshot.snapshotId),
    ("source_name".toList, .str snapshot.sourceName),
    ("source_sha256".toList, .str snapshot.sourceSha256.text)]

def digest (payload : Json) : Text := Sha256.ofText (Json.dumps payload)

def envelope (snapshot : ImportedAccountSnapshot) : Json :=
  .obj [
    ("format_version".toList, .int 1),
    ("payload".toList, snapshot.payload),
    ("payload_sha256".toList, .str (digest snapshot.payload))]

def encoded (snapshot : ImportedAccountSnapshot) : List UInt8 :=
  (Json.dumps snapshot.envelope ++ ['\n']).utf8

end ImportedAccountSnapshot

/-- `str` and `int` of a decoded value, where `int` may raise. -/
class Conversions where
  str : Json → Text
  int? : Json → Option ℤ
  str_text : ∀ text, str (.str text) = text
  int_int : ∀ value, int? (.int value) = some value

section Reading

variable [Conversions]

def memberOf (value : Json) (key : String) : Except RowError Json :=
  orRaise (value.member? key.toList) .keyError

def strOf (value : Json) (key : String) : Except RowError Text :=
  (memberOf value key).map Conversions.str

def intFrom (value : Json) (key : String) : Except RowError ℤ := do
  orRaise (Conversions.int? (← memberOf value key)) .valueError

def decimalFrom (value : Json) : Except RowError Decimal :=
  orRaise (decimal? (Conversions.str value)) .invalidOperation

def readStoredPosition (item : Json) : Except RowError PricedPosition := do
  let symbol ← strOf item "symbol"
  let name ← strOf item "name"
  let total ← intFrom item "total_quantity"
  let available ← intFrom item "available_quantity"
  let frozen ← intFrom item "frozen_quantity"
  let cost ← decimalFrom (← memberOf item "average_cost")
  PricedPosition.make (← orRaise (normalizeSymbol symbol) .valueError) name total available frozen
    cost

def storedCash : Json → Except RowError (Option Decimal)
  | .null => .ok none
  | value => (decimalFrom value).map some

/-- A list, if the value is one. -/
def itemsOf : Json → List Json
  | .arr items => items
  | _ => []

def fromPayload (payload : Json) : Except RowError ImportedAccountSnapshot := do
  require (payload.hasKeys payloadFields = true) .valueError
  let items := itemsOf (← memberOf payload "positions")
  require (items ≠ []) .valueError
  let positions ← (items.filter (Json.hasKeys positionFields)).mapM readStoredPosition
  require (positions.length = items.length) .valueError
  let cash ← storedCash (← memberOf payload "cash")
  let snapshotId ← strOf payload "snapshot_id"
  let sourceSha256 ← strOf payload "source_sha256"
  let sourceName ← strOf payload "source_name"
  let asOf ← orRaise (TradeDate.fromisoformat (← strOf payload "as_of")) .valueError
  let importedAt ← orRaise (UtcDateTime.fromisoformat (← strOf payload "imported_at")) .valueError
  ImportedAccountSnapshot.make snapshotId sourceSha256 sourceName asOf importedAt cash positions

inductive SnapshotError where
  | naiveClock
  | inFuture
  | unsafePath
  | tooLarge
  | notMade
  | notWritten
  | notRead
  | integrity
  /-- `decimal.InvalidOperation`, which no handler takes. -/
  | invalidOperation
  deriving DecidableEq

/-- The file of the store and the one written beside it. -/
structure SnapshotDisk where
  file : Option (List UInt8)
  temporary : Option (List UInt8)
  /-- `_validate_path` finds no link on the way to the file. -/
  safe : Bool

def validEnvelope (envelope : Json) : Bool :=
  envelope.hasKeys envelopeFields && envelope.count? "format_version" = some 1 &&
    (envelope.member? "payload".toList).any fun payload =>
      payload matches .obj _ &&
        ((envelope.text? "payload_sha256").any fun sha256 =>
          Storage.isDigestText sha256 && sha256 = ImportedAccountSnapshot.digest payload)

def readBytes (raw : List UInt8) : Except SnapshotError ImportedAccountSnapshot := do
  require (raw ≠ [] ∧ raw.length ≤ maxSnapshotBytes) .integrity
  let envelope ← orRaise (Json.ofBytes? raw) .integrity
  require (validEnvelope envelope = true) .integrity
  let payload ← orRaise (envelope.member? "payload".toList) .integrity
  match fromPayload payload with
  | .ok snapshot => .ok snapshot
  | .error error => .error (if error.handled then .integrity else .invalidOperation)

def SnapshotDisk.load (disk : SnapshotDisk) (readable : Bool) :
    Except SnapshotError (Option ImportedAccountSnapshot) :=
  match disk.file with
  | none => .ok none
  | some raw => do
      require (disk.safe = true) .unsafePath
      require (readable = true) .notRead
      some <$> readBytes raw

end Reading

/-! ### Writing -/

/-- Which operations of a `save` raise, and what a write that raises has written. -/
structure WriteFaults where
  mkdir : Bool
  create : Bool
  write : Option (List UInt8)
  sync : Bool
  replace : Bool
  unlink : Bool

def WriteFaults.none : WriteFaults := ⟨false, false, Option.none, false, false, false⟩

namespace AccountSnapshotStore

abbrev Call := Raising SnapshotError SnapshotDisk Unit

def validatePath : Call := do
  let safe ← Raising.read SnapshotDisk.safe
  Raising.check (safe = true) .unsafePath

/-- The body of the `try`. -/
def replaceFile (faults : WriteFaults) (encoded : List UInt8) : Call := do
  validatePath
  Raising.check (faults.create = false) .notWritten
  Raising.change fun disk => { disk with temporary := some (faults.write.getD encoded) }
  Raising.check (faults.write = none ∧ faults.sync = false) .notWritten
  validatePath
  Raising.check (faults.replace = false) .notWritten
  Raising.change fun disk => { disk with file := some encoded, temporary := none }

/-- The `finally`, which takes no notice of its errors. -/
def unlinkTemporary (faults : WriteFaults) : Call :=
  Raising.change fun disk => if faults.unlink then disk else { disk with temporary := none }

def save (clock : Option UtcDateTime) (faults : WriteFaults) (snapshot : ImportedAccountSnapshot) :
    Call :=
  match clock with
  | none => Raising.raise .naiveClock
  | some current => do
      Raising.check
        (snapshot.importedAt.microseconds ≤ current.microseconds + 5 * 60 * 1000000) .inFuture
      validatePath
      Raising.check (snapshot.encoded.length ≤ maxSnapshotBytes) .tooLarge
      Raising.check (faults.mkdir = false) .notMade
      Raising.andFinally (replaceFile faults snapshot.encoded) (unlinkTemporary faults)

/-! ### Failed and successful calls -/

theorem ends_validatePath_bind {next : Unit → Call} {disk : SnapshotDisk}
    {post : Unit → SnapshotDisk → Prop} {fails : SnapshotError → SnapshotDisk → Prop}
    (hsafe : disk.safe = true → Raising.Ends (next ()) disk post fails)
    (hnot : fails .unsafePath disk) : Raising.Ends (validatePath >>= next) disk post fails := by
  change Raising.Ends (Raising.check (disk.safe = true) .unsafePath >>= next) disk post fails
  exact Raising.ends_check_bind hsafe fun _ => hnot

def Kept (disk after : SnapshotDisk) : Prop := after.file = disk.file ∧ after.safe = disk.safe

theorem ends_replaceFile (faults : WriteFaults) (encoded : List UInt8) (disk : SnapshotDisk) :
    Raising.Ends (replaceFile faults encoded) disk
      (fun _ after => after.file = some encoded ∧ after.safe = true)
      (fun _ after => Kept disk after) := by
  refine ends_validatePath_bind (fun hsafe => ?_) ⟨rfl, rfl⟩
  refine Raising.ends_check_bind (fun _ => ?_) fun _ => ⟨rfl, rfl⟩
  apply Raising.ends_change_bind
  refine Raising.ends_check_bind (fun _ => ?_) fun _ => ⟨rfl, rfl⟩
  refine ends_validatePath_bind (fun _ => ?_) ⟨rfl, rfl⟩
  refine Raising.ends_check_bind (fun _ => ?_) fun _ => ⟨rfl, rfl⟩
  exact Raising.ends_change ⟨rfl, hsafe⟩

theorem ends_unlinkTemporary {faults : WriteFaults} {disk : SnapshotDisk}
    {holds : SnapshotDisk → Prop} {fails : SnapshotError → SnapshotDisk → Prop}
    (h : ∀ after : SnapshotDisk, Kept disk after → holds after) :
    Raising.Ends (unlinkTemporary faults) disk (fun _ after => holds after) fails := by
  apply Raising.ends_change
  apply h
  split <;> exact ⟨rfl, rfl⟩

theorem ends_save (clock : Option UtcDateTime) (faults : WriteFaults)
    (snapshot : ImportedAccountSnapshot) (disk : SnapshotDisk) :
    Raising.Ends (save clock faults snapshot) disk
      (fun _ after => (after.file = some snapshot.encoded ∧ after.safe = true) ∧
        snapshot.encoded.length ≤ maxSnapshotBytes)
      (fun _ after => Kept disk after) := by
  cases clock with
  | none => exact Raising.ends_raise ⟨rfl, rfl⟩
  | some current =>
      refine Raising.ends_check_bind (fun _ => ?_) fun _ => ⟨rfl, rfl⟩
      refine ends_validatePath_bind (fun _ => ?_) ⟨rfl, rfl⟩
      refine Raising.ends_check_bind (fun hsize => ?_) fun _ => ⟨rfl, rfl⟩
      refine Raising.ends_check_bind (fun _ => ?_) fun _ => ⟨rfl, rfl⟩
      refine (ends_replaceFile faults snapshot.encoded disk).andFinally ?_ ?_
      · rintro _ written ⟨hfile, hsafe⟩
        refine ends_unlinkTemporary fun after hafter => ⟨⟨?_, ?_⟩, hsize⟩
        · exact hafter.1.trans hfile
        · exact hafter.2.trans hsafe
      · rintro _ failed hfailed
        exact ends_unlinkTemporary fun after hafter =>
          ⟨hafter.1.trans hfailed.1, hafter.2.trans hfailed.2⟩

/-- A snapshot that is small enough is saved where nothing fails. -/
theorem save_ok {snapshot : ImportedAccountSnapshot}
    (h : snapshot.encoded.length ≤ maxSnapshotBytes) :
    save (some snapshot.importedAt) .none snapshot ⟨none, none, true⟩ =
      (.ok (), ⟨some snapshot.encoded, none, true⟩) := by
  dsimp only [save]
  rw [Raising.check_bind (by omega)]
  have hreplaced : replaceFile .none snapshot.encoded ⟨none, none, true⟩ =
      (.ok (), ⟨some snapshot.encoded, none, true⟩) := rfl
  have hvalid : validatePath ⟨none, none, true⟩ = (.ok (), ⟨none, none, true⟩) := rfl
  have hmade : WriteFaults.none.mkdir = false := rfl
  rw [Raising.bind_of_ok hvalid, Raising.check_bind h, Raising.check_bind hmade,
    Raising.andFinally, hreplaced]
  rfl

end AccountSnapshotStore

/-! ### Texts of numbers -/

theorem parse_decimalText (places : ℕ) (ticks : ℤ) :
    DecimalText.parse (decimalText places ticks) = some ((ticks : ℚ) / 10 ^ places) := by
  unfold decimalText
  split
  · next h =>
      have habs : ((ticks.natAbs : ℕ) : ℚ) = -ticks := by
        rw [Nat.cast_natAbs, abs_of_neg h, Int.cast_neg]
      rw [List.singleton_append, DecimalText.parse_neg (DecimalText.chars_format _ _),
        DecimalText.parse_format, habs, Option.map_some, neg_div, neg_neg]
  · next h =>
      have habs : ((ticks.natAbs : ℕ) : ℚ) = ticks := by
        rw [Nat.cast_natAbs, abs_of_nonneg (not_lt.mp h)]
      rw [List.nil_append, DecimalText.parse_format, habs]

theorem decimal?_decimalText (places : ℕ) (ticks : ℤ) :
    decimal? (decimalText places ticks) = some (.finite ((ticks : ℚ) / 10 ^ places)) := by
  rw [decimal?, parse_decimalText]

/-- What was quantized is its own quantization. -/
theorem quantizeTicks_self (scale : ℕ) (hscale : 0 < scale) (ticks : Ticks) :
    quantizeTicks scale (.finite (ticks.value / scale)) = .ok ticks := by
  have hnonzero : (scale : ℚ) ≠ 0 := Nat.cast_ne_zero.mpr hscale.ne'
  have hself : Rounding.halfUp ((ticks.value : ℚ) / scale * scale) = ticks.value := by
    rw [div_mul_cancel₀ _ hnonzero, Rounding.halfUp_intCast]
  have hdigits := ticks.digits
  rw [← hself] at hdigits
  change (if h : |Rounding.halfUp ((ticks.value : ℚ) / scale * scale)| <
    10 ^ DecimalContext.default.precision then _ else _) = _
  rw [dif_pos hdigits]
  congr 1
  cases ticks
  simp only [hself]

/-! ### Round trip -/

section Reading

variable [Conversions]

omit [Conversions] in
theorem PricedPosition.make_self (position : PricedPosition) :
    make position.symbol position.name position.totalQuantity position.availableQuantity
      position.frozenQuantity (.finite (position.costTicks / 10 ^ 4)) = .ok position := by
  have htotal : ¬ position.totalQuantity < 0 := by
    have := position.available_nonneg
    have := position.frozen_nonneg
    have := position.consistent
    omega
  have hquantities : ¬ (position.availableQuantity < 0 ∨ position.frozenQuantity < 0) := by
    have := position.available_nonneg
    have := position.frozen_nonneg
    omega
  have hticks := quantizeTicks_self priceScale (by decide)
    ⟨position.costTicks, position.cost_digits⟩
  have hscale : (priceScale : ℚ) = 10 ^ 4 := by norm_num [priceScale]
  rw [hscale] at hticks
  rw [make, if_neg htotal, dif_neg hquantities, dif_neg (not_not.mpr position.consistent), hticks]
  change (if hcost : position.costTicks < 0 then _ else _) = _
  rw [dif_neg (not_lt.mpr position.cost_nonneg)]
  have hname := position.name_stripped
  congr 1
  cases position
  simp_all

theorem readStoredPosition_payload (position : PricedPosition) :
    readStoredPosition position.payload = .ok position := by
  have hsymbol : strOf position.payload "symbol" = .ok position.symbol.text :=
    congrArg Except.ok (Conversions.str_text _)
  have hname : strOf position.payload "name" = .ok position.name :=
    congrArg Except.ok (Conversions.str_text _)
  have htotal : intFrom position.payload "total_quantity" = .ok position.totalQuantity :=
    congrArg (orRaise · RowError.valueError) (Conversions.int_int _)
  have havailable : intFrom position.payload "available_quantity" =
      .ok position.availableQuantity :=
    congrArg (orRaise · RowError.valueError) (Conversions.int_int _)
  have hfrozen : intFrom position.payload "frozen_quantity" = .ok position.frozenQuantity :=
    congrArg (orRaise · RowError.valueError) (Conversions.int_int _)
  have hcost : memberOf position.payload "average_cost" =
      .ok (.str (decimalText 4 position.costTicks)) := rfl
  have hdecimal : decimalFrom (.str (decimalText 4 position.costTicks)) =
      .ok (.finite (position.costTicks / 10 ^ 4)) := by
    rw [decimalFrom, Conversions.str_text, decimal?_decimalText]
    rfl
  have hnormal : (orRaise (normalizeSymbol position.symbol.text) .valueError :
      Except RowError Symbol) = .ok position.symbol := by
    rw [normalizeSymbol_text]
    rfl
  simp only [readStoredPosition, hsymbol, hname, htotal, havailable, hfrozen, hcost, hdecimal,
    hnormal, ok_bind, position.make_self]

theorem mapM_payload (positions : List PricedPosition) :
    (positions.map PricedPosition.payload).mapM readStoredPosition = .ok positions := by
  induction positions with
  | nil => rfl
  | cons position rest ih =>
      rw [List.map_cons, List.mapM_cons, readStoredPosition_payload, ok_bind, ih]
      rfl

omit [Conversions] in
theorem filter_payload (positions : List PricedPosition) :
    (positions.map PricedPosition.payload).filter (Json.hasKeys positionFields) =
      positions.map PricedPosition.payload := by
  refine List.filter_eq_self.mpr fun item hitem => ?_
  obtain ⟨position, _, rfl⟩ := List.mem_map.mp hitem
  exact Json.hasKeys_obj _ rfl

namespace ImportedAccountSnapshot

omit [Conversions] in
theorem make_self (snapshot : ImportedAccountSnapshot) :
    make snapshot.snapshotId snapshot.sourceSha256.text snapshot.sourceName snapshot.asOf
      snapshot.importedAt
      (snapshot.cash.map fun ticks => .finite ((ticks.value : ℚ) / 10 ^ 2))
      snapshot.positions = .ok snapshot := by
  have hscale : (moneyScale : ℚ) = 10 ^ 2 := by norm_num [moneyScale]
  have hticks : (snapshot.cash.map fun ticks => Decimal.finite ((ticks.value : ℚ) / 10 ^ 2)).mapM
      (quantizeTicks moneyScale) = .ok snapshot.cash := by
    cases snapshot.cash with
    | none => rfl
    | some ticks =>
        have hself := quantizeTicks_self moneyScale (by decide) ticks
        rw [hscale] at hself
        simp only [Option.map_some, Option.mapM_some, hself]
        rfl
  have hname := snapshot.name_stripped
  have hvalid := snapshot.name_valid
  rw [make, dif_neg snapshot.identified, Storage.Digest.ofText?_text]
  simp only [orRaise, ok_bind, hname, dif_neg hvalid, hticks, dif_pos snapshot.distinct]

theorem storedCash_cashPayload (cash : Option Ticks) :
    storedCash (cashPayload cash) =
      .ok (cash.map fun ticks => .finite ((ticks.value : ℚ) / 10 ^ 2)) := by
  cases cash with
  | none => rfl
  | some ticks =>
      change (decimalFrom (.str (decimalText 2 ticks.value))).map some = _
      rw [decimalFrom, Conversions.str_text, decimal?_decimalText]
      rfl

theorem fromPayload_payload (snapshot : ImportedAccountSnapshot) :
    fromPayload snapshot.payload =
      if snapshot.positions = [] then .error .valueError
      else match snapshot.asOf with
        | .date _ => .ok snapshot
        | .datetime _ _ => .error .valueError := by
  have hkeys : snapshot.payload.hasKeys payloadFields = true := Json.hasKeys_obj _ rfl
  have hpositions : memberOf snapshot.payload "positions" =
      .ok (.arr (snapshot.positions.map PricedPosition.payload)) := rfl
  have hcash : memberOf snapshot.payload "cash" =
      .ok (cashPayload snapshot.cash) := rfl
  have hid : strOf snapshot.payload "snapshot_id" = .ok snapshot.snapshotId :=
    congrArg Except.ok (Conversions.str_text _)
  have hdigest : strOf snapshot.payload "source_sha256" = .ok snapshot.sourceSha256.text :=
    congrArg Except.ok (Conversions.str_text _)
  have hname : strOf snapshot.payload "source_name" = .ok snapshot.sourceName :=
    congrArg Except.ok (Conversions.str_text _)
  have hdate : strOf snapshot.payload "as_of" = .ok snapshot.asOf.isoformat :=
    congrArg Except.ok (Conversions.str_text _)
  have htime : strOf snapshot.payload "imported_at" = .ok snapshot.importedAt.isoformat :=
    congrArg Except.ok (Conversions.str_text _)
  rw [fromPayload, require_of hkeys, ok_bind, hpositions, ok_bind]
  dsimp only [itemsOf]
  by_cases hnone : snapshot.positions = []
  · rw [if_pos hnone, hnone]
    rfl
  · have hitems : snapshot.positions.map PricedPosition.payload ≠ [] := by simpa using hnone
    have hlength : snapshot.positions.length =
        (snapshot.positions.map PricedPosition.payload).length := (List.length_map _).symm
    rw [if_neg hnone, require_of hitems, ok_bind, filter_payload, mapM_payload, ok_bind,
      require_of hlength, ok_bind, hcash, ok_bind, storedCash_cashPayload, ok_bind, hid, ok_bind,
      hdigest, ok_bind, hname, ok_bind, hdate, ok_bind]
    have hread := TradeDate.fromisoformat_datetime
    cases hasOf : snapshot.asOf with
    | date value =>
        have hself : TradeDate.fromisoformat (TradeDate.date value).isoformat =
            some (.date value) := (TradeDate.readsBack_iff _).mpr ⟨value, rfl⟩
        have hmade := snapshot.make_self
        rw [hasOf] at hmade
        rw [hself, orRaise, ok_bind, htime, ok_bind, UtcDateTime.fromisoformat_isoformat, orRaise,
          ok_bind, hmade]
    | datetime value offset =>
        rw [hread, orRaise]
        rfl

end ImportedAccountSnapshot

/-! ### What is loaded after a save -/

namespace ImportedAccountSnapshot

omit [Conversions] in
theorem canonical_payload (snapshot : ImportedAccountSnapshot) : snapshot.payload.Canonical := by
  have hposition : ∀ position : PricedPosition, position.payload.Canonical := by
    intro position
    refine Json.Canonical.obj positionFields rfl (by decide) fun member hmember => ?_
    simp only [List.mem_cons, List.not_mem_nil, or_false] at hmember
    rcases hmember with rfl | rfl | rfl | rfl | rfl | rfl
    · exact Json.Canonical.int _
    · exact Json.Canonical.str _
    · exact Json.Canonical.int _
    · exact Json.Canonical.str _
    · exact Json.Canonical.str _
    · exact Json.Canonical.int _
  refine Json.Canonical.obj payloadFields rfl (by decide) fun member hmember => ?_
  simp only [List.mem_cons, List.not_mem_nil, or_false] at hmember
  rcases hmember with rfl | rfl | rfl | rfl | rfl | rfl | rfl
  · exact Json.Canonical.str _
  · exact Json.Canonical.nullable (fun _ => Json.Canonical.str _) _
  · exact Json.Canonical.str _
  · exact Json.Canonical.arr_map hposition _
  · exact Json.Canonical.str _
  · exact Json.Canonical.str _
  · exact Json.Canonical.str _

omit [Conversions] in
theorem canonical_envelope (snapshot : ImportedAccountSnapshot) : snapshot.envelope.Canonical := by
  refine Json.Canonical.obj envelopeFields rfl (by decide) fun member hmember => ?_
  simp only [List.mem_cons, List.not_mem_nil, or_false] at hmember
  rcases hmember with rfl | rfl | rfl
  · exact Json.Canonical.int _
  · exact snapshot.canonical_payload
  · exact Json.Canonical.str _

omit [Conversions] in
theorem validEnvelope_envelope (snapshot : ImportedAccountSnapshot) :
    validEnvelope snapshot.envelope = true := by
  have hkeys : snapshot.envelope.hasKeys envelopeFields = true := Json.hasKeys_obj _ rfl
  have hversion : snapshot.envelope.count? "format_version" = some 1 := rfl
  have hpayload : snapshot.envelope.member? "payload".toList = some snapshot.payload := rfl
  have hsha256 : snapshot.envelope.text? "payload_sha256" = some (digest snapshot.payload) := rfl
  have hdigest : Storage.isDigestText (digest snapshot.payload) = true :=
    Storage.Digest.hexdigest_wellFormed _
  rw [validEnvelope, hkeys, hversion, hpayload, hsha256, Option.any_some, Option.any_some, hdigest,
    decide_eq_true rfl, decide_eq_true rfl]
  rfl

omit [Conversions] in
/-- The envelope adds its keys and two digests at most. -/
theorem length_encoded_le (snapshot : ImportedAccountSnapshot) :
    snapshot.encoded.length ≤ 4 * ((Json.encode snapshot.payload).length + 440) := by
  have hkeys : (Json.quote "format_version".toList).length = 16 ∧
      (Json.quote "payload".toList).length = 9 ∧
      (Json.quote "payload_sha256".toList).length = 16 ∧ (Json.intText 1).length = 1 := by decide
  have hquote := Json.quote_length_le (digest snapshot.payload)
  have hlength : (digest snapshot.payload).length = 64 := Sha256.hexdigest_length _
  have hdumps : (Json.dumps snapshot.envelope).length ≤
      (Json.encode snapshot.payload).length + 439 := by
    rw [Json.dumps, snapshot.canonical_envelope.sorted]
    simp only [envelope, Json.encode, Json.encodeMembers, List.length_append, List.length_cons,
      List.length_nil, hkeys]
    omega
  have hbytes := Json.utf8_length_le (Json.dumps snapshot.envelope ++ ['\n'])
  rw [List.length_append, List.length_singleton] at hbytes
  exact hbytes.trans (by omega)

omit [Conversions] in
theorem encoded_of_payload (snapshot : ImportedAccountSnapshot)
    (h : (Json.encode snapshot.payload).length ≤ 300) :
    snapshot.encoded.length ≤ maxSnapshotBytes := by
  have hlimit : 4 * (300 + 440) ≤ maxSnapshotBytes := by norm_num [maxSnapshotBytes]
  exact (snapshot.length_encoded_le.trans
    (Nat.mul_le_mul_left 4 (Nat.add_le_add_right h 440))).trans hlimit

theorem readBytes_encoded (snapshot : ImportedAccountSnapshot)
    (h : snapshot.encoded.length ≤ maxSnapshotBytes) :
    readBytes snapshot.encoded =
      if snapshot.positions = [] then .error .integrity
      else match snapshot.asOf with
        | .date _ => .ok snapshot
        | .datetime _ _ => .error .integrity := by
  have hne : snapshot.encoded ≠ [] := by
    rw [encoded, Json.utf8_line]
    exact List.append_ne_nil_of_right_ne_nil _ (List.cons_ne_nil _ _)
  have hloads : Json.ofBytes? snapshot.encoded = some snapshot.envelope := by
    rw [Json.ofBytes?, encoded, Text.decodeUtf8_utf8, Option.bind_some,
      snapshot.canonical_envelope.loads_dumps_newline]
  have hpayload : snapshot.envelope.member? "payload".toList = some snapshot.payload := rfl
  rw [readBytes, require_of ⟨hne, h⟩, ok_bind, hloads, orRaise, ok_bind,
    require_of snapshot.validEnvelope_envelope, ok_bind, hpayload, orRaise, ok_bind,
    fromPayload_payload]
  by_cases hnone : snapshot.positions = []
  · rw [if_pos hnone, if_pos hnone]
    rfl
  · rw [if_neg hnone, if_neg hnone]
    cases snapshot.asOf with
    | date day => rfl
    | datetime value offset => rfl

end ImportedAccountSnapshot

/-- A save that returns is followed by a load of this very snapshot, and one that raises by what was
loaded before it. -/
def RoundTrips (snapshot : ImportedAccountSnapshot) : Prop :=
  ∀ (clock : Option UtcDateTime) (faults : WriteFaults) (disk : SnapshotDisk),
    Raising.Ends (AccountSnapshotStore.save clock faults snapshot) disk
      (fun _ after => after.load true = .ok (some snapshot))
      (fun _ after => after.load true = disk.load true)

theorem load_encoded {snapshot : ImportedAccountSnapshot} {disk : SnapshotDisk}
    (hfile : disk.file = some snapshot.encoded) (hsafe : disk.safe = true) :
    disk.load true = some <$> readBytes snapshot.encoded := by
  rw [SnapshotDisk.load, hfile]
  dsimp only
  rw [require_of hsafe, ok_bind, require_of rfl, ok_bind]

theorem readBytes_of_roundTrips {snapshot : ImportedAccountSnapshot} (h : RoundTrips snapshot)
    (hsize : snapshot.encoded.length ≤ maxSnapshotBytes) :
    readBytes snapshot.encoded = .ok snapshot := by
  have hsaved := (h _ .none ⟨none, none, true⟩).of_ok (AccountSnapshotStore.save_ok hsize)
  rw [load_encoded rfl rfl] at hsaved
  cases hread : readBytes snapshot.encoded with
  | error error =>
      rw [hread] at hsaved
      cases hsaved
  | ok other =>
      rw [hread] at hsaved
      cases hsaved
      rfl

/-- A snapshot round-trips exactly if it has positions and the date of them is no datetime, or if no
save accepts it. -/
theorem snapshot_roundTrips_iff (snapshot : ImportedAccountSnapshot) :
    RoundTrips snapshot ↔
      (snapshot.positions ≠ [] ∧ ∃ day, snapshot.asOf = .date day) ∨
        maxSnapshotBytes < snapshot.encoded.length := by
  constructor
  · intro h
    by_contra hneither
    obtain ⟨hshape, hsize⟩ := not_or.mp hneither
    have hsize := not_lt.mp hsize
    have hread := readBytes_of_roundTrips h hsize
    rw [snapshot.readBytes_encoded hsize] at hread
    split at hread
    · cases hread
    · next hpositions =>
        cases hasOf : snapshot.asOf with
        | date day => exact hshape ⟨hpositions, day, hasOf⟩
        | datetime value offset =>
            rw [hasOf] at hread
            cases hread
  · intro h clock faults disk
    refine (AccountSnapshotStore.ends_save clock faults snapshot disk).imp ?_ ?_
    · rintro _ after ⟨⟨hfile, hsafe⟩, hsize⟩
      rcases h with ⟨hpositions, day, hasOf⟩ | hlarge
      · rw [load_encoded hfile hsafe, snapshot.readBytes_encoded hsize, if_neg hpositions, hasOf]
        rfl
      · exact absurd hsize (not_le.mpr hlarge)
    · rintro _ after ⟨hfile, hsafe⟩
      rw [SnapshotDisk.load, SnapshotDisk.load, hfile, hsafe]

end Reading

/-! ### A snapshot without positions -/

section Sample

/-- A value of these two kinds is read by `str` and `int`. -/
instance sampleConversions : Conversions where
  str
    | .str text => text
    | value => Json.dumps value
  int?
    | .int value => some value
    | _ => none
  str_text _ := rfl
  int_int _ := rfl

def emptySnapshot : ImportedAccountSnapshot where
  snapshotId := "preview".toList
  sourceSha256 := ⟨List.replicate 64 'a', by decide⟩
  sourceName := "positions.csv".toList
  asOf := .date (.of 2026 7 17)
  importedAt := ⟨.of 2026 7 17, 8, 0, 0, 0⟩
  cash := none
  positions := []
  identified := by decide
  name_stripped := by decide
  name_valid := by decide
  distinct := List.nodup_nil

theorem encoded_emptySnapshot : emptySnapshot.encoded.length ≤ maxSnapshotBytes := by
  have hpayload : (Json.encode emptySnapshot.payload).length ≤ 300 := by decide +kernel
  exact emptySnapshot.encoded_of_payload hpayload

/-- It is saved, and the file is refused. -/
theorem emptySnapshot_not_roundTrips : ¬ RoundTrips emptySnapshot := by
  intro h
  have hread := readBytes_of_roundTrips h encoded_emptySnapshot
  have hnone : emptySnapshot.positions = [] := rfl
  rw [emptySnapshot.readBytes_encoded encoded_emptySnapshot, if_pos hnone] at hread
  cases hread

end Sample

end QuantWorkbench.Account
