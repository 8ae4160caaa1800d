import QuantWorkbench.Account.RecordText
import QuantWorkbench.Lib.JsonLocality
import QuantWorkbench.Lib.Sha256

/-!
The durable ledger of `account/store.py`: one JSON row a line, each row with its
own digest and the digest of the row before it. A file is its text, or `none`
when it is missing.
-/

namespace QuantWorkbench.Account

open Lib Data

inductive StoreError where
  | hashValidation (line : ℕ)
  | unreadableRecord
  | identityReused
  | diskError
  deriving DecidableEq, Repr

/-- The text of the `ValueError`. An unreadable record raises what the constructor
it is passed to raises, and the disk what the system says. -/
def StoreError.message? : StoreError → Option String
  | .hashValidation line => some s!"ledger hash validation failed at line {line}"
  | .unreadableRecord => none
  | .diskError => none
  | .identityReused => some "ledger record identity already exists with different details"

/-- A row whose digest has been checked. -/
structure StoredRow where
  kind : Text
  payload : Json
  recordHash : Text

def digest (value : Json) : Text := Sha256.ofText (Json.dumps value)

/-- A row without its digest. -/
def unsignedRow (kind previousHash : Text) (payload : Json) : Json :=
  .obj [("kind".toList, .str kind), ("previous_hash".toList, .str previousHash),
    ("payload".toList, payload)]

def completeRow (kind previousHash : Text) (payload : Json) (recordHash : Text) : Json :=
  .obj [("kind".toList, .str kind), ("previous_hash".toList, .str previousHash),
    ("payload".toList, payload), ("record_hash".toList, .str recordHash)]

def requiredKeys : List Text :=
  ["kind".toList, "previous_hash".toList, "payload".toList, "record_hash".toList]

/-- The checks of `_validated_rows` on one line. -/
def readRow (previousHash line : Text) : Option StoredRow :=
  if Text.strip line = [] then none
  else do
    let parsed ← Json.loads line
    let kind ← textField parsed "kind"
    let previous ← textField parsed "previous_hash"
    let payload ← parsed.member? "payload".toList
    let recordHash ← textField parsed "record_hash"
    if parsed.hasKeys requiredKeys ∧ (kind = "fill".toList ∨ kind = "correction".toList) ∧
        previous = previousHash ∧ recordHash = digest (unsignedRow kind previous payload) then
      some ⟨kind, payload, recordHash⟩
    else none

/-- The loop of `_validated_rows` over the numbered lines. -/
def readRows : ℕ → Text → List Text → Except StoreError (List StoredRow)
  | _, _, [] => .ok []
  | number, previousHash, line :: rest =>
      match readRow previousHash line with
      | none => .error (.hashValidation number)
      | some row => (readRows (number + 1) row.recordHash rest).map fun rows => row :: rows

def validatedRows (file : Option Text) : Except StoreError (List StoredRow) :=
  match file with
  | none => .ok []
  | some text => readRows 1 [] (Text.splitlines (Text.universalNewlines text))

section

variable {D : Type} [TradeDateText D]

def recordFromRow (row : StoredRow) : Except StoreError (LedgerRecord D) :=
  match LedgerRecord.fromDict row.kind row.payload with
  | none => .error .unreadableRecord
  | some record => .ok record

def loadRecords (file : Option Text) : Except StoreError (List (LedgerRecord D)) :=
  match validatedRows file with
  | .error error => .error error
  | .ok rows => rows.mapM recordFromRow

def rowHash (previousHash : Text) (record : LedgerRecord D) : Text :=
  digest (unsignedRow record.kind previousHash record.toDict)

def recordLine (previousHash : Text) (record : LedgerRecord D) : Text :=
  Json.dumps (completeRow record.kind previousHash record.toDict (rowHash previousHash record))

variable [DecidableEq D]

/-- The loop of `append` over the rows: the digest of an equal record. -/
def findStored (record : LedgerRecord D) : List StoredRow → Except StoreError (Option Text)
  | [] => .ok none
  | row :: rest =>
      match recordFromRow row with
      | .error error => .error error
      | .ok existing =>
          if existing.identity ≠ record.identity then findStored record rest
          else if existing = record then .ok (some row.recordHash)
          else .error .identityReused

def appendRecord (file : Option Text) (record : LedgerRecord D) :
    Except StoreError (Text × Option Text) :=
  match validatedRows file with
  | .error error => .error error
  | .ok rows =>
    match findStored record rows with
    | .error error => .error error
    | .ok (some recordHash) => .ok (recordHash, file)
    | .ok none =>
        let previousHash := (rows.getLast?.map (·.recordHash)).getD []
        .ok (rowHash previousHash record,
          some (file.getD [] ++ (recordLine previousHash record ++ ['\n'])))

/-- How writing a row can raise: before the file is touched, or when the whole row
is already in it. -/
inductive DiskFault where
  | notOpened
  | written
  deriving DecidableEq, Repr

/-- `append_fill` on a disk that may fail: what it returns or raises, and the file
after it. A record that is already stored is not written. -/
def appendFill (disk : Option DiskFault) (file : Option Text) (event : FillEvent D) :
    Except StoreError Unit × Option Text :=
  match appendRecord file (.fill event) with
  | .error error => (.error error, file)
  | .ok (_, file') =>
      if file' = file then (.ok (), file)
      else
        match disk with
        | none => (.ok (), file')
        | some .notOpened => (.error .diskError, file)
        | some .written => (.error .diskError, file')

def appendRecords (file : Option Text) (records : List (LedgerRecord D)) :
    Except StoreError (Option Text) :=
  records.foldlM (fun file record => (appendRecord file record).map (·.2)) file

end

end QuantWorkbench.Account
