import QuantWorkbench.Account.DurableLedger
import QuantWorkbench.Account.Rebuild

/-!
The service of `account/service.py`, which makes the confirmed rows of an import
durable. A confirmation can raise between two rows, so it returns the state it
leaves in either case.
-/

namespace QuantWorkbench.Account

open Lib Data

inductive ServiceError where
  | ledger (error : LedgerError)
  | store (error : StoreError)
  /-- `ledger idempotency changed during confirmation`. -/
  | idempotencyChanged
  deriving DecidableEq, Repr

/-- The ledger of the service and the file of its store. -/
structure AccountEntryService (D : Type) where
  ledger : AccountLedger D
  file : Option Text

variable {D : Type} [LinearOrder D] [TradeDateText D]

/-- The first loop of a confirmation: every candidate is recorded on the copy. -/
def recordAll (ledger : AccountLedger D) :
    List (FillEvent D) → Except LedgerError (List (LedgerReceipt D))
  | [] => .ok []
  | event :: rest =>
      match ledger.recordFill event with
      | .error error => .error error
      | .ok (receipt, ledger') => (recordAll ledger' rest).map fun receipts => receipt :: receipts

namespace AccountEntryService

variable (service : AccountEntryService D)

def copyLedger (now : UtcDateTime) (today : D) : Except LedgerError (AccountLedger D) :=
  AccountLedger.fromRecords service.ledger.config service.ledger.records now today

/-- Store the row of a fill, which is stored already when the copy knew it. -/
def storeRow (disk : FillEvent D → Option DiskFault) (event : FillEvent D)
    (idempotent : Bool) : Except StoreError Unit × Option Text :=
  if idempotent then (.ok (), service.file) else appendFill (disk event) service.file event

/-- One round of the second loop: store the row, then record it. -/
def confirmRow (disk : FillEvent D → Option DiskFault) (event : FillEvent D)
    (idempotent : Bool) : Except ServiceError (LedgerReceipt D) × AccountEntryService D :=
  match service.storeRow disk event idempotent with
  | (.error error, file) => (.error (.store error), ⟨service.ledger, file⟩)
  | (.ok (), file) =>
    match service.ledger.recordFill event with
    | .error error => (.error (.ledger error), ⟨service.ledger, file⟩)
    | .ok (receipt, ledger') =>
        if receipt.idempotent ≠ idempotent then (.error .idempotencyChanged, ⟨ledger', file⟩)
        else (.ok receipt, ⟨ledger', file⟩)

/-- The second loop, over the candidates and what the copy said of each. -/
def confirmRows (disk : FillEvent D → Option DiskFault) : AccountEntryService D →
    List (FillEvent D × LedgerReceipt D) →
      Except ServiceError (List (LedgerReceipt D)) × AccountEntryService D
  | service, [] => (.ok [], service)
  | service, (event, prospective) :: rest =>
      match service.confirmRow disk event prospective.idempotent with
      | (.error error, service') => (.error error, service')
      | (.ok receipt, service') =>
          let (result, final) := confirmRows disk service' rest
          (result.map fun receipts => receipt :: receipts, final)

def confirmValidatedPreview (disk : FillEvent D → Option DiskFault)
    (candidateEvents : List (FillEvent D)) (now : UtcDateTime) (today : D) :
    Except ServiceError (List (LedgerReceipt D)) × AccountEntryService D :=
  match service.copyLedger now today with
  | .error error => (.error (.ledger error), service)
  | .ok prospective =>
    match recordAll prospective candidateEvents with
    | .error error => (.error (.ledger error), service)
    | .ok prospectiveReceipts =>
        confirmRows disk service (candidateEvents.zip prospectiveReceipts)

end AccountEntryService

end QuantWorkbench.Account
