import QuantWorkbench.Account.Service
import QuantWorkbench.Workbench.Initialization

/-!
The local account part of `workbench/advisory_service.py`: opening the account on
its two files, and the previews and confirmations of manual buys and of account
imports. An operation returns what it gives or raises together with the state it
leaves, because a confirmation can raise half way.

What the environment decides is an input of an operation: today's date, the clock,
fresh identifiers, the preview read from a broker file, and which writes fail.
-/

namespace QuantWorkbench.Workbench

open Lib Data Account

inductive WorkbenchError where
  | entry (error : ServiceError)
  | initialCashNegative
  | cashNotRepresentable
  | metadataInvalid
  | initialCashConflicts
  | metadataRequired
  | metadataNotWritten
  | metadataNotRemoved
  | unknownManualBuy
  | unknownImport
  | sourceChanged
  | snapshotNotSaved
  | stateChanged
  deriving DecidableEq, Repr

/-- The text of the error where this service raises it itself. -/
def WorkbenchError.message? : WorkbenchError → Option String
  | .entry _ => none
  | .initialCashNegative => some "initial_cash must be non-negative"
  | .cashNotRepresentable => none
  | .metadataInvalid => some "account initialization metadata is invalid"
  | .initialCashConflicts =>
      some "initial_cash conflicts with recorded account initialization"
  | .metadataRequired => some
      "existing ledger requires initialization metadata or explicit positive initial cash"
  | .metadataNotWritten => some "account initialization metadata cannot be written"
  | .metadataNotRemoved => some "account initialization metadata cannot be removed"
  | .unknownManualBuy => some "unknown or expired manual buy confirmation"
  | .unknownImport => some "unknown or expired account import confirmation"
  | .sourceChanged => some "file changed after preview"
  | .snapshotNotSaved => none
  | .stateChanged => some "manual ledger state changed during confirmation"

/-- A preview of a file of the inbox: fills for the ledger, or positions for the
separate store of account snapshots. -/
inductive AccountFilePreview where
  | fills (candidateEvents : List (FillEvent Date))
  | positions (rows : ℕ)

structure AdvisoryWorkbench where
  entry : AccountEntryService Date
  /-- The content of the initialization metadata file. -/
  metadata : Option Text
  pendingInitializationCash : Option ℚ
  manualBuyPreviews : List (Text × FillEvent Date)
  accountImportConfirmations : List (Text × AccountFilePreview)

/-- The service after the constructor, with nothing previewed yet. -/
def AdvisoryWorkbench.opened (entry : AccountEntryService Date) (metadata : Option Text)
    (pending : Option ℚ) : AdvisoryWorkbench := ⟨entry, metadata, pending, [], []⟩

def loadInitializationMetadata (metadata : Option Text) : Except WorkbenchError (Option ℚ) :=
  match metadata with
  | none => .ok none
  | some content =>
    match parseInitialization content with
    | none => .error .metadataInvalid
    | some cash => .ok (some cash)

/-- `dict.pop` of a token, in the mapping that is left. -/
def withoutToken {α : Type} (token : Text) (entries : List (Text × α)) : List (Text × α) :=
  entries.filter fun item => item.1 ≠ token

section Open

variable (knownInstruments : List (Symbol × Text)) (nextTradingDay : Date → Date)

/-- The ledger rebuilt from the stored records, over its store. -/
def openEntry (initialCash : ℚ) (file : Option Text) (now : UtcDateTime) (today : Date) :
    Except WorkbenchError (AccountEntryService Date) :=
  match loadRecords file with
  | .error error => .error (.entry (.store error))
  | .ok records =>
    match AccountLedger.create initialCash .default knownInstruments nextTradingDay 100 with
    | .error error => .error (.entry (.ledger error))
    | .ok empty =>
      match AccountLedger.fromRecords empty.config records now today with
      | .error error => .error (.entry (.ledger error))
      | .ok ledger => .ok ⟨ledger, file⟩

/-- `AdvisoryWorkbenchService.__init__` on the two files; `metadataFails` says whether
writing the metadata raises. -/
def openWorkbench (initialCash : ℚ) (file metadata : Option Text) (metadataFails : Bool)
    (now : UtcDateTime) (today : Date) : Except WorkbenchError AdvisoryWorkbench :=
  let requested := money initialCash
  if cashLimit ≤ requested then .error .cashNotRepresentable
  else if requested < 0 then .error .initialCashNegative
  else
    match loadInitializationMetadata metadata with
    | .error error => .error error
    | .ok (some recorded) =>
        if 0 < requested ∧ requested ≠ recorded then .error .initialCashConflicts
        else
          (openEntry knownInstruments nextTradingDay recorded file now today).map fun entry =>
            .opened entry metadata none
    | .ok none =>
        if file.isSome ∧ requested ≤ 0 then .error .metadataRequired
        else
          match openEntry knownInstruments nextTradingDay requested file now today with
          | .error error => .error error
          | .ok entry =>
              if requested ≤ 0 then .ok (.opened entry metadata none)
              else if file.isSome then
                if metadataFails then .error .metadataNotWritten
                else .ok (.opened entry (some (initializationText requested)) none)
              else .ok (.opened entry metadata (some requested))

end Open

namespace AdvisoryWorkbench

variable (service : AdvisoryWorkbench)

/-! ### Manual buys -/

structure ManualBuyPreview where
  confirmationToken : Text
  name : Text
  code : Symbol
  quantity : ℤ
  price : ℚ
  estimatedTotalCost : ℚ
  cashAfter : ℚ

def previewManualBuy (name code : Text) (quantity : ℤ) (price : ℚ) (eventUuid tokenUuid : Text)
    (now : UtcDateTime) (today : Date) :
    Except WorkbenchError ManualBuyPreview × AdvisoryWorkbench :=
  match service.entry.copyLedger now today with
  | .error error => (.error (.entry (.ledger error)), service)
  | .ok prospective =>
    match prospective.recordBuy name code quantity price today
        (some ("advisory-manual-buy-".toList ++ eventUuid)) [] "manual_workbench".toList now with
    | .error error => (.error (.entry (.ledger error)), service)
    | .ok (receipt, _) =>
        let token := "manual-buy-".toList ++ tokenUuid
        let event := receipt.event
        (.ok {
          confirmationToken := token
          name := event.name
          code := event.symbol
          quantity := event.quantity
          price := event.price
          estimatedTotalCost := event.notional + (prospective.config.feesOf event).total
          cashAfter := receipt.cashAfter },
        { service with
          manualBuyPreviews := (token, event) :: withoutToken token service.manualBuyPreviews })

structure ManualBuyResult where
  recorded : Bool
  code : Symbol
  quantity : ℤ
  cashAfter : ℚ

/-- The writes of a confirmation that fail. -/
structure ConfirmFaults where
  metadataFails : Bool
  removeFails : Bool
  disk : FillEvent Date → Option DiskFault

/-- `_write_initialization_metadata` while the first fill is pending: the service with
the metadata written, and whether it was. -/
def writeInitialization (idempotent metadataFails : Bool) :
    Except WorkbenchError (AdvisoryWorkbench × Bool) :=
  match service.pendingInitializationCash with
  | none => .ok (service, false)
  | some cash =>
      if idempotent then .ok (service, false)
      else if metadataFails then .error .metadataNotWritten
      else .ok ({ service with metadata := some (initializationText cash) }, true)

/-- The handler of the confirmation when nothing was appended: the metadata that was
written for the fill is removed again. -/
def undoInitialization (error : WorkbenchError) (written removeFails : Bool) :
    WorkbenchError × AdvisoryWorkbench :=
  if !written then (error, service)
  else if removeFails then (.metadataNotRemoved, service)
  else (error, { service with metadata := none })

/-- The body of `_confirm_manual_buy_locked` once the copy has taken the fill. -/
def recordConfirmed (event : FillEvent Date) (idempotent : Bool) (faults : ConfirmFaults) :
    Except WorkbenchError ManualBuyResult × AdvisoryWorkbench :=
  match service.writeInitialization idempotent faults.metadataFails with
  | .error error => (.error error, service)
  | .ok (begun, written) =>
    match begun.entry.storeRow faults.disk event idempotent with
    | (.error error, file) =>
        let stored := { begun with entry := ⟨begun.entry.ledger, file⟩ }
        let (raised, undone) :=
          stored.undoInitialization (.entry (.store error)) written faults.removeFails
        (.error raised, undone)
    | (.ok (), file) =>
      match begun.entry.ledger.recordFill event with
      | .error error =>
          (.error (.entry (.ledger error)), { begun with entry := ⟨begun.entry.ledger, file⟩ })
      | .ok (receipt, ledger') =>
          let finished := { begun with
            entry := ⟨ledger', file⟩
            pendingInitializationCash :=
              if written then none else begun.pendingInitializationCash }
          if receipt.idempotent ≠ idempotent then (.error .stateChanged, finished)
          else
            (.ok {
              recorded := !receipt.idempotent
              code := receipt.event.symbol
              quantity := receipt.event.quantity
              cashAfter := receipt.cashAfter }, finished)

def confirmManualBuy (token : Text) (faults : ConfirmFaults) (now : UtcDateTime)
    (today : Date) : Except WorkbenchError ManualBuyResult × AdvisoryWorkbench :=
  match service.manualBuyPreviews.lookup token with
  | none => (.error .unknownManualBuy, service)
  | some event =>
    let taken := { service with
      manualBuyPreviews := withoutToken token service.manualBuyPreviews }
    match taken.entry.copyLedger now today with
    | .error error => (.error (.entry (.ledger error)), taken)
    | .ok prospective =>
      match prospective.recordFill event with
      | .error error => (.error (.entry (.ledger error)), taken)
      | .ok (receipt, _) => taken.recordConfirmed event receipt.idempotent faults

/-! ### Account imports -/

inductive ImportResult where
  | fills (recordedRows idempotentRows : ℕ)
  | positions (positionRows : ℕ)

def previewAccountImport (preview : AccountFilePreview) (tokenUuid : Text) :
    AdvisoryWorkbench :=
  let token := "account-import-".toList ++ tokenUuid
  { service with
    accountImportConfirmations :=
      (token, preview) :: withoutToken token service.accountImportConfirmations }

/-- `confirm_account_import`; `unchanged` is the digest check of the source, and
`saved` whether the snapshot store takes a snapshot of positions. -/
def confirmAccountImport (token : Text) (unchanged saved : Bool)
    (disk : FillEvent Date → Option DiskFault) (now : UtcDateTime) (today : Date) :
    Except WorkbenchError ImportResult × AdvisoryWorkbench :=
  match service.accountImportConfirmations.lookup token with
  | none => (.error .unknownImport, service)
  | some preview =>
    let taken := { service with
      accountImportConfirmations := withoutToken token service.accountImportConfirmations }
    if !unchanged then (.error .sourceChanged, taken)
    else
      match preview with
      | .fills candidateEvents =>
        match taken.entry.confirmValidatedPreview disk candidateEvents now today with
        | (.error error, entry) => (.error (.entry error), { taken with entry := entry })
        | (.ok receipts, entry) =>
            (.ok (.fills (receipts.countP fun receipt => !receipt.idempotent)
              (receipts.countP fun receipt => receipt.idempotent)), { taken with entry := entry })
      | .positions rows =>
          if saved then (.ok (.positions rows), taken) else (.error .snapshotNotSaved, taken)

end AdvisoryWorkbench

/-! ### Runs -/

inductive WorkbenchOp where
  | previewManualBuy (name code : Text) (quantity : ℤ) (price : ℚ) (eventUuid tokenUuid : Text)
      (now : UtcDateTime) (today : Date)
  | confirmManualBuy (token : Text) (faults : AdvisoryWorkbench.ConfirmFaults)
      (now : UtcDateTime) (today : Date)
  | previewAccountImport (preview : AccountFilePreview) (tokenUuid : Text)
  | confirmAccountImport (token : Text) (unchanged saved : Bool)
      (disk : FillEvent Date → Option DiskFault) (now : UtcDateTime) (today : Date)

/-- The state an operation leaves, whether it returns or raises. -/
def AdvisoryWorkbench.step (service : AdvisoryWorkbench) : WorkbenchOp → AdvisoryWorkbench
  | .previewManualBuy name code quantity price eventUuid tokenUuid now today =>
      (service.previewManualBuy name code quantity price eventUuid tokenUuid now today).2
  | .confirmManualBuy token faults now today =>
      (service.confirmManualBuy token faults now today).2
  | .previewAccountImport preview tokenUuid => service.previewAccountImport preview tokenUuid
  | .confirmAccountImport token unchanged saved disk now today =>
      (service.confirmAccountImport token unchanged saved disk now today).2

end QuantWorkbench.Workbench
