import QuantWorkbench.Account.ConfirmedFills
import QuantWorkbench.Account.Service

/-!
Confirming the same import twice. After a confirmation every candidate is in the
ledger, and the sales of the import have used up what they sold. So a second
confirmation succeeds exactly when every sale of the import could be made once
more.
-/

namespace QuantWorkbench.Account

open Lib Data

variable {D : Type} [LinearOrder D]

open AccountLedger

/-! ### Confirmed fills once more -/

theorem recordAll_length {ledger : AccountLedger D} {events : List (FillEvent D)}
    {receipts : List (LedgerReceipt D)} (h : recordAll ledger events = .ok receipts) :
    receipts.length = events.length := by
  induction events generalizing ledger receipts with
  | nil =>
      cases h
      rfl
  | cons event rest ih =>
      rw [recordAll] at h
      split at h
      · cases h
      · rename_i receipt ledger' hrecord
        cases hrest : recordAll ledger' rest with
        | error error =>
            rw [hrest] at h
            cases h
        | ok others =>
            rw [hrest] at h
            cases h
            simp [ih hrest]

theorem AccountLedger.SameBooks.recordAll {a b : AccountLedger D} (hbooks : SameBooks a b)
    {events : List (FillEvent D)} {receipts : List (LedgerReceipt D)}
    (h : Account.recordAll a events = .ok receipts) :
    Account.recordAll b events = .ok receipts := by
  induction events generalizing a b receipts with
  | nil => exact h
  | cons event rest ih =>
      rw [Account.recordAll] at h ⊢
      split at h
      · cases h
      rename_i receipt a' hrecord
      obtain ⟨b', hrecord', hbooks'⟩ := hbooks.recordFill hrecord
      rw [hrecord']
      dsimp only
      cases hrest : Account.recordAll a' rest with
      | error error =>
          rw [hrest] at h
          cases h
      | ok others =>
          rw [hrest] at h
          rw [ih hbooks' hrest]
          exact h

/-- The copy takes confirmed fills again exactly when every sale among them is
covered, and finds each of them known. -/
theorem recordAll_confirmed {ledger : AccountLedger D} {events : List (FillEvent D)}
    (hconfirmed : ∀ event ∈ events, ledger.Confirmed event) :
    ((∃ receipts, recordAll ledger events = .ok receipts) ↔
        ∀ event ∈ events, ledger.SaleCovered event) ∧
      ∀ receipts, recordAll ledger events = .ok receipts →
        ∀ receipt ∈ receipts, receipt.idempotent = true := by
  induction events with
  | nil =>
      refine ⟨by simp [recordAll], ?_⟩
      intro receipts h
      cases h
      simp
  | cons event rest ih =>
      obtain ⟨hhead, hrest⟩ := List.forall_mem_cons.mp hconfirmed
      obtain ⟨hcovered, hidempotent⟩ := ih hrest
      have htake := hhead.recordFill_iff
      rw [List.forall_mem_cons, ← htake, ← hcovered]
      rw [recordAll]
      cases hrecord : ledger.recordFill event with
      | error error => simp
      | ok result =>
          obtain ⟨receipt, ledger'⟩ := result
          obtain ⟨rfl, hknown⟩ := hhead.recordFill_eq hrecord
          dsimp only
          cases hall : recordAll ledger' rest with
          | error error => simp [Except.map]
          | ok others =>
              refine ⟨by simp [Except.map], ?_⟩
              intro receipts h
              cases h
              exact List.forall_mem_cons.mpr ⟨hknown, hidempotent others hall⟩

variable [TradeDateText D]

/-- The second loop over covered confirmed fills that the copy knows changes
nothing. -/
theorem confirmRows_confirmed (disk : FillEvent D → Option DiskFault)
    (service : AccountEntryService D) {events : List (FillEvent D)} {prospective : List (LedgerReceipt D)}
    (hconfirmed : ∀ event ∈ events, service.ledger.Confirmed event)
    (hcovered : ∀ event ∈ events, service.ledger.SaleCovered event)
    (hlength : prospective.length = events.length)
    (hknown : ∀ receipt ∈ prospective, receipt.idempotent = true) :
    ∃ receipts, service.confirmRows disk (events.zip prospective) = (.ok receipts, service) ∧
      receipts.length = events.length ∧ ∀ receipt ∈ receipts, receipt.idempotent = true := by
  induction events generalizing prospective with
  | nil => exact ⟨[], by simp [AccountEntryService.confirmRows], rfl, by simp⟩
  | cons event rest ih =>
      cases prospective with
      | nil => cases hlength
      | cons first others =>
          obtain ⟨hfirst, hothers⟩ := List.forall_mem_cons.mp hknown
          obtain ⟨hhead, hconfirmed⟩ := List.forall_mem_cons.mp hconfirmed
          obtain ⟨hcover, hcovered⟩ := List.forall_mem_cons.mp hcovered
          obtain ⟨receipts, hrest, hcount, hall⟩ :=
            ih hconfirmed hcovered (Nat.succ.inj hlength) hothers
          obtain ⟨⟨receipt, ledger'⟩, hrecord⟩ := hhead.recordFill_iff.mpr hcover
          obtain ⟨rfl, hidempotent⟩ := hhead.recordFill_eq hrecord
          have hrow : service.confirmRow disk event first.idempotent = (.ok receipt, service) := by
            simp [AccountEntryService.confirmRow, AccountEntryService.storeRow, hfirst, hrecord,
              hidempotent]
          refine ⟨receipt :: receipts, ?_, by simp [hcount], ?_⟩
          · rw [List.zip_cons_cons, AccountEntryService.confirmRows, hrow]
            simp only [hrest, Except.map]
          · exact List.forall_mem_cons.mpr ⟨hidempotent, hall⟩

/-! ### The first confirmation -/

/-- The file of the service holds the records, and they are those of its ledger. -/
structure AccountEntryService.Holds (service : AccountEntryService D)
    (stored : List (LedgerRecord D)) : Prop where
  file_eq : service.file = fileOf stored
  content_eq : stored.map LedgerRecord.content =
    service.ledger.records.map LedgerRecord.content

theorem AccountEntryService.Holds.mem_events {service : AccountEntryService D}
    {stored : List (LedgerRecord D)} (hholds : service.Holds stored)
    (hrecorded : Recorded service.ledger.config service.ledger) {event : FillEvent D}
    (h : LedgerRecord.fill event ∈ stored) : event ∈ service.ledger.events := by
  have hcontent : (LedgerRecord.fill event).content ∈
      service.ledger.records.map LedgerRecord.content := by
    rw [← hholds.content_eq]
    exact List.mem_map_of_mem h
  obtain ⟨record, hrecord, hsame⟩ := List.mem_map.mp hcontent
  rw [hrecorded.events_eq]
  exact List.mem_map.mpr ⟨record, hrecord, by rw [LedgerRecord.fill_of_content hsame]; rfl⟩

theorem AccountEntryService.Holds.not_stored {service : AccountEntryService D}
    {stored : List (LedgerRecord D)} (hholds : service.Holds stored)
    (hrecorded : Recorded service.ledger.config service.ledger) {event : FillEvent D}
    (hnew : service.ledger.eventById event.eventId = none) {other : FillEvent D}
    (hid : other.eventId = event.eventId) : LedgerRecord.fill other ∉ stored := by
  intro hmem
  have hknown := hholds.mem_events hrecorded hmem
  unfold AccountLedger.eventById at hnew
  rw [List.find?_eq_none] at hnew
  exact hnew other hknown (by simpa using hid)

omit [LinearOrder D] in
theorem appendFill_fileOf [DecidableEq D] {disk : Option DiskFault}
    {stored : List (LedgerRecord D)} {event : FillEvent D} {file : Option Text}
    (h : appendFill disk (fileOf stored) event = (.ok (), file)) :
    file = fileOf (addRecord stored (.fill event)) := by
  unfold appendFill at h
  split at h
  · cases h
  rename_i recordHash file' hresult
  rw [← appendRecord_ok hresult]
  split at h
  · rename_i hsame
    rw [hsame]
    exact (Prod.mk.inj h).2.symm
  · split at h
    · exact (Prod.mk.inj h).2.symm
    · cases (Prod.mk.inj h).1
    · cases (Prod.mk.inj h).1

theorem confirmRow_ok {disk : FillEvent D → Option DiskFault}
    {service service' : AccountEntryService D} {stored : List (LedgerRecord D)}
    {event : FillEvent D} {idempotent : Bool} {receipt : LedgerReceipt D}
    (hrecorded : Recorded service.ledger.config service.ledger)
    (hholds : service.Holds stored)
    (h : service.confirmRow disk event idempotent = (.ok receipt, service')) :
    service.ledger.recordFill event = .ok (receipt, service'.ledger) ∧
      ∃ stored', service'.Holds stored' ∧
        ∀ record ∈ stored', record ∈ stored ∨ record = .fill event := by
  unfold AccountEntryService.confirmRow at h
  split at h
  · cases h
  rename_i file hfile
  split at h
  · cases h
  rename_i first ledger' hrecord
  split at h
  · cases h
  rename_i hagree
  cases h
  rw [ne_eq, not_not] at hagree
  refine ⟨hrecord, ?_⟩
  have hadded := append_addFill (recordFill_ok hrecord)
  cases idempotent with
  | true =>
      obtain rfl := hadded.2.2.1 hagree
      obtain rfl : service.file = file := (Prod.mk.inj hfile).2
      exact ⟨stored, ⟨hholds.file_eq, hholds.content_eq⟩, fun record hr => .inl hr⟩
  | false =>
      obtain ⟨hnew, rfl⟩ := hadded.2.2.2 hagree
      simp only [AccountEntryService.storeRow, Bool.false_eq_true, if_false,
        hholds.file_eq] at hfile
      have happend := appendFill_fileOf hfile
      rw [addRecord, if_neg (hholds.not_stored hrecorded hnew rfl)] at happend
      refine ⟨stored ++ [.fill event], ⟨happend, ?_⟩, ?_⟩
      · simp only [List.map_append, hholds.content_eq, AccountLedger.withEvent]
      · intro record hmem
        simpa using hmem

omit [LinearOrder D] in
theorem fileOf_concat_ne (stored : List (LedgerRecord D)) (record : LedgerRecord D) :
    fileOf (stored ++ [record]) ≠ fileOf stored := by
  rw [fileOf_concat]
  cases hfile : fileOf stored with
  | none => simp
  | some text =>
      intro h
      have hlength := congrArg List.length (Option.some.inj h)
      simp at hlength

theorem storeRow_new (disk : FillEvent D → Option DiskFault)
    {service : AccountEntryService D} {stored : List (LedgerRecord D)} {event : FillEvent D}
    (hrecorded : Recorded service.ledger.config service.ledger)
    (hholds : service.Holds stored) (hreadable : ∀ record ∈ stored, record.Readable)
    (hnew : service.ledger.eventById event.eventId = none) :
    service.storeRow disk event false =
      match disk event with
      | none => (.ok (), fileOf (stored ++ [.fill event]))
      | some .notOpened => (.error .diskError, service.file)
      | some .written => (.error .diskError, fileOf (stored ++ [.fill event])) := by
  have hidentity : ∀ record ∈ stored,
      record.identity = (LedgerRecord.fill event).identity → record = .fill event := by
    intro record hrecord hsame
    cases record with
    | fill other =>
        exact absurd hrecord (hholds.not_stored hrecorded hnew (Prod.mk.inj hsame).2)
    | correction item =>
        have hkind := (Prod.mk.inj hsame).1
        exact absurd hkind (by decide)
  obtain ⟨recordHash, happend⟩ := appendRecord_of_readable _ hreadable hidentity
  rw [addRecord, if_neg (hholds.not_stored hrecorded hnew rfl)] at happend
  have hne := fileOf_concat_ne stored (.fill event)
  unfold AccountEntryService.storeRow
  rw [if_neg Bool.false_ne_true, appendFill, hholds.file_eq, happend]
  cases disk event with
  | none => simp [hne]
  | some fault => cases fault <;> simp [hne]

theorem confirmRow_new (disk : FillEvent D → Option DiskFault)
    {service : AccountEntryService D} {stored : List (LedgerRecord D)} {event : FillEvent D}
    {receipt : LedgerReceipt D} {ledger' : AccountLedger D}
    (hrecorded : Recorded service.ledger.config service.ledger)
    (hholds : service.Holds stored) (hreadable : ∀ record ∈ stored, record.Readable)
    (h : service.ledger.recordFill event = .ok (receipt, ledger'))
    (hidempotent : receipt.idempotent = false) :
    service.confirmRow disk event false =
      match disk event with
      | none => (.ok receipt, ⟨ledger', fileOf (stored ++ [.fill event])⟩)
      | some .notOpened => (.error (.store .diskError), service)
      | some .written =>
          (.error (.store .diskError), ⟨service.ledger, fileOf (stored ++ [.fill event])⟩) := by
  obtain ⟨hnew, -⟩ := (append_addFill (recordFill_ok h)).2.2.2 hidempotent
  rw [AccountEntryService.confirmRow, storeRow_new disk hrecorded hholds hreadable hnew]
  cases disk event with
  | none => simp [h, hidempotent]
  | some fault => cases fault <;> rfl

/-- A known row is found in the ledger, and nothing is written. -/
theorem confirmRow_known (disk : FillEvent D → Option DiskFault)
    {service : AccountEntryService D} {event : FillEvent D} {receipt : LedgerReceipt D}
    {ledger' : AccountLedger D} (h : service.ledger.recordFill event = .ok (receipt, ledger'))
    (hidempotent : receipt.idempotent = true) :
    ledger' = service.ledger ∧
      service.confirmRow disk event true = (.ok receipt, service) := by
  obtain rfl := (append_addFill (recordFill_ok h)).2.2.1 hidempotent
  refine ⟨rfl, ?_⟩
  simp [AccountEntryService.confirmRow, AccountEntryService.storeRow, h, hidempotent]

/-- The rows that a confirmation writes to the file: those new to the ledger, up to
the first that the disk refuses. -/
def rowsWritten (disk : FillEvent D → Option DiskFault) (ledger : AccountLedger D) :
    List (FillEvent D) → List (FillEvent D)
  | [] => []
  | event :: rest =>
      match ledger.recordFill event with
      | .error _ => []
      | .ok (receipt, ledger') =>
          if receipt.idempotent then rowsWritten disk ledger' rest
          else
            match disk event with
            | none => event :: rowsWritten disk ledger' rest
            | some .notOpened => []
            | some .written => [event]

omit [TradeDateText D] in
theorem rowsWritten_subset (disk : FillEvent D → Option DiskFault) (ledger : AccountLedger D)
    (events : List (FillEvent D)) : ∀ event ∈ rowsWritten disk ledger events, event ∈ events := by
  induction events generalizing ledger with
  | nil => simp [rowsWritten]
  | cons head rest ih =>
      intro event hevent
      rw [rowsWritten] at hevent
      split at hevent
      · cases hevent
      split at hevent
      · exact List.mem_cons_of_mem _ (ih _ event hevent)
      split at hevent
      · rcases List.mem_cons.mp hevent with rfl | hevent
        · exact List.mem_cons_self
        · exact List.mem_cons_of_mem _ (ih _ event hevent)
      · cases hevent
      · rw [List.mem_singleton.mp hevent]
        exact List.mem_cons_self

namespace AccountEntryService

/-- The ledger and the store of the service agree. -/
def Agrees (service : AccountEntryService D) : Prop :=
  ∃ stored, service.Holds stored ∧ ∀ record ∈ stored, record.Readable

/-- The second service has the configuration of the first, a recorded ledger, and a
store that agrees with it. -/
structure Kept (service service' : AccountEntryService D) : Prop where
  config_eq : service'.ledger.config = service.ledger.config
  recorded : Recorded service'.ledger.config service'.ledger
  agrees : service'.Agrees

end AccountEntryService

/-- What a confirmation of rows leaves that the copy took, finished or stopped by
the disk: as long as no readable row fails after it is written, a ledger that
agrees with its store. -/
structure Confirmation (disk : FillEvent D → Option DiskFault)
    (service : AccountEntryService D) (events : List (FillEvent D))
    (prospective : List (LedgerReceipt D))
    (result : Except ServiceError (List (LedgerReceipt D)) × AccountEntryService D) : Prop where
  kept : service.Kept result.2
  unwritten : rowsWritten disk service.ledger events = [] → result.2.file = service.file
  finished : (∀ event ∈ events, disk event = none) → result.1 = .ok prospective

theorem confirmRows_confirmation (disk : FillEvent D → Option DiskFault)
    {service : AccountEntryService D} {stored : List (LedgerRecord D)}
    {events : List (FillEvent D)} {prospective : List (LedgerReceipt D)}
    (hrecorded : Recorded service.ledger.config service.ledger)
    (hholds : service.Holds stored) (hreadable : ∀ record ∈ stored, record.Readable)
    (h : recordAll service.ledger events = .ok prospective)
    (hrows : ∀ event ∈ rowsWritten disk service.ledger events,
      (LedgerRecord.fill event).Readable ∧ disk event ≠ some .written) :
    Confirmation disk service events prospective
      (service.confirmRows disk (events.zip prospective)) := by
  induction events generalizing service stored prospective with
  | nil =>
      cases h
      exact ⟨⟨rfl, hrecorded, stored, hholds, hreadable⟩, fun _ => rfl, fun _ => rfl⟩
  | cons event rest ih =>
      rw [recordAll] at h
      split at h
      · cases h
      rename_i receipt ledger' hrecord
      cases hall : recordAll ledger' rest with
      | error error =>
          rw [hall] at h
          cases h
      | ok others =>
          rw [hall] at h
          cases h
          have hconfig := append_config (recordFill_ok hrecord)
          rw [rowsWritten, hrecord] at hrows
          rw [List.zip_cons_cons, AccountEntryService.confirmRows]
          cases hidempotent : receipt.idempotent with
          | true =>
              simp only [hidempotent, if_true] at hrows
              obtain ⟨rfl, hrow⟩ := confirmRow_known disk hrecord hidempotent
              have hlater := ih hrecorded hholds hreadable hall hrows
              rw [hrow]
              refine ⟨hlater.kept, ?_, ?_⟩
              · intro hnone
                rw [rowsWritten, hrecord] at hnone
                simp only [hidempotent, if_true] at hnone
                exact hlater.unwritten hnone
              · intro hdisk
                have hfinished := hlater.finished (List.forall_mem_cons.mp hdisk).2
                simp only [hfinished, Except.map]
          | false =>
              have hrow := confirmRow_new disk hrecorded hholds hreadable hrecord hidempotent
              obtain ⟨-, hledger⟩ := (append_addFill (recordFill_ok hrecord)).2.2.2 hidempotent
              cases hfault : disk event with
              | none =>
                  simp only [hidempotent, Bool.false_eq_true, if_false, hfault,
                    List.forall_mem_cons] at hrows
                  simp only [hfault] at hrow
                  have hrecorded' : Recorded ledger'.config ledger' := by
                    rw [hconfig]
                    exact hrecorded.append (recordFill_ok hrecord)
                  have hholds' : AccountEntryService.Holds ⟨ledger', fileOf (stored ++ [.fill event])⟩
                      (stored ++ [.fill event]) := by
                    refine ⟨rfl, ?_⟩
                    simp only [hledger, List.map_append, hholds.content_eq,
                      AccountLedger.withEvent]
                  have hreadable' : ∀ record ∈ stored ++ [.fill event], record.Readable := by
                    rw [List.forall_mem_append]
                    exact ⟨hreadable, by simpa using hrows.1.1⟩
                  have hlater := ih hrecorded' hholds' hreadable' hall hrows.2
                  rw [hrow]
                  have hkept := hlater.kept
                  refine ⟨⟨hkept.config_eq.trans hconfig, hkept.recorded, hkept.agrees⟩, ?_, ?_⟩
                  · intro hnone
                    rw [rowsWritten, hrecord] at hnone
                    simp [hidempotent, hfault] at hnone
                  · intro hdisk
                    have hfinished := hlater.finished (List.forall_mem_cons.mp hdisk).2
                    simp only [hfinished, Except.map]
              | some fault =>
                  simp only [hidempotent, Bool.false_eq_true, if_false, hfault] at hrows
                  cases fault with
                  | notOpened =>
                      simp only [hfault] at hrow
                      rw [hrow]
                      refine ⟨⟨rfl, hrecorded, stored, hholds, hreadable⟩, fun _ => rfl, ?_⟩
                      intro hdisk
                      rw [(List.forall_mem_cons.mp hdisk).1] at hfault
                      cases hfault
                  | written =>
                      exact absurd hfault (hrows event (by simp)).2

/-- What a successful confirmation of the events leaves. -/
structure Imported (service : AccountEntryService D) (stored : List (LedgerRecord D))
    (events : List (FillEvent D)) (service' : AccountEntryService D) : Prop where
  config_eq : service'.ledger.config = service.ledger.config
  recorded : Recorded service'.ledger.config service'.ledger
  ledger_eq : service'.ledger = service.ledger.withFills events
  confirmed : ∀ event ∈ events, service'.ledger.Confirmed event
  keeps : ∀ event, service.ledger.Confirmed event → service'.ledger.Confirmed event
  holds : ∃ stored', service'.Holds stored' ∧
    ∀ record ∈ stored', record ∈ stored ∨ ∃ event ∈ events, record = .fill event

/-- A confirmation of some rows leaves a file. -/
theorem Imported.file_ne_none {service service' : AccountEntryService D}
    {stored : List (LedgerRecord D)} {events : List (FillEvent D)}
    (h : Imported service stored events service') (hevents : events ≠ []) :
    service'.file ≠ none := by
  obtain ⟨event, hevent⟩ := List.exists_mem_of_ne_nil events hevents
  obtain ⟨existing, hknown, -⟩ := (h.confirmed event hevent).recorded
  have hmem := List.mem_of_find?_eq_some hknown
  rw [h.recorded.events_eq] at hmem
  obtain ⟨record, hrecord, -⟩ := List.mem_map.mp hmem
  obtain ⟨stored', hholds, -⟩ := h.holds
  have hne : stored' ≠ [] := by
    rintro rfl
    have hcontent := List.mem_map_of_mem (f := LedgerRecord.content) hrecord
    rw [← hholds.content_eq] at hcontent
    cases hcontent
  rw [hholds.file_eq, fileOf, if_neg hne]
  simp

theorem confirmRows_imported {disk : FillEvent D → Option DiskFault}
    {service service' : AccountEntryService D} {stored : List (LedgerRecord D)} {events : List (FillEvent D)}
    {prospective receipts : List (LedgerReceipt D)}
    (hrecorded : Recorded service.ledger.config service.ledger)
    (hholds : service.Holds stored) (hlength : prospective.length = events.length)
    (h : service.confirmRows disk (events.zip prospective) = (.ok receipts, service')) :
    Imported service stored events service' := by
  induction events generalizing service stored prospective receipts with
  | nil =>
      cases h
      exact ⟨rfl, hrecorded, rfl, by simp, fun _ h => h, stored, hholds, fun _ hr => .inl hr⟩
  | cons event rest ih =>
      cases prospective with
      | nil => cases hlength
      | cons first others =>
          rw [List.zip_cons_cons, AccountEntryService.confirmRows] at h
          split at h
          · cases h
          rename_i receipt middle hrow
          cases hrows : middle.confirmRows disk (rest.zip others) with
          | mk result final =>
              rw [hrows] at h
              cases result with
              | error error => cases h
              | ok later =>
                  cases h
                  obtain ⟨hrecord, stored', hholds', hstored'⟩ :=
                    confirmRow_ok hrecorded hholds hrow
                  have happend := recordFill_ok hrecord
                  have hconfig := append_config happend
                  have hrecorded' : Recorded middle.ledger.config middle.ledger := by
                    rw [hconfig]
                    exact hrecorded.append happend
                  have hlater := ih hrecorded' hholds' (Nat.succ.inj hlength) hrows
                  obtain ⟨final', hfinal, hmem⟩ := hlater.holds
                  refine ⟨hlater.config_eq.trans hconfig, hlater.recorded, ?_, ?_, ?_, final',
                    hfinal, ?_⟩
                  · rw [hlater.ledger_eq, (append_addFill happend).1]
                    rfl
                  · rw [List.forall_mem_cons]
                    exact ⟨hlater.keeps event (recordFill_confirmed hrecord), hlater.confirmed⟩
                  · intro other hother
                    exact hlater.keeps other (hother.append happend)
                  · intro record hrecordMem
                    rcases hmem record hrecordMem with hold | ⟨e, he, rfl⟩
                    · rcases hstored' record hold with hold | rfl
                      · exact .inl hold
                      · exact .inr ⟨event, by simp, rfl⟩
                    · exact .inr ⟨e, by simp [he], rfl⟩

namespace AccountEntryService

omit [TradeDateText D] in
theorem copyLedger_ok {service : AccountEntryService D}
    (hrecorded : Recorded service.ledger.config service.ledger) (now : UtcDateTime) (today : D) :
    ∃ copy, service.copyLedger now today = .ok copy ∧ SameBooks service.ledger copy :=
  hrecorded.fromRecords rfl now today

theorem confirmValidatedPreview_imported {disk : FillEvent D → Option DiskFault}
    {service service' : AccountEntryService D} {stored : List (LedgerRecord D)} {events : List (FillEvent D)}
    {receipts : List (LedgerReceipt D)} {now : UtcDateTime} {today : D}
    (hrecorded : Recorded service.ledger.config service.ledger)
    (hholds : service.Holds stored)
    (h : service.confirmValidatedPreview disk events now today = (.ok receipts, service')) :
    Imported service stored events service' := by
  unfold confirmValidatedPreview at h
  split at h
  · cases h
  split at h
  · cases h
  rename_i prospective hprospective
  exact confirmRows_imported hrecorded hholds (recordAll_length hprospective) h

/-- The rows that confirming a preview writes: none when the copy refuses one. -/
def previewRows (disk : FillEvent D → Option DiskFault) (ledger : AccountLedger D)
    (events : List (FillEvent D)) : List (FillEvent D) :=
  match recordAll ledger events with
  | .error _ => []
  | .ok _ => rowsWritten disk ledger events

/-- A confirmation, finished or not, keeps ledger and store in agreement as long as
no row it writes is unreadable or fails after it is written. -/
theorem confirmValidatedPreview_kept (disk : FillEvent D → Option DiskFault)
    {service : AccountEntryService D} {events : List (FillEvent D)}
    (hrecorded : Recorded service.ledger.config service.ledger) (hagrees : service.Agrees)
    (hrows : ∀ event ∈ previewRows disk service.ledger events,
      (LedgerRecord.fill event).Readable ∧ disk event ≠ some .written)
    (now : UtcDateTime) (today : D) :
    service.Kept (service.confirmValidatedPreview disk events now today).2 ∧
      (previewRows disk service.ledger events = [] →
        (service.confirmValidatedPreview disk events now today).2.file = service.file) := by
  obtain ⟨copy, hcopy, hbooks⟩ := copyLedger_ok hrecorded now today
  unfold confirmValidatedPreview
  simp only [hcopy]
  cases hall : recordAll copy events with
  | error error => exact ⟨⟨rfl, hrecorded, hagrees⟩, fun _ => rfl⟩
  | ok prospective =>
      have hledger := hbooks.symm.recordAll hall
      simp only [previewRows, hledger] at hrows ⊢
      obtain ⟨stored, hholds, hreadable⟩ := hagrees
      have hconfirmation :=
        confirmRows_confirmation disk hrecorded hholds hreadable hledger hrows
      exact ⟨hconfirmation.kept, hconfirmation.unwritten⟩

/-- Confirming the events succeeds, whatever the disk does, finds each of them known
and changes nothing. -/
def ConfirmsAgain (service : AccountEntryService D) (events : List (FillEvent D))
    (now : UtcDateTime) (today : D) : Prop :=
  ∀ disk, ∃ receipts,
    service.confirmValidatedPreview disk events now today = (.ok receipts, service) ∧
      receipts.length = events.length ∧ ∀ receipt ∈ receipts, receipt.idempotent = true

theorem confirmsAgain_iff {service : AccountEntryService D} {events : List (FillEvent D)}
    (hrecorded : Recorded service.ledger.config service.ledger)
    (hconfirmed : ∀ event ∈ events, service.ledger.Confirmed event)
    (now : UtcDateTime) (today : D) :
    service.ConfirmsAgain events now today ↔
      ∀ event ∈ events, service.ledger.SaleCovered event := by
  obtain ⟨copy, hcopy, hbooks⟩ := copyLedger_ok hrecorded now today
  obtain ⟨hcovered, hknown⟩ :=
    recordAll_confirmed fun event he => hbooks.confirmed (hconfirmed event he)
  have hsales : (∀ event ∈ events, copy.SaleCovered event) ↔
      ∀ event ∈ events, service.ledger.SaleCovered event := by
    constructor
    · intro h event he
      exact (hbooks.saleCovered_iff event).mp (h event he)
    · intro h event he
      exact (hbooks.saleCovered_iff event).mpr (h event he)
  constructor
  · intro hagain
    obtain ⟨receipts, h, -⟩ := hagain fun _ => none
    rw [← hsales, ← hcovered]
    unfold confirmValidatedPreview at h
    simp only [hcopy] at h
    split at h
    · cases h
    · rename_i prospective hprospective
      exact ⟨prospective, hprospective⟩
  · intro h disk
    obtain ⟨prospective, hprospective⟩ := hcovered.mpr (hsales.mpr h)
    obtain ⟨receipts, hrows, hcount, hall⟩ := confirmRows_confirmed disk service hconfirmed h
      (recordAll_length hprospective) (hknown prospective hprospective)
    refine ⟨receipts, ?_, hcount, hall⟩
    unfold confirmValidatedPreview
    simp only [hcopy, hprospective, hrows]

/-- A service on the same file whose ledger is rebuilt from the stored records. -/
def reopen (service : AccountEntryService D) (now : UtcDateTime) (today : D) :
    Except ServiceError (AccountEntryService D) :=
  match loadRecords service.file with
  | .error error => .error (.store error)
  | .ok records =>
    match AccountLedger.fromRecords service.ledger.config records now today with
    | .error error => .error (.ledger error)
    | .ok ledger => .ok ⟨ledger, service.file⟩

/-! ### The second confirmation -/

omit [LinearOrder D] in
/-- A stored record is readable only with the fill it adds. -/
theorem readable_event {record : LedgerRecord D} (h : record.Readable) :
    (LedgerRecord.fill record.event).Readable := by
  cases record with
  | fill event => exact h
  | correction item =>
      refine ⟨?_, h.2⟩
      intro t ht
      apply h.1 t
      simp only [LedgerRecord.freeTexts, LedgerRecord.event, List.mem_cons, List.not_mem_nil,
        or_false] at ht ⊢
      rcases ht with rfl | rfl | rfl <;> simp

theorem readable_of_sameEvent {existing event : FillEvent D}
    (hid : existing.eventId = event.eventId) (hsame : sameEvent existing event = true)
    (h : (LedgerRecord.fill existing).Readable) : (LedgerRecord.fill event).Readable := by
  simp only [sameEvent, decide_eq_true_eq] at hsame
  obtain ⟨-, -, -, -, hdate, hname, hsource⟩ := hsame
  have htexts : (LedgerRecord.fill event).freeTexts = (LedgerRecord.fill existing).freeTexts := by
    simp only [LedgerRecord.freeTexts, hid, hname, hsource]
  refine ⟨?_, ?_⟩
  · unfold LedgerRecord.IsOneLine
    rw [htexts]
    exact h.1
  · change ReadsBack event.tradeDate
    rw [← hdate]
    exact h.2

theorem Holds.readable_of_recorded {service : AccountEntryService D}
    {stored : List (LedgerRecord D)} (hholds : service.Holds stored)
    (hrecorded : Recorded service.ledger.config service.ledger)
    (hreadable : ∀ record ∈ stored, record.Readable) {event : FillEvent D}
    (h : service.ledger.HasRecorded event) : (LedgerRecord.fill event).Readable := by
  obtain ⟨existing, hknown, hsame⟩ := h
  have hid : existing.eventId = event.eventId := by
    simpa using List.find?_some hknown
  have hmem : existing ∈ service.ledger.events := List.mem_of_find?_eq_some hknown
  rw [hrecorded.events_eq] at hmem
  obtain ⟨record, hrecord, rfl⟩ := List.mem_map.mp hmem
  have hcontent : record.content ∈ stored.map LedgerRecord.content := by
    rw [hholds.content_eq]
    exact List.mem_map_of_mem hrecord
  obtain ⟨other, hother, hequal⟩ := List.mem_map.mp hcontent
  apply readable_of_sameEvent hid hsame
  rw [← LedgerRecord.event_of_content hequal]
  exact readable_event (hreadable other hother)

theorem reopen_iff {service : AccountEntryService D} {stored : List (LedgerRecord D)}
    (hrecorded : Recorded service.ledger.config service.ledger)
    (hholds : service.Holds stored) (now : UtcDateTime) (today : D) :
    (∃ reopened, service.reopen now today = .ok reopened) ↔
      ∀ record ∈ stored, record.Readable := by
  rw [← loadRecords_fileOf_iff, ← hholds.file_eq]
  unfold reopen
  cases hload : (loadRecords service.file : Except StoreError (List (LedgerRecord D))) with
  | error error => simp
  | ok records =>
      have hstored : records = stored := by
        have hreadable := (loadRecords_fileOf_iff stored).mp ⟨records, by
          rw [← hholds.file_eq, hload]⟩
        rw [hholds.file_eq, loadRecords_fileOf hreadable] at hload
        exact (Except.ok.inj hload).symm
      obtain ⟨rebuilt, hrebuilt, -⟩ :=
        hrecorded.fromRecords hholds.content_eq now today
      simp [hstored, hrebuilt]

theorem reopen_sameBooks {service reopened : AccountEntryService D}
    {stored : List (LedgerRecord D)} {now : UtcDateTime} {today : D}
    (hrecorded : Recorded service.ledger.config service.ledger)
    (hholds : service.Holds stored) (h : service.reopen now today = .ok reopened) :
    SameBooks service.ledger reopened.ledger ∧
      Recorded reopened.ledger.config reopened.ledger := by
  have hreadable := (reopen_iff hrecorded hholds now today).mp ⟨reopened, h⟩
  obtain ⟨rebuilt, hrebuilt, hbooks⟩ := hrecorded.fromRecords hholds.content_eq now today
  unfold reopen at h
  rw [hholds.file_eq, loadRecords_fileOf hreadable] at h
  simp only [hrebuilt] at h
  cases h
  refine ⟨hbooks, ?_⟩
  rw [← hbooks.config_eq]
  exact fromRecords_recorded hrebuilt

/-- Let a service whose recorded ledger and store agree confirm an import. To
confirm it again, in the same process or after the ledger is rebuilt from the
store, succeeds with every row known and nothing changed, exactly when each sale
of the import is still covered by what can be sold once the import is in the
ledger, and each row can be read back from the store. -/
theorem confirm_idempotent_iff {disk : FillEvent D → Option DiskFault}
    {service service' : AccountEntryService D} {events : List (FillEvent D)} {receipts : List (LedgerReceipt D)} {now : UtcDateTime}
    {today : D} (hrecorded : Recorded service.ledger.config service.ledger)
    (hagrees : service.Agrees)
    (hfirst : service.confirmValidatedPreview disk events now today = (.ok receipts, service'))
    (now' : UtcDateTime) (today' : D) :
    (service'.ConfirmsAgain events now' today' ∧
        ∃ reopened, service'.reopen now' today' = .ok reopened ∧
          reopened.ConfirmsAgain events now' today') ↔
      (∀ event ∈ events, (service.ledger.withFills events).SaleCovered event) ∧
        ∀ event ∈ events, (LedgerRecord.fill event).Readable := by
  obtain ⟨stored, hholds, hreadable⟩ := hagrees
  have himported := confirmValidatedPreview_imported hrecorded hholds hfirst
  obtain ⟨stored', hholds', hstored'⟩ := himported.holds
  have hreopen := reopen_iff himported.recorded hholds' now' today'
  rw [← himported.ledger_eq, confirmsAgain_iff himported.recorded himported.confirmed]
  constructor
  · rintro ⟨hsales, reopened, hreopened, -⟩
    refine ⟨hsales, ?_⟩
    intro event hevent
    exact hholds'.readable_of_recorded himported.recorded (hreopen.mp ⟨reopened, hreopened⟩)
      (himported.confirmed event hevent).recorded
  · rintro ⟨hsales, hrows⟩
    refine ⟨hsales, ?_⟩
    have hload : ∀ record ∈ stored', record.Readable := by
      intro record hrecord
      rcases hstored' record hrecord with hold | ⟨event, hevent, rfl⟩
      · exact hreadable record hold
      · exact hrows event hevent
    obtain ⟨reopened, hreopened⟩ := hreopen.mpr hload
    obtain ⟨hbooks, hrebuilt⟩ := reopen_sameBooks himported.recorded hholds' hreopened
    refine ⟨reopened, hreopened, ?_⟩
    rw [confirmsAgain_iff hrebuilt fun event he => hbooks.confirmed (himported.confirmed event he)]
    intro event hevent
    exact (hbooks.saleCovered_iff event).mpr (hsales event hevent)

/-- The empty sample account and its missing file, with Friday after Thursday. -/
def sampleService : AccountEntryService Date where
  ledger := .empty (sampleConfigOn fun _ => sampleDay 1)
  file := none

theorem sampleService_agrees : sampleService.Agrees :=
  ⟨[], ⟨rfl, rfl⟩, by simp⟩

theorem sampleFill_readable (id : Char) (hplain : OneLine [id]) (side : TradeSide)
    (quantity priceTicks : ℕ) (day : Date)
    (h : decide (Text.strip [id] = [id] ∧ 0 < quantity ∧ 0 < priceTicks) = true) :
    (LedgerRecord.fill (sampleFill id side quantity priceTicks day h)).Readable := by
  refine ⟨?_, Date.readsBack day⟩
  have htexts : OneLine "x".toList ∧ OneLine "manual".toList := by
    unfold OneLine
    decide
  simpa [LedgerRecord.IsOneLine, LedgerRecord.freeTexts, sampleFill] using
    ⟨hplain, htexts.1, htexts.2⟩

def reliable : FillEvent D → Option DiskFault := fun _ => none

theorem sampleService_confirms {events : List (FillEvent Date)}
    {receipts : List (LedgerReceipt Date)}
    (hrows : ∀ event ∈ events, (LedgerRecord.fill event).Readable)
    (h : recordAll sampleService.ledger events = .ok receipts) :
    ∃ service', sampleService.confirmValidatedPreview reliable events (sampleTime 10)
      (sampleDay 0) = (.ok receipts, service') := by
  have hholds : sampleService.Holds [] := ⟨rfl, rfl⟩
  have hconfirmation := confirmRows_confirmation reliable .empty hholds (by simp) h
    fun event hevent => ⟨hrows event (rowsWritten_subset _ _ _ event hevent), by simp [reliable]⟩
  have hcopy : sampleService.copyLedger (sampleTime 10) (sampleDay 0) =
      .ok sampleService.ledger := rfl
  refine ⟨(sampleService.confirmRows reliable (events.zip receipts)).2, ?_⟩
  unfold confirmValidatedPreview
  simp only [hcopy, h]
  rw [← hconfirmation.finished fun _ _ => rfl]

def roundTripImport : List (FillEvent Date) :=
  [sampleFill 'a' .buy 100 100000 (sampleDay 0),
   sampleFill 'b' .sell 100 110000 (sampleDay 1)]

def purchaseImport : List (FillEvent Date) :=
  [sampleFill 'a' .buy 100 100000 (sampleDay 0)]

theorem purchaseImport_readable :
    ∀ event ∈ purchaseImport, (LedgerRecord.fill event).Readable := by
  intro event hevent
  obtain rfl := List.mem_singleton.mp hevent
  exact sampleFill_readable 'a' (by unfold OneLine; decide) _ _ _ _ _

theorem purchaseImport_confirmed_again :
    ∃ receipts service', sampleService.confirmValidatedPreview reliable purchaseImport
        (sampleTime 10) (sampleDay 0) = (.ok receipts, service') ∧
      service'.ConfirmsAgain purchaseImport (sampleTime 11) (sampleDay 0) := by
  have hrows := purchaseImport_readable
  have htaken : (recordAll sampleService.ledger purchaseImport).map List.length = .ok 1 := by
    decide +kernel
  have hsales : ∀ event ∈ purchaseImport,
      (sampleService.ledger.withFills purchaseImport).SaleCovered event := by
    intro event hevent hside
    obtain rfl := List.mem_singleton.mp hevent
    cases hside
  cases hall : recordAll sampleService.ledger purchaseImport with
  | error error =>
      rw [hall] at htaken
      cases htaken
  | ok receipts =>
      obtain ⟨service', hfirst⟩ := sampleService_confirms hrows hall
      refine ⟨receipts, service', hfirst, ?_⟩
      exact ((confirm_idempotent_iff .empty sampleService_agrees hfirst (sampleTime 11)
        (sampleDay 0)).mpr ⟨hsales, hrows⟩).1

/-- Confirmed once more, the import raises at its sale, of which nothing is left. -/
theorem roundTripImport_not_confirmed_again :
    sampleService.Agrees ∧ Recorded sampleService.ledger.config sampleService.ledger ∧
      ∃ receipts service', sampleService.confirmValidatedPreview reliable roundTripImport
          (sampleTime 10) (sampleDay 0) = (.ok receipts, service') ∧
        ¬ service'.ConfirmsAgain roundTripImport (sampleTime 11) (sampleDay 1) := by
  refine ⟨sampleService_agrees, .empty, ?_⟩
  have hrows : ∀ event ∈ roundTripImport, (LedgerRecord.fill event).Readable := by
    intro event hevent
    rcases List.mem_cons.mp hevent with rfl | hevent
    · exact sampleFill_readable 'a' (by unfold OneLine; decide) _ _ _ _ _
    · obtain rfl := List.mem_singleton.mp hevent
      exact sampleFill_readable 'b' (by unfold OneLine; decide) _ _ _ _ _
  have htaken : (recordAll sampleService.ledger roundTripImport).map List.length = .ok 2 := by
    decide +kernel
  have hshort : ¬ (sampleService.ledger.withFills roundTripImport).Sellable sampleSymbol 100
      (sampleDay 1) := by
    unfold Sellable
    decide +kernel
  cases hall : recordAll sampleService.ledger roundTripImport with
  | error error =>
      rw [hall] at htaken
      cases htaken
  | ok receipts =>
      obtain ⟨service', hfirst⟩ := sampleService_confirms hrows hall
      have hholds : sampleService.Holds [] := ⟨rfl, rfl⟩
      have himported := confirmValidatedPreview_imported .empty hholds hfirst
      refine ⟨receipts, service', hfirst, ?_⟩
      rw [confirmsAgain_iff himported.recorded himported.confirmed, himported.ledger_eq]
      intro hsales
      exact hshort (hsales (sampleFill 'b' .sell 100 110000 (sampleDay 1))
        (by simp [roundTripImport]) rfl)

end AccountEntryService

end QuantWorkbench.Account
