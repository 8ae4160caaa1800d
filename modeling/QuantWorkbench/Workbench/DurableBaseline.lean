import QuantWorkbench.Account.CashBound
import QuantWorkbench.Account.ImportConfirmation
import QuantWorkbench.Workbench.AdvisoryService

/-!
The initial cash of the account and its first stored fill. A manual buy writes the
initialization metadata before it appends the first fill and takes it back when the
append fails. An import of fills appends without writing it, so the account is
recorded completely along every run in which no import brings the first fill, no
append fails after its row is written, every stored row can be read back, and the
metadata is not taken back once a fill is stored.
-/

namespace QuantWorkbench.Workbench

open Lib Data Account AccountEntryService AccountLedger

/-! ### What is to hold -/

/-- Once a fill is stored, the metadata holds the initial cash; so the service opens
again on its files with no initial cash or the same one, with the same snapshots,
and refuses another one. -/
def DurableBaseline (knownInstruments : List (Symbol × Text)) (nextTradingDay : Date → Date)
    (cash : ℚ) (service : AdvisoryWorkbench) : Prop :=
  service.entry.file ≠ none →
    loadInitializationMetadata service.metadata = .ok (some cash) ∧
    ∀ (initialCash : ℚ) (metadataFails : Bool) (now : UtcDateTime) (today : Date),
      (money initialCash = 0 ∨ money initialCash = cash →
        ∃ reopened, openWorkbench knownInstruments nextTradingDay initialCash
            service.entry.file service.metadata metadataFails now today = .ok reopened ∧
          ∀ date, reopened.entry.ledger.snapshot date = service.entry.ledger.snapshot date) ∧
      (0 < money initialCash → money initialCash ≠ cash →
        ∃ error, openWorkbench knownInstruments nextTradingDay initialCash
          service.entry.file service.metadata metadataFails now today = .error error)

namespace AdvisoryWorkbench

/-- The rows that confirming a manual buy writes to the durable ledger. -/
def manualRows (service : AdvisoryWorkbench) (token : Text) (faults : ConfirmFaults) :
    List (FillEvent Date) :=
  match service.manualBuyPreviews.lookup token with
  | none => []
  | some event =>
      if service.pendingInitializationCash.isSome ∧ faults.metadataFails then []
      else rowsWritten faults.disk service.entry.ledger [event]

def importRows (service : AdvisoryWorkbench) (token : Text) (unchanged : Bool)
    (disk : FillEvent Date → Option DiskFault) : List (FillEvent Date) :=
  match service.accountImportConfirmations.lookup token with
  | some (.fills candidateEvents) =>
      if unchanged then previewRows disk service.entry.ledger candidateEvents else []
  | _ => []

def TakesBack (service : AdvisoryWorkbench) (token : Text) (faults : ConfirmFaults) : Prop :=
  service.pendingInitializationCash ≠ none ∧ faults.metadataFails = false ∧
    faults.removeFails = false ∧
    ∃ event, service.manualBuyPreviews.lookup token = some event ∧
      faults.disk event = some .notOpened ∧
      ∃ receipt ledger', service.entry.ledger.recordFill event = .ok (receipt, ledger') ∧
        receipt.idempotent = false

/-- Each row written can be read back and is not reported as failed; an import writes
none while the metadata is missing, and a manual buy does not take the metadata back
once a fill is stored. -/
def SafeStep (service : AdvisoryWorkbench) : WorkbenchOp → Prop
  | .confirmManualBuy token faults _ _ =>
      (∀ event ∈ service.manualRows token faults,
        (LedgerRecord.fill event).Readable ∧ faults.disk event ≠ some .written) ∧
      (service.entry.file ≠ none → ¬ service.TakesBack token faults)
  | .confirmAccountImport token unchanged _ disk _ _ =>
      (∀ event ∈ service.importRows token unchanged disk,
        (LedgerRecord.fill event).Readable ∧ disk event ≠ some .written) ∧
      (service.metadata = none → service.importRows token unchanged disk = [])
  | _ => True

/-! ### The invariant -/

/-- The account is recorded completely, or its first fill is still to come. -/
structure Sound (config : LedgerConfig Date) (cash : ℚ) (service : AdvisoryWorkbench) :
    Prop where
  config_eq : service.entry.ledger.config = config
  recorded : Recorded service.entry.ledger.config service.entry.ledger
  agrees : service.entry.Agrees
  pending : service.pendingInitializationCash = none ∨
    service.pendingInitializationCash = some cash
  initialized : service.metadata = some (initializationText cash) ∨
    service.metadata = none ∧ service.entry.file = none ∧
      service.pendingInitializationCash = some cash

variable {config : LedgerConfig Date} {cash : ℚ} {service : AdvisoryWorkbench}

theorem Sound.of_fields {service' : AdvisoryWorkbench} (h : Sound config cash service)
    (hentry : service'.entry = service.entry) (hmetadata : service'.metadata = service.metadata)
    (hpending : service'.pendingInitializationCash = service.pendingInitializationCash) :
    Sound config cash service' := by
  constructor
  · rw [hentry]
    exact h.config_eq
  · rw [hentry]
    exact h.recorded
  · rw [hentry]
    exact h.agrees
  · rw [hpending]
    exact h.pending
  · rw [hentry, hmetadata, hpending]
    exact h.initialized

theorem Sound.previewManualBuy (h : Sound config cash service) (name code : Text)
    (quantity : ℤ) (price : ℚ) (eventUuid tokenUuid : Text) (now : UtcDateTime) (today : Date) :
    Sound config cash
      (service.previewManualBuy name code quantity price eventUuid tokenUuid now today).2 := by
  unfold AdvisoryWorkbench.previewManualBuy
  split
  · exact h
  split
  · exact h
  · exact h.of_fields rfl rfl rfl

theorem recordConfirmed_known {event : FillEvent Date} {receipt : LedgerReceipt Date}
    {ledger' : AccountLedger Date} (faults : ConfirmFaults)
    (hrecord : service.entry.ledger.recordFill event = .ok (receipt, ledger'))
    (hidempotent : receipt.idempotent = true) :
    (service.recordConfirmed event true faults).2 = service := by
  obtain rfl := (append_addFill (recordFill_ok hrecord)).2.2.1 hidempotent
  have hbegun : service.writeInitialization true faults.metadataFails = .ok (service, false) := by
    unfold writeInitialization
    split <;> rfl
  simp [recordConfirmed, hbegun, storeRow, hrecord, hidempotent]

theorem Sound.recordConfirmed_new (h : Sound config cash service) {event : FillEvent Date}
    {receipt : LedgerReceipt Date} {ledger' : AccountLedger Date} (faults : ConfirmFaults)
    (hrecord : service.entry.ledger.recordFill event = .ok (receipt, ledger'))
    (hidempotent : receipt.idempotent = false)
    (hrows : service.pendingInitializationCash = none ∨ faults.metadataFails = false →
      faults.disk event ≠ some .notOpened →
        (LedgerRecord.fill event).Readable ∧ faults.disk event ≠ some .written)
    (hundo : service.pendingInitializationCash ≠ none → faults.metadataFails = false →
      faults.removeFails = false → faults.disk event = some .notOpened →
        service.entry.file = none) :
    Sound config cash (service.recordConfirmed event false faults).2 := by
  obtain ⟨stored, hholds, hreadable⟩ := h.agrees
  obtain ⟨hnew, hledger⟩ := (append_addFill (recordFill_ok hrecord)).2.2.2 hidempotent
  have hstore := storeRow_new faults.disk h.recorded hholds hreadable hnew
  have hconfig := append_config (recordFill_ok hrecord)
  have hrecorded' : Recorded ledger'.config ledger' := by
    rw [hconfig]
    exact h.recorded.append (recordFill_ok hrecord)
  have hagrees' : (LedgerRecord.fill event).Readable →
      Agrees ⟨ledger', fileOf (stored ++ [.fill event])⟩ := by
    intro hrow
    refine ⟨stored ++ [.fill event], ⟨rfl, ?_⟩, ?_⟩
    · simp only [hledger, List.map_append, hholds.content_eq, AccountLedger.withEvent]
    · rw [List.forall_mem_append]
      exact ⟨hreadable, by simpa using hrow⟩
  have hstored' : ∀ metadata pending previews imports,
      metadata = some (initializationText cash) → pending = none →
        (LedgerRecord.fill event).Readable →
          Sound config cash ⟨⟨ledger', fileOf (stored ++ [.fill event])⟩, metadata, pending,
            previews, imports⟩ := by
    intro metadata pending previews imports hmetadata hpending hrow
    exact ⟨hconfig.trans h.config_eq, hrecorded', hagrees' hrow, .inl hpending, .inl hmetadata⟩
  rcases h.pending with hpending | hpending
  · have hmetadata : service.metadata = some (initializationText cash) := by
      rcases h.initialized with hmetadata | ⟨-, -, hsome⟩
      · exact hmetadata
      · rw [hpending] at hsome
        cases hsome
    have hbegun : service.writeInitialization false faults.metadataFails =
        .ok (service, false) := by
      unfold writeInitialization
      rw [hpending]
    rw [recordConfirmed, hbegun]
    dsimp only
    rw [hstore]
    cases hdisk : faults.disk event with
    | none =>
        have hrow := hrows (.inl hpending) (by simp [hdisk])
        simp only [hrecord, hidempotent, ne_eq, not_true_eq_false, if_false]
        exact hstored' _ _ _ _ hmetadata hpending hrow.1
    | some fault =>
        cases fault with
        | notOpened =>
            simp only [undoInitialization, Bool.not_false, if_true]
            exact h.of_fields rfl rfl rfl
        | written =>
            exact absurd hdisk (hrows (.inl hpending) (by simp [hdisk])).2
  · cases hfails : faults.metadataFails with
    | true =>
        have hbegun : service.writeInitialization false faults.metadataFails =
            .error .metadataNotWritten := by
          simp [writeInitialization, hpending, hfails]
        rw [recordConfirmed, hbegun]
        exact h
    | false =>
        have hbegun : service.writeInitialization false faults.metadataFails =
            .ok ({ service with metadata := some (initializationText cash) }, true) := by
          simp [writeInitialization, hpending, hfails]
        rw [recordConfirmed, hbegun]
        dsimp only
        rw [hstore]
        cases hdisk : faults.disk event with
        | none =>
            have hrow := hrows (.inr hfails) (by simp [hdisk])
            simp only [hrecord, hidempotent, ne_eq, not_true_eq_false, if_false, if_true]
            exact hstored' _ _ _ _ rfl rfl hrow.1
        | some fault =>
            cases fault with
            | notOpened =>
                -- The metadata of the fill is taken back, or cannot be removed.
                simp only [undoInitialization, Bool.not_true, Bool.false_eq_true, if_false]
                split
                · exact ⟨h.config_eq, h.recorded, h.agrees, .inr hpending, .inl rfl⟩
                · rename_i hremoved
                  have hfile := hundo (by simp [hpending]) hfails (by simpa using hremoved) hdisk
                  exact ⟨h.config_eq, h.recorded, h.agrees, .inr hpending,
                    .inr ⟨rfl, hfile, hpending⟩⟩
            | written =>
                exact absurd hdisk (hrows (.inr hfails) (by simp [hdisk])).2

/-- The rows of a new fill, when it is confirmed manually. -/
theorem rowsWritten_singleton {ledger : AccountLedger Date} {event : FillEvent Date}
    {receipt : LedgerReceipt Date} {ledger' : AccountLedger Date}
    (disk : FillEvent Date → Option DiskFault)
    (hrecord : ledger.recordFill event = .ok (receipt, ledger'))
    (hidempotent : receipt.idempotent = false) (hdisk : disk event ≠ some .notOpened) :
    rowsWritten disk ledger [event] = [event] := by
  simp only [rowsWritten, hrecord, hidempotent, Bool.false_eq_true, if_false]
  cases hfault : disk event with
  | none => rfl
  | some fault =>
      cases fault with
      | notOpened => exact absurd hfault hdisk
      | written => rfl

theorem lookup_of_mem_manualRows {token : Text} {faults : ConfirmFaults}
    {event : FillEvent Date} (h : event ∈ service.manualRows token faults) :
    service.manualBuyPreviews.lookup token = some event := by
  unfold manualRows at h
  split at h
  · cases h
  rename_i previewed hpreview
  split at h
  · cases h
  have hmem := rowsWritten_subset _ _ _ event h
  rw [hpreview, List.mem_singleton.mp hmem]

theorem Sound.confirmManualBuy (h : Sound config cash service) {token : Text}
    {faults : ConfirmFaults} {now : UtcDateTime} {today : Date}
    (hsafe : service.SafeStep (.confirmManualBuy token faults now today)) :
    Sound config cash (service.confirmManualBuy token faults now today).2 := by
  obtain ⟨hrows, hundo⟩ := hsafe
  unfold AdvisoryWorkbench.confirmManualBuy
  split
  · exact h
  rename_i event hpreview
  dsimp only
  have htaken : Sound config cash { service with
      manualBuyPreviews := withoutToken token service.manualBuyPreviews } :=
    h.of_fields rfl rfl rfl
  split
  · exact htaken
  rename_i copy hcopy
  split
  · exact htaken
  rename_i receipt copy' hprospective
  obtain ⟨copy₀, hcopy₀, hbooks⟩ := copyLedger_ok h.recorded now today
  obtain rfl : copy₀ = copy := Except.ok.inj (hcopy₀.symm.trans hcopy)
  obtain ⟨ledger', hrecord, -⟩ := hbooks.symm.recordFill hprospective
  cases hidempotent : receipt.idempotent with
  | true =>
      have hsame := @recordConfirmed_known { service with
        manualBuyPreviews := withoutToken token service.manualBuyPreviews } event receipt ledger'
        faults hrecord hidempotent
      rw [hsame]
      exact htaken
  | false =>
      apply htaken.recordConfirmed_new faults hrecord hidempotent
      · intro hmetadata hdisk
        apply hrows event
        have hwrites : ¬ (service.pendingInitializationCash.isSome = true ∧
            faults.metadataFails = true) := by
          rintro ⟨hsome, hfails⟩
          rcases hmetadata with hnone | hwritten
          · rw [show service.pendingInitializationCash = none from hnone] at hsome
            cases hsome
          · rw [hwritten] at hfails
            cases hfails
        simp only [manualRows, hpreview, if_neg hwrites]
        rw [rowsWritten_singleton faults.disk hrecord hidempotent hdisk]
        exact List.mem_singleton_self event
      · intro hpending hmetadata hremove hdisk
        by_contra hstored
        exact hundo hstored ⟨hpending, hmetadata, hremove, event, hpreview, hdisk, receipt,
          ledger', hrecord, hidempotent⟩

theorem Sound.confirmAccountImport (h : Sound config cash service) {token : Text}
    {unchanged saved : Bool} {disk : FillEvent Date → Option DiskFault} {now : UtcDateTime}
    {today : Date}
    (hsafe : service.SafeStep (.confirmAccountImport token unchanged saved disk now today)) :
    Sound config cash (service.confirmAccountImport token unchanged saved disk now today).2 := by
  obtain ⟨hrows, hfirst⟩ := hsafe
  unfold AdvisoryWorkbench.confirmAccountImport
  split
  · exact h
  rename_i preview hpreview
  dsimp only
  have htaken : Sound config cash { service with
      accountImportConfirmations := withoutToken token service.accountImportConfirmations } :=
    h.of_fields rfl rfl rfl
  split
  · exact htaken
  rename_i hunchanged
  cases preview with
  | positions rows =>
      dsimp only
      split
      · exact htaken
      · exact htaken
  | fills candidateEvents =>
      have himport : service.importRows token unchanged disk =
          previewRows disk service.entry.ledger candidateEvents := by
        simp only [Bool.not_eq_true', Bool.not_eq_false] at hunchanged
        simp [importRows, hpreview, hunchanged]
      rw [himport] at hrows hfirst
      obtain ⟨hkept, hunwritten⟩ :=
        confirmValidatedPreview_kept disk h.recorded h.agrees hrows now today
      have hsound : Sound config cash { service with
          accountImportConfirmations := withoutToken token service.accountImportConfirmations
          entry := (service.entry.confirmValidatedPreview disk candidateEvents now today).2 } := by
        refine ⟨hkept.config_eq.trans h.config_eq, hkept.recorded, hkept.agrees, h.pending, ?_⟩
        rcases h.initialized with hdone | ⟨hmetadata, hfile, hpending⟩
        · exact .inl hdone
        · right
          refine ⟨hmetadata, ?_, hpending⟩
          rw [hunwritten (hfirst hmetadata), hfile]
      dsimp only
      split
      · rename_i hresult
        rw [hresult] at hsound
        exact hsound
      · rename_i hresult
        rw [hresult] at hsound
        exact hsound

theorem Sound.step (h : Sound config cash service) {op : WorkbenchOp}
    (hsafe : service.SafeStep op) : Sound config cash (service.step op) := by
  cases op with
  | previewManualBuy name code quantity price eventUuid tokenUuid now today =>
      exact h.previewManualBuy name code quantity price eventUuid tokenUuid now today
  | confirmManualBuy token faults now today => exact h.confirmManualBuy hsafe
  | previewAccountImport preview tokenUuid => exact h.of_fields rfl rfl rfl
  | confirmAccountImport token unchanged saved disk now today =>
      exact h.confirmAccountImport hsafe

/-! ### Opening the service -/

theorem openEntry_none (knownInstruments : List (Symbol × Text)) (nextTradingDay : Date → Date)
    {initialCash : ℚ} {now : UtcDateTime} {today : Date} {entry : AccountEntryService Date}
    (h : openEntry knownInstruments nextTradingDay initialCash none now today = .ok entry) :
    ∃ empty, AccountLedger.create initialCash .default knownInstruments nextTradingDay 100 =
        .ok empty ∧ entry = ⟨.empty empty.config, none⟩ := by
  have hload : (loadRecords none : Except StoreError (List (LedgerRecord Date))) = .ok [] := rfl
  unfold openEntry at h
  simp only [hload] at h
  split at h
  · cases h
  rename_i empty hcreate
  cases h
  exact ⟨empty, hcreate, rfl⟩

theorem openEntry_of_agrees {knownInstruments : List (Symbol × Text)}
    {nextTradingDay : Date → Date} {initialCash : ℚ} {empty : AccountLedger Date}
    {entry : AccountEntryService Date}
    (hcreate : AccountLedger.create initialCash .default knownInstruments nextTradingDay 100 =
      .ok empty)
    (hrecorded : Recorded empty.config entry.ledger) (hagrees : entry.Agrees)
    (now : UtcDateTime) (today : Date) :
    ∃ rebuilt, openEntry knownInstruments nextTradingDay initialCash entry.file now today =
        .ok ⟨rebuilt, entry.file⟩ ∧ SameBooks entry.ledger rebuilt := by
  obtain ⟨stored, hholds, hreadable⟩ := hagrees
  obtain ⟨rebuilt, hrebuilt, hbooks⟩ := hrecorded.fromRecords hholds.content_eq now today
  have hload : loadRecords entry.file = .ok stored := by
    rw [hholds.file_eq]
    exact loadRecords_fileOf hreadable
  refine ⟨rebuilt, ?_, hbooks⟩
  unfold openEntry
  simp only [hload, hcreate, hrebuilt]

theorem Sound.durableBaseline {knownInstruments : List (Symbol × Text)}
    {nextTradingDay : Date → Date} {empty : AccountLedger Date}
    (hcreate : AccountLedger.create cash .default knownInstruments nextTradingDay 100 = .ok empty)
    (hmoney : IsMoney cash) (hpos : 0 < cash) (hlimit : cash < cashLimit)
    (h : Sound empty.config cash service) :
    DurableBaseline knownInstruments nextTradingDay cash service := by
  intro hstored
  have hmetadata : service.metadata = some (initializationText cash) := by
    rcases h.initialized with hmetadata | ⟨-, hfile, -⟩
    · exact hmetadata
    · exact absurd hfile hstored
  have hload : loadInitializationMetadata service.metadata = .ok (some cash) := by
    rw [hmetadata, loadInitializationMetadata,
      parseInitialization_initializationText hmoney hpos hlimit]
  have hrecorded : Recorded empty.config service.entry.ledger := by
    rw [← h.config_eq]
    exact h.recorded
  refine ⟨hload, ?_⟩
  intro initialCash metadataFails now today
  constructor
  · intro hsame
    obtain ⟨rebuilt, hopen, hbooks⟩ := openEntry_of_agrees hcreate hrecorded h.agrees now today
    have hrange : ¬ (cashLimit : ℚ) ≤ money initialCash ∧ ¬ money initialCash < 0 := by
      rcases hsame with hzero | hequal
      · rw [hzero]
        norm_num [cashLimit]
      · rw [hequal]
        exact ⟨not_le.mpr hlimit, not_lt.mpr hpos.le⟩
    have hagree : ¬ (0 < money initialCash ∧ money initialCash ≠ cash) := by
      rintro ⟨hpositive, hother⟩
      rcases hsame with hzero | hequal
      · rw [hzero] at hpositive
        exact lt_irrefl _ hpositive
      · exact hother hequal
    refine ⟨.opened ⟨rebuilt, service.entry.file⟩ service.metadata none, ?_, ?_⟩
    · unfold openWorkbench
      simp only [if_neg hrange.1, if_neg hrange.2, hload, if_neg hagree, hopen, Except.map]
    · intro date
      exact (hbooks.snapshot date).symm
  · intro hpositive hother
    unfold openWorkbench
    simp only [hload]
    split
    · exact ⟨_, rfl⟩
    split
    · exact ⟨_, rfl⟩
    rw [if_pos ⟨hpositive, hother⟩]
    exact ⟨_, rfl⟩

/-! ### An account without cash -/

/-- An empty account without cash stays empty. -/
theorem cashless_step (hcash : config.initialCash = 0)
    (hempty : service.entry = ⟨.empty config, none⟩) (op : WorkbenchOp) :
    (service.step op).entry = ⟨.empty config, none⟩ := by
  have hcopy : ∀ now today, service.entry.copyLedger now today = .ok (.empty config) := by
    intro now today
    rw [hempty]
    rfl
  cases op with
  | previewManualBuy name code quantity price eventUuid tokenUuid now today =>
      simp only [AdvisoryWorkbench.step, AdvisoryWorkbench.previewManualBuy, hcopy]
      split
      · exact hempty
      · exact hempty
  | confirmManualBuy token faults now today =>
      simp only [AdvisoryWorkbench.step, AdvisoryWorkbench.confirmManualBuy]
      split
      · exact hempty
      · rename_i event _
        obtain ⟨error, hrefused⟩ := recordFill_without_cash hcash event
        simp only [hcopy, hrefused]
        exact hempty
  | previewAccountImport preview tokenUuid => exact hempty
  | confirmAccountImport token unchanged saved disk now today =>
      have hconfirm : ∀ events,
          (service.entry.confirmValidatedPreview disk events now today).2 = service.entry := by
        intro events
        unfold confirmValidatedPreview
        rw [hcopy]
        cases events with
        | nil => rfl
        | cons event rest =>
            obtain ⟨error, hrefused⟩ := recordFill_without_cash hcash event
            simp only [recordAll, hrefused]
      simp only [AdvisoryWorkbench.step, AdvisoryWorkbench.confirmAccountImport]
      split
      · exact hempty
      split
      · exact hempty
      split
      · rename_i candidateEvents _
        have hentry := hconfirm candidateEvents
        split
        · rename_i hresult
          rw [hresult] at hentry
          exact hentry.trans hempty
        · rename_i hresult
          rw [hresult] at hentry
          exact hentry.trans hempty
      · split
        · exact hempty
        · exact hempty

/-! ### Every run -/

/-- On an empty directory the service starts with an empty account and, if there is
any cash, the first fill pending. -/
theorem openWorkbench_fresh {knownInstruments : List (Symbol × Text)}
    {nextTradingDay : Date → Date} {initialCash : ℚ} {metadataFails : Bool}
    {now : UtcDateTime} {today : Date}
    (h : openWorkbench knownInstruments nextTradingDay initialCash none none metadataFails now
      today = .ok service) :
    money initialCash < cashLimit ∧ 0 ≤ money initialCash ∧
      ∃ empty, AccountLedger.create (money initialCash) .default knownInstruments
          nextTradingDay 100 = .ok empty ∧
        service = .opened ⟨.empty empty.config, none⟩ none
          (if money initialCash ≤ 0 then none else some (money initialCash)) := by
  unfold openWorkbench at h
  dsimp only [loadInitializationMetadata] at h
  split at h
  · cases h
  rename_i hlimit
  split at h
  · cases h
  rename_i hnonneg
  split at h
  · cases h
  split at h
  · cases h
  rename_i entry hentry
  obtain ⟨empty, hcreate, rfl⟩ := openEntry_none knownInstruments nextTradingDay hentry
  refine ⟨not_le.mp hlimit, not_lt.mp hnonneg, empty, hcreate, ?_⟩
  split at h
  · rename_i hcash
    rw [if_pos hcash]
    exact (Except.ok.inj h).symm
  · rename_i hcash
    rw [if_neg hcash]
    exact (Except.ok.inj h).symm

/-- Along every run of safe steps from an empty directory the initial cash is recorded
whenever a fill is stored. -/
theorem always_durableBaseline {knownInstruments : List (Symbol × Text)}
    {nextTradingDay : Date → Date} {initialCash : ℚ} {metadataFails : Bool}
    {now : UtcDateTime} {today : Date} {ops : List WorkbenchOp}
    (hopened : openWorkbench knownInstruments nextTradingDay initialCash none none metadataFails
      now today = .ok service)
    (hsafe : Runs.StepsMeet step SafeStep service ops) :
    Runs.Always step (DurableBaseline knownInstruments nextTradingDay (money initialCash))
      service ops := by
  obtain ⟨hlimit, hnonneg, empty, hcreate, rfl⟩ := openWorkbench_fresh hopened
  by_cases hcash : money initialCash ≤ 0
  · -- A positive amount below half a cent is no cash, and nothing is ever stored.
    have hzero : money initialCash = 0 := le_antisymm hcash hnonneg
    obtain ⟨-, hinitial, -⟩ := AccountLedger.create_ok hcreate
    rw [hzero] at hinitial
    have hnone : empty.config.initialCash = 0 :=
      hinitial.trans (money_of_isMoney (Rounding.onGrid_zero moneyScale))
    have hrun := Runs.always_of_invariant step (fun s => s.entry = ⟨.empty empty.config, none⟩)
      (fun s op h => cashless_step hnone h op)
    apply (hrun _ ops rfl).imp step
    intro s hempty hstored
    rw [hempty] at hstored
    exact absurd rfl hstored
  · have hstart : Sound empty.config (money initialCash) (.opened ⟨.empty empty.config, none⟩ none
        (if money initialCash ≤ 0 then none else some (money initialCash))) := by
      have hpending : (if money initialCash ≤ 0 then none else some (money initialCash)) =
          some (money initialCash) := if_neg hcash
      exact ⟨rfl, .empty, ⟨[], ⟨rfl, rfl⟩, by simp⟩, .inr hpending, .inr ⟨rfl, rfl, hpending⟩⟩
    have hrun := Runs.always_of_stepsMeet step (Sound empty.config (money initialCash))
      (fun s op hs hop => hs.step hop)
    apply (hrun _ ops hstart hsafe).imp step
    intro s hs
    exact hs.durableBaseline hcreate (money_isMoney _) (not_le.mp hcash) hlimit

/-- An import that is confirmed while the first fill is pending stores it without the
initial cash. -/
theorem Sound.firstImport_not_durable (h : Sound config cash service)
    (hmetadata : service.metadata = none) {token : Text} {events : List (FillEvent Date)}
    (hpreview : service.accountImportConfirmations.lookup token = some (.fills events))
    (hevents : events ≠ []) {disk : FillEvent Date → Option DiskFault} {now : UtcDateTime}
    {today : Date} {receipts : List (LedgerReceipt Date)} {entry : AccountEntryService Date}
    (hconfirm : service.entry.confirmValidatedPreview disk events now today =
      (.ok receipts, entry)) (knownInstruments : List (Symbol × Text))
    (nextTradingDay : Date → Date) (saved : Bool) :
    ¬ DurableBaseline knownInstruments nextTradingDay cash
      (service.step (.confirmAccountImport token true saved disk now today)) := by
  obtain ⟨stored, hholds, -⟩ := h.agrees
  have himported := confirmValidatedPreview_imported h.recorded hholds hconfirm
  have hresult : service.step (.confirmAccountImport token true saved disk now today) =
      { service with
        accountImportConfirmations := withoutToken token service.accountImportConfirmations
        entry := entry } := by
    simp [AdvisoryWorkbench.step, AdvisoryWorkbench.confirmAccountImport, hpreview, hconfirm]
  rw [hresult]
  intro hdurable
  obtain ⟨hload, -⟩ := hdurable (himported.file_ne_none hevents)
  rw [hmetadata] at hload
  cases hload

/-! ### Two runs -/

def afterThursday : Date → Date := fun _ => sampleDay 1

theorem sampleAccount_create :
    AccountLedger.create 10000 .default [] afterThursday 100 =
      .ok (.empty (sampleConfigOn afterThursday)) := by
  have hcash : money 10000 = 10000 :=
    money_of_isMoney ⟨1000000, by norm_num [moneyScale]⟩
  unfold AccountLedger.create
  simp only [hcash]
  rfl

/-- The sample service as it opens on an empty directory. -/
def sampleWorkbench : AdvisoryWorkbench :=
  .opened ⟨.empty (sampleConfigOn afterThursday), none⟩ none (some 10000)

theorem sampleWorkbench_opened :
    openWorkbench [] afterThursday 10000 none none false (sampleTime 9) (sampleDay 0) =
      .ok sampleWorkbench := by
  have hcash : money 10000 = 10000 :=
    money_of_isMoney ⟨1000000, by norm_num [moneyScale]⟩
  have hload : (loadRecords none : Except StoreError (List (LedgerRecord Date))) = .ok [] := rfl
  have hentry : openEntry [] afterThursday 10000 none (sampleTime 9) (sampleDay 0) =
      .ok ⟨.empty (sampleConfigOn afterThursday), none⟩ := by
    unfold openEntry
    simp only [hload, sampleAccount_create]
    rfl
  unfold openWorkbench
  simp only [hcash, loadInitializationMetadata, hentry]
  norm_num [cashLimit, sampleWorkbench]

/-- Preview a purchase of one lot and confirm it. -/
def manualBuyRun : List WorkbenchOp :=
  [.previewManualBuy "x".toList "000001".toList 100 10 [] [] (sampleTime 9) (sampleDay 0),
   .confirmManualBuy "manual-buy-".toList ⟨false, false, reliable⟩ (sampleTime 9) (sampleDay 0)]

theorem manualBuyRun_durable :
    Runs.Always step (DurableBaseline [] afterThursday (money 10000)) sampleWorkbench
      manualBuyRun := by
  apply always_durableBaseline sampleWorkbench_opened
  have hkept : ¬ (sampleWorkbench.step (.previewManualBuy "x".toList "000001".toList 100 10 [] []
      (sampleTime 9) (sampleDay 0))).TakesBack "manual-buy-".toList ⟨false, false, reliable⟩ := by
    rintro ⟨-, -, -, event, -, hdisk, -⟩
    cases hdisk
  refine ⟨trivial, ⟨?_, fun _ => hkept⟩, trivial⟩
  intro event hevent
  refine ⟨⟨?_, Date.readsBack _⟩, by simp [reliable]⟩
  have htexts : ((sampleWorkbench.step (.previewManualBuy "x".toList "000001".toList 100 10 [] []
      (sampleTime 9) (sampleDay 0))).manualBuyPreviews.lookup "manual-buy-".toList).map
        (fun fill => (LedgerRecord.fill fill).freeTexts) =
      some ["advisory-manual-buy-".toList, "x".toList, "manual_workbench".toList] := by
    decide +kernel
  rw [lookup_of_mem_manualRows hevent, Option.map_some] at htexts
  unfold LedgerRecord.IsOneLine
  rw [Option.some.inj htexts]
  unfold OneLine
  decide

def firstImportRun : List WorkbenchOp :=
  [.previewAccountImport (.fills purchaseImport) [],
   .confirmAccountImport "account-import-".toList true true reliable (sampleTime 10)
    (sampleDay 0)]

/-- The purchase is stored and the initial cash is not: without it the service does
not open on its files any more. -/
theorem firstImportRun_not_durable :
    openWorkbench [] afterThursday 10000 none none false (sampleTime 9) (sampleDay 0) =
        .ok sampleWorkbench ∧
      ¬ Runs.Always step (DurableBaseline [] afterThursday 10000) sampleWorkbench
        firstImportRun := by
  refine ⟨sampleWorkbench_opened, ?_⟩
  rintro ⟨-, -, hlast⟩
  have htaken : (recordAll sampleService.ledger purchaseImport).map List.length = .ok 1 := by
    decide +kernel
  cases hall : recordAll sampleService.ledger purchaseImport with
  | error error =>
      rw [hall] at htaken
      cases htaken
  | ok receipts =>
      obtain ⟨entry, hconfirm⟩ := sampleService_confirms purchaseImport_readable hall
      have hsound : Sound (sampleConfigOn afterThursday) 10000
          (sampleWorkbench.step (.previewAccountImport (.fills purchaseImport) [])) :=
        ⟨rfl, .empty, ⟨[], ⟨rfl, rfl⟩, by simp⟩, .inr rfl, .inr ⟨rfl, rfl, rfl⟩⟩
      exact hsound.firstImport_not_durable rfl rfl (by simp [purchaseImport]) hconfirm []
        afterThursday true hlast

end AdvisoryWorkbench

end QuantWorkbench.Workbench
