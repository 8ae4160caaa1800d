import QuantWorkbench.Account.Replayable

/-!
A ledger rebuilt from its own records. The rebuilt ledger replays the same fills
in the same order; only the times at which corrections were recorded are new.
-/

namespace QuantWorkbench.Account

open Lib Data

variable {D : Type} [LinearOrder D]

/-- The part of a record that a rebuilt ledger keeps: everything but the time at
which a correction was recorded. -/
def LedgerRecord.content : LedgerRecord D → FillEvent D ⊕ Text × Text × FillEvent D
  | .fill event => .inl event
  | .correction item => .inr (item.correctionId, item.originalEventId, item.replacement)

def LedgerRecord.event : LedgerRecord D → FillEvent D
  | .fill event => event
  | .correction item => item.replacement

omit [LinearOrder D] in
theorem LedgerRecord.event_of_content {record other : LedgerRecord D}
    (h : record.content = other.content) : record.event = other.event := by
  cases record with
  | fill event =>
      cases other with
      | fill event' => exact Sum.inl.inj h
      | correction item => cases h
  | correction item =>
      cases other with
      | fill event => cases h
      | correction item' =>
          have hparts := Sum.inr.inj h
          simp only [Prod.mk.injEq] at hparts
          exact hparts.2.2

omit [LinearOrder D] in
theorem LedgerRecord.fill_of_content {record : LedgerRecord D} {event : FillEvent D}
    (h : record.content = (LedgerRecord.fill event).content) : record = .fill event := by
  cases record with
  | fill other => rw [Sum.inl.inj h]
  | correction item => cases h

def LedgerRecord.restamped (now : UtcDateTime) : LedgerRecord D → LedgerRecord D
  | .fill event => .fill event
  | .correction item => .correction { item with recordedAt := now }

namespace AccountLedger

/-- Two ledgers that replay the same fills and differ in nothing but the times of
their corrections. -/
structure SameBooks (a b : AccountLedger D) : Prop where
  config_eq : a.config = b.config
  events_eq : a.events = b.events
  voided_eq : a.voidedEventIds = b.voidedEventIds
  content_eq : a.records.map LedgerRecord.content = b.records.map LedgerRecord.content

namespace SameBooks

variable {a b : AccountLedger D}

omit [LinearOrder D] in
theorem refl (a : AccountLedger D) : SameBooks a a := ⟨rfl, rfl, rfl, rfl⟩

omit [LinearOrder D] in
theorem symm (h : SameBooks a b) : SameBooks b a :=
  ⟨h.config_eq.symm, h.events_eq.symm, h.voided_eq.symm, h.content_eq.symm⟩

omit [LinearOrder D] in
theorem eventById (h : SameBooks a b) (eventId : Text) :
    a.eventById eventId = b.eventById eventId := by
  unfold AccountLedger.eventById
  rw [h.events_eq]

theorem eventsUpTo (h : SameBooks a b) (date : D) : a.eventsUpTo date = b.eventsUpTo date := by
  unfold AccountLedger.eventsUpTo effectiveEvents
  rw [h.events_eq, h.voided_eq]

theorem snapshot (h : SameBooks a b) (date : D) : a.snapshot date = b.snapshot date := by
  unfold AccountLedger.snapshot replayUpTo
  rw [h.config_eq, h.eventsUpTo]

theorem receiptFor (h : SameBooks a b) (event : FillEvent D) (idempotent : Bool) :
    a.receiptFor event idempotent = b.receiptFor event idempotent := by
  unfold AccountLedger.receiptFor
  rw [h.snapshot]

omit [LinearOrder D] in
theorem withEvent (h : SameBooks a b) (event : FillEvent D) :
    SameBooks (a.withEvent event) (b.withEvent event) where
  config_eq := h.config_eq
  events_eq := by simp only [AccountLedger.withEvent, h.events_eq]
  voided_eq := h.voided_eq
  content_eq := by simp only [AccountLedger.withEvent, List.map_append, h.content_eq]

/-- The same fill is taken by both and leaves the same books. -/
theorem append (h : SameBooks a b) {event : FillEvent D} {receipt : LedgerReceipt D}
    {a' : AccountLedger D} (happend : a.append event = .ok (receipt, a')) :
    ∃ b', b.append event = .ok (receipt, b') ∧ SameBooks a' b' := by
  rcases append_ok_iff.mp happend with
    ⟨existing, hknown, hsame, hreceipt, rfl⟩ | ⟨hnew, hlatest, hreceipt, rfl⟩
  · refine ⟨b, append_ok_iff.mpr (.inl ⟨existing, ?_, hsame, ?_, rfl⟩), h⟩
    · rw [← h.eventById, hknown]
    · rw [← h.receiptFor, hreceipt]
  · refine ⟨b.withEvent event, append_ok_iff.mpr (.inr ⟨?_, ?_, ?_, rfl⟩), h.withEvent event⟩
    · rw [← h.eventById, hnew]
    · rw [← h.events_eq]
      exact hlatest
    · rw [← (h.withEvent event).receiptFor, hreceipt]

theorem checkAvailable (h : SameBooks a b) (symbol : Symbol) (quantity : ℤ) (date : D) :
    a.checkAvailable symbol quantity date = b.checkAvailable symbol quantity date := by
  unfold AccountLedger.checkAvailable
  rw [h.snapshot]

theorem recordFill (h : SameBooks a b) {event : FillEvent D} {receipt : LedgerReceipt D}
    {a' : AccountLedger D} (hrecord : a.recordFill event = .ok (receipt, a')) :
    ∃ b', b.recordFill event = .ok (receipt, b') ∧ SameBooks a' b' := by
  obtain ⟨b', happend, hbooks⟩ := h.append (recordFill_ok hrecord)
  refine ⟨b', ?_, hbooks⟩
  rw [← happend]
  unfold AccountLedger.recordFill at hrecord ⊢
  rw [← h.checkAvailable, ← h.config_eq]
  have hname : b.validateName event.symbol event.name = a.validateName event.symbol event.name := by
    unfold validateName
    rw [h.config_eq]
  rw [hname]
  split at hrecord
  · split at hrecord
    · cases hrecord
    · split at hrecord
      · cases hrecord
      · rename_i hlots
        simp only [if_neg hlots]
  · split at hrecord
    · cases hrecord
    · rfl

end SameBooks

/-! ### Recorded ledgers -/

/-- The ledgers that accepted fills and corrections lead to. -/
inductive Recorded (config : LedgerConfig D) : AccountLedger D → Prop where
  | empty : Recorded config (empty config)
  | append {ledger ledger' : AccountLedger D} {event : FillEvent D}
      {receipt : LedgerReceipt D} (hledger : Recorded config ledger)
      (h : ledger.append event = .ok (receipt, ledger')) : Recorded config ledger'
  | correction {ledger ledger' : AccountLedger D} {originalEventId : Text}
      {replacement : FillEvent D} {correctionId : Option Text} {uuid : Text}
      {now : UtcDateTime} {today : D} {receipt : LedgerReceipt D}
      (hledger : Recorded config ledger)
      (h : ledger.appendCorrection originalEventId replacement correctionId uuid now today =
        .ok (receipt, ledger')) : Recorded config ledger'

/-- The calls of the recording methods lead to recorded ledgers only. -/
theorem Recorded.step {config : LedgerConfig D} {ledger : AccountLedger D}
    (h : Recorded config ledger) (op : LedgerOp D) : Recorded config (ledger.step op) := by
  cases hcall : ledger.call op with
  | error error =>
      have hstep : ledger.step op = ledger := by simp [AccountLedger.step, hcall]
      rw [hstep]
      exact h
  | ok result =>
      obtain ⟨receipt, ledger'⟩ := result
      have hstep : ledger.step op = ledger' := by simp [AccountLedger.step, hcall]
      rw [hstep]
      cases op with
      | recordBuy name symbol quantity price tradeDate eventId uuid source now =>
          obtain ⟨event, happend⟩ := recordBuy_ok hcall
          exact .append h happend
      | recordSell symbol quantity price tradeDate eventId uuid source now =>
          obtain ⟨event, happend⟩ := recordSell_ok hcall
          exact .append h happend
      | recordFill event => exact .append h (recordFill_ok hcall)
      | appendCorrection originalEventId replacement correctionId uuid now today =>
          exact .correction h hcall

theorem Recorded.config_eq {config : LedgerConfig D} {ledger : AccountLedger D}
    (h : Recorded config ledger) : ledger.config = config := by
  induction h with
  | empty => rfl
  | append hledger h ih =>
      rcases append_ok_iff.mp h with ⟨_, _, _, _, rfl⟩ | ⟨_, _, _, rfl⟩
      · exact ih
      · exact ih
  | correction hledger h ih =>
      obtain ⟨_, _, _, rfl⟩ := appendCorrection_ok h
      exact ih

theorem Recorded.events_eq {config : LedgerConfig D} {ledger : AccountLedger D}
    (h : Recorded config ledger) : ledger.events = ledger.records.map LedgerRecord.event := by
  induction h with
  | empty => rfl
  | append hledger h ih =>
      rcases append_ok_iff.mp h with ⟨_, _, _, _, rfl⟩ | ⟨_, _, _, rfl⟩
      · exact ih
      · simp [withEvent, ih, LedgerRecord.event]
  | correction hledger h ih =>
      obtain ⟨_, _, _, rfl⟩ := appendCorrection_ok h
      simp [corrected, ih, LedgerRecord.event]

/-! ### Rebuilding -/

/-- One round of `from_records`. -/
def addStored (now : UtcDateTime) (today : D) (ledger : AccountLedger D)
    (record : LedgerRecord D) : Except LedgerError (AccountLedger D) :=
  match record with
  | .fill event => (ledger.append event).map (·.2)
  | .correction correction =>
      (ledger.appendCorrection correction.originalEventId correction.replacement
        (some correction.correctionId) [] now today).map (·.2)

theorem fromRecords_concat (config : LedgerConfig D) (records : List (LedgerRecord D))
    (record : LedgerRecord D) (now : UtcDateTime) (today : D) :
    fromRecords config (records ++ [record]) now today =
      (fromRecords config records now today).bind fun ledger =>
        addStored now today ledger record := by
  have hround : ∀ result : Except LedgerError (AccountLedger D),
      (result >>= fun ledger => pure ledger) = result := by
    intro result
    cases result <;> rfl
  unfold fromRecords
  rw [List.foldlM_append]
  simp only [List.foldlM_cons, List.foldlM_nil]
  congr 1
  funext ledger
  exact hround _

/-- Rebuilding adds one accepted record after another. -/
theorem fromRecords_recorded {config : LedgerConfig D} {records : List (LedgerRecord D)}
    {now : UtcDateTime} {today : D} {ledger : AccountLedger D}
    (h : fromRecords config records now today = .ok ledger) : Recorded config ledger := by
  induction records using List.reverseRecOn generalizing ledger with
  | nil =>
      cases h
      exact .empty
  | append_singleton front record ih =>
      rw [fromRecords_concat] at h
      cases hfront : fromRecords config front now today with
      | error error =>
          rw [hfront] at h
          cases h
      | ok before =>
          rw [hfront] at h
          simp only [Except.bind] at h
          cases record with
          | fill event =>
              simp only [addStored] at h
              cases happend : before.append event with
              | error error =>
                  rw [happend] at h
                  cases h
              | ok result =>
                  rw [happend] at h
                  cases h
                  exact (ih hfront).append happend
          | correction item =>
              simp only [addStored] at h
              cases hcorrect : before.appendCorrection item.originalEventId item.replacement
                  (some item.correctionId) [] now today with
              | error error =>
                  rw [hcorrect] at h
                  cases h
              | ok result =>
                  rw [hcorrect] at h
                  cases h
                  exact (ih hfront).correction hcorrect

omit [LinearOrder D] in
theorem idOr_some {eventId : Text} (fresh : Text) (h : eventId ≠ []) :
    idOr (some eventId) fresh = eventId := by
  cases eventId with
  | nil => exact absurd rfl h
  | cons c rest => rfl

omit [LinearOrder D] in
/-- What the constructor keeps of a correction. -/
theorem correction_make_content {correctionId originalEventId : Text}
    {replacement : FillEvent D} {now : UtcDateTime} {correction : LedgerCorrection D}
    (h : LedgerCorrection.make correctionId originalEventId replacement now = .ok correction) :
    (LedgerRecord.correction correction).content =
      .inr (Text.strip correctionId, Text.strip originalEventId, replacement) := by
  unfold LedgerCorrection.make at h
  split at h
  · cases h
  · cases h
    rfl

theorem Correctable.of_sameBooks {a b : AccountLedger D} {originalEventId correctionId : Text}
    {replacement : FillEvent D} (hbooks : SameBooks a b)
    (h : a.Correctable originalEventId replacement correctionId) :
    b.Correctable originalEventId replacement correctionId where
  original := by
    rw [← hbooks.eventById]
    exact h.original
  not_voided := by
    rw [← hbooks.voided_eq]
    exact h.not_voided
  fresh := by
    rw [← hbooks.eventById]
    exact h.fresh
  ids_required := h.ids_required
  valid := by
    have hafter : b.effectiveAfter originalEventId replacement =
        a.effectiveAfter originalEventId replacement := by
      unfold effectiveAfter
      rw [hbooks.events_eq, hbooks.voided_eq]
    rw [hafter, ← hbooks.config_eq]
    exact h.valid

/-- A correction that was accepted is accepted again from its record. -/
theorem SameBooks.corrected {a b : AccountLedger D} {originalEventId correctionId : Text}
    {replacement : FillEvent D} {made item : LedgerCorrection D} {now : UtcDateTime}
    (hbooks : SameBooks a b) (h : a.Correctable originalEventId replacement correctionId)
    (hmake : LedgerCorrection.make correctionId originalEventId replacement now = .ok made)
    (hitem : (LedgerRecord.correction item).content = (LedgerRecord.correction made).content)
    (now' : UtcDateTime) (today : D) :
    ∃ b', addStored now' today b (.correction item) = .ok b' ∧
      SameBooks (a.corrected made originalEventId) b' := by
  obtain ⟨original, horiginal, -⟩ := h.original
  have hstripped : Text.strip originalEventId = originalEventId := by
    have hid : original.eventId = originalEventId := by
      simpa using List.find?_some horiginal
    rw [← hid, original.eventId_stripped]
  have hfields := correction_make_content hmake
  rw [← hitem, hstripped] at hfields
  obtain ⟨hid, horiginalId, hreplacement⟩ : item.correctionId = Text.strip correctionId ∧
      item.originalEventId = originalEventId ∧ item.replacement = replacement := by
    have hparts := Sum.inr.inj hfields
    simpa only [Prod.mk.injEq] using hparts
  have hagain : b.Correctable item.originalEventId item.replacement
      (idOr (some item.correctionId) ("correction-".toList ++ [])) := by
    rw [idOr_some _ item.correctionId_required, horiginalId, hreplacement]
    refine { h.of_sameBooks hbooks with ids_required := ⟨?_, h.ids_required.2⟩ }
    rw [item.correctionId_stripped]
    exact item.correctionId_required
  obtain ⟨⟨receipt, b'⟩, hok⟩ := appendCorrection_of_correctable now' today hagain
  obtain ⟨-, made', hmake', rfl⟩ := appendCorrection_ok hok
  refine ⟨b.corrected made' item.originalEventId, ?_, ?_⟩
  · simp only [addStored, hok, Except.map]
  · have hcontent := correction_make_content hmake'
    rw [idOr_some _ item.correctionId_required, item.correctionId_stripped,
      item.originalEventId_stripped] at hcontent
    have hreplaced : made.replacement = made'.replacement := by
      rw [(correction_make_ok hmake).1, (correction_make_ok hmake').1, hreplacement]
    refine ⟨hbooks.config_eq, ?_, ?_, ?_⟩
    · simp only [AccountLedger.corrected, hbooks.events_eq, hreplaced]
    · simp only [AccountLedger.corrected, hbooks.voided_eq, horiginalId]
    · simp only [AccountLedger.corrected, List.map_append, List.map_cons, List.map_nil,
        hbooks.content_eq, hcontent, ← hitem]
      rfl

/-! ### Rebuilding with a clock -/

def replayRecords (config : LedgerConfig D) (timed : List (UtcDateTime × LedgerRecord D))
    (today : D) : Except LedgerError (AccountLedger D) :=
  timed.foldlM (fun ledger entry => addStored entry.1 today ledger entry.2) (.empty config)

theorem replayRecords_map (config : LedgerConfig D) (records : List (LedgerRecord D))
    (now : UtcDateTime) (today : D) :
    replayRecords config (records.map fun record => (now, record)) today =
      fromRecords config records now today := by
  rw [replayRecords, List.foldlM_map]
  rfl

theorem replayRecords_concat (config : LedgerConfig D)
    (timed : List (UtcDateTime × LedgerRecord D)) (entry : UtcDateTime × LedgerRecord D)
    (today : D) :
    replayRecords config (timed ++ [entry]) today =
      (replayRecords config timed today).bind fun ledger =>
        addStored entry.1 today ledger entry.2 := by
  rw [replayRecords, List.foldlM_append]
  change (replayRecords config timed today).bind _ = _
  cases replayRecords config timed today with
  | error error => rfl
  | ok ledger =>
      change (addStored entry.1 today ledger entry.2 >>= pure) =
        addStored entry.1 today ledger entry.2
      exact bind_pure _

/-- A stored record is known already, or comes last with the time of the rebuilding. -/
theorem addStored_records {ledger ledger' : AccountLedger D} {record : LedgerRecord D}
    {now : UtcDateTime} {today : D} (h : addStored now today ledger record = .ok ledger') :
    ledger'.records = ledger.records ∨
      ledger'.records = ledger.records ++ [record.restamped now] := by
  cases record with
  | fill event =>
      simp only [addStored] at h
      cases happend : ledger.append event with
      | error error =>
          rw [happend] at h
          cases h
      | ok result =>
          obtain ⟨receipt, after⟩ := result
          rw [happend] at h
          cases h
          rcases append_ok_iff.mp happend with ⟨_, _, _, _, rfl⟩ | ⟨_, _, _, rfl⟩
          · exact .inl rfl
          · exact .inr rfl
  | correction item =>
      simp only [addStored] at h
      cases hcorrect : ledger.appendCorrection item.originalEventId item.replacement
          (some item.correctionId) [] now today with
      | error error =>
          rw [hcorrect] at h
          cases h
      | ok result =>
          obtain ⟨receipt, after⟩ := result
          rw [hcorrect] at h
          cases h
          obtain ⟨_, made, hmake, rfl⟩ := appendCorrection_ok hcorrect
          have hagain := LedgerCorrection.make_self { item with recordedAt := now }
          rw [idOr_some _ item.correctionId_required] at hmake
          cases hmake.symm.trans hagain
          exact .inr rfl

/-- One round of the rebuilding, when the books agree afterwards. -/
theorem SameBooks.restamped {ledger after rebuilt rebuilt' : AccountLedger D}
    {record stored : LedgerRecord D} {now : UtcDateTime} {today : D}
    (hbooks : SameBooks ledger rebuilt) (hadded : after.records = ledger.records ++ [record])
    (hstored : addStored now today rebuilt stored = .ok rebuilt')
    (hbooks' : SameBooks after rebuilt') :
    rebuilt'.records = rebuilt.records ++ [stored.restamped now] := by
  have hbefore := congrArg List.length hbooks.content_eq
  have hafter := congrArg List.length hbooks'.content_eq
  rw [List.length_map, List.length_map] at hbefore hafter
  rw [hadded, List.length_append, List.length_singleton] at hafter
  rcases addStored_records hstored with hsame | hlast
  · rw [hsame] at hafter
    omega
  · exact hlast

/-- A recorded ledger is rebuilt from any records that say what its own say, but for the times of
its corrections. -/
theorem Recorded.replayRecords {config : LedgerConfig D} {ledger : AccountLedger D}
    (h : Recorded config ledger) {timed : List (UtcDateTime × LedgerRecord D)}
    (htimed : timed.map (fun entry => entry.2.content) = ledger.records.map LedgerRecord.content)
    (today : D) :
    ∃ rebuilt, AccountLedger.replayRecords config timed today = .ok rebuilt ∧
      SameBooks ledger rebuilt ∧
      rebuilt.records = timed.map fun entry => entry.2.restamped entry.1 := by
  induction h generalizing timed with
  | empty =>
      obtain rfl : timed = [] := List.map_eq_nil_iff.mp htimed
      exact ⟨.empty config, rfl, .refl _, rfl⟩
  | @append ledger ledger' event receipt hledger h ih =>
      rcases append_ok_iff.mp h with ⟨_, _, _, _, rfl⟩ | ⟨_, _, _, rfl⟩
      · exact ih htimed
      · simp only [withEvent, List.map_append, List.map_cons, List.map_nil] at htimed
        obtain ⟨front, last, rfl, hfront, hlast⟩ := List.map_eq_append_iff.mp htimed
        obtain ⟨⟨now, record⟩, rfl, hrecord⟩ := List.map_eq_singleton_iff.mp hlast
        obtain ⟨rebuilt, hrebuilt, hbooks, hrecords⟩ := ih hfront
        obtain ⟨rebuilt', hok, hbooks'⟩ := hbooks.append h
        have hadded : addStored now today rebuilt record = .ok rebuilt' := by
          obtain rfl := LedgerRecord.fill_of_content hrecord
          simp only [addStored, hok, Except.map]
        refine ⟨rebuilt', ?_, hbooks', ?_⟩
        · rw [replayRecords_concat, hrebuilt]
          exact hadded
        · rw [hbooks.restamped rfl hadded hbooks', hrecords, List.map_append]
          rfl
  | @correction ledger ledger' originalEventId replacement correctionId uuid _ _ receipt hledger
      h ih =>
      obtain ⟨hcorrectable, made, hmake, rfl⟩ := appendCorrection_ok h
      simp only [AccountLedger.corrected, List.map_append, List.map_cons, List.map_nil] at htimed
      obtain ⟨front, last, rfl, hfront, hlast⟩ := List.map_eq_append_iff.mp htimed
      obtain ⟨⟨now, record⟩, rfl, hrecord⟩ := List.map_eq_singleton_iff.mp hlast
      obtain ⟨rebuilt, hrebuilt, hbooks, hrecords⟩ := ih hfront
      cases record with
      | fill stored => cases hrecord
      | correction item =>
          obtain ⟨rebuilt', hok, hbooks'⟩ :=
            hbooks.corrected hcorrectable hmake hrecord now today
          refine ⟨rebuilt', ?_, hbooks', ?_⟩
          · rw [replayRecords_concat, hrebuilt]
            exact hok
          · rw [hbooks.restamped rfl hok hbooks', hrecords, List.map_append]
            rfl

theorem Recorded.fromRecords {config : LedgerConfig D} {ledger : AccountLedger D}
    (h : Recorded config ledger) {stored : List (LedgerRecord D)}
    (hstored : stored.map LedgerRecord.content = ledger.records.map LedgerRecord.content)
    (now : UtcDateTime) (today : D) :
    ∃ rebuilt, AccountLedger.fromRecords config stored now today = .ok rebuilt ∧
      SameBooks ledger rebuilt := by
  have htimed : (stored.map fun record => (now, record)).map (fun entry => entry.2.content) =
      ledger.records.map LedgerRecord.content := by
    rw [List.map_map]
    exact hstored
  obtain ⟨rebuilt, hrebuilt, hbooks, _⟩ := h.replayRecords htimed today
  rw [replayRecords_map] at hrebuilt
  exact ⟨rebuilt, hrebuilt, hbooks⟩

end AccountLedger

end QuantWorkbench.Account
