import QuantWorkbench.Account.Replayable

/-!
Which buys can be in force. `record_fill` admits a buy in whole lots under the registered name of
its symbol; a correction puts its replacement in force without these checks.
-/

namespace QuantWorkbench.Account

open Lib Data

variable {D : Type} [LinearOrder D]

/-- A buy as `record_fill` admits it. -/
structure LedgerConfig.ValidBuy (config : LedgerConfig D) (event : FillEvent D) : Prop where
  wholeLots : event.quantity % config.lotSize = 0
  named : event.name ≠ []
  registered : ∀ expected ∈ config.knownInstruments.lookup event.symbol, event.name = expected

namespace AccountLedger

variable {ledger : AccountLedger D}

/-- Every buy in force is one that `record_fill` admits. -/
def BuysValid (ledger : AccountLedger D) : Prop :=
  ∀ event ∈ ledger.effectiveEvents, event.side = .buy → ledger.config.ValidBuy event

def VoidsRecorded (ledger : AccountLedger D) : Prop :=
  ∀ eventId ∈ ledger.voidedEventIds, ∃ event ∈ ledger.events, event.eventId = eventId

omit [LinearOrder D] in
theorem eventById_eq_none_iff {eventId : Text} :
    ledger.eventById eventId = none ↔ ∀ event ∈ ledger.events, event.eventId ≠ eventId := by
  simp [eventById]

omit [LinearOrder D] in
theorem mem_of_eventById {eventId : Text} {event : FillEvent D}
    (h : ledger.eventById eventId = some event) :
    event ∈ ledger.events ∧ event.eventId = eventId := by
  refine ⟨List.mem_of_find?_eq_some h, ?_⟩
  simpa using List.find?_some h

omit [LinearOrder D] in
theorem VoidsRecorded.not_voided (h : ledger.VoidsRecorded) {eventId : Text}
    (hnew : ledger.eventById eventId = none) : eventId ∉ ledger.voidedEventIds := by
  intro hvoided
  obtain ⟨event, hevent, hid⟩ := h eventId hvoided
  exact eventById_eq_none_iff.mp hnew event hevent hid

omit [LinearOrder D] in
theorem validateName_ok {symbol : Symbol} {name : Text}
    (h : ledger.validateName symbol name = .ok ()) :
    Text.strip name ≠ [] ∧
      ∀ expected ∈ ledger.config.knownInstruments.lookup symbol, Text.strip name = expected := by
  unfold validateName at h
  split at h
  · cases h
  · rename_i hnamed
    refine ⟨hnamed, ?_⟩
    intro expected hexpected
    rw [Option.mem_def.mp hexpected] at h
    by_contra hother
    simp only [ne_eq, if_pos (Ne.symm hother)] at h
    cases h

theorem validBuy_of_recordFill {event : FillEvent D} {result : LedgerReceipt D × AccountLedger D}
    (h : ledger.recordFill event = .ok result) (hside : event.side = .buy) :
    ledger.config.ValidBuy event := by
  unfold recordFill at h
  rw [hside] at h
  simp only at h
  split at h
  · cases h
  rename_i hname
  split at h
  · cases h
  rename_i hlots
  obtain ⟨hnamed, hregistered⟩ := validateName_ok hname
  rw [event.name_stripped] at hnamed hregistered
  exact ⟨not_not.mp hlots, hnamed, hregistered⟩

/-- What one call that returns can do: repeat a fill, add an admitted one, or correct one. -/
inductive Called (ledger : AccountLedger D) : LedgerOp D → AccountLedger D → Prop where
  | repeated (op : LedgerOp D) : Called ledger op ledger
  | added (op : LedgerOp D) {event : FillEvent D} (hnew : ledger.eventById event.eventId = none)
      (hvalid : event.side = .buy → ledger.config.ValidBuy event) :
      Called ledger op (ledger.withEvent event)
  | corrected {originalEventId : Text} {replacement : FillEvent D} {correctionId : Option Text}
      {uuid : Text} {now : UtcDateTime} {today : D} {correction : LedgerCorrection D}
      (hcorrectable : ledger.Correctable originalEventId replacement
        (idOr correctionId ("correction-".toList ++ uuid)))
      (hreplacement : correction.replacement = replacement) :
      Called ledger
        (.appendCorrection originalEventId replacement correctionId uuid now today)
        (ledger.corrected correction originalEventId)

theorem called_of_recordFill {event : FillEvent D} {receipt : LedgerReceipt D}
    {ledger' : AccountLedger D} (op : LedgerOp D)
    (h : ledger.recordFill event = .ok (receipt, ledger')) : ledger.Called op ledger' := by
  rcases append_ok_iff.mp (recordFill_ok h) with ⟨_, _, _, _, rfl⟩ | ⟨hnew, _, _, rfl⟩
  · exact .repeated op
  · exact .added op hnew (validBuy_of_recordFill h)

theorem called_of_call {op : LedgerOp D} {receipt : LedgerReceipt D} {ledger' : AccountLedger D}
    (h : ledger.call op = .ok (receipt, ledger')) : ledger.Called op ledger' := by
  cases op with
  | recordBuy name symbol quantity price tradeDate eventId uuid source now =>
      simp only [call, recordBuy] at h
      split at h
      · cases h
      · exact called_of_recordFill _ h
  | recordSell symbol quantity price tradeDate eventId uuid source now =>
      simp only [call, recordSell] at h
      split at h
      · cases h
      split at h
      · cases h
      split at h
      · cases h
      · exact called_of_recordFill _ h
  | recordFill event => exact called_of_recordFill _ h
  | appendCorrection originalEventId replacement correctionId uuid now today =>
      obtain ⟨hcorrectable, correction, hmake, rfl⟩ := appendCorrection_ok h
      exact .corrected hcorrectable (correction_make_ok hmake).1

omit [LinearOrder D] in
theorem VoidsRecorded.withEvent (h : ledger.VoidsRecorded) (event : FillEvent D) :
    (ledger.withEvent event).VoidsRecorded := by
  intro eventId hvoided
  obtain ⟨old, hold, hid⟩ := h eventId hvoided
  exact ⟨old, List.mem_append_left _ hold, hid⟩

theorem VoidsRecorded.called (h : ledger.VoidsRecorded) {op : LedgerOp D}
    {ledger' : AccountLedger D} (hcalled : ledger.Called op ledger') : ledger'.VoidsRecorded := by
  cases hcalled with
  | repeated => exact h
  | @added _ event _ _ => exact h.withEvent event
  | corrected hcorrectable hreplacement =>
      intro eventId hvoided
      rcases List.mem_append.mp hvoided with hold | hnew
      · obtain ⟨event, hevent, hid⟩ := h eventId hold
        exact ⟨event, List.mem_append_left _ hevent, hid⟩
      · obtain ⟨original, horiginal, _⟩ := hcorrectable.original
        obtain ⟨hmem, hid⟩ := mem_of_eventById horiginal
        exact ⟨original, List.mem_append_left _ hmem, hid.trans (List.mem_singleton.mp hnew).symm⟩

/-- An admitted buy keeps the property. -/
theorem BuysValid.withEvent (h : ledger.BuysValid) {event : FillEvent D}
    (hvalid : event.side = .buy → ledger.config.ValidBuy event) :
    (ledger.withEvent event).BuysValid := by
  intro other hother hside
  obtain ⟨hmem, heffective⟩ := mem_effectiveEvents.mp hother
  rcases List.mem_append.mp hmem with hold | hnew
  · exact h other (mem_effectiveEvents.mpr ⟨hold, heffective⟩) hside
  · obtain rfl := List.mem_singleton.mp hnew
    exact hvalid hside

/-- The replacement comes into force, and nothing else does. -/
theorem corrected_buysValid_iff (hvoids : ledger.VoidsRecorded) (h : ledger.BuysValid)
    {originalEventId correctionId : Text} {correction : LedgerCorrection D}
    (hcorrectable : ledger.Correctable originalEventId correction.replacement correctionId) :
    (ledger.corrected correction originalEventId).BuysValid ↔
      (correction.replacement.side = .buy → ledger.config.ValidBuy correction.replacement) := by
  obtain ⟨original, horiginal, _⟩ := hcorrectable.original
  have hother : correction.replacement.eventId ≠ originalEventId := by
    intro hsame
    have hfresh := hcorrectable.fresh
    rw [hsame, horiginal] at hfresh
    cases hfresh
  have heffective : correction.replacement.eventId ∉
      ledger.voidedEventIds ++ [originalEventId] := by
    rw [List.mem_append, List.mem_singleton, not_or]
    exact ⟨hvoids.not_voided hcorrectable.fresh, hother⟩
  constructor
  · intro hafter hside
    apply hafter correction.replacement _ hside
    exact mem_effectiveEvents.mpr
      ⟨List.mem_append_right _ (List.mem_singleton_self _), heffective⟩
  · intro hvalid event hevent hside
    obtain ⟨hmem, hkept⟩ := mem_effectiveEvents.mp hevent
    rcases List.mem_append.mp hmem with hold | hnew
    · refine h event (mem_effectiveEvents.mpr ⟨hold, ?_⟩) hside
      intro hvoided
      exact hkept (List.mem_append_left _ hvoided)
    · obtain rfl := List.mem_singleton.mp hnew
      exact hvalid hside

/-- A correction of a buy that passes its checks replaces it by a buy that `record_fill` admits. -/
def KeepsBuysValid (ledger : AccountLedger D) : LedgerOp D → Prop
  | .appendCorrection originalEventId replacement correctionId uuid _ _ =>
      ledger.Correctable originalEventId replacement
          (idOr correctionId ("correction-".toList ++ uuid)) →
        replacement.side = .buy → ledger.config.ValidBuy replacement
  | _ => True

theorem step_of_error {op : LedgerOp D} {error : LedgerError}
    (h : ledger.call op = .error error) : ledger.step op = ledger := by
  rw [step, h]

theorem called_step {op : LedgerOp D} : ledger.Called op (ledger.step op) := by
  cases hcall : ledger.call op with
  | error error =>
      rw [step_of_error hcall]
      exact .repeated op
  | ok result =>
      rw [step, hcall]
      exact called_of_call hcall

theorem step_buysValid_iff {ledger : AccountLedger D} (op : LedgerOp D)
    (hvoids : ledger.VoidsRecorded) (h : ledger.BuysValid) :
    (ledger.step op).BuysValid ↔ ledger.KeepsBuysValid op := by
  cases hcall : ledger.call op with
  | error error =>
      rw [step_of_error hcall]
      refine ⟨fun _ => ?_, fun _ => h⟩
      cases op with
      | appendCorrection originalEventId replacement correctionId uuid now today =>
          intro hcorrectable
          obtain ⟨result, hok⟩ := appendCorrection_of_correctable now today hcorrectable
          rw [call, hok] at hcall
          cases hcall
      | _ => exact trivial
  | ok result =>
      obtain ⟨receipt, ledger'⟩ := result
      have hstep : ledger.step op = ledger' := by rw [step, hcall]
      rw [hstep]
      cases op with
      | appendCorrection originalEventId replacement correctionId uuid now today =>
          obtain ⟨hcorrectable, correction, hmake, rfl⟩ := appendCorrection_ok hcall
          obtain ⟨rfl, _⟩ := correction_make_ok hmake
          rw [corrected_buysValid_iff hvoids h hcorrectable]
          exact ⟨fun hvalid _ => hvalid, fun hvalid => hvalid hcorrectable⟩
      | _ =>
          refine ⟨fun _ => trivial, fun _ => ?_⟩
          cases called_of_call hcall with
          | repeated => exact h
          | added _ hnew hvalid => exact h.withEvent hvalid

/-- Along a run of any calls from an empty ledger, every buy in force is one that `record_fill`
admits exactly when each correction of a buy replaces it by such a one. -/
theorem always_buysValid_iff (config : LedgerConfig D) (ops : List (LedgerOp D)) :
    Runs.Always step BuysValid (empty config) ops ↔
      Runs.StepsMeet step KeepsBuysValid (empty config) ops := by
  refine Runs.always_iff_stepsMeet step VoidsRecorded ?_ ?_ (empty config) ops ?_ ?_
  · intro ledger op hvoids
    exact hvoids.called called_step
  · intro ledger op hvoids hvalid
    exact step_buysValid_iff op hvoids hvalid
  · intro eventId hvoided
    exact absurd hvoided List.not_mem_nil
  · intro event hevent
    exact absurd (mem_effectiveEvents.mp hevent).1 List.not_mem_nil

/-- Buy 100 and correct the purchase to 50. -/
def halvedLotRun : List (LedgerOp ℤ) :=
  [.recordFill (sampleFill 'a' .buy 100 100000 1),
   .appendCorrection ['a'] (sampleFill 'b' .buy 50 100000 1) none [] (sampleTime 10) 1]

theorem halvedLotRun_not_buysValid :
    ¬ Runs.Always step BuysValid (empty sampleConfig) halvedLotRun := by
  intro halways
  have hlast : BuysValid (halvedLotRun.foldl step (empty sampleConfig)) := halways.last
  have heffective : sampleFill 'b' .buy 50 100000 1 ∈
      (halvedLotRun.foldl step (empty sampleConfig)).effectiveEvents := by
    decide +kernel
  have hconfig : (halvedLotRun.foldl step (empty sampleConfig)).config.lotSize = 100 := by
    decide +kernel
  have hlots := (hlast _ heffective rfl).wholeLots
  rw [hconfig] at hlots
  revert hlots
  decide

end AccountLedger

end QuantWorkbench.Account
