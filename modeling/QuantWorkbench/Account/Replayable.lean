import QuantWorkbench.Account.Conservation
import QuantWorkbench.Lib.Runs

/-!
Runs of a ledger under its four recording methods, and when the ledger can be
replayed at every date. A recorded fill is never earlier than the others, so its
own snapshot replays the whole history. A correction is checked at the date of
the fill it replaces only, and what it does to later fills decides whether the
later snapshots still exist.
-/

namespace QuantWorkbench.Account

open Lib Data

variable {D : Type} [LinearOrder D]

/-! ### Fills by date -/

/-- A list in the order of its keys is the part up to a bound and the part after it. -/
theorem filter_le_append_filter_lt {α : Type*} (key : α → D) (bound : D) {items : List α}
    (hsorted : items.Pairwise fun a b => key a ≤ key b) :
    items.filter (fun a => key a ≤ bound) ++ items.filter (fun a => bound < key a) = items := by
  induction items with
  | nil => rfl
  | cons a rest ih =>
      obtain ⟨hhead, hrest⟩ := List.pairwise_cons.mp hsorted
      by_cases ha : key a ≤ bound
      · simp only [List.filter_cons, ha, decide_true, if_true, not_lt.mpr ha, decide_false,
          Bool.false_eq_true, if_false, List.cons_append, ih hrest]
      · have hafter : ∀ b ∈ rest, bound < key b :=
          fun b hb => (not_le.mp ha).trans_le (hhead b hb)
        have hnone : rest.filter (fun a => key a ≤ bound) = [] := by
          rw [List.filter_eq_nil_iff]
          intro b hb
          simpa using hafter b hb
        have hall : rest.filter (fun a => bound < key a) = rest := by
          rw [List.filter_eq_self]
          intro b hb
          simpa using hafter b hb
        simp [ha, not_le.mp ha, hnone, hall]

theorem inReplayOrder_tradeDate {a b : FillEvent D} (h : inReplayOrder a b) :
    a.tradeDate ≤ b.tradeDate := by
  rcases Prod.Lex.le_iff.mp h with hlt | ⟨heq, _⟩
  · exact hlt.le
  · exact heq.le

instance : Std.Total (inReplayOrder (D := D)) :=
  ⟨fun a b => le_total a.sortKey b.sortKey⟩

instance : IsTrans (FillEvent D) inReplayOrder :=
  ⟨fun _ _ _ hab hbc => @le_trans (D ×ₗ UtcDateTime ×ₗ Text) _ _ _ _ hab hbc⟩

namespace AccountLedger

variable {ledger : AccountLedger D}

theorem effectiveEvents_sorted (ledger : AccountLedger D) :
    ledger.effectiveEvents.Pairwise fun a b => a.tradeDate ≤ b.tradeDate :=
  (List.pairwise_insertionSort inReplayOrder _).imp inReplayOrder_tradeDate

theorem mem_effectiveEvents {event : FillEvent D} :
    event ∈ ledger.effectiveEvents ↔
      event ∈ ledger.events ∧ event.eventId ∉ ledger.voidedEventIds := by
  simp [effectiveEvents, List.mem_insertionSort]

/-- The fills in force dated after a date, in replay order. -/
def eventsAfter (ledger : AccountLedger D) (date : D) : List (FillEvent D) :=
  ledger.effectiveEvents.filter fun event => date < event.tradeDate

theorem eventsUpTo_append_eventsAfter (ledger : AccountLedger D) (date : D) :
    ledger.eventsUpTo date ++ ledger.eventsAfter date = ledger.effectiveEvents :=
  filter_le_append_filter_lt FillEvent.tradeDate date ledger.effectiveEvents_sorted

theorem snapshot_exists_iff (ledger : AccountLedger D) (date : D) :
    (∃ snapshot, ledger.snapshot date = .ok snapshot) ↔
      ledger.config.ValidAccount (ledger.eventsUpTo date) := by
  have hsorted : (ledger.eventsUpTo date).Pairwise fun a b => a.tradeDate ≤ b.tradeDate :=
    ledger.effectiveEvents_sorted.filter _
  rw [← LedgerConfig.replay_ok_iff _ hsorted]
  constructor
  · rintro ⟨snapshot, h⟩
    obtain ⟨state, hstate, _⟩ := snapshot_ok_iff.mp h
    exact ⟨state, hstate⟩
  · rintro ⟨state, hstate⟩
    exact ⟨state.report date, snapshot_ok_iff.mpr ⟨state, hstate, rfl⟩⟩

theorem eventsUpTo_of_latest {date : D}
    (hlatest : ∀ event ∈ ledger.events, event.tradeDate ≤ date) :
    ledger.eventsUpTo date = ledger.effectiveEvents := by
  unfold eventsUpTo
  rw [List.filter_eq_self]
  intro event hevent
  simpa using hlatest event (mem_effectiveEvents.mp hevent).1

def Replayable (ledger : AccountLedger D) : Prop :=
  ∀ date, ∃ snapshot, ledger.snapshot date = .ok snapshot

theorem replayable_iff (ledger : AccountLedger D) :
    ledger.Replayable ↔ ledger.config.ValidAccount ledger.effectiveEvents := by
  constructor
  · intro h
    rcases List.eq_nil_or_concat ledger.effectiveEvents with hempty | ⟨front, last, hlast⟩
    · rw [hempty]
      exact LedgerConfig.validAccount_nil
    · have hsorted := ledger.effectiveEvents_sorted
      rw [hlast, List.concat_eq_append] at hsorted
      have hle := (List.pairwise_append.mp hsorted).2.2
      have hall : ledger.eventsUpTo last.tradeDate = ledger.effectiveEvents := by
        unfold eventsUpTo
        rw [List.filter_eq_self, hlast, List.concat_eq_append]
        intro event hevent
        rcases List.mem_append.mp hevent with hfront | hsingle
        · simpa using hle event hfront last (by simp)
        · simp [List.mem_singleton.mp hsingle]
      rw [← hall]
      exact (snapshot_exists_iff ledger last.tradeDate).mp (h last.tradeDate)
  · intro h date
    rw [snapshot_exists_iff]
    rw [← ledger.eventsUpTo_append_eventsAfter date] at h
    exact h.take

/-! ### What a recording leaves behind -/

theorem receiptFor_ok {event : FillEvent D} {idempotent : Bool} {receipt : LedgerReceipt D}
    (h : ledger.receiptFor event idempotent = .ok receipt) :
    ∃ snapshot, ledger.snapshot event.tradeDate = .ok snapshot := by
  unfold receiptFor at h
  cases hsnapshot : ledger.snapshot event.tradeDate with
  | error error =>
      rw [hsnapshot] at h
      cases h
  | ok snapshot => exact ⟨snapshot, rfl⟩

/-- `_append` repeats a known fill without effect, or adds one that no recorded
fill is later than; the receipt is that of the ledger it leaves. -/
theorem append_ok_iff {event : FillEvent D} {receipt : LedgerReceipt D}
    {ledger' : AccountLedger D} :
    ledger.append event = .ok (receipt, ledger') ↔
      (∃ existing, ledger.eventById event.eventId = some existing ∧
          sameEvent existing event = true ∧ ledger.receiptFor existing true = .ok receipt ∧
          ledger' = ledger) ∨
        ledger.eventById event.eventId = none ∧
          (∀ item ∈ ledger.events, item.tradeDate ≤ event.tradeDate) ∧
          (ledger.withEvent event).receiptFor event false = .ok receipt ∧
          ledger' = ledger.withEvent event := by
  have hmap : ∀ (result : Except LedgerError (LedgerReceipt D)) (after : AccountLedger D),
      result.map (fun r => (r, after)) = .ok (receipt, ledger') ↔
        result = .ok receipt ∧ ledger' = after := by
    intro result after
    cases result with
    | error error => simp [Except.map]
    | ok r => simp [Except.map, @eq_comm _ after]
  unfold append
  split
  · rename_i existing hknown
    by_cases hsame : sameEvent existing event = true
    · rw [if_pos hsame, hmap]
      simp [hknown, hsame]
    · simp [hsame, hknown]
  · rename_i hnew
    by_cases hlate : ∃ item ∈ ledger.events, event.tradeDate < item.tradeDate
    · obtain ⟨item, hitem, hlt⟩ := hlate
      rw [if_pos ⟨item, hitem, hlt⟩]
      refine ⟨fun h => (by cases h), ?_⟩
      rintro (⟨_, hknown, _⟩ | ⟨_, hlatest, _⟩)
      · rw [hnew] at hknown
        cases hknown
      · exact absurd (hlatest item hitem) (not_le.mpr hlt)
    · rw [if_neg hlate, hmap]
      push Not at hlate
      simp only [hnew, reduceCtorEq, false_and, exists_false, false_or, true_and]
      exact ⟨fun h => ⟨hlate, h⟩, fun h => h.2⟩

/-- Whatever was recorded before, a fill that is added makes the ledger replayable. -/
theorem withEvent_replayable {event : FillEvent D} {idempotent : Bool}
    {receipt : LedgerReceipt D}
    (hlatest : ∀ item ∈ ledger.events, item.tradeDate ≤ event.tradeDate)
    (h : (ledger.withEvent event).receiptFor event idempotent = .ok receipt) :
    (ledger.withEvent event).Replayable := by
  have hall : ∀ item ∈ (ledger.withEvent event).events, item.tradeDate ≤ event.tradeDate := by
    intro item hitem
    rcases List.mem_append.mp hitem with hold | hnew
    · exact hlatest item hold
    · rw [List.mem_singleton.mp hnew]
  rw [replayable_iff, ← eventsUpTo_of_latest hall]
  exact (snapshot_exists_iff _ _).mp (receiptFor_ok h)

theorem append_replayable {event : FillEvent D} {receipt : LedgerReceipt D}
    {ledger' : AccountLedger D} (hledger : ledger.Replayable)
    (h : ledger.append event = .ok (receipt, ledger')) : ledger'.Replayable := by
  rcases append_ok_iff.mp h with ⟨_, _, _, _, rfl⟩ | ⟨_, hlatest, hreceipt, rfl⟩
  · exact hledger
  · exact withEvent_replayable hlatest hreceipt

theorem recordFill_ok {event : FillEvent D} {result : LedgerReceipt D × AccountLedger D}
    (h : ledger.recordFill event = .ok result) : ledger.append event = .ok result := by
  unfold recordFill at h
  split at h
  · split at h
    · cases h
    · split at h
      · cases h
      · exact h
  · split at h
    · cases h
    · exact h

theorem recordBuy_ok {name symbol uuid source : Text} {quantity : ℤ} {price : ℚ}
    {tradeDate : D} {eventId : Option Text} {now : UtcDateTime}
    {result : LedgerReceipt D × AccountLedger D}
    (h : ledger.recordBuy name symbol quantity price tradeDate eventId uuid source now =
      .ok result) : ∃ event, ledger.append event = .ok result := by
  unfold recordBuy at h
  split at h
  · cases h
  · exact ⟨_, recordFill_ok h⟩

theorem recordSell_ok {symbol uuid source : Text} {quantity : ℤ} {price : ℚ}
    {tradeDate : D} {eventId : Option Text} {now : UtcDateTime}
    {result : LedgerReceipt D × AccountLedger D}
    (h : ledger.recordSell symbol quantity price tradeDate eventId uuid source now =
      .ok result) : ∃ event, ledger.append event = .ok result := by
  unfold recordSell at h
  split at h
  · cases h
  split at h
  · cases h
  split at h
  · cases h
  exact ⟨_, recordFill_ok h⟩

/-! ### What a correction leaves behind -/

def effectiveAfter (ledger : AccountLedger D) (originalEventId : Text)
    (replacement : FillEvent D) : List (FillEvent D) :=
  ((ledger.events ++ [replacement]).filter fun event =>
    event.eventId ∉ ledger.voidedEventIds ++ [originalEventId]).insertionSort inReplayOrder

/-- The checks a correction has to pass: its own, those against the fill it
replaces, and that the account it leaves is valid up to the corrected date. -/
structure Correctable (ledger : AccountLedger D) (originalEventId : Text)
    (replacement : FillEvent D) (correctionId : Text) : Prop where
  original : ∃ original, ledger.eventById originalEventId = some original ∧
    replacement.side = original.side ∧ replacement.symbol = original.symbol ∧
    replacement.tradeDate = original.tradeDate
  not_voided : originalEventId ∉ ledger.voidedEventIds
  fresh : ledger.eventById replacement.eventId = none
  ids_required : Text.strip correctionId ≠ [] ∧ Text.strip originalEventId ≠ []
  valid : ledger.config.ValidAccount
    ((ledger.effectiveAfter originalEventId replacement).filter fun event =>
      event.tradeDate ≤ replacement.tradeDate)

def LaterFillsCovered (ledger : AccountLedger D) (originalEventId : Text)
    (replacement : FillEvent D) : Prop :=
  let fills := ledger.effectiveAfter originalEventId replacement
  ∀ past event rest,
    fills.filter (fun e => replacement.tradeDate < e.tradeDate) = past ++ event :: rest →
      ledger.config.Covered
        (fills.filter (fun e => e.tradeDate ≤ replacement.tradeDate) ++ past) event

theorem corrected_effectiveEvents (correction : LedgerCorrection D) (originalEventId : Text) :
    (ledger.corrected correction originalEventId).effectiveEvents =
      ledger.effectiveAfter originalEventId correction.replacement := rfl

theorem corrected_snapshotLatest (correction : LedgerCorrection D) (originalEventId : Text)
    (today : D) :
    (ledger.corrected correction originalEventId).snapshotLatest today =
      (ledger.corrected correction originalEventId).snapshot
        correction.replacement.tradeDate := by
  simp [snapshotLatest, corrected]

omit [LinearOrder D] in
theorem correction_make_ok {correctionId originalEventId : Text} {replacement : FillEvent D}
    {now : UtcDateTime} {correction : LedgerCorrection D}
    (h : LedgerCorrection.make correctionId originalEventId replacement now = .ok correction) :
    correction.replacement = replacement ∧ Text.strip correctionId ≠ [] ∧
      Text.strip originalEventId ≠ [] := by
  unfold LedgerCorrection.make at h
  split at h
  · cases h
  · rename_i hids
    push Not at hids
    cases h
    exact ⟨rfl, hids⟩

/-- What an accepted correction has checked, and the ledger it leaves. -/
theorem appendCorrection_ok {originalEventId : Text} {replacement : FillEvent D}
    {correctionId : Option Text} {uuid : Text} {now : UtcDateTime} {today : D}
    {receipt : LedgerReceipt D} {ledger' : AccountLedger D}
    (h : ledger.appendCorrection originalEventId replacement correctionId uuid now today =
      .ok (receipt, ledger')) :
    ledger.Correctable originalEventId replacement
        (idOr correctionId ("correction-".toList ++ uuid)) ∧
      ∃ correction, LedgerCorrection.make (idOr correctionId ("correction-".toList ++ uuid))
          originalEventId replacement now = .ok correction ∧
        ledger' = ledger.corrected correction originalEventId := by
  unfold appendCorrection at h
  split at h
  · cases h
  rename_i original horiginal
  split at h
  · cases h
  rename_i hvoided
  split at h
  · cases h
  rename_i hfresh
  split at h
  · cases h
  rename_i hkeeps
  split at h
  · cases h
  rename_i hdate
  split at h
  · cases h
  rename_i correction hcorrection
  dsimp only at h
  split at h
  · cases h
  split at h
  · cases h
  rename_i snapshot hsnapshot
  cases h
  obtain ⟨hreplacement, hids⟩ := correction_make_ok hcorrection
  push Not at hkeeps hdate
  refine ⟨⟨⟨original, horiginal, hkeeps.1, hkeeps.2, hdate⟩, hvoided, ?_, hids, ?_⟩,
    correction, hcorrection, rfl⟩
  · simpa using hfresh
  · rw [corrected_snapshotLatest, hreplacement] at hsnapshot
    have hvalid := (snapshot_exists_iff _ replacement.tradeDate).mp ⟨snapshot, hsnapshot⟩
    unfold eventsUpTo at hvalid
    rw [corrected_effectiveEvents, hreplacement] at hvalid
    exact hvalid

/-- A correction that passes the checks is accepted. -/
theorem appendCorrection_of_correctable {originalEventId : Text} {replacement : FillEvent D}
    {correctionId : Option Text} {uuid : Text} (now : UtcDateTime) (today : D)
    (h : ledger.Correctable originalEventId replacement
      (idOr correctionId ("correction-".toList ++ uuid))) :
    ∃ result, ledger.appendCorrection originalEventId replacement correctionId uuid now
      today = .ok result := by
  obtain ⟨original, horiginal, hside, hsymbol, hdate⟩ := h.original
  have hmake : ∃ correction, LedgerCorrection.make
      (idOr correctionId ("correction-".toList ++ uuid)) originalEventId replacement now =
        .ok correction ∧ correction.replacement = replacement := by
    unfold LedgerCorrection.make
    rw [dif_neg (not_or.mpr h.ids_required)]
    exact ⟨_, rfl, rfl⟩
  obtain ⟨correction, hcorrection, hreplacement⟩ := hmake
  have hsnapshot : ∃ snapshot, (ledger.corrected correction originalEventId).snapshot
      replacement.tradeDate = .ok snapshot := by
    rw [snapshot_exists_iff]
    unfold eventsUpTo
    rw [corrected_effectiveEvents, hreplacement]
    exact h.valid
  obtain ⟨snapshot, hsnapshot⟩ := hsnapshot
  have hlatest : (ledger.corrected correction originalEventId).snapshotLatest today = _ :=
    corrected_snapshotLatest correction originalEventId today
  rw [hreplacement, hsnapshot] at hlatest
  have hreceipt : ∃ receipt, (ledger.corrected correction originalEventId).receiptFor
      replacement false = .ok receipt := by
    simp [receiptFor, hsnapshot, Except.map]
  obtain ⟨receipt, hreceipt⟩ := hreceipt
  have hfresh : ¬ (ledger.eventById replacement.eventId).isSome = true := by
    simp [h.fresh]
  have hkeeps : ¬ (replacement.side ≠ original.side ∨
      replacement.symbol ≠ original.symbol) := by
    simp [hside, hsymbol]
  refine ⟨(receipt, ledger.corrected correction originalEventId), ?_⟩
  unfold appendCorrection
  simp only [horiginal, if_neg h.not_voided, if_neg hfresh, if_neg hkeeps,
    if_neg (not_not.mpr hdate), hcorrection, hreceipt, hlatest]

/-- A correction leaves the ledger replayable exactly when the later fills are
still covered. -/
theorem corrected_replayable_iff {originalEventId correctionId : Text}
    {replacement : FillEvent D} {correction : LedgerCorrection D}
    (hledger : ledger.Replayable)
    (h : ledger.Correctable originalEventId replacement correctionId)
    (hreplacement : correction.replacement = replacement) :
    (ledger.corrected correction originalEventId).Replayable ↔
      ledger.LaterFillsCovered originalEventId replacement := by
  have hvalid := (replayable_iff ledger).mp hledger
  -- A later fill is none of the two fills of the correction, so it was in force before.
  have hnotional : ∀ event ∈ (ledger.effectiveAfter originalEventId replacement).filter
      (fun e => replacement.tradeDate < e.tradeDate), 0 < event.notional := by
    intro event hevent
    obtain ⟨hmem, hlater⟩ := List.mem_filter.mp hevent
    have hlater' : replacement.tradeDate < event.tradeDate := by simpa using hlater
    simp only [effectiveAfter, List.mem_insertionSort, List.mem_filter, List.mem_append,
      List.mem_singleton, decide_eq_true_eq, not_or] at hmem
    have hold : event ∈ ledger.effectiveEvents := by
      rw [mem_effectiveEvents]
      rcases hmem.1 with hold | rfl
      · exact ⟨hold, hmem.2.1⟩
      · exact absurd hlater' (lt_irrefl _)
    obtain ⟨past, rest, hsplit⟩ := List.append_of_mem hold
    exact (hvalid past event rest hsplit).1
  rw [replayable_iff, corrected_effectiveEvents, hreplacement]
  have hsorted : (ledger.effectiveAfter originalEventId replacement).Pairwise
      fun a b => a.tradeDate ≤ b.tradeDate :=
    (List.pairwise_insertionSort inReplayOrder _).imp inReplayOrder_tradeDate
  conv_lhs => rw [← filter_le_append_filter_lt FillEvent.tradeDate replacement.tradeDate hsorted]
  rw [LedgerConfig.validAccount_append_iff]
  constructor
  · rintro ⟨_, hlater⟩ past event rest hsplit
    exact (hlater past event rest hsplit).2
  · intro hcovered
    refine ⟨h.valid, ?_⟩
    intro past event rest hsplit
    exact ⟨hnotional event (by rw [hsplit]; simp), hcovered past event rest hsplit⟩

end AccountLedger

/-! ### Runs -/

/-- A call of one of the recording methods. -/
inductive LedgerOp (D : Type) where
  | recordBuy (name symbol : Text) (quantity : ℤ) (price : ℚ) (tradeDate : D)
      (eventId : Option Text) (uuid source : Text) (now : UtcDateTime)
  | recordSell (symbol : Text) (quantity : ℤ) (price : ℚ) (tradeDate : D)
      (eventId : Option Text) (uuid source : Text) (now : UtcDateTime)
  | recordFill (event : FillEvent D)
  | appendCorrection (originalEventId : Text) (replacement : FillEvent D)
      (correctionId : Option Text) (uuid : Text) (now : UtcDateTime) (today : D)

namespace AccountLedger

def call (ledger : AccountLedger D) :
    LedgerOp D → Except LedgerError (LedgerReceipt D × AccountLedger D)
  | .recordBuy name symbol quantity price tradeDate eventId uuid source now =>
      ledger.recordBuy name symbol quantity price tradeDate eventId uuid source now
  | .recordSell symbol quantity price tradeDate eventId uuid source now =>
      ledger.recordSell symbol quantity price tradeDate eventId uuid source now
  | .recordFill event => ledger.recordFill event
  | .appendCorrection originalEventId replacement correctionId uuid now today =>
      ledger.appendCorrection originalEventId replacement correctionId uuid now today

/-- A call that raises leaves the ledger as it was. -/
def step (ledger : AccountLedger D) (op : LedgerOp D) : AccountLedger D :=
  match ledger.call op with
  | .error _ => ledger
  | .ok (_, ledger') => ledger'

/-- A correction that passes the checks leaves every later fill covered. -/
def KeepsLaterFills (ledger : AccountLedger D) : LedgerOp D → Prop
  | .appendCorrection originalEventId replacement correctionId uuid _ _ =>
      ledger.Correctable originalEventId replacement
          (idOr correctionId ("correction-".toList ++ uuid)) →
        ledger.LaterFillsCovered originalEventId replacement
  | _ => True

/-- One call: only a correction can end replayability, by uncovering a later fill. -/
theorem step_replayable_iff {ledger : AccountLedger D} (op : LedgerOp D)
    (hledger : ledger.Replayable) :
    (ledger.step op).Replayable ↔ ledger.KeepsLaterFills op := by
  cases hcall : ledger.call op with
  | error error =>
      have hstep : ledger.step op = ledger := by simp [step, hcall]
      rw [hstep]
      refine ⟨fun _ => ?_, fun _ => hledger⟩
      cases op with
      | appendCorrection originalEventId replacement correctionId uuid now today =>
          intro hcorrectable
          obtain ⟨result, hok⟩ := appendCorrection_of_correctable now today hcorrectable
          change ledger.appendCorrection _ _ _ _ _ _ = _ at hcall
          rw [hok] at hcall
          cases hcall
      | _ => exact trivial
  | ok result =>
      obtain ⟨receipt, ledger'⟩ := result
      have hstep : ledger.step op = ledger' := by simp [step, hcall]
      rw [hstep]
      cases op with
      | recordBuy name symbol quantity price tradeDate eventId uuid source now =>
          obtain ⟨event, happend⟩ := recordBuy_ok hcall
          exact ⟨fun _ => trivial, fun _ => append_replayable hledger happend⟩
      | recordSell symbol quantity price tradeDate eventId uuid source now =>
          obtain ⟨event, happend⟩ := recordSell_ok hcall
          exact ⟨fun _ => trivial, fun _ => append_replayable hledger happend⟩
      | recordFill event =>
          have happend := recordFill_ok hcall
          exact ⟨fun _ => trivial, fun _ => append_replayable hledger happend⟩
      | appendCorrection originalEventId replacement correctionId uuid now today =>
          obtain ⟨hcorrectable, correction, hmake, rfl⟩ := appendCorrection_ok hcall
          rw [corrected_replayable_iff hledger hcorrectable (correction_make_ok hmake).1]
          exact ⟨fun h _ => h, fun h => h hcorrectable⟩

theorem empty_replayable (config : LedgerConfig D) : (empty config).Replayable := by
  rw [replayable_iff]
  exact LedgerConfig.validAccount_nil

/-- Along a run of any calls from an empty ledger, every snapshot at every date
exists exactly when each correction that passes its checks leaves the fills after
the corrected date covered. -/
theorem always_replayable_iff (config : LedgerConfig D) (ops : List (LedgerOp D)) :
    Runs.Always step Replayable (empty config) ops ↔
      Runs.StepsMeet step KeepsLaterFills (empty config) ops :=
  Runs.always_iff_stepsMeet step (fun _ => True) (fun _ _ _ => trivial)
    (fun _ op _ hledger => step_replayable_iff op hledger) (empty config) ops trivial
    (empty_replayable config)

/-- Buy 200, sell 200 two days later, and correct the purchase to 100. -/
def reducedPurchaseRun : List (LedgerOp ℤ) :=
  [.recordFill (sampleFill 'a' .buy 200 100000 1),
   .recordFill (sampleFill 'b' .sell 200 100000 3),
   .appendCorrection ['a'] (sampleFill 'c' .buy 100 100000 1) none [] (sampleTime 10)
    3]

/-- The correction is accepted, its snapshot being at the date of the purchase,
and the date of the sale has no snapshot any more. -/
theorem reducedPurchaseRun_not_replayable :
    ¬ Runs.Always step Replayable (empty sampleConfig) reducedPurchaseRun := by
  rintro ⟨_, _, _, hlast⟩
  obtain ⟨snapshot, hsnapshot⟩ := hlast 3
  have hraises : (reducedPurchaseRun.foldl step (empty sampleConfig)).snapshot 3 =
      .error .insufficientAvailable := by
    decide +kernel
  change (reducedPurchaseRun.foldl step (empty sampleConfig)).snapshot 3 = _ at hsnapshot
  rw [hraises] at hsnapshot
  cases hsnapshot

end AccountLedger

end QuantWorkbench.Account
