import QuantWorkbench.Account.Rebuild

/-!
Fills that are already in the ledger. Recording such a fill again adds nothing;
but a sale is checked against what is still available before it is looked up, so
it is taken again only when it could be made once more.
-/

namespace QuantWorkbench.Account

open Lib Data

variable {D : Type} [LinearOrder D]

namespace AccountLedger

variable {ledger : AccountLedger D}

/-! ### What can be sold -/

theorem availableQuantity_of_no_lot (state : ReplayState D) {symbol : Symbol} (date : D)
    (h : symbol ∉ state.symbols) :
    (state.positionOf date symbol).availableQuantity = 0 := by
  have hnone : state.lots.filter
      (fun lot => decide (lot.symbol = symbol ∧ lot.availableFrom ≤ date)) = [] := by
    rw [List.filter_eq_nil_iff]
    intro lot hlot hselected
    apply h
    apply (mem_symbols state symbol).mpr
    exact ⟨lot, hlot, (of_decide_eq_true hselected).1⟩
  change ((state.lots.filter fun lot =>
    decide (lot.symbol = symbol ∧ lot.availableFrom ≤ date)).map (·.remainingQuantity)).sum = 0
  rw [hnone]
  rfl

/-- The purchases released by the date, less all sales up to it, reach for the
quantity. -/
def Sellable (ledger : AccountLedger D) (symbol : Symbol) (quantity : ℤ) (date : D) : Prop :=
  quantity + soldQuantity symbol (ledger.eventsUpTo date) ≤
    ledger.config.releasedQuantity symbol date (ledger.eventsUpTo date)

theorem checkAvailable_ok_iff {symbol : Symbol} {quantity : ℤ} {date : D}
    (hquantity : 0 < quantity) :
    (∃ position, ledger.checkAvailable symbol quantity date = .ok position) ↔
      (∃ snapshot, ledger.snapshot date = .ok snapshot) ∧
        ledger.Sellable symbol quantity date := by
  unfold checkAvailable
  cases hsnapshot : ledger.snapshot date with
  | error error => simp
  | ok snapshot =>
      obtain ⟨state, hstate, rfl⟩ := snapshot_ok_iff.mp hsnapshot
      have hbooks := LedgerConfig.replay_books hstate
      have hdates : ∀ event ∈ ledger.eventsUpTo date, event.tradeDate ≤ date := by
        intro event hevent
        simpa using (List.mem_filter.mp hevent).2
      have havailable : (state.positionOf date symbol).availableQuantity =
          ledger.config.releasedQuantity symbol date (ledger.eventsUpTo date) -
            soldQuantity symbol (ledger.eventsUpTo date) :=
        hbooks.available_eq symbol date hdates
      have hsellable : ledger.Sellable symbol quantity date ↔
          quantity ≤ (state.positionOf date symbol).availableQuantity := by
        rw [havailable, Sellable]
        constructor
        · intro h
          omega
        · intro h
          omega
      simp only [report_position, hsellable, Except.ok.injEq, exists_eq', true_and]
      by_cases hlot : symbol ∈ state.symbols
      · simp only [if_pos hlot]
        split
        · rename_i hshort
          simp [hshort]
        · rename_i hreach
          simp [not_lt.mp hreach]
      · rw [availableQuantity_of_no_lot state date hlot]
        simp [if_neg hlot, hquantity]

/-- A snapshot exists exactly when each fill up to its date was paid for, or covered by shares that
could be sold, when it came. It reports the account of these fills, without lots: the balance, what
was bought and not sold, and how much of it was bought early enough to be sold on the date. -/
theorem snapshot_is_cash_account (ledger : AccountLedger D) (date : D) :
    ((∃ snapshot, ledger.snapshot date = .ok snapshot) ↔
      ledger.config.ValidAccount (ledger.eventsUpTo date)) ∧
    ∀ snapshot, ledger.snapshot date = .ok snapshot →
      snapshot.cash = ledger.config.balance (ledger.eventsUpTo date) ∧
      ∀ symbol,
        ((snapshot.position symbol).map (·.totalQuantity)).getD 0 =
          boughtQuantity symbol (ledger.eventsUpTo date) -
            soldQuantity symbol (ledger.eventsUpTo date) ∧
        ((snapshot.position symbol).map (·.availableQuantity)).getD 0 =
          ledger.config.releasedQuantity symbol date (ledger.eventsUpTo date) -
            soldQuantity symbol (ledger.eventsUpTo date) := by
  refine ⟨snapshot_exists_iff ledger date, fun snapshot h => ?_⟩
  obtain ⟨state, hstate, rfl⟩ := snapshot_ok_iff.mp h
  have hbooks := LedgerConfig.replay_books hstate
  have hdates : ∀ event ∈ ledger.eventsUpTo date, event.tradeDate ≤ date := fun event hevent =>
    of_decide_eq_true (List.mem_filter.mp hevent).2
  refine ⟨hbooks.cash_eq, fun symbol => ?_⟩
  rw [report_position, ← hbooks.shares_eq symbol, ← hbooks.available_eq symbol date hdates]
  by_cases hlot : symbol ∈ state.symbols
  · rw [if_pos hlot]
    exact ⟨rfl, rfl⟩
  · rw [if_neg hlot, totalQuantity_of_no_lot state hlot]
    exact ⟨rfl, (availableQuantity_of_no_lot state date hlot).symm⟩

/-! ### Recorded fills -/

/-- A fill with this id and these values has been recorded. -/
def HasRecorded (ledger : AccountLedger D) (event : FillEvent D) : Prop :=
  ∃ existing, ledger.eventById event.eventId = some existing ∧ sameEvent existing event = true

theorem sameEvent_self (event : FillEvent D) : sameEvent event event = true := by
  simp [sameEvent]

theorem sameEvent_tradeDate {a b : FillEvent D} (h : sameEvent a b = true) :
    a.tradeDate = b.tradeDate := by
  simp only [sameEvent, decide_eq_true_eq] at h
  exact h.2.2.2.2.1

theorem HasRecorded.withEvent {event : FillEvent D} (h : ledger.HasRecorded event)
    (other : FillEvent D) : (ledger.withEvent other).HasRecorded event := by
  obtain ⟨existing, hknown, hsame⟩ := h
  refine ⟨existing, ?_, hsame⟩
  unfold eventById at hknown ⊢
  simp [AccountLedger.withEvent, List.find?_append, hknown]

theorem hasRecorded_withEvent {event : FillEvent D}
    (hnew : ledger.eventById event.eventId = none) :
    (ledger.withEvent event).HasRecorded event := by
  refine ⟨event, ?_, sameEvent_self event⟩
  unfold eventById at hnew ⊢
  simp [AccountLedger.withEvent, List.find?_append, hnew]

theorem receiptFor_idempotent {event : FillEvent D} {idempotent : Bool}
    {receipt : LedgerReceipt D} (h : ledger.receiptFor event idempotent = .ok receipt) :
    receipt.idempotent = idempotent := by
  unfold receiptFor at h
  cases hsnapshot : ledger.snapshot event.tradeDate with
  | error error =>
      rw [hsnapshot] at h
      cases h
  | ok snapshot =>
      rw [hsnapshot] at h
      cases h
      rfl

def addFill (ledger : AccountLedger D) (event : FillEvent D) : AccountLedger D :=
  if (ledger.eventById event.eventId).isSome then ledger else ledger.withEvent event

def withFills (ledger : AccountLedger D) (events : List (FillEvent D)) : AccountLedger D :=
  events.foldl addFill ledger

/-- An accepted fill is in the ledger afterwards, and new exactly when the receipt
says so. -/
theorem append_addFill {event : FillEvent D} {receipt : LedgerReceipt D}
    {ledger' : AccountLedger D} (h : ledger.append event = .ok (receipt, ledger')) :
    ledger' = ledger.addFill event ∧ ledger'.HasRecorded event ∧
      (receipt.idempotent = true → ledger' = ledger) ∧
      (receipt.idempotent = false →
        ledger.eventById event.eventId = none ∧ ledger' = ledger.withEvent event) := by
  rcases append_ok_iff.mp h with
    ⟨existing, hknown, hsame, hreceipt, rfl⟩ | ⟨hnew, _, hreceipt, rfl⟩
  · have hidempotent := receiptFor_idempotent hreceipt
    refine ⟨by simp [addFill, hknown], ⟨existing, hknown, hsame⟩, fun _ => rfl, ?_⟩
    intro hnot
    rw [hidempotent] at hnot
    cases hnot
  · have hidempotent := receiptFor_idempotent hreceipt
    refine ⟨by simp [addFill, hnew], hasRecorded_withEvent hnew, ?_, fun _ => ⟨hnew, rfl⟩⟩
    intro hnot
    rw [hidempotent] at hnot
    cases hnot

/-- What one accepted fill leaves of the snapshots. -/
theorem append_snapshot {event : FillEvent D} {receipt : LedgerReceipt D}
    {ledger' : AccountLedger D} (h : ledger.append event = .ok (receipt, ledger')) :
    (∃ snapshot, ledger'.snapshot event.tradeDate = .ok snapshot) ∧
      ∀ date, (∃ snapshot, ledger.snapshot date = .ok snapshot) →
        ∃ snapshot, ledger'.snapshot date = .ok snapshot := by
  rcases append_ok_iff.mp h with
    ⟨existing, _, hsame, hreceipt, rfl⟩ | ⟨_, hlatest, hreceipt, rfl⟩
  · refine ⟨?_, fun _ h => h⟩
    rw [← sameEvent_tradeDate hsame]
    exact receiptFor_ok hreceipt
  · have hall := withEvent_replayable hlatest hreceipt
    exact ⟨hall event.tradeDate, fun date _ => hall date⟩

/-! ### Confirmed fills -/

/-- The fill is recorded, passes the checks on its own values, and its date has a
snapshot. -/
structure Confirmed (ledger : AccountLedger D) (event : FillEvent D) : Prop where
  recorded : ledger.HasRecorded event
  dated : ∃ snapshot, ledger.snapshot event.tradeDate = .ok snapshot
  checked : event.side = .buy → ledger.validateName event.symbol event.name = .ok () ∧
    event.quantity % ledger.config.lotSize = 0

theorem append_config {event : FillEvent D} {receipt : LedgerReceipt D}
    {ledger' : AccountLedger D} (h : ledger.append event = .ok (receipt, ledger')) :
    ledger'.config = ledger.config := by
  rcases append_ok_iff.mp h with ⟨_, _, _, _, rfl⟩ | ⟨_, _, _, rfl⟩
  · rfl
  · rfl

theorem recordFill_confirmed {event : FillEvent D} {receipt : LedgerReceipt D}
    {ledger' : AccountLedger D} (h : ledger.recordFill event = .ok (receipt, ledger')) :
    ledger'.Confirmed event := by
  have happend := recordFill_ok h
  have hconfig := append_config happend
  refine ⟨(append_addFill happend).2.1, (append_snapshot happend).1, ?_⟩
  intro hside
  unfold validateName
  unfold recordFill at h
  rw [hside] at h
  dsimp only at h
  split at h
  · cases h
  rename_i hname
  split at h
  · cases h
  rename_i hlots
  rw [hconfig]
  exact ⟨hname, not_not.mp hlots⟩

/-- What is confirmed stays confirmed while further fills are accepted. -/
theorem Confirmed.append {event other : FillEvent D} {receipt : LedgerReceipt D}
    {ledger' : AccountLedger D} (hconfirmed : ledger.Confirmed event)
    (h : ledger.append other = .ok (receipt, ledger')) : ledger'.Confirmed event where
  recorded := by
    rcases append_ok_iff.mp h with ⟨_, _, _, _, rfl⟩ | ⟨_, _, _, rfl⟩
    · exact hconfirmed.recorded
    · exact hconfirmed.recorded.withEvent other
  dated := (append_snapshot h).2 _ hconfirmed.dated
  checked := by
    unfold validateName
    rw [append_config h]
    exact hconfirmed.checked

/-- A sale passes the check of what is available. -/
def SaleCovered (ledger : AccountLedger D) (event : FillEvent D) : Prop :=
  event.side = .sell → ledger.Sellable event.symbol event.quantity event.tradeDate

/-- A confirmed fill is taken again exactly when it is not a sale of more than is
available. -/
theorem Confirmed.recordFill_iff {event : FillEvent D} (h : ledger.Confirmed event) :
    (∃ result, ledger.recordFill event = .ok result) ↔ ledger.SaleCovered event := by
  obtain ⟨existing, hknown, hsame⟩ := h.recorded
  have happend : ∃ result, ledger.append event = .ok result := by
    obtain ⟨snapshot, hsnapshot⟩ := h.dated
    rw [← sameEvent_tradeDate hsame] at hsnapshot
    have hreceipt : ∃ receipt, ledger.receiptFor existing true = .ok receipt := by
      simp [receiptFor, hsnapshot, Except.map]
    obtain ⟨receipt, hreceipt⟩ := hreceipt
    exact ⟨_, append_ok_iff.mpr (.inl ⟨existing, hknown, hsame, hreceipt, rfl⟩)⟩
  obtain ⟨result, happend⟩ := happend
  unfold recordFill SaleCovered
  cases hside : event.side with
  | buy =>
      obtain ⟨hname, hlots⟩ := h.checked hside
      simp [hname, hlots, happend]
  | sell =>
      have hcheck : _ ↔ _ ∧ ledger.Sellable event.symbol event.quantity event.tradeDate :=
        checkAvailable_ok_iff event.quantity_pos
      simp only [h.dated, true_and] at hcheck
      rw [← hcheck]
      cases ledger.checkAvailable event.symbol event.quantity event.tradeDate with
      | error error => simp
      | ok position => simp [happend]

/-- Taken again, it changes nothing. -/
theorem Confirmed.recordFill_eq {event : FillEvent D} {receipt : LedgerReceipt D}
    {ledger' : AccountLedger D} (hconfirmed : ledger.Confirmed event)
    (h : ledger.recordFill event = .ok (receipt, ledger')) :
    ledger' = ledger ∧ receipt.idempotent = true := by
  obtain ⟨existing, hknown, _⟩ := hconfirmed.recorded
  rcases append_ok_iff.mp (recordFill_ok h) with ⟨_, _, _, hreceipt, rfl⟩ | ⟨hnew, _⟩
  · exact ⟨rfl, receiptFor_idempotent hreceipt⟩
  · rw [hknown] at hnew
    cases hnew

theorem SameBooks.confirmed {a b : AccountLedger D} (hbooks : SameBooks a b)
    {event : FillEvent D} (h : a.Confirmed event) : b.Confirmed event where
  recorded := by
    unfold HasRecorded
    rw [← hbooks.eventById]
    exact h.recorded
  dated := by
    rw [← hbooks.snapshot]
    exact h.dated
  checked := by
    unfold validateName
    rw [← hbooks.config_eq]
    exact h.checked

theorem SameBooks.saleCovered_iff {a b : AccountLedger D} (hbooks : SameBooks a b)
    (event : FillEvent D) : b.SaleCovered event ↔ a.SaleCovered event := by
  unfold SaleCovered Sellable
  rw [hbooks.config_eq, hbooks.eventsUpTo]

end AccountLedger

end QuantWorkbench.Account
