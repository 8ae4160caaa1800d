import QuantWorkbench.Account.Replayable
import QuantWorkbench.Lib.Raising

/-!
The ledger object itself: five containers that a call changes one after another, and puts back by
hand when the new history does not replay. The calendar of trading days belongs to the caller and
may raise. `AccountLedger` is this object with a calendar that does not.
-/

namespace QuantWorkbench.Account

open Lib Data

variable {D E : Type} [LinearOrder D]

/-- What a call can raise: an error of its own, or one of the calendar. -/
inductive LedgerFault (E : Type) where
  | ledger (error : LedgerError)
  | calendar (error : E)

structure LedgerBook (D : Type) where
  events : List (FillEvent D)
  eventsById : List (Text × FillEvent D)
  corrections : List (LedgerCorrection D)
  voidedEventIds : List Text
  records : List (LedgerRecord D)

namespace LedgerConfig

variable (config : LedgerConfig D)

/-- The rules with one answer of the calendar. -/
def onDay (day : D) : LedgerConfig D := { config with nextTradingDay := fun _ => day }

/-- One round of the loop of `snapshot`. A buy that is paid for asks the calendar. -/
def replayRound (calendar : D → Except E D) (state : ReplayState D) (event : FillEvent D) :
    Except (LedgerFault E) (ReplayState D) :=
  match config.feeSchedule.calculate event.side event.symbol event.notional with
  | .error error => .error (.ledger error)
  | .ok _ =>
    match event.side with
    | .buy =>
        if state.cash < config.outlay event then .error (.ledger .insufficientCash)
        else
          match calendar event.tradeDate with
          | .error error => .error (.calendar error)
          | .ok day => ((config.onDay day).applyBuy state event).mapError .ledger
    | .sell => (config.applySell state event).mapError .ledger

end LedgerConfig

namespace LedgerBook

def lookup (book : LedgerBook D) (eventId : Text) : Option (FillEvent D) :=
  book.eventsById.lookup eventId

def eventsUpTo (book : LedgerBook D) (date : D) : List (FillEvent D) :=
  ((book.events.filter fun event => event.eventId ∉ book.voidedEventIds).insertionSort
    inReplayOrder).filter fun event => event.tradeDate ≤ date

variable (config : LedgerConfig D) (calendar : D → Except E D)

def snapshot (book : LedgerBook D) (date : D) : Except (LedgerFault E) (AccountSnapshot D) :=
  ((book.eventsUpTo date).foldlM (config.replayRound calendar) config.startState).map fun state =>
    state.report date

def snapshotLatest (book : LedgerBook D) (today : D) :
    Except (LedgerFault E) (AccountSnapshot D) :=
  book.snapshot config calendar ((book.events.getLast?.map (·.tradeDate)).getD today)

/-! ### The methods -/

abbrev Method (E D α : Type) := Raising (LedgerFault E) (LedgerBook D) α

def receiptFor (event : FillEvent D) (idempotent : Bool) : Method E D (LedgerReceipt D) := do
  let reported ← Raising.read fun book => book.snapshot config calendar event.tradeDate
  let snapshot ← Raising.lift reported
  return {
    event := event
    cashAfter := snapshot.cash
    position := (snapshot.position event.symbol).getD {
      symbol := event.symbol
      name := event.name
      totalQuantity := 0
      availableQuantity := 0
      frozenQuantity := 0
      averageCost := 0 }
    realizedPnl := snapshot.realizedPnl
    idempotent := idempotent }

def append (event : FillEvent D) : Method E D (LedgerReceipt D) := do
  let existing ← Raising.read fun book => book.lookup event.eventId
  match existing with
  | some existing =>
      if AccountLedger.sameEvent existing event = true then receiptFor config calendar existing true
      else Raising.raise (.ledger .eventIdReused)
  | none =>
      let originalEvents ← Raising.read LedgerBook.events
      Raising.check (¬ ∃ item ∈ originalEvents, event.tradeDate < item.tradeDate)
        (.ledger .tradeDateBeforeLatest)
      Raising.change fun book => { book with events := originalEvents ++ [event] }
      let receipt ← (receiptFor config calendar event false).onRaise (fun _ => true)
        (Raising.change fun book => { book with events := originalEvents })
      Raising.change fun book => { book with
        eventsById := (event.eventId, event) :: book.eventsById }
      Raising.change fun book => { book with records := book.records ++ [.fill event] }
      return receipt

/-- The check of `record_sell` and `record_fill` that enough can be sold. -/
def checkAvailable (symbol : Symbol) (quantity : ℤ) (tradeDate : D) :
    Method E D PositionSnapshot := do
  let reported ← Raising.read fun book => book.snapshot config calendar tradeDate
  let snapshot ← Raising.lift reported
  match snapshot.position symbol with
  | none => Raising.raise (.ledger .insufficientAvailable)
  | some current =>
      Raising.check (¬ current.availableQuantity < quantity) (.ledger .insufficientAvailable)
      return current

def validateName (symbol : Symbol) (name : Text) : Method E D Unit :=
  Raising.lift (((AccountLedger.empty config).validateName symbol name).mapError .ledger)

def recordFill (event : FillEvent D) : Method E D (LedgerReceipt D) :=
  match event.side with
  | .buy => do
      validateName config event.symbol event.name
      Raising.check (event.quantity % config.lotSize = 0)
        (.ledger (.notLotMultiple config.lotSize))
      append config calendar event
  | .sell => do
      let _ ← checkAvailable config calendar event.symbol event.quantity event.tradeDate
      append config calendar event

def recordBuy (name symbol : Text) (quantity : ℤ) (price : ℚ) (tradeDate : D)
    (eventId : Option Text) (uuid source : Text) (now : UtcDateTime) :
    Method E D (LedgerReceipt D) := do
  let event ← Raising.lift ((FillEvent.make
    (AccountLedger.idOr eventId ("manual-buy-".toList ++ uuid)) TradeSide.buy.value symbol quantity
    price tradeDate name source now).mapError .ledger)
  recordFill config calendar event

def recordSell (symbol : Text) (quantity : ℤ) (price : ℚ) (tradeDate : D)
    (eventId : Option Text) (uuid source : Text) (now : UtcDateTime) :
    Method E D (LedgerReceipt D) := do
  match normalizeSymbol symbol with
  | none => Raising.raise (.ledger .invalidSymbol)
  | some normalized =>
      let current ← checkAvailable config calendar normalized quantity tradeDate
      let event ← Raising.lift ((FillEvent.make
        (AccountLedger.idOr eventId ("manual-sell-".toList ++ uuid)) TradeSide.sell.value
        normalized.text quantity price tradeDate current.name source now).mapError .ledger)
      recordFill config calendar event

/-- The new history of a correction, container by container. -/
def install (correction : LedgerCorrection D) (originalEventId : Text) : Method E D Unit := do
  Raising.change fun book => { book with events := book.events ++ [correction.replacement] }
  Raising.change fun book => { book with
    eventsById := (correction.replacement.eventId, correction.replacement) :: book.eventsById }
  Raising.change fun book => { book with corrections := book.corrections ++ [correction] }
  Raising.change fun book => { book with
    voidedEventIds := book.voidedEventIds ++ [originalEventId] }
  Raising.change fun book => { book with records := book.records ++ [.correction correction] }

/-- The `except` branch of `append_correction`. -/
def putBack (original : LedgerBook D) : Method E D Unit := do
  Raising.change fun book => { book with events := original.events }
  Raising.change fun book => { book with eventsById := original.eventsById }
  Raising.change fun book => { book with corrections := original.corrections }
  Raising.change fun book => { book with voidedEventIds := original.voidedEventIds }
  Raising.change fun book => { book with records := original.records }

def appendCorrection (originalEventId : Text) (replacement : FillEvent D)
    (correctionId : Option Text) (uuid : Text) (now : UtcDateTime) (today : D) :
    Method E D (LedgerReceipt D) := do
  let book ← Raising.read id
  match book.lookup originalEventId with
  | none => Raising.raise (.ledger .originalMissing)
  | some original =>
      Raising.check (originalEventId ∉ book.voidedEventIds) (.ledger .originalCorrected)
      Raising.check (book.lookup replacement.eventId = none) (.ledger .replacementExists)
      Raising.check (replacement.side = original.side ∧ replacement.symbol = original.symbol)
        (.ledger .replacementSideOrSymbol)
      Raising.check (replacement.tradeDate = original.tradeDate) (.ledger .replacementTradeDate)
      let correction ← Raising.lift ((LedgerCorrection.make
        (AccountLedger.idOr correctionId ("correction-".toList ++ uuid)) originalEventId
        replacement now).mapError .ledger)
      install correction originalEventId
      (do
        let receipt ← receiptFor config calendar replacement false
        let reported ← Raising.read fun book => book.snapshotLatest config calendar today
        let _ ← Raising.lift reported
        return receipt : Method E D (LedgerReceipt D)).onRaise (fun _ => true) (putBack book)

def call : LedgerOp D → Method E D (LedgerReceipt D)
  | .recordBuy name symbol quantity price tradeDate eventId uuid source now =>
      recordBuy config calendar name symbol quantity price tradeDate eventId uuid source now
  | .recordSell symbol quantity price tradeDate eventId uuid source now =>
      recordSell config calendar symbol quantity price tradeDate eventId uuid source now
  | .recordFill event => recordFill config calendar event
  | .appendCorrection originalEventId replacement correctionId uuid now today =>
      appendCorrection config calendar originalEventId replacement correctionId uuid now today

/-! ### A call that raises changes nothing -/

section

variable {config : LedgerConfig D} {calendar : D → Except E D} {book : LedgerBook D}

/-- A method that only reads: the containers stay as they are. -/
abbrev Reads {α : Type} (method : Method E D α) (book : LedgerBook D) (post : α → Prop) : Prop :=
  Raising.Ends method book (fun value after => post value ∧ after = book) fun _ after =>
    after = book

theorem reads_receiptFor (event : FillEvent D) (idempotent : Bool) :
    Reads (receiptFor config calendar event idempotent) book
      fun receipt => receipt.idempotent = idempotent := by
  apply Raising.ends_read_bind
  apply Raising.ends_lift_bind
  · intro snapshot _
    exact Raising.ends_pure ⟨rfl, rfl⟩
  · intro error _
    rfl

theorem reads_checkAvailable (symbol : Symbol) (quantity : ℤ) (tradeDate : D) :
    Reads (checkAvailable config calendar symbol quantity tradeDate) book fun _ => True := by
  apply Raising.ends_read_bind
  apply Raising.ends_lift_bind
  · intro snapshot _
    cases snapshot.position symbol with
    | none => exact Raising.ends_raise rfl
    | some current =>
        apply Raising.ends_check_bind
        · intro _
          exact Raising.ends_pure ⟨trivial, rfl⟩
        · intro _
          rfl
  · intro error _
    rfl

/-- How a call may end: what it raised or repeated has no effect. -/
abbrev Atomic (method : Method E D (LedgerReceipt D)) (book : LedgerBook D) : Prop :=
  Raising.Ends method book (fun receipt after => receipt.idempotent = true → after = book)
    fun _ after => after = book

omit [LinearOrder D] in
theorem Reads.bind_atomic {α : Type} {method : Method E D α} {post : α → Prop}
    {next : α → Method E D (LedgerReceipt D)} (h : Reads method book post)
    (hnext : ∀ value, post value → Atomic (next value) book) : Atomic (method >>= next) book := by
  apply Raising.Ends.bind h
  rintro value after ⟨hvalue, rfl⟩
  exact hnext value hvalue

omit [LinearOrder D] in
theorem reads_lift {α : Type} (result : Except (LedgerFault E) α) :
    Reads (Raising.lift result) book fun _ => True :=
  Raising.ends_lift (fun _ _ => ⟨trivial, rfl⟩) fun _ _ => rfl

omit [LinearOrder D] in
theorem atomic_check {condition : Prop} [Decidable condition] {error : LedgerFault E}
    {next : Unit → Method E D (LedgerReceipt D)} (h : condition → Atomic (next ()) book) :
    Atomic (Raising.check condition error >>= next) book :=
  Raising.ends_check_bind h fun _ => rfl

theorem atomic_append (event : FillEvent D) : Atomic (append config calendar event) book := by
  apply Raising.ends_read_bind
  cases book.lookup event.eventId with
  | some existing =>
      dsimp only
      by_cases hsame : AccountLedger.sameEvent existing event = true
      · rw [if_pos hsame]
        exact (reads_receiptFor existing true).imp (fun _ _ h _ => h.2) fun _ _ h => h
      · rw [if_neg hsame]
        exact Raising.ends_raise rfl
  | none =>
      apply Raising.ends_read_bind
      apply Raising.ends_check_bind
      · intro _
        apply Raising.ends_change_bind
        -- The receipt is read from the tentative history, which the handler takes back.
        have hreceipt : Raising.Ends ((receiptFor config calendar event false).onRaise
            (fun _ => true) (Raising.change fun tentative => { tentative with
              events := book.events })) { book with events := book.events ++ [event] }
            (fun receipt _ => receipt.idempotent = false) fun _ after => after = book := by
          apply Raising.Ends.onRaise (((reads_receiptFor event false)).imp
            (fun _ _ h => h.1) fun _ _ h => h)
          · intro _ after _ hafter
            rw [hafter]
            exact Raising.ends_change rfl
          · intro _ _ hother
            cases hother
        apply Raising.Ends.bind hreceipt
        intro receipt after hnew
        apply Raising.ends_change_bind
        apply Raising.ends_change_bind
        apply Raising.ends_pure
        intro hrepeated
        rw [hnew] at hrepeated
        cases hrepeated
      · intro _
        rfl

theorem atomic_recordFill (event : FillEvent D) :
    Atomic (recordFill config calendar event) book := by
  rw [recordFill]
  cases event.side with
  | buy =>
      apply (reads_lift _).bind_atomic
      intro _ _
      apply Raising.ends_check_bind
      · intro _
        exact atomic_append event
      · intro _
        rfl
  | sell =>
      apply (reads_checkAvailable event.symbol event.quantity event.tradeDate).bind_atomic
      intro _ _
      exact atomic_append event

theorem atomic_recordSell {symbol uuid source : Text} {quantity : ℤ} {price : ℚ} {tradeDate : D}
    {eventId : Option Text} {now : UtcDateTime} :
    Atomic (recordSell config calendar symbol quantity price tradeDate eventId uuid source now)
      book := by
  rw [recordSell]
  cases normalizeSymbol symbol with
  | none => exact Raising.ends_raise rfl
  | some normalized =>
      apply (reads_checkAvailable normalized quantity tradeDate).bind_atomic
      intro current _
      apply (reads_lift _).bind_atomic
      intro event _
      exact atomic_recordFill event

omit [LinearOrder D] in
/-- Whatever the containers are by then, all five are put back. -/
theorem ends_putBack (original after : LedgerBook D) :
    Raising.Ends (putBack original : Method E D Unit) after (fun _ restored => restored = original)
      fun _ _ => False := by
  apply Raising.ends_change_bind
  apply Raising.ends_change_bind
  apply Raising.ends_change_bind
  apply Raising.ends_change_bind
  apply Raising.ends_change
  rfl

theorem atomic_appendCorrection {originalEventId uuid : Text} {replacement : FillEvent D}
    {correctionId : Option Text} {now : UtcDateTime} {today : D} :
    Atomic (appendCorrection config calendar originalEventId replacement correctionId uuid now
      today) book := by
  apply Raising.ends_read_bind
  dsimp only [id]
  cases book.lookup originalEventId with
  | none => exact Raising.ends_raise rfl
  | some original =>
      dsimp only
      apply atomic_check
      intro _
      apply atomic_check
      intro _
      apply atomic_check
      intro _
      apply atomic_check
      intro _
      apply (reads_lift _).bind_atomic
      intro correction _
      have hinstall : Raising.Ends (install correction originalEventId : Method E D Unit) book
          (fun _ _ => True) fun _ after => after = book := by
        apply Raising.ends_change_bind
        apply Raising.ends_change_bind
        apply Raising.ends_change_bind
        apply Raising.ends_change_bind
        exact Raising.ends_change trivial
      apply Raising.Ends.bind hinstall
      intro _ installed _
      -- What the two snapshots raise goes through the handler; a receipt is a new one.
      have hchecked : Raising.Ends (do
          let receipt ← receiptFor config calendar replacement false
          let reported ← Raising.read fun book => book.snapshotLatest config calendar today
          let _ ← Raising.lift reported
          return receipt : Method E D (LedgerReceipt D)) installed
          (fun receipt after => receipt.idempotent = true → after = book) fun _ _ => True := by
        apply Raising.Ends.bind ((reads_receiptFor replacement false).imp (fun _ _ h => h)
          fun _ _ _ => trivial)
        rintro receipt after ⟨hnew, _⟩
        apply Raising.ends_read_bind
        apply Raising.ends_lift_bind
        · intro _ _
          apply Raising.ends_pure
          intro hrepeated
          rw [hnew] at hrepeated
          cases hrepeated
        · intro _ _
          trivial
      apply hchecked.onRaise
      · intro _ after _ _
        exact (ends_putBack book after).imp (fun _ _ hback => hback) fun _ _ => False.elim
      · intro _ _ hother
        cases hother

theorem atomic_call (op : LedgerOp D) : Atomic (call config calendar op) book := by
  cases op with
  | recordBuy name symbol quantity price tradeDate eventId uuid source now =>
      apply (reads_lift _).bind_atomic
      intro event _
      exact atomic_recordFill event
  | recordSell symbol quantity price tradeDate eventId uuid source now => exact atomic_recordSell
  | recordFill event => exact atomic_recordFill event
  | appendCorrection originalEventId replacement correctionId uuid now today =>
      exact atomic_appendCorrection

end

/-- Nothing that can be asked of the ledger has changed. -/
structure Unchanged (config : LedgerConfig D) (calendar : D → Except E D)
    (before after : LedgerBook D) : Prop where
  records : after.records = before.records
  events : after.events = before.events
  corrections : after.corrections = before.corrections
  index : ∀ eventId, after.lookup eventId = before.lookup eventId
  voided : after.voidedEventIds = before.voidedEventIds
  snapshots : ∀ date, after.snapshot config calendar date = before.snapshot config calendar date

theorem Unchanged.refl (config : LedgerConfig D) (calendar : D → Except E D)
    (book : LedgerBook D) : Unchanged config calendar book book :=
  ⟨rfl, rfl, rfl, fun _ => rfl, rfl, fun _ => rfl⟩

/-- Whatever the ledger holds and the calendar raises, a call that raises leaves everything as it
was, and so does one that repeats a fill. -/
theorem call_atomic (config : LedgerConfig D) (calendar : D → Except E D) (book : LedgerBook D)
    (op : LedgerOp D) :
    Raising.Ends (call config calendar op) book
      (fun receipt after => receipt.idempotent = true → Unchanged config calendar book after)
      fun _ after => Unchanged config calendar book after := by
  apply (atomic_call op).imp
  · intro receipt after hkept hrepeated
    rw [hkept hrepeated]
    exact .refl config calendar book
  · intro _ after hkept
    rw [hkept]
    exact .refl config calendar book

/-! ### The ledger with a calendar that never raises -/

def Indexed (book : LedgerBook D) : Prop :=
  ∀ eventId, book.lookup eventId = book.events.find? fun event => event.eventId = eventId

def ledger (config : LedgerConfig D) (book : LedgerBook D) : AccountLedger D :=
  ⟨config, book.events, book.voidedEventIds, book.records⟩

/-- The calendar of the rules. -/
def total (config : LedgerConfig D) (day : D) : Except E D := .ok (config.nextTradingDay day)

section

variable {config : LedgerConfig D} {book : LedgerBook D}

omit [LinearOrder D] in
theorem Indexed.insert (h : book.Indexed) {event : FillEvent D}
    {corrections : List (LedgerCorrection D)} {voided : List Text} {records : List (LedgerRecord D)}
    (hnew : book.lookup event.eventId = none) :
    Indexed ⟨book.events ++ [event], (event.eventId, event) :: book.eventsById, corrections, voided,
      records⟩ := by
  intro eventId
  have hold := h eventId
  rw [lookup] at hold
  rw [lookup, List.lookup_cons, List.find?_append, ← hold]
  by_cases hid : eventId = event.eventId
  · subst hid
    rw [lookup] at hnew
    simp [hnew]
  · have hother : ¬ event.eventId = eventId := fun heq => hid heq.symm
    simp [beq_eq_false_iff_ne.mpr hid, hother]

theorem replayRound_total (state : ReplayState D) (event : FillEvent D) :
    config.replayRound (total config) state event =
      ((config.replayStep state event).mapError .ledger : Except (LedgerFault E) _) := by
  unfold LedgerConfig.replayRound LedgerConfig.replayStep
  cases config.feeSchedule.calculate event.side event.symbol event.notional with
  | error error => rfl
  | ok fees =>
      cases event.side with
      | buy =>
          dsimp only [total]
          by_cases hcash : state.cash < config.outlay event
          · rw [if_pos hcash, LedgerConfig.applyBuy, if_pos hcash]
            rfl
          · rw [if_neg hcash]
            rfl
      | sell => rfl

theorem foldlM_mapError {σ α ε ε' : Type} {step : σ → α → Except ε σ} {step' : σ → α → Except ε' σ}
    {raised : ε → ε'} (hstep : ∀ state item, step' state item = (step state item).mapError raised)
    (items : List α) (state : σ) :
    items.foldlM step' state = (items.foldlM step state).mapError raised := by
  induction items generalizing state with
  | nil => rfl
  | cons item rest ih =>
      rw [List.foldlM_cons, List.foldlM_cons, hstep]
      cases step state item with
      | error error => rfl
      | ok next => exact ih next

theorem snapshot_total (date : D) :
    book.snapshot config (total config) date =
      (((book.ledger config).snapshot date).mapError .ledger :
        Except (LedgerFault E) (AccountSnapshot D)) := by
  have hreplay : (book.eventsUpTo date).foldlM (config.replayRound (total config))
      config.startState = (((book.eventsUpTo date).foldlM config.replayStep
        config.startState).mapError .ledger : Except (LedgerFault E) _) :=
    foldlM_mapError replayRound_total (book.eventsUpTo date) config.startState
  rw [snapshot, hreplay]
  change _ = Except.mapError _ (Except.map _ (config.replay (book.eventsUpTo date)))
  rw [LedgerConfig.replay]
  cases (book.eventsUpTo date).foldlM config.replayStep config.startState <;> rfl

/-- The method does on the containers what the ledger's own definition says. -/
abbrev Agrees (config : LedgerConfig D) (method : Method E D (LedgerReceipt D))
    (book : LedgerBook D) (expected : Except LedgerError (LedgerReceipt D × AccountLedger D)) :
    Prop :=
  Raising.Ends method book
    (fun receipt after => expected = .ok (receipt, after.ledger config) ∧ after.Indexed)
    fun fault _ => ∃ error, fault = .ledger error ∧ expected = .error error

theorem agrees_receiptFor (event : FillEvent D) (idempotent : Bool) :
    Raising.Ends (receiptFor config (total config) event idempotent : Method E D _) book
      (fun receipt after => after = book ∧
        (book.ledger config).receiptFor event idempotent = .ok receipt)
      fun fault _ => ∃ error, fault = .ledger error ∧
        (book.ledger config).receiptFor event idempotent = .error error := by
  apply Raising.ends_read_bind
  rw [snapshot_total]
  cases hsnapshot : (book.ledger config).snapshot event.tradeDate with
  | error error => exact ⟨error, rfl, by rw [AccountLedger.receiptFor, hsnapshot]; rfl⟩
  | ok snapshot => exact ⟨rfl, by rw [AccountLedger.receiptFor, hsnapshot]; rfl⟩

theorem agrees_append (h : book.Indexed) (event : FillEvent D) :
    Agrees config (append config (total config) event : Method E D _) book
      ((book.ledger config).append event) := by
  have hknown : (book.ledger config).eventById event.eventId = book.lookup event.eventId :=
    (h event.eventId).symm
  apply Raising.ends_read_bind
  rw [AccountLedger.append, hknown]
  cases hfound : book.lookup event.eventId with
  | some existing =>
      dsimp only
      by_cases hsame : AccountLedger.sameEvent existing event = true
      · rw [if_pos hsame, if_pos hsame]
        apply (agrees_receiptFor existing true).imp
        · rintro receipt after ⟨rfl, hreceipt⟩
          rw [hreceipt]
          exact ⟨rfl, h⟩
        · rintro _ _ ⟨error, rfl, hreceipt⟩
          rw [hreceipt]
          exact ⟨error, rfl, rfl⟩
      · rw [if_neg hsame, if_neg hsame]
        exact Raising.ends_raise ⟨_, rfl, rfl⟩
  | none =>
      dsimp only
      apply Raising.ends_read_bind
      by_cases hlate : ∃ item ∈ book.events, event.tradeDate < item.tradeDate
      · apply Raising.ends_check_bind
        · intro hearly
          exact absurd hlate hearly
        · intro _
          refine ⟨_, rfl, if_pos hlate⟩
      · apply Raising.ends_check_bind _ fun hlate' => absurd hlate hlate'
        intro _
        apply Raising.ends_change_bind
        -- The tentative history has no record of the fill yet, which no snapshot reads.
        have hreceipt : Raising.Ends ((receiptFor config (total config) event false :
            Method E D _).onRaise (fun _ => true) (Raising.change fun tentative => { tentative with
              events := book.events })) { book with events := book.events ++ [event] }
            (fun receipt after => after = { book with events := book.events ++ [event] } ∧
              ((book.ledger config).withEvent event).receiptFor event false = .ok receipt)
            fun fault _ => ∃ error, fault = .ledger error ∧
              ((book.ledger config).withEvent event).receiptFor event false = .error error := by
          apply (agrees_receiptFor event false).onRaise
          · intro _ _ _ hraised
            exact Raising.ends_change hraised
          · intro _ _ hother
            cases hother
        have hearly : ¬ ∃ item ∈ (book.ledger config).events, event.tradeDate < item.tradeDate :=
          hlate
        rw [if_neg hearly]
        apply Raising.Ends.bind (hreceipt.imp (fun _ _ hdone => hdone) ?_)
        · rintro receipt after ⟨rfl, hdone⟩
          apply Raising.ends_change_bind
          apply Raising.ends_change_bind
          apply Raising.ends_pure
          rw [hdone]
          exact ⟨rfl, h.insert hfound⟩
        · rintro _ _ ⟨error, rfl, hraised⟩
          rw [hraised]
          exact ⟨error, rfl, rfl⟩

theorem agrees_checkAvailable (symbol : Symbol) (quantity : ℤ) (tradeDate : D) :
    Raising.Ends (checkAvailable config (total config) symbol quantity tradeDate : Method E D _)
      book
      (fun current after => after = book ∧
        (book.ledger config).checkAvailable symbol quantity tradeDate = .ok current)
      fun fault _ => ∃ error, fault = .ledger error ∧
        (book.ledger config).checkAvailable symbol quantity tradeDate = .error error := by
  apply Raising.ends_read_bind
  rw [snapshot_total, AccountLedger.checkAvailable]
  cases (book.ledger config).snapshot tradeDate with
  | error error => exact ⟨error, rfl, rfl⟩
  | ok snapshot =>
      apply Raising.ends_lift_bind _ fun _ hraised => by cases hraised
      rintro _ ⟨⟩
      dsimp only
      cases snapshot.position symbol with
      | none => exact ⟨_, rfl, rfl⟩
      | some current =>
          dsimp only
          apply Raising.ends_check_bind
          · intro henough
            rw [if_neg henough]
            exact ⟨rfl, rfl⟩
          · intro hlacking
            rw [if_pos (not_not.mp hlacking)]
            exact ⟨_, rfl, rfl⟩

theorem agrees_recordFill (h : book.Indexed) (event : FillEvent D) :
    Agrees config (recordFill config (total config) event : Method E D _) book
      ((book.ledger config).recordFill event) := by
  rw [recordFill, AccountLedger.recordFill]
  cases event.side with
  | buy =>
      dsimp only
      have hname : (AccountLedger.empty config).validateName event.symbol event.name =
          (book.ledger config).validateName event.symbol event.name := rfl
      rw [validateName, hname]
      cases (book.ledger config).validateName event.symbol event.name with
      | error error => exact ⟨error, rfl, rfl⟩
      | ok named =>
          apply Raising.ends_lift_bind _ fun _ hraised => by cases hraised
          intro _ _
          dsimp only
          apply Raising.ends_check_bind
          · intro hlots
            have hlots' : ¬ event.quantity % (book.ledger config).config.lotSize ≠ 0 :=
              not_not.mpr hlots
            rw [if_neg hlots']
            exact agrees_append h event
          · intro hodd
            exact ⟨_, rfl, if_pos hodd⟩
  | sell =>
      dsimp only
      apply Raising.Ends.bind ((agrees_checkAvailable event.symbol event.quantity
        event.tradeDate).imp (fun _ _ hdone => hdone) ?_)
      · rintro current after ⟨rfl, hdone⟩
        rw [hdone]
        exact agrees_append h event
      · rintro _ _ ⟨error, rfl, hraised⟩
        rw [hraised]
        exact ⟨error, rfl, rfl⟩

theorem agrees_recordBuy (h : book.Indexed) {name symbol uuid source : Text} {quantity : ℤ}
    {price : ℚ} {tradeDate : D} {eventId : Option Text} {now : UtcDateTime} :
    Agrees config (recordBuy config (total config) name symbol quantity price tradeDate eventId uuid
      source now : Method E D _) book
      ((book.ledger config).recordBuy name symbol quantity price tradeDate eventId uuid source now)
    := by
  rw [recordBuy, AccountLedger.recordBuy]
  cases FillEvent.make (AccountLedger.idOr eventId ("manual-buy-".toList ++ uuid))
      TradeSide.buy.value symbol quantity price tradeDate name source now with
  | error error => exact ⟨error, rfl, rfl⟩
  | ok event => exact agrees_recordFill h event

theorem agrees_recordSell (h : book.Indexed) {symbol uuid source : Text} {quantity : ℤ}
    {price : ℚ} {tradeDate : D} {eventId : Option Text} {now : UtcDateTime} :
    Agrees config (recordSell config (total config) symbol quantity price tradeDate eventId uuid
      source now : Method E D _) book
      ((book.ledger config).recordSell symbol quantity price tradeDate eventId uuid source now)
    := by
  rw [recordSell, AccountLedger.recordSell]
  cases normalizeSymbol symbol with
  | none => exact ⟨_, rfl, rfl⟩
  | some normalized =>
      apply Raising.Ends.bind ((agrees_checkAvailable normalized quantity tradeDate).imp
        (fun _ _ hdone => hdone) ?_)
      · rintro current after ⟨rfl, hdone⟩
        dsimp only
        rw [hdone]
        dsimp only
        cases FillEvent.make (AccountLedger.idOr eventId ("manual-sell-".toList ++ uuid))
            TradeSide.sell.value normalized.text quantity price tradeDate current.name source
            now with
        | error error => exact ⟨error, rfl, rfl⟩
        | ok event => exact agrees_recordFill h event
      · rintro _ _ ⟨error, rfl, hraised⟩
        dsimp only
        rw [hraised]
        exact ⟨error, rfl, rfl⟩

/-- The two snapshots that check a correction. -/
theorem agrees_checked (h : book.Indexed) (replacement : FillEvent D) (today : D) :
    Agrees config (do
      let receipt ← receiptFor config (total config) replacement false
      let reported ← Raising.read fun book => book.snapshotLatest config (total config) today
      let _ ← Raising.lift reported
      return receipt : Method E D (LedgerReceipt D)) book
      (match (book.ledger config).receiptFor replacement false with
        | .error error => .error error
        | .ok receipt =>
          match (book.ledger config).snapshotLatest today with
          | .error error => .error error
          | .ok _ => .ok (receipt, book.ledger config)) := by
  have hlatest : book.snapshotLatest config (total config) today =
      (((book.ledger config).snapshotLatest today).mapError .ledger :
        Except (LedgerFault E) (AccountSnapshot D)) := snapshot_total _
  apply Raising.Ends.bind ((agrees_receiptFor replacement false).imp (fun _ _ hdone => hdone) ?_)
  · rintro receipt after ⟨rfl, hdone⟩
    apply Raising.ends_read_bind
    rw [hlatest, hdone]
    dsimp only
    cases (after.ledger config).snapshotLatest today with
    | error error => exact ⟨error, rfl, rfl⟩
    | ok snapshot => exact ⟨rfl, h⟩
  · rintro _ _ ⟨error, rfl, hraised⟩
    rw [hraised]
    exact ⟨error, rfl, rfl⟩

theorem agrees_appendCorrection (h : book.Indexed) {originalEventId uuid : Text}
    {replacement : FillEvent D} {correctionId : Option Text} {now : UtcDateTime} {today : D} :
    Agrees config (appendCorrection config (total config) originalEventId replacement correctionId
      uuid now today : Method E D _) book
      ((book.ledger config).appendCorrection originalEventId replacement correctionId uuid now
        today) := by
  have hknown : ∀ eventId, (book.ledger config).eventById eventId = book.lookup eventId :=
    fun eventId => (h eventId).symm
  apply Raising.ends_read_bind
  rw [AccountLedger.appendCorrection, hknown, hknown]
  dsimp only [id]
  cases book.lookup originalEventId with
  | none => exact ⟨_, rfl, rfl⟩
  | some original =>
      dsimp only
      apply Raising.ends_check_bind
      swap
      · intro hvoided
        refine ⟨.originalCorrected, rfl, if_pos (not_not.mp hvoided)⟩
      intro hkept
      have hkept' : originalEventId ∉ (book.ledger config).voidedEventIds := hkept
      rw [if_neg hkept']
      apply Raising.ends_check_bind
      swap
      · intro htaken
        exact ⟨.replacementExists, rfl, if_pos (Option.isSome_iff_ne_none.mpr htaken)⟩
      intro hfresh
      rw [hfresh, if_neg (by simp)]
      apply Raising.ends_check_bind
      swap
      · intro hother
        exact ⟨.replacementSideOrSymbol, rfl, if_pos (not_and_or.mp hother)⟩
      intro hsame
      rw [if_neg (not_or.mpr ⟨not_not.mpr hsame.1, not_not.mpr hsame.2⟩)]
      apply Raising.ends_check_bind
      swap
      · intro hother
        exact ⟨.replacementTradeDate, rfl, if_pos hother⟩
      intro hdate
      rw [if_neg (not_not.mpr hdate)]
      cases hmade : LedgerCorrection.make
          (AccountLedger.idOr correctionId ("correction-".toList ++ uuid)) originalEventId
          replacement now with
      | error error => exact ⟨error, rfl, rfl⟩
      | ok correction =>
          obtain ⟨rfl, _⟩ := AccountLedger.correction_make_ok hmade
          dsimp only
          have hinstall : Raising.Ends (install correction originalEventId : Method E D Unit) book
              (fun _ after => after.Indexed ∧ after.ledger config =
                (book.ledger config).corrected correction originalEventId) fun _ _ => False := by
            apply Raising.ends_change_bind
            apply Raising.ends_change_bind
            apply Raising.ends_change_bind
            apply Raising.ends_change_bind
            exact Raising.ends_change ⟨h.insert hfresh, rfl⟩
          apply Raising.ends_lift_bind _ fun _ hraised => by cases hraised
          rintro _ ⟨⟩
          apply Raising.Ends.bind (hinstall.imp (fun _ _ hdone => hdone) fun _ _ => False.elim)
          rintro _ installed ⟨hindexed, hledger⟩
          rw [← hledger]
          apply (agrees_checked hindexed correction.replacement today).onRaise
          · intro _ after _ hraised
            exact (ends_putBack book after).imp (fun _ _ _ => hraised) fun _ _ => False.elim
          · intro _ _ hother
            cases hother

/-- While the calendar answers, the containers are the ledger of the definition, call by call. -/
theorem call_agrees (h : book.Indexed) (op : LedgerOp D) :
    Agrees config (call config (total config) op : Method E D _) book
      ((book.ledger config).call op) := by
  cases op with
  | recordBuy name symbol quantity price tradeDate eventId uuid source now =>
      exact agrees_recordBuy h
  | recordSell symbol quantity price tradeDate eventId uuid source now => exact agrees_recordSell h
  | recordFill event => exact agrees_recordFill h event
  | appendCorrection originalEventId replacement correctionId uuid now today =>
      exact agrees_appendCorrection h

end

/-! ### Runs -/

def empty : LedgerBook D := ⟨[], [], [], [], []⟩

/-- What a call leaves, whether or not it raises. -/
def step (config : LedgerConfig D) (calendar : D → Except E D) (book : LedgerBook D)
    (op : LedgerOp D) : LedgerBook D :=
  (call config calendar op book).2

theorem step_agrees {config : LedgerConfig D} {book : LedgerBook D} (h : book.Indexed)
    (op : LedgerOp D) :
    (book.step config (total config : D → Except E D) op).Indexed ∧
      (book.step config (total config : D → Except E D) op).ledger config =
        (book.ledger config).step op := by
  have hagrees : Agrees config (call config (total config) op : Method E D _) book _ :=
    call_agrees h op
  have hatomic : Atomic (call config (total config) op : Method E D _) book := atomic_call op
  rw [step]
  cases hrun : (call config (total config) op : Method E D _) book with
  | mk result after =>
      cases result with
      | ok receipt =>
          obtain ⟨hcall, hindexed⟩ := hagrees.of_ok hrun
          exact ⟨hindexed, by rw [AccountLedger.step, hcall]⟩
      | error fault =>
          obtain ⟨error, _, hcall⟩ := hagrees.of_error hrun
          obtain rfl : after = book := hatomic.of_error hrun
          exact ⟨h, by rw [AccountLedger.step, hcall]⟩

theorem foldl_agrees {config : LedgerConfig D} (ops : List (LedgerOp D)) {book : LedgerBook D}
    (h : book.Indexed) :
    (ops.foldl (step config (total config : D → Except E D)) book).Indexed ∧
      (ops.foldl (step config (total config : D → Except E D)) book).ledger config =
        ops.foldl AccountLedger.step (book.ledger config) := by
  induction ops generalizing book with
  | nil => exact ⟨h, rfl⟩
  | cons op rest ih =>
      obtain ⟨hindexed, hledger⟩ := @step_agrees D E _ config book h op
      rw [List.foldl_cons, List.foldl_cons, ← hledger]
      exact ih hindexed

/-- After any calls, and while the calendar answers, the containers hold the ledger of the
definition, and the next call does what the definition says. -/
theorem run_refines (config : LedgerConfig D) (ops : List (LedgerOp D)) (op : LedgerOp D) :
    let book := ops.foldl (step config (total config : D → Except E D)) empty
    let ledger := ops.foldl AccountLedger.step (AccountLedger.empty config)
    book.Indexed ∧ book.ledger config = ledger ∧
      Agrees config (call config (total config) op : Method E D _) book (ledger.call op) := by
  obtain ⟨hindexed, hledger⟩ := @foldl_agrees D E _ config ops empty fun _ => rfl
  exact ⟨hindexed, hledger, hledger ▸ call_agrees hindexed op⟩

end LedgerBook

end QuantWorkbench.Account
