import Mathlib.Data.List.Sort
import QuantWorkbench.Account.Contracts
import QuantWorkbench.Lib.Fifo

/-!
The account ledger of `account/ledger.py`: an append-only list of fills whose
snapshot is always recomputed by replaying the fills in force. A method that
raises is an error and leaves the ledger as it was; one that returns gives the
receipt and the ledger after it.

The lots of all symbols stand in one list in purchase order, so the lots of a
symbol are the sublist with that symbol. The index of events by id is the list
of events itself, searched by id.
-/

namespace QuantWorkbench.Account

open Lib Data

variable {D : Type} [LinearOrder D]

structure LedgerConfig (D : Type) where
  initialCash : ℚ
  feeSchedule : FeeSchedule
  knownInstruments : List (Symbol × Text)
  nextTradingDay : D → D
  lotSize : ℕ
  initialCash_isMoney : IsMoney initialCash
  initialCash_nonneg : 0 ≤ initialCash
  lotSize_pos : 0 < lotSize
  knownNames_nonempty : ∀ entry ∈ knownInstruments, entry.2 ≠ []

structure AccountLedger (D : Type) where
  config : LedgerConfig D
  events : List (FillEvent D)
  voidedEventIds : List Text
  records : List (LedgerRecord D)

def AccountLedger.empty (config : LedgerConfig D) : AccountLedger D :=
  ⟨config, [], [], []⟩

/-- The mapping of symbols to names: a later entry of a symbol replaces it. -/
def instrumentNames (entries : List (Symbol × Text)) : List (Symbol × Text) :=
  entries.foldl
    (fun names entry =>
      (entry.1, Text.strip entry.2) :: names.filter fun other => other.1 ≠ entry.1)
    []

def AccountLedger.create (initialCash : ℚ) (feeSchedule : FeeSchedule)
    (knownInstruments : List (Symbol × Text)) (nextTradingDay : D → D)
    (lotSize : ℕ) : Except LedgerError (AccountLedger D) :=
  if hcash : money initialCash < 0 then .error .initialCashNegative
  else if hlot : lotSize = 0 then .error .lotSizeNotPositive
  else if hnames : ∃ entry ∈ instrumentNames knownInstruments, entry.2 = [] then
    .error .knownNameEmpty
  else .ok (.empty {
    initialCash := money initialCash
    feeSchedule := feeSchedule
    knownInstruments := instrumentNames knownInstruments
    nextTradingDay := nextTradingDay
    lotSize := lotSize
    initialCash_isMoney := money_isMoney _
    initialCash_nonneg := not_lt.mp hcash
    lotSize_pos := Nat.pos_of_ne_zero hlot
    knownNames_nonempty := fun entry hentry hempty => hnames ⟨entry, hentry, hempty⟩ })

omit [LinearOrder D] in
/-- A constructed ledger is empty and starts from the rounded initial cash. -/
theorem AccountLedger.create_ok {initialCash : ℚ} {feeSchedule : FeeSchedule}
    {knownInstruments : List (Symbol × Text)} {nextTradingDay : D → D} {lotSize : ℕ}
    {ledger : AccountLedger D}
    (h : create initialCash feeSchedule knownInstruments nextTradingDay lotSize = .ok ledger) :
    ledger = .empty ledger.config ∧ ledger.config.initialCash = money initialCash ∧
      ledger.config.feeSchedule = feeSchedule := by
  unfold create at h
  split at h
  · cases h
  split at h
  · cases h
  split at h
  · cases h
  cases h
  exact ⟨rfl, rfl, rfl⟩

/-! ### Replay -/

def FillEvent.sortKey (event : FillEvent D) : D ×ₗ UtcDateTime ×ₗ Text :=
  toLex (event.tradeDate, toLex (event.recordedAt, event.eventId))

def inReplayOrder (a b : FillEvent D) : Prop := a.sortKey ≤ b.sortKey

instance : DecidableRel (inReplayOrder (D := D)) :=
  fun a b => inferInstanceAs (Decidable (a.sortKey ≤ b.sortKey))

structure Lot (D : Type) where
  symbol : Symbol
  name : Text
  quantity : ℤ
  remainingQuantity : ℤ
  remainingCost : ℚ
  availableFrom : D

/-- The cost that leaves the lot with `take` shares: all of it with the last
share, and the rounded proportional part before. -/
def Lot.allocation (lot : Lot D) (take : ℤ) : ℚ :=
  if take = lot.remainingQuantity then lot.remainingCost
  else money (lot.remainingCost * take / lot.remainingQuantity)

def Lot.reduce (lot : Lot D) (take : ℤ) : Lot D :=
  { lot with
    remainingQuantity := lot.remainingQuantity - take
    remainingCost := money (lot.remainingCost - lot.allocation take) }

structure ReplayState (D : Type) where
  cash : ℚ
  realizedPnl : ℚ
  lots : List (Lot D)
  names : List (Symbol × Text)

def sellLots (date : D) (symbol : Symbol) :
    List (Lot D) → ℤ → ℚ → List (Lot D) × ℤ × ℚ
  | [], remainingToSell, costBasis => ([], remainingToSell, costBasis)
  | lot :: rest, remainingToSell, costBasis =>
      let take := min lot.remainingQuantity remainingToSell
      if lot.symbol ≠ symbol ∨ date < lot.availableFrom ∨ remainingToSell ≤ 0 ∨ take ≤ 0 then
        let (rest', remaining', basis') := sellLots date symbol rest remainingToSell costBasis
        (lot :: rest', remaining', basis')
      else
        let (rest', remaining', basis') := sellLots date symbol rest
          (remainingToSell - take) (money (costBasis + lot.allocation take))
        (lot.reduce take :: rest', remaining', basis')

namespace LedgerConfig

variable (config : LedgerConfig D)

def feesOf (event : FillEvent D) : FeeBreakdown :=
  config.feeSchedule.fees event.side event.symbol event.notional

/-- What a buy costs, fees included. -/
def outlay (event : FillEvent D) : ℚ :=
  money (event.notional + (config.feesOf event).total)

/-- What a sale brings in, fees deducted. -/
def proceeds (event : FillEvent D) : ℚ :=
  money (event.notional - (config.feesOf event).total)

def startState : ReplayState D := ⟨config.initialCash, 0, [], []⟩

def applyBuy (state : ReplayState D) (event : FillEvent D) :
    Except LedgerError (ReplayState D) :=
  if state.cash < config.outlay event then .error .insufficientCash
  else .ok {
    cash := money (state.cash - config.outlay event)
    realizedPnl := state.realizedPnl
    lots := state.lots ++ [{
      symbol := event.symbol
      name := event.name
      quantity := event.quantity
      remainingQuantity := event.quantity
      remainingCost := config.outlay event
      availableFrom := config.nextTradingDay event.tradeDate }]
    names :=
      if event.name = [] then
        (event.symbol, (state.names.lookup event.symbol).getD []) :: state.names
      else (event.symbol, event.name) :: state.names }

def applySell (state : ReplayState D) (event : FillEvent D) :
    Except LedgerError (ReplayState D) :=
  let sold := sellLots event.tradeDate event.symbol state.lots event.quantity 0
  if sold.2.1 ≠ 0 then .error .insufficientAvailable
  else .ok {
    cash := money (state.cash + config.proceeds event)
    realizedPnl := money (state.realizedPnl + config.proceeds event - sold.2.2)
    lots := sold.1
    names := state.names }

/-- One round of the replay loop of `snapshot`. -/
def replayStep (state : ReplayState D) (event : FillEvent D) :
    Except LedgerError (ReplayState D) :=
  match config.feeSchedule.calculate event.side event.symbol event.notional with
  | .error error => .error error
  | .ok _ =>
    match event.side with
    | .buy => config.applyBuy state event
    | .sell => config.applySell state event

def replay (events : List (FillEvent D)) : Except LedgerError (ReplayState D) :=
  events.foldlM config.replayStep config.startState

end LedgerConfig

/-! ### The reported account -/

def sharesWhere (select : Lot D → Bool) (lots : List (Lot D)) : ℤ :=
  Fifo.eligibleTotal select (·.remainingQuantity) lots

def costOf (lots : List (Lot D)) : ℚ :=
  (lots.map (·.remainingCost)).sum

def ReplayState.symbols (state : ReplayState D) : List Symbol :=
  (state.lots.map (·.symbol)).dedup.insertionSort fun a b => a.text ≤ b.text

def ReplayState.positionOf (state : ReplayState D) (asOf : D) (symbol : Symbol) :
    PositionSnapshot :=
  let total := sharesWhere (fun lot => lot.symbol = symbol) state.lots
  let available :=
    sharesWhere (fun lot => lot.symbol = symbol ∧ lot.availableFrom ≤ asOf) state.lots
  let cost := money (costOf (state.lots.filter fun lot => lot.symbol = symbol))
  { symbol := symbol
    name := (state.names.lookup symbol).getD []
    totalQuantity := total
    availableQuantity := available
    frozenQuantity := total - available
    averageCost := if total ≠ 0 then Rounding.quantizeHalfEven priceScale (cost / total) else 0 }

def ReplayState.report (state : ReplayState D) (asOf : D) : AccountSnapshot D where
  asOf := asOf
  cash := state.cash
  realizedPnl := state.realizedPnl
  positions := state.symbols.map (state.positionOf asOf)

structure LedgerReceipt (D : Type) where
  event : FillEvent D
  cashAfter : ℚ
  position : PositionSnapshot
  realizedPnl : ℚ
  idempotent : Bool
  deriving DecidableEq

namespace AccountLedger

variable (ledger : AccountLedger D)

def eventById (eventId : Text) : Option (FillEvent D) :=
  ledger.events.find? fun event => event.eventId = eventId

def effectiveEvents : List (FillEvent D) :=
  (ledger.events.filter fun event => event.eventId ∉ ledger.voidedEventIds).insertionSort
    inReplayOrder

/-- The fills in force that `snapshot` replays for a date. -/
def eventsUpTo (date : D) : List (FillEvent D) :=
  ledger.effectiveEvents.filter fun event => event.tradeDate ≤ date

def replayUpTo (date : D) : Except LedgerError (ReplayState D) :=
  ledger.config.replay (ledger.eventsUpTo date)

def snapshot (date : D) : Except LedgerError (AccountSnapshot D) :=
  (ledger.replayUpTo date).map fun state => state.report date

/-- `snapshot()` without a date: as of the fill recorded last, or today. -/
def snapshotLatest (today : D) : Except LedgerError (AccountSnapshot D) :=
  ledger.snapshot ((ledger.events.getLast?.map (·.tradeDate)).getD today)

def receiptFor (event : FillEvent D) (idempotent : Bool) :
    Except LedgerError (LedgerReceipt D) :=
  (ledger.snapshot event.tradeDate).map fun snapshot => {
    event := event
    cashAfter := snapshot.cash
    position := (snapshot.position event.symbol).getD {
      symbol := event.symbol
      name := event.name
      totalQuantity := 0
      availableQuantity := 0
      frozenQuantity := 0
      averageCost := 0 }
    realizedPnl := snapshot.realizedPnl
    idempotent := idempotent }

/-! ### Recording -/

/-- `_same_event`: everything but the id and the time of recording. -/
def sameEvent (left right : FillEvent D) : Bool :=
  left.side = right.side ∧ left.symbol = right.symbol ∧ left.quantity = right.quantity ∧
    left.priceTicks = right.priceTicks ∧ left.tradeDate = right.tradeDate ∧
    left.name = right.name ∧ left.source = right.source

def validateName (symbol : Symbol) (name : Text) : Except LedgerError Unit :=
  if Text.strip name = [] then .error .nameRequired
  else
    match ledger.config.knownInstruments.lookup symbol with
    | none => .ok ()
    | some expected => if expected ≠ Text.strip name then .error .nameMismatch else .ok ()

/-- The ledger with the fill added, before it is known to replay. -/
def withEvent (event : FillEvent D) : AccountLedger D :=
  { ledger with events := ledger.events ++ [event], records := ledger.records ++ [.fill event] }

def append (event : FillEvent D) :
    Except LedgerError (LedgerReceipt D × AccountLedger D) :=
  match ledger.eventById event.eventId with
  | some existing =>
      if sameEvent existing event then
        (ledger.receiptFor existing true).map fun receipt => (receipt, ledger)
      else .error .eventIdReused
  | none =>
      if ∃ item ∈ ledger.events, event.tradeDate < item.tradeDate then
        .error .tradeDateBeforeLatest
      else
        ((ledger.withEvent event).receiptFor event false).map fun receipt =>
          (receipt, ledger.withEvent event)

/-- The check of `record_sell` and `record_fill` that enough can be sold. -/
def checkAvailable (symbol : Symbol) (quantity : ℤ) (tradeDate : D) :
    Except LedgerError PositionSnapshot :=
  match ledger.snapshot tradeDate with
  | .error error => .error error
  | .ok snapshot =>
    match snapshot.position symbol with
    | none => .error .insufficientAvailable
    | some current =>
        if current.availableQuantity < quantity then .error .insufficientAvailable
        else .ok current

def recordFill (event : FillEvent D) :
    Except LedgerError (LedgerReceipt D × AccountLedger D) :=
  match event.side with
  | .buy =>
    match ledger.validateName event.symbol event.name with
    | .error error => .error error
    | .ok () =>
        if event.quantity % ledger.config.lotSize ≠ 0 then
          .error (.notLotMultiple ledger.config.lotSize)
        else ledger.append event
  | .sell =>
    match ledger.checkAvailable event.symbol event.quantity event.tradeDate with
    | .error error => .error error
    | .ok _ => ledger.append event

/-- `event_id or f"manual-buy-{uuid4().hex}"`: a missing or empty id is replaced. -/
def idOr (eventId : Option Text) (fresh : Text) : Text :=
  match eventId with
  | some (c :: rest) => c :: rest
  | _ => fresh

def recordBuy (name symbol : Text) (quantity : ℤ) (price : ℚ) (tradeDate : D)
    (eventId : Option Text) (uuid source : Text) (now : UtcDateTime) :
    Except LedgerError (LedgerReceipt D × AccountLedger D) :=
  match FillEvent.make (idOr eventId ("manual-buy-".toList ++ uuid)) TradeSide.buy.value
      symbol quantity price tradeDate name source now with
  | .error error => .error error
  | .ok event => ledger.recordFill event

def recordSell (symbol : Text) (quantity : ℤ) (price : ℚ) (tradeDate : D)
    (eventId : Option Text) (uuid source : Text) (now : UtcDateTime) :
    Except LedgerError (LedgerReceipt D × AccountLedger D) :=
  match normalizeSymbol symbol with
  | none => .error .invalidSymbol
  | some normalized =>
    match ledger.checkAvailable normalized quantity tradeDate with
    | .error error => .error error
    | .ok current =>
      match FillEvent.make (idOr eventId ("manual-sell-".toList ++ uuid)) TradeSide.sell.value
          normalized.text quantity price tradeDate current.name source now with
      | .error error => .error error
      | .ok event => ledger.recordFill event

/-- The ledger with the correction in place, before it is known to replay. -/
def corrected (correction : LedgerCorrection D) (originalEventId : Text) :
    AccountLedger D :=
  { ledger with
    events := ledger.events ++ [correction.replacement]
    voidedEventIds := ledger.voidedEventIds ++ [originalEventId]
    records := ledger.records ++ [.correction correction] }

/-- `append_correction`. The candidate ledger is checked by the snapshot of the
replacement's receipt and by `snapshot()`, whose date is again the replacement's
because the replacement is the event recorded last. -/
def appendCorrection (originalEventId : Text) (replacement : FillEvent D)
    (correctionId : Option Text) (uuid : Text) (now : UtcDateTime) (today : D) :
    Except LedgerError (LedgerReceipt D × AccountLedger D) :=
  match ledger.eventById originalEventId with
  | none => .error .originalMissing
  | some original =>
    if originalEventId ∈ ledger.voidedEventIds then .error .originalCorrected
    else if (ledger.eventById replacement.eventId).isSome then .error .replacementExists
    else if replacement.side ≠ original.side ∨ replacement.symbol ≠ original.symbol then
      .error .replacementSideOrSymbol
    else if replacement.tradeDate ≠ original.tradeDate then .error .replacementTradeDate
    else
      match LedgerCorrection.make (idOr correctionId ("correction-".toList ++ uuid))
          originalEventId replacement now with
      | .error error => .error error
      | .ok correction =>
        let candidate := ledger.corrected correction originalEventId
        match candidate.receiptFor replacement false with
        | .error error => .error error
        | .ok receipt =>
          match candidate.snapshotLatest today with
          | .error error => .error error
          | .ok _ => .ok (receipt, candidate)

/-- `from_records`: replay verified records in their log order. -/
def fromRecords (config : LedgerConfig D) (records : List (LedgerRecord D))
    (now : UtcDateTime) (today : D) : Except LedgerError (AccountLedger D) :=
  records.foldlM (fun ledger record =>
    match record with
    | .fill event => (ledger.append event).map (·.2)
    | .correction correction =>
        (ledger.appendCorrection correction.originalEventId correction.replacement
          (some correction.correctionId) [] now today).map (·.2))
    (.empty config)

end AccountLedger

end QuantWorkbench.Account
