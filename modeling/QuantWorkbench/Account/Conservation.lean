import QuantWorkbench.Account.Replay

/-!
What every snapshot of a ledger keeps: the value of the account, the state of
its lots and the quantities of its positions.
-/

namespace QuantWorkbench.Account

open Lib Data

variable {D : Type} [LinearOrder D]

omit [LinearOrder D] in
theorem mem_symbols (state : ReplayState D) (symbol : Symbol) :
    symbol ∈ state.symbols ↔ ∃ lot ∈ state.lots, lot.symbol = symbol := by
  simp [ReplayState.symbols, List.mem_insertionSort]

/-- A symbol is reported exactly when the replay opened a lot of it. -/
theorem report_position (state : ReplayState D) (date : D) (symbol : Symbol) :
    (state.report date).position symbol =
      if symbol ∈ state.symbols then some (state.positionOf date symbol) else none := by
  have hsymbol : ∀ s, (state.positionOf date s).symbol = s := fun s => rfl
  unfold AccountSnapshot.position ReplayState.report
  induction state.symbols with
  | nil => simp
  | cons head rest ih =>
      rw [List.map_cons, List.find?_cons, hsymbol]
      by_cases hhead : head = symbol
      · simp [hhead]
      · have hne : symbol ≠ head := fun h => hhead h.symm
        simp only [hhead, decide_false, List.mem_cons, hne, false_or]
        exact ih

omit [LinearOrder D] in
theorem totalQuantity_of_no_lot (state : ReplayState D) {symbol : Symbol}
    (h : symbol ∉ state.symbols) :
    sharesWhere (fun lot => lot.symbol = symbol) state.lots = 0 := by
  have hnone : state.lots.filter (fun lot => lot.symbol = symbol) = [] := by
    rw [List.filter_eq_nil_iff]
    intro lot hlot hsymbol
    exact h ((mem_symbols state symbol).mpr ⟨lot, hlot, by simpa using hsymbol⟩)
  simp [sharesWhere, Fifo.eligibleTotal, hnone]

/-- What a position reports adds up. -/
structure PositionSnapshot.Consistent (position : PositionSnapshot) : Prop where
  total_eq : position.totalQuantity = position.availableQuantity + position.frozenQuantity
  available_nonneg : 0 ≤ position.availableQuantity
  frozen_nonneg : 0 ≤ position.frozenQuantity

theorem positionOf_consistent {state : ReplayState D}
    (hlots : ∀ lot ∈ state.lots, lot.Valid) (date : D) (symbol : Symbol) :
    (state.positionOf date symbol).Consistent := by
  have hheld : ∀ lot ∈ state.lots, 0 ≤ lot.remainingQuantity :=
    fun lot hlot => (hlots lot hlot).remaining_nonneg
  have havailable : 0 ≤ (state.positionOf date symbol).availableQuantity :=
    Fifo.eligibleTotal_nonneg _ _ hheld
  have hle : (state.positionOf date symbol).availableQuantity ≤
      (state.positionOf date symbol).totalQuantity := by
    apply Fifo.eligibleTotal_mono _ _ hheld
    intro lot hlot
    simp only [decide_eq_true_eq] at hlot ⊢
    exact hlot.1
  have hfrozen : (state.positionOf date symbol).frozenQuantity =
      (state.positionOf date symbol).totalQuantity -
        (state.positionOf date symbol).availableQuantity := rfl
  refine ⟨?_, havailable, ?_⟩ <;> omega

namespace AccountLedger

variable {ledger : AccountLedger D} {date : D} {snapshot : AccountSnapshot D}

theorem snapshot_ok_iff :
    ledger.snapshot date = .ok snapshot ↔
      ∃ state, ledger.replayUpTo date = .ok state ∧ state.report date = snapshot := by
  unfold AccountLedger.snapshot
  cases ledger.replayUpTo date with
  | error error => simp [Except.map]
  | ok state => simp [Except.map]

/-- Cash and the cost of what is held are the initial cash and the realized
profit, to the cent and after any number of partial sales; no lot is oversold or
carries cost without shares; the positions are the effective fills up to the
date. -/
theorem snapshot_conserves_book_value (ledger : AccountLedger D) (date : D)
    (snapshot : AccountSnapshot D) (h : ledger.snapshot date = .ok snapshot) :
    ∃ state, ledger.replayUpTo date = .ok state ∧ state.report date = snapshot ∧
      snapshot.cash + costOf state.lots =
        ledger.config.initialCash + snapshot.realizedPnl ∧
      (∀ lot ∈ state.lots,
        0 ≤ lot.remainingQuantity ∧ lot.remainingQuantity ≤ lot.quantity ∧
          0 ≤ lot.remainingCost ∧ IsMoney lot.remainingCost ∧
          (lot.remainingQuantity = 0 → lot.remainingCost = 0)) ∧
      (∀ position ∈ snapshot.positions,
        position.totalQuantity = position.availableQuantity + position.frozenQuantity ∧
          0 ≤ position.availableQuantity ∧ 0 ≤ position.frozenQuantity) ∧
      ∀ symbol, ((snapshot.position symbol).map (·.totalQuantity)).getD 0 =
        boughtQuantity symbol (ledger.eventsUpTo date) -
          soldQuantity symbol (ledger.eventsUpTo date) := by
  obtain ⟨state, hstate, rfl⟩ := snapshot_ok_iff.mp h
  have hbooks := LedgerConfig.replay_books hstate
  refine ⟨state, hstate, rfl, hbooks.value_eq, ?_, ?_, ?_⟩
  · intro lot hlot
    have hvalid := hbooks.lots_valid lot hlot
    exact ⟨hvalid.remaining_nonneg, hvalid.remaining_le, hvalid.cost_nonneg,
      hvalid.cost_isMoney, hvalid.cost_zero⟩
  · intro position hposition
    obtain ⟨symbol, _, rfl⟩ := List.mem_map.mp hposition
    have hconsistent := positionOf_consistent hbooks.lots_valid date symbol
    exact ⟨hconsistent.total_eq, hconsistent.available_nonneg, hconsistent.frozen_nonneg⟩
  · intro symbol
    rw [report_position, ← hbooks.shares_eq symbol]
    split
    · rfl
    · rename_i hnone
      rw [totalQuantity_of_no_lot state hnone]
      rfl

end AccountLedger

/-! ### A small account -/

def sampleConfigOn {D : Type} (nextTradingDay : D → D) : LedgerConfig D where
  initialCash := 10000
  feeSchedule := .default
  knownInstruments := []
  nextTradingDay := nextTradingDay
  lotSize := 100
  initialCash_isMoney := ⟨1000000, by norm_num [moneyScale]⟩
  initialCash_nonneg := by norm_num
  lotSize_pos := by norm_num
  knownNames_nonempty := by simp

def sampleConfig : LedgerConfig ℤ := sampleConfigOn fun day => day + 1

instance neZero28 : NeZero 28 := ⟨by decide⟩

def sampleDay (later : Fin 28) : Date := .daysFrom 2025 1 2 later

def sampleTime (hour : Fin 24) : UtcDateTime where
  date := sampleDay 0
  hour := hour
  minute := 0
  second := 0
  microsecond := 0

def sampleSymbol : Symbol := ⟨"000001".toList, Eq.refl true⟩

def sampleFill {D : Type} (id : Char) (side : TradeSide) (quantity priceTicks : ℕ) (day : D)
    (h : decide (Text.strip [id] = [id] ∧ 0 < quantity ∧ 0 < priceTicks) = true := by
      exact Eq.refl true) : FillEvent D where
  eventId := [id]
  side := side
  symbol := sampleSymbol
  quantity := quantity
  priceTicks := priceTicks
  tradeDate := day
  name := "x".toList
  source := "manual".toList
  recordedAt := sampleTime 9
  eventId_required := by simp
  eventId_stripped := (of_decide_eq_true h).1
  quantity_pos := by exact_mod_cast (of_decide_eq_true h).2.1
  price_pos := by exact_mod_cast (of_decide_eq_true h).2.2
  name_stripped := by decide
  source_required := by decide
  source_stripped := by decide

def sampleLedger (config : LedgerConfig ℤ) (events : List (FillEvent ℤ)) :
    AccountLedger ℤ :=
  ⟨config, events, [], events.map .fill⟩

def sampleHistory : AccountLedger ℤ := sampleLedger sampleConfig
  [sampleFill 'a' .buy 300 100000 1,
   sampleFill 'b' .sell 100 110000 2,
   sampleFill 'c' .sell 100 90000 3]

def sampleSnapshot : AccountSnapshot ℤ where
  asOf := 3
  cash := 8984
  realizedPnl := -1434 / 100
  positions := [{
    symbol := sampleSymbol
    name := "x".toList
    totalQuantity := 100
    availableQuantity := 100
    frozenQuantity := 0
    averageCost := 100166 / 10000 }]

/-- Two partial sales leave thirds of a cent to round, and no cent is lost. -/
theorem sampleHistory_conserves_book_value :
    sampleHistory.snapshot 3 = .ok sampleSnapshot ∧
      ∃ state, sampleHistory.replayUpTo 3 = .ok state ∧
        state.report 3 = sampleSnapshot ∧
        sampleSnapshot.cash + costOf state.lots = 10000 + sampleSnapshot.realizedPnl := by
  have h : sampleHistory.snapshot 3 = .ok sampleSnapshot := by decide +kernel
  obtain ⟨state, hstate, hreport, hvalue, -⟩ :=
    AccountLedger.snapshot_conserves_book_value sampleHistory 3 sampleSnapshot h
  exact ⟨h, state, hstate, hreport, hvalue⟩

end QuantWorkbench.Account
