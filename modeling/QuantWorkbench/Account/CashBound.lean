import QuantWorkbench.Account.Replayable

/-!
When the reported cash can be negative. A buy is refused when the cash does not
reach, a sale is not, so the cash of a date is negative exactly when the sale
that closes the date has fees its proceeds and the balance before it cannot pay.
-/

namespace QuantWorkbench.Account

open Lib Data

variable {D : Type} [LinearOrder D]

namespace LedgerConfig

variable {config : LedgerConfig D}

omit [LinearOrder D] in
theorem proceeds_eq (event : FillEvent D) :
    config.proceeds event = event.notional - (config.feesOf event).total :=
  money_of_isMoney (event.notional_isMoney.sub
    (config.feeSchedule.total_isMoney event.side event.symbol event.notional))

/-- A covered buy never overdraws the account. -/
theorem balance_concat_buy_nonneg {past : List (FillEvent D)} {event : FillEvent D}
    (hside : event.side = .buy) (hcovered : config.Covered past event) :
    0 ≤ config.balance (past ++ [event]) := by
  simp only [Covered, hside] at hcovered
  rw [balance_concat, cashFlow, hside]
  linarith

omit [LinearOrder D] in
theorem balance_concat_sell_nonneg_iff {past : List (FillEvent D)} {event : FillEvent D}
    (hside : event.side = .sell) :
    0 ≤ config.balance (past ++ [event]) ↔
      (config.feesOf event).total ≤ event.notional + config.balance past := by
  rw [balance_concat, cashFlow, hside]
  simp only [proceeds_eq]
  constructor
  · intro h
    linarith
  · intro h
    linarith

omit [LinearOrder D] in
/-- A buy costs at least its notional. -/
theorem notional_le_outlay (config : LedgerConfig D) {event : FillEvent D}
    (h : 0 < event.notional) : event.notional ≤ config.outlay event := by
  have hfees := config.feeSchedule.total_nonneg event.side event.symbol h.le
  have hmono : money event.notional ≤
      money (event.notional + (config.feesOf event).total) := by
    apply money_mono
    unfold LedgerConfig.feesOf
    linarith
  rwa [money_of_isMoney event.notional_isMoney] at hmono

end LedgerConfig

namespace AccountLedger

variable {ledger : AccountLedger D}

/-- Every snapshot that exists reports non-negative cash. -/
def NonnegativeCash (ledger : AccountLedger D) : Prop :=
  ∀ date snapshot, ledger.snapshot date = .ok snapshot → 0 ≤ snapshot.cash

def SalesPayFees (ledger : AccountLedger D) : Prop :=
  ∀ past sale later, ledger.effectiveEvents = past ++ sale :: later → sale.side = .sell →
    (∀ event ∈ later, sale.tradeDate < event.tradeDate) →
    ledger.config.ValidAccount (past ++ [sale]) →
      (ledger.config.feesOf sale).total ≤ sale.notional + ledger.config.balance past

theorem snapshot_cash {date : D} {snapshot : AccountSnapshot D}
    (h : ledger.snapshot date = .ok snapshot) :
    snapshot.cash = ledger.config.balance (ledger.eventsUpTo date) := by
  obtain ⟨state, hstate, rfl⟩ := snapshot_ok_iff.mp h
  exact (LedgerConfig.replay_books hstate).cash_eq

theorem eventsUpTo_closing {past later : List (FillEvent D)} {event : FillEvent D}
    (hsplit : ledger.effectiveEvents = past ++ event :: later)
    (hlater : ∀ e ∈ later, event.tradeDate < e.tradeDate) :
    ledger.eventsUpTo event.tradeDate = past ++ [event] := by
  have hsorted := ledger.effectiveEvents_sorted
  rw [hsplit] at hsorted
  have hpast := (List.pairwise_append.mp hsorted).2.2
  have hbefore : past.filter (fun e => e.tradeDate ≤ event.tradeDate) = past := by
    rw [List.filter_eq_self]
    intro e he
    simpa using hpast e he event (by simp)
  have hafter : later.filter (fun e => e.tradeDate ≤ event.tradeDate) = [] := by
    rw [List.filter_eq_nil_iff]
    intro e he
    simpa using hlater e he
  rw [eventsUpTo, hsplit, List.filter_append, hbefore]
  simp [hafter]

theorem nonnegativeCash_iff (ledger : AccountLedger D) :
    ledger.NonnegativeCash ↔ ledger.SalesPayFees := by
  constructor
  · intro h past sale later hsplit hside hlater hvalid
    have hclosing := eventsUpTo_closing hsplit hlater
    obtain ⟨snapshot, hsnapshot⟩ :=
      (snapshot_exists_iff ledger sale.tradeDate).mpr (hclosing ▸ hvalid)
    have hcash := h sale.tradeDate snapshot hsnapshot
    rw [snapshot_cash hsnapshot, hclosing] at hcash
    exact (LedgerConfig.balance_concat_sell_nonneg_iff hside).mp hcash
  · intro h date snapshot hsnapshot
    have hvalid := (snapshot_exists_iff ledger date).mp ⟨snapshot, hsnapshot⟩
    rw [snapshot_cash hsnapshot]
    rcases List.eq_nil_or_concat (ledger.eventsUpTo date) with hempty | ⟨past, last, hlast⟩
    · rw [hempty, LedgerConfig.balance_nil]
      exact ledger.config.initialCash_nonneg
    rw [List.concat_eq_append] at hlast
    rw [hlast] at hvalid ⊢
    have hcovered := ((LedgerConfig.validAccount_concat past last).mp hvalid).2.2
    cases hside : last.side with
    | buy => exact LedgerConfig.balance_concat_buy_nonneg hside hcovered
    | sell =>
        rw [LedgerConfig.balance_concat_sell_nonneg_iff hside]
        have hsplit : ledger.effectiveEvents = past ++ last :: ledger.eventsAfter date := by
          rw [← ledger.eventsUpTo_append_eventsAfter date, hlast]
          simp
        have hdate : last.tradeDate ≤ date := by
          have hmem : last ∈ ledger.eventsUpTo date := by
            rw [hlast]
            simp
          simpa using (List.mem_filter.mp hmem).2
        apply h past last (ledger.eventsAfter date) hsplit hside ?_ hvalid
        intro event hevent
        have := (List.mem_filter.mp hevent).2
        exact hdate.trans_lt (by simpa using this)

/-- Along a run of any calls from an empty ledger, no snapshot reports negative
cash exactly when in each ledger of the run the sales that close a date pay
their fees. -/
theorem always_nonnegativeCash_iff (config : LedgerConfig D) (ops : List (LedgerOp D)) :
    Runs.Always step NonnegativeCash (empty config) ops ↔
      Runs.Always step SalesPayFees (empty config) ops := by
  constructor
  · exact Runs.Always.imp step fun ledger => (nonnegativeCash_iff ledger).mp
  · exact Runs.Always.imp step fun ledger => (nonnegativeCash_iff ledger).mpr

/-! ### An account without cash -/

theorem recordFill_without_cash {config : LedgerConfig D} (hcash : config.initialCash = 0)
    (event : FillEvent D) : ∃ error, (empty config).recordFill event = .error error := by
  cases hrecord : (empty config).recordFill event with
  | error error => exact ⟨error, rfl⟩
  | ok result =>
      exfalso
      obtain ⟨receipt, ledger'⟩ := result
      rcases append_ok_iff.mp (recordFill_ok hrecord) with
        ⟨existing, hknown, _⟩ | ⟨_, hlatest, hreceipt, _⟩
      · cases hknown
      · have hvalid := (replayable_iff _).mp (withEvent_replayable hlatest hreceipt)
        obtain ⟨hnotional, hcovered⟩ := hvalid [] event [] rfl
        unfold LedgerConfig.Covered at hcovered
        split at hcovered
        · have houtlay := config.notional_le_outlay hnotional
          have hbalance : config.balance [] = 0 := by
            rw [LedgerConfig.balance_nil, hcash]
          change config.outlay event ≤ config.balance [] at hcovered
          linarith
        · have hquantity := event.quantity_pos
          have hnone : soldQuantity event.symbol ([] : List (FillEvent D)) = 0 ∧
              config.releasedQuantity event.symbol event.tradeDate [] = 0 := ⟨rfl, rfl⟩
          change event.quantity + soldQuantity event.symbol [] ≤
            config.releasedQuantity event.symbol event.tradeDate [] at hcovered
          omega

/-- The sample account with the cash for one lot and its commission. -/
def tightConfig : LedgerConfig ℤ :=
  { sampleConfig with
    initialCash := 105
    initialCash_isMoney := ⟨10500, by norm_num [moneyScale]⟩
    initialCash_nonneg := by norm_num }

/-- Buy 100 at 1.00, and sell one share the next day. -/
def singleShareRun : List (LedgerOp ℤ) :=
  [.recordFill (sampleFill 'a' .buy 100 10000 1),
   .recordFill (sampleFill 'b' .sell 1 10000 2)]

/-- The minimum commission of the sale leaves the account at -4.00. -/
theorem singleShareRun_overdraws :
    ¬ Runs.Always step NonnegativeCash (empty tightConfig) singleShareRun := by
  rintro ⟨_, _, hlast⟩
  have hcash : ((singleShareRun.foldl step (empty tightConfig)).snapshot 2).map (·.cash) =
      .ok (-4) := by
    decide +kernel
  change NonnegativeCash (singleShareRun.foldl step (empty tightConfig)) at hlast
  cases hsnapshot : (singleShareRun.foldl step (empty tightConfig)).snapshot 2 with
  | error error =>
      rw [hsnapshot] at hcash
      cases hcash
  | ok snapshot =>
      have hnonneg := hlast 2 snapshot hsnapshot
      rw [hsnapshot] at hcash
      have hvalue : snapshot.cash = -4 := Except.ok.inj hcash
      rw [hvalue] at hnonneg
      norm_num at hnonneg

end AccountLedger

end QuantWorkbench.Account
