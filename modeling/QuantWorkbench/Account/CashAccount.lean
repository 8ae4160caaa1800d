import QuantWorkbench.Account.Ledger

/-!
What it means for a history of fills to be a valid cash account, stated without
lots: every buy is paid from the balance before it, and every sale is covered by
the purchases available on its date minus the sales before it. `Replay.lean`
proves that the replay of the ledger succeeds on exactly these histories.
-/

namespace QuantWorkbench.Account

open Lib Data

variable {D : Type} [LinearOrder D]

/-- Total quantity of the fills that `select` picks. -/
def quantityWhere (select : FillEvent D → Bool) (events : List (FillEvent D)) : ℤ :=
  ((events.filter select).map (·.quantity)).sum

def boughtQuantity (symbol : Symbol) (events : List (FillEvent D)) : ℤ :=
  quantityWhere (fun event => event.side = .buy ∧ event.symbol = symbol) events

def soldQuantity (symbol : Symbol) (events : List (FillEvent D)) : ℤ :=
  quantityWhere (fun event => event.side = .sell ∧ event.symbol = symbol) events

namespace LedgerConfig

variable (config : LedgerConfig D)

/-- Bought quantity of the symbol that can be sold on the date. -/
def releasedQuantity (symbol : Symbol) (date : D) (events : List (FillEvent D)) : ℤ :=
  quantityWhere (fun event => event.side = .buy ∧ event.symbol = symbol ∧
    config.nextTradingDay event.tradeDate ≤ date) events

def cashFlow (event : FillEvent D) : ℚ :=
  match event.side with
  | .buy => -config.outlay event
  | .sell => config.proceeds event

def balance (events : List (FillEvent D)) : ℚ :=
  config.initialCash + (events.map config.cashFlow).sum

def Covered (past : List (FillEvent D)) (event : FillEvent D) : Prop :=
  match event.side with
  | .buy => config.outlay event ≤ config.balance past
  | .sell => event.quantity + soldQuantity event.symbol past ≤
      config.releasedQuantity event.symbol event.tradeDate past

def ValidAccount (events : List (FillEvent D)) : Prop :=
  ∀ past event rest, events = past ++ event :: rest →
    0 < event.notional ∧ config.Covered past event

end LedgerConfig

omit [LinearOrder D] in
theorem quantityWhere_concat (select : FillEvent D → Bool) (events : List (FillEvent D))
    (event : FillEvent D) :
    quantityWhere select (events ++ [event]) =
      quantityWhere select events + if select event then event.quantity else 0 := by
  by_cases h : select event <;> simp [quantityWhere, h]

namespace LedgerConfig

variable {config : LedgerConfig D}

omit [LinearOrder D] in
@[simp] theorem balance_nil : config.balance [] = config.initialCash := by
  simp [balance]

omit [LinearOrder D] in
theorem balance_concat (events : List (FillEvent D)) (event : FillEvent D) :
    config.balance (events ++ [event]) = config.balance events + config.cashFlow event := by
  simp [balance, add_assoc]

theorem validAccount_nil : config.ValidAccount [] := by
  intro past event rest h
  simp at h

theorem validAccount_concat (events : List (FillEvent D)) (event : FillEvent D) :
    config.ValidAccount (events ++ [event]) ↔
      config.ValidAccount events ∧ 0 < event.notional ∧ config.Covered events event := by
  constructor
  · intro h
    refine ⟨?_, h events event [] rfl⟩
    intro past e rest heq
    exact h past e (rest ++ [event]) (by rw [heq]; simp)
  · rintro ⟨hevents, hlast⟩ past e rest heq
    rcases List.eq_nil_or_concat rest with rfl | ⟨rest', last, rfl⟩
    · obtain ⟨rfl, hsingle⟩ := List.append_inj' heq rfl
      obtain rfl := (List.cons.inj hsingle).1
      exact hlast
    · have hassoc : past ++ e :: (rest' ++ [last]) = (past ++ e :: rest') ++ [last] := by simp
      rw [List.concat_eq_append, hassoc] at heq
      obtain ⟨hfront, _⟩ := List.append_inj' heq rfl
      exact hevents past e rest' hfront

theorem ValidAccount.take {front back : List (FillEvent D)}
    (h : config.ValidAccount (front ++ back)) : config.ValidAccount front := by
  intro past e rest heq
  exact h past e (rest ++ back) (by rw [heq]; simp)

/-- A valid beginning is extended by fills that are each covered when they come. -/
theorem validAccount_append_iff (front back : List (FillEvent D)) :
    config.ValidAccount (front ++ back) ↔
      config.ValidAccount front ∧ ∀ past event rest, back = past ++ event :: rest →
        0 < event.notional ∧ config.Covered (front ++ past) event := by
  constructor
  · intro h
    refine ⟨h.take, ?_⟩
    intro past event rest heq
    exact h (front ++ past) event rest (by rw [heq, List.append_assoc])
  · rintro ⟨hfront, hback⟩
    induction back using List.reverseRecOn with
    | nil => simpa using hfront
    | append_singleton back last ih =>
        rw [← List.append_assoc, validAccount_concat]
        refine ⟨ih ?_, hback back last [] rfl⟩
        intro past event rest heq
        exact hback past event (rest ++ [last]) (by rw [heq]; simp)

end LedgerConfig

end QuantWorkbench.Account
