import QuantWorkbench.Data.Normalization
import QuantWorkbench.Lib.Fields
import QuantWorkbench.Lib.Keyed
import QuantWorkbench.Lib.Raising

/-!
The minute bars of `RealTimeStore`: provisional ones, and the historical ones that the end of a
day makes of them.
-/

namespace QuantWorkbench.Storage

open Lib Data

/-- A `datetime` with an offset from universal time, in seconds. -/
structure BarTimestamp where
  wall : UtcDateTime
  offset : ℤ
  deriving DecidableEq

def BarTimestamp.date (timestamp : BarTimestamp) : Date := timestamp.wall.date

/-- What two timestamps are compared by. -/
def BarTimestamp.moment (timestamp : BarTimestamp) : ℤ :=
  Day.instant timestamp.wall timestamp.offset

/-- A bar, with the numbers and the source that it carries along. -/
structure MinuteBar (V : Type) where
  symbol : Symbol
  timestamp : BarTimestamp
  frequency : Text
  isFinal : Bool
  values : V

variable {V : Type}

def MinuteBar.key (bar : MinuteBar V) : Symbol × Text × ℤ :=
  (bar.symbol, bar.frequency, bar.timestamp.moment)

variable (V) in
abbrev BarsByKey := Keyed (MinuteBar.key : MinuteBar V → Symbol × Text × ℤ)

variable (V) in
structure RealTimeStore where
  provisional : BarsByKey V
  historical : BarsByKey V
  finalizedDates : List Date

inductive FinalizationStatus where
  | finalized
  | alreadyFinalized
  deriving DecidableEq

structure EODFinalizationReceipt where
  tradeDate : Date
  finalizedCount : ℕ
  discardedCount : ℤ
  status : FinalizationStatus
  deriving DecidableEq

namespace RealTimeStore

def candidates (store : RealTimeStore V) (tradeDate : Date) : List (MinuteBar V) :=
  store.provisional.values.filter fun bar => bar.timestamp.date = tradeDate ∧ bar.isFinal = true

def keepBar (store : RealTimeStore V) (bar : MinuteBar V) : RealTimeStore V :=
  { store with historical := store.historical.put bar }

/-- What ends a date, once its bars are kept. -/
def closeDate (store : RealTimeStore V) (tradeDate : Date) : RealTimeStore V :=
  { store with
    provisional := store.provisional.filter fun bar => bar.timestamp.date ≠ tradeDate
    finalizedDates := tradeDate :: store.finalizedDates }

/-- The bars that come out of a reconciler, one after the other. An object that is no bar raises
when its timestamp is read. -/
def keepReconciled (tradeDate : Date) :
    List (Option (MinuteBar V)) → Raising String (RealTimeStore V) ℕ
  | [] => return 0
  | none :: _ => Raising.raise "AttributeError"
  | some bar :: rest => do
      if bar.timestamp.date ≠ tradeDate ∨ bar.isFinal = false then
        keepReconciled tradeDate rest
      else
        Raising.change fun store => store.keepBar bar
        return (← keepReconciled tradeDate rest) + 1

def finalizeEod (tradeDate : Date)
    (reconciler : List (MinuteBar V) → Except String (List (Option (MinuteBar V)))) :
    Raising String (RealTimeStore V) EODFinalizationReceipt := do
  if tradeDate ∈ (← Raising.read RealTimeStore.finalizedDates) then
    return ⟨tradeDate, 0, 0, .alreadyFinalized⟩
  let candidates ← Raising.read fun store => store.candidates tradeDate
  let reconciled ← Raising.lift (reconciler candidates)
  let valid ← keepReconciled tradeDate reconciled
  Raising.change fun store => store.closeDate tradeDate
  return ⟨tradeDate, valid, candidates.length - valid, .finalized⟩

/-- The date is final already, or the reconciler gives bars only. -/
def Reconciles (store : RealTimeStore V) (tradeDate : Date)
    (reconciler : List (MinuteBar V) → Except String (List (Option (MinuteBar V)))) : Prop :=
  tradeDate ∈ store.finalizedDates ∨
    ∃ reconciled, reconciler (store.candidates tradeDate) = .ok reconciled ∧ none ∉ reconciled

theorem keepReconciled_ends (tradeDate : Date) (reconciled : List (Option (MinuteBar V)))
    (store : RealTimeStore V) :
    Raising.Ends (keepReconciled tradeDate reconciled) store (fun _ _ => none ∉ reconciled)
      (fun _ _ => none ∈ reconciled) := by
  induction reconciled generalizing store with
  | nil => exact Raising.ends_pure List.not_mem_nil
  | cons first rest ih =>
      cases first with
      | none => exact Raising.ends_raise List.mem_cons_self
      | some bar =>
          have hmem : none ∈ some bar :: rest ↔ none ∈ rest := by simp
          rw [keepReconciled, hmem]
          by_cases hkept : bar.timestamp.date ≠ tradeDate ∨ bar.isFinal = false
          · rw [if_pos hkept]
            exact ih store
          · rw [if_neg hkept]
            apply Raising.ends_change_bind
            refine (ih _).bind ?_
            intro valid after hbars
            exact Raising.ends_pure hbars

/-- The end of a date returns a receipt exactly if its bars can be reconciled. -/
theorem finalizeEod_ends (tradeDate : Date)
    (reconciler : List (MinuteBar V) → Except String (List (Option (MinuteBar V))))
    (store : RealTimeStore V) :
    Raising.Ends (finalizeEod tradeDate reconciler) store
      (fun _ _ => store.Reconciles tradeDate reconciler)
      (fun _ _ => ¬ store.Reconciles tradeDate reconciler) := by
  apply Raising.ends_read_bind
  by_cases hfinal : tradeDate ∈ store.finalizedDates
  · rw [if_pos hfinal]
    exact Raising.ends_pure (Or.inl hfinal)
  · rw [if_neg hfinal]
    apply Raising.ends_read_bind
    refine Raising.ends_lift_bind (fun reconciled hreconciled => ?_) (fun error herror => ?_)
    · have hkept : Raising.Ends (keepReconciled tradeDate reconciled) store
          (fun _ _ => none ∉ reconciled)
          (fun _ _ => ¬ store.Reconciles tradeDate reconciler) := by
        refine (keepReconciled_ends tradeDate reconciled store).imp (fun _ _ h => h) ?_
        rintro _ _ hother (hdone | ⟨bars, hbars, hall⟩)
        · exact hfinal hdone
        · cases hreconciled.symm.trans hbars
          exact hall hother
      refine hkept.bind fun valid after hall => ?_
      apply Raising.ends_change_bind
      exact Raising.ends_pure (Or.inr ⟨reconciled, hreconciled, hall⟩)
    · rintro (hdone | ⟨bars, hbars, _⟩)
      · exact hfinal hdone
      · cases herror.symm.trans hbars

end RealTimeStore

end QuantWorkbench.Storage
