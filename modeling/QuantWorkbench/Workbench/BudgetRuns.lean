import Mathlib
import QuantWorkbench.Workbench.BudgetLedger

/-!
Runs of calls of the budget ledger. Beside the ledger file a state lists the reservations that
were written, each with what it was made with, whether it was charged to the experiment then, and
what it was settled with. The order of the calls is any interleaving of the processes, because a
locked section takes the file from one content to the next.
-/

namespace QuantWorkbench.Workbench

open Lib

structure Settlement where
  actual : ℚ
  actualCny : Option Decimal
  deriving DecidableEq

structure Reservation where
  day : Date
  reserved : ℚ
  reservedCny : Option Decimal
  charged : Bool
  settled : Option Settlement
  deriving DecidableEq

namespace Reservation

def valueCny (amount : Option Decimal) : ℚ :=
  (amount.bind Decimal.finite?).getD 0

/-- The actual amount if it is settled, the reserved one otherwise. -/
def counted (reservation : Reservation) : ℚ :=
  match reservation.settled with
  | some settlement => settlement.actual
  | none => reservation.reserved

def countedCny (reservation : Reservation) : ℚ :=
  match reservation.settled with
  | some settlement => valueCny settlement.actualCny
  | none => valueCny reservation.reservedCny

def onDay (day : Date) (reservation : Reservation) : ℚ :=
  if reservation.day = day then reservation.counted else 0

def onExperiment (reservation : Reservation) : ℚ :=
  if reservation.charged then reservation.countedCny else 0

@[simp] theorem valueCny_finite (value : ℚ) : valueCny (some (.finite value)) = value := rfl

end Reservation

section Totals

variable {α : Type}

def totalOf (weight : α → ℚ) (items : List α) : ℚ :=
  (items.map weight).sum

@[simp] theorem totalOf_nil (weight : α → ℚ) : totalOf weight [] = 0 := rfl

theorem totalOf_append (weight : α → ℚ) (items : List α) (item : α) :
    totalOf weight (items ++ [item]) = totalOf weight items + weight item := by
  simp [totalOf]

theorem totalOf_set (weight : α → ℚ) {items : List α} {index : ℕ} {old : α}
    (h : items[index]? = some old) (new : α) :
    totalOf weight (items.set index new) = totalOf weight items - weight old + weight new := by
  obtain ⟨hindex, rfl⟩ := List.getElem?_eq_some_iff.mp h
  rw [totalOf, List.map_set, List.sum_set']
  simp only [List.length_map, hindex, dif_pos, List.getElem_map, totalOf]
  ring

end Totals

/-- The ledger file and the reservations that were written to it. -/
structure Spending where
  ledger : Budget
  reservations : List Reservation

inductive BudgetCall where
  | reserve (day : Date) (amount : Decimal) (cfg : AgentRuntimeConfig) (taskSpent : Decimal)
      (amountCny : Option Decimal) (written : Bool)
  | approveExperiment (limit : Decimal) (written : Bool)
  /-- The settlement of a reservation that is not settled. -/
  | settle (index : ℕ) (actual : Option Decimal) (actualCny : Option Decimal) (written : Bool)

namespace Spending

def start : Spending := ⟨.empty, []⟩

/-- Whether the file is replaced once its new content is known. -/
def replaced (written : Bool) (ledger : Except BudgetError Budget) : Except BudgetError Budget := do
  let ledger ← ledger
  require (written = true) .notWritten
  return ledger

def reserve (spending : Spending) (day : Date) (amount : Decimal) (cfg : AgentRuntimeConfig)
    (taskSpent : Decimal) (amountCny : Option Decimal) (written : Bool) :
    Except BudgetError Spending := do
  let ledger ← replaced written
    (spending.ledger.reserve day amount cfg taskSpent amountCny)
  return ⟨ledger, spending.reservations ++ [⟨day, (amount.finite?).getD 0, amountCny,
    decide (spending.ledger.Charges cfg), none⟩]⟩

def approveExperiment (spending : Spending) (limit : Decimal) (written : Bool) :
    Except BudgetError Spending := do
  let ledger ← replaced written (spending.ledger.approveExperiment limit)
  return { spending with ledger }

/-- The settlement of a reservation, up to the end of the locked section. -/
def settle (spending : Spending) (index : ℕ) (reservation : Reservation)
    (actual : Option Decimal) (actualCny : Option Decimal) (written : Bool) :
    Except BudgetError Spending :=
  match actual with
  -- a failed or cancelled request may still have incurred a charge
  | none => .ok spending
  | some actual => do
      let ledger ← replaced written (spending.ledger.settle reservation.day
        (.finite reservation.reserved) actual reservation.reservedCny actualCny)
      return ⟨ledger, spending.reservations.set index
        { reservation with settled := some ⟨(actual.finite?).getD 0, actualCny⟩ }⟩

/-- The state that a call leaves, which is the old one if it raises before it writes. -/
def after (spending : Spending) (result : Except BudgetError Spending) : Spending :=
  match result with
  | .ok next => next
  | .error _ => spending

def step (spending : Spending) : BudgetCall → Spending
  | .reserve day amount cfg taskSpent amountCny written =>
      spending.after (spending.reserve day amount cfg taskSpent amountCny written)
  | .approveExperiment limit written => spending.after (spending.approveExperiment limit written)
  | .settle index actual actualCny written =>
      match spending.reservations[index]? with
      | none => spending
      | some reservation =>
          if reservation.settled.isNone then
            spending.after (spending.settle index reservation actual actualCny written)
          else spending

/-- The file accounts for the reservations. -/
structure Accounted (spending : Spending) : Prop where
  days : ∀ day, spending.ledger.spentOn day =
    totalOf (Reservation.onDay day) spending.reservations
  experiment : ∀ trial, spending.ledger.experiment = some trial →
    trial.reservedAndSpent = totalOf Reservation.onExperiment spending.reservations

/-- The value keeps its digits as the result of an operation. -/
def Exact (x : ℚ) : Prop := DecimalContext.default.result? x = some x

/-- The sums of the call keep their digits, and no reservation is settled with another amount
in an experiment that it was not charged to. -/
def Sound (spending : Spending) : BudgetCall → Prop
  | .reserve day amount cfg _ amountCny _ =>
      (∀ value, amount = .finite value → Exact (spending.ledger.spentOn day + value)) ∧
        ∀ value, amountCny = some (.finite value) → spending.ledger.Charges cfg →
          Exact ((spending.ledger.trialOf cfg.experimentBudgetCny).reservedAndSpent + value)
  | .approveExperiment _ _ => True
  | .settle index actual actualCny _ =>
      ∀ reservation, spending.reservations[index]? = some reservation →
        (∀ value, actual = some (.finite value) →
          Exact (spending.ledger.spentOn reservation.day - reservation.reserved) ∧
          Exact (spending.ledger.spentOn reservation.day - reservation.reserved + value)) ∧
        ∀ trial reserved value, spending.ledger.experiment = some trial →
          reservation.reservedCny = some (.finite reserved) → actualCny = some (.finite value) →
          Exact (trial.reservedAndSpent - reserved) ∧
          Exact (trial.reservedAndSpent - reserved + value) ∧
          (reservation.charged = true ∨ value = reserved)

theorem replaced_eq_ok_iff {written : Bool} {ledger : Except BudgetError Budget} {next : Budget} :
    replaced written ledger = .ok next ↔ ledger = .ok next ∧ written = true := by
  simp only [replaced, bind_eq_ok_iff, require_eq_ok_iff, exists_const]
  constructor
  · rintro ⟨_, hledger, hwritten, hnext⟩
    cases hnext
    exact ⟨hledger, hwritten⟩
  · rintro ⟨hledger, hwritten⟩
    exact ⟨next, hledger, hwritten, rfl⟩

/-- The reservation that a call adds. -/
def made (spending : Spending) (day : Date) (reserved : ℚ) (cfg : AgentRuntimeConfig)
    (amountCny : Option Decimal) : Reservation :=
  ⟨day, reserved, amountCny, decide (spending.ledger.Charges cfg), none⟩

theorem reserve_eq_ok {spending next : Spending} {day : Date} {amount : Decimal}
    {cfg : AgentRuntimeConfig} {taskSpent : Decimal} {amountCny : Option Decimal} {written : Bool}
    (h : spending.reserve day amount cfg taskSpent amountCny written = .ok next) :
    ∃ charged value spent total taskTotal, spending.ledger.Reserved day amount cfg taskSpent
        amountCny next.ledger charged value spent total taskTotal ∧
      next.reservations =
        spending.reservations ++ [spending.made day value cfg amountCny] := by
  obtain ⟨ledger, hledger, hnext⟩ := bind_eq_ok_iff.mp h
  obtain ⟨charged, value, spent, total, taskTotal, hreserved⟩ :=
    Budget.reserve_eq_ok_iff.mp (replaced_eq_ok_iff.mp hledger).1
  cases hnext
  refine ⟨charged, value, spent, total, taskTotal, hreserved, ?_⟩
  rw [hreserved.finite]
  rfl

theorem approveExperiment_eq_ok {spending next : Spending} {limit : Decimal} {written : Bool}
    (h : spending.approveExperiment limit written = .ok next) :
    ∃ value, (0 < value ∧ value ≤ 3) ∧ next = { spending with ledger := { spending.ledger with
      experiment := some { spending.ledger.trialOf value with
        limit := min value (spending.ledger.trialOf value).limit } } } := by
  obtain ⟨ledger, hledger, hnext⟩ := bind_eq_ok_iff.mp h
  obtain ⟨value, _, hlimit, _, rfl⟩ :=
    Budget.approveExperiment_eq_ok_iff.mp (replaced_eq_ok_iff.mp hledger).1
  cases hnext
  exact ⟨value, hlimit, rfl⟩

theorem settle_eq_ok {spending next : Spending} {index : ℕ} {reservation : Reservation}
    {actual : Decimal} {actualCny : Option Decimal} {written : Bool}
    (h : spending.settle index reservation (some actual) actualCny written = .ok next) :
    ∃ refunded value spent rest total, spending.ledger.Settled reservation.day
        (.finite reservation.reserved) actual reservation.reservedCny actualCny next.ledger
        refunded reservation.reserved value spent rest total ∧
      next.reservations = spending.reservations.set index
        { reservation with settled := some ⟨value, actualCny⟩ } := by
  obtain ⟨ledger, hledger, hnext⟩ := bind_eq_ok_iff.mp h
  obtain ⟨refunded, reserved, value, spent, rest, total, hsettled⟩ :=
    Budget.settle_eq_ok_iff.mp (replaced_eq_ok_iff.mp hledger).1
  cases hnext
  have hreserved := hsettled.reservedFinite
  cases hreserved
  refine ⟨refunded, value, spent, rest, total, hsettled, ?_⟩
  rw [hsettled.actualFinite]
  rfl

/-- What one call does: nothing, or one of the three writes. -/
theorem step_cases (spending : Spending) (call : BudgetCall) :
    spending.step call = spending ∨
    (∃ day amount cfg taskSpent amountCny written,
      call = .reserve day amount cfg taskSpent amountCny written ∧
      spending.reserve day amount cfg taskSpent amountCny written = .ok (spending.step call)) ∨
    (∃ limit written, call = .approveExperiment limit written ∧
      spending.approveExperiment limit written = .ok (spending.step call)) ∨
    ∃ index reservation actual actualCny written, call = .settle index (some actual) actualCny written ∧
      spending.reservations[index]? = some reservation ∧ reservation.settled = none ∧
      spending.settle index reservation (some actual) actualCny written =
        .ok (spending.step call) := by
  cases call with
  | reserve day amount cfg taskSpent amountCny written =>
      cases h : spending.reserve day amount cfg taskSpent amountCny written with
      | error e =>
          left
          rw [step, h]
          rfl
      | ok next =>
          right; left
          refine ⟨day, amount, cfg, taskSpent, amountCny, written, rfl, ?_⟩
          rw [step, h]
          rfl
  | approveExperiment limit written =>
      cases h : spending.approveExperiment limit written with
      | error e =>
          left
          rw [step, h]
          rfl
      | ok next =>
          right; right; left
          refine ⟨limit, written, rfl, ?_⟩
          rw [step, h]
          rfl
  | settle index actual actualCny written =>
      cases hreservation : spending.reservations[index]? with
      | none =>
          left
          rw [step, hreservation]
      | some reservation =>
          cases hopen : reservation.settled with
          | some settlement =>
              left
              simp [step, hreservation, hopen]
          | none =>
              cases actual with
              | none =>
                  left
                  simp [step, hreservation, hopen, settle, after]
              | some actual =>
                  cases h : spending.settle index reservation (some actual) actualCny written with
                  | error e =>
                      left
                      simp [step, hreservation, hopen, h, after]
                  | ok next =>
                      right; right; right
                      refine ⟨index, reservation, actual, actualCny, written, rfl, hreservation, hopen, ?_⟩
                      simp [step, hreservation, hopen, h, after]

def ChargedWithin (spending : Spending) : Prop :=
  spending.ledger.experiment = none → ∀ reservation ∈ spending.reservations,
    reservation.charged = false

theorem ChargedWithin.total_eq_zero {spending : Spending} (h : spending.ChargedWithin)
    (hnone : spending.ledger.experiment = none) :
    totalOf Reservation.onExperiment spending.reservations = 0 := by
  apply List.sum_eq_zero
  intro weight hweight
  obtain ⟨reservation, hreservation, rfl⟩ := List.mem_map.mp hweight
  rw [Reservation.onExperiment, h hnone reservation hreservation]
  rfl

theorem reserved_experiment {ledger written charged : Budget} {day : Date} {amount : Decimal}
    {cfg : AgentRuntimeConfig} {taskSpent : Decimal} {amountCny : Option Decimal}
    {value spent total taskTotal : ℚ} (h : ledger.Reserved day amount cfg taskSpent amountCny
      written charged value spent total taskTotal) :
    (ledger.Charges cfg ∧ ∃ valueCny totalCny,
      ledger.Charge cfg amountCny charged valueCny totalCny ∧ written.experiment = some
        ⟨min cfg.experimentBudgetCny (ledger.trialOf cfg.experimentBudgetCny).limit, totalCny⟩) ∨
    (¬ ledger.Charges cfg ∧ ledger.experiment = none ∧ written.experiment = none) := by
  rw [h.result, Budget.experiment_setDay]
  by_cases hcharges : ledger.Charges cfg
  · obtain ⟨valueCny, totalCny, hcharge⟩ :=
      (Budget.chargeExperiment_eq_ok_iff hcharges).mp h.charge
    refine .inl ⟨hcharges, valueCny, totalCny, hcharge, ?_⟩
    rw [hcharge.result]
  · have hnone : ledger.experiment = none := by
      simpa [Budget.Charges] using fun hsome => hcharges (.inr hsome)
    have hcharged := h.charge
    rw [Budget.chargeExperiment_of_not hcharges] at hcharged
    cases hcharged
    exact .inr ⟨hcharges, hnone, hnone⟩

/-- The experiment that a settlement leaves. -/
theorem settled_experiment {ledger written refunded : Budget} {day : Date}
    {reserved actual : Decimal} {reservedCny actualCny : Option Decimal}
    {reservedValue actualValue spent rest total : ℚ} (h : ledger.Settled day reserved actual
      reservedCny actualCny written refunded reservedValue actualValue spent rest total) :
    (ledger.experiment = none ∧ written.experiment = none) ∨
    ∃ trial value valueActual restCny totalCny, ledger.experiment = some trial ∧
      Budget.Refund trial reservedCny actualCny value valueActual restCny totalCny ∧
      written.experiment = some { trial with reservedAndSpent := totalCny } := by
  rw [h.result, Budget.experiment_setDay]
  have hrefund := h.refund
  cases htrial : ledger.experiment with
  | none =>
      rw [Budget.refundExperiment_of_none htrial] at hrefund
      cases hrefund
      exact .inl ⟨rfl, htrial⟩
  | some trial =>
      obtain ⟨value, valueActual, restCny, totalCny, hmoved, rfl⟩ :=
        (Budget.refundExperiment_eq_ok_iff htrial).mp hrefund
      exact .inr ⟨trial, value, valueActual, restCny, totalCny, rfl, hmoved, rfl⟩

theorem chargedWithin_start : start.ChargedWithin :=
  fun _ _ h => (List.not_mem_nil h).elim

theorem chargedWithin_step {spending : Spending} (h : spending.ChargedWithin) (call : BudgetCall) :
    (spending.step call).ChargedWithin := by
  rcases step_cases spending call with hsame | ⟨day, amount, cfg, taskSpent, amountCny, written,
    -, hok⟩ | ⟨limit, written, -, hok⟩ | ⟨index, reservation, actual, actualCny, written, -, hindex,
    -, hok⟩
  · rw [hsame]
    exact h
  · obtain ⟨charged, value, spent, total, taskTotal, hreserved, hreservations⟩ := reserve_eq_ok hok
    intro hnone
    rw [hreservations]
    rcases reserved_experiment hreserved with ⟨_, _, _, _, hsome⟩ | ⟨hcharges, hbefore, _⟩
    · rw [hsome] at hnone
      cases hnone
    · intro reservation hreservation
      rcases List.mem_append.mp hreservation with hold | hnew
      · exact h hbefore reservation hold
      · rw [List.mem_singleton.mp hnew]
        exact decide_eq_false hcharges
  · obtain ⟨value, _, hnext⟩ := approveExperiment_eq_ok hok
    intro hnone
    rw [hnext] at hnone
    cases hnone
  · obtain ⟨refunded, value, spent, rest, total, hsettled, hreservations⟩ := settle_eq_ok hok
    intro hnone
    rw [hreservations]
    rcases settled_experiment hsettled with ⟨hbefore, _⟩ | ⟨_, _, _, _, _, _, _, hsome⟩
    · intro other hother
      rcases List.mem_or_eq_of_mem_set hother with hold | rfl
      · exact h hbefore other hold
      · exact h hbefore reservation (List.mem_of_getElem? hindex)
    · rw [hsome] at hnone
      cases hnone

/-- What an experiment starts from is what the charged reservations add up to. -/
theorem Accounted.trialOf {spending : Spending} (h : spending.Accounted)
    (hcharged : spending.ChargedWithin) (limit : ℚ) :
    (spending.ledger.trialOf limit).reservedAndSpent =
      totalOf Reservation.onExperiment spending.reservations := by
  unfold Budget.trialOf
  cases htrial : spending.ledger.experiment with
  | none => exact (hcharged.total_eq_zero htrial).symm
  | some trial => exact h.experiment trial htrial

theorem add_eq_of_exact {x y total : ℚ} (hsum : Budget.add x y = .ok total) (h : Exact (x + y)) :
    total = x + y :=
  Option.some.inj ((Budget.add_eq_ok_iff.mp hsum).symm.trans h)

theorem sub_eq_of_exact {x y total : ℚ} (hsum : Budget.sub x y = .ok total) (h : Exact (x - y)) :
    total = x - y :=
  Option.some.inj ((Budget.sub_eq_ok_iff.mp hsum).symm.trans h)

theorem Accounted.reserve {spending next : Spending} {day : Date} {amount : Decimal}
    {cfg : AgentRuntimeConfig} {taskSpent : Decimal} {amountCny : Option Decimal} {written : Bool}
    (h : spending.Accounted) (hcharged : spending.ChargedWithin)
    (hsound : spending.Sound (.reserve day amount cfg taskSpent amountCny written))
    (hok : spending.reserve day amount cfg taskSpent amountCny written = .ok next) :
    next.Accounted := by
  obtain ⟨charged, value, spent, total, taskTotal, hreserved, hreservations⟩ := reserve_eq_ok hok
  have hdays : charged.days = spending.ledger.days := Budget.chargeExperiment_days hreserved.charge
  have htotal : total = spending.ledger.spentOn day + value :=
    add_eq_of_exact hreserved.sum (hsound.1 value hreserved.finite)
  constructor
  · intro other
    rw [hreservations, totalOf_append, ← h.days other, hreserved.result]
    by_cases hother : other = day
    · subst hother
      rw [Budget.spentOn_setDay, htotal]
      simp [Reservation.onDay, made, Reservation.counted]
    · rw [Budget.spentOn_setDay_of_ne charged total hother, Budget.spentOn, hdays, ← Budget.spentOn]
      simp [Reservation.onDay, made, Ne.symm hother]
  · intro trial htrial
    rw [hreservations, totalOf_append]
    rcases reserved_experiment hreserved with
      ⟨hcharges, valueCny, totalCny, hcharge, hsome⟩ | ⟨_, _, hnone⟩
    · rw [hsome] at htrial
      cases htrial
      have hsum := add_eq_of_exact hcharge.sum (hsound.2 valueCny hcharge.finite hcharges)
      rw [h.trialOf hcharged] at hsum
      simp [Reservation.onExperiment, made, hcharges, Reservation.countedCny, hcharge.finite, hsum]
    · rw [hnone] at htrial
      cases htrial

theorem Accounted.settle {spending next : Spending} {index : ℕ} {reservation : Reservation}
    {actual : Decimal} {actualCny : Option Decimal} {written : Bool} (h : spending.Accounted)
    (hindex : spending.reservations[index]? = some reservation) (hopen : reservation.settled = none)
    (hsound : spending.Sound (.settle index (some actual) actualCny written))
    (hok : spending.settle index reservation (some actual) actualCny written = .ok next) :
    next.Accounted := by
  obtain ⟨refunded, value, spent, rest, total, hsettled, hreservations⟩ := settle_eq_ok hok
  obtain ⟨hdaySound, hexperimentSound⟩ := hsound reservation hindex
  have hdays : refunded.days = spending.ledger.days := Budget.refundExperiment_days hsettled.refund
  have hspent : spending.ledger.spentOn reservation.day = spent := by
    rw [Budget.spentOn, hsettled.present, Option.getD_some]
  obtain ⟨hexactRest, hexactTotal⟩ := hdaySound value (congrArg some hsettled.actualFinite)
  rw [hspent] at hexactRest hexactTotal
  have hrest : rest = spent - reservation.reserved := sub_eq_of_exact hsettled.taken hexactRest
  have htotal : total = spent - reservation.reserved + value := by
    rw [← hrest] at hexactTotal ⊢
    exact add_eq_of_exact hsettled.put hexactTotal
  constructor
  · intro day
    rw [hreservations, totalOf_set _ hindex, ← h.days day, hsettled.result]
    by_cases hday : day = reservation.day
    · subst hday
      rw [Budget.spentOn_setDay, htotal, hspent]
      simp [Reservation.onDay, Reservation.counted, hopen]
    · rw [Budget.spentOn_setDay_of_ne refunded total hday, Budget.spentOn, hdays, ← Budget.spentOn]
      simp [Reservation.onDay, Ne.symm hday]
  · intro trial htrial
    rw [hreservations, totalOf_set _ hindex]
    rcases settled_experiment hsettled with
      ⟨_, hnone⟩ | ⟨before, reserved, valueActual, restCny, totalCny, hbefore, hrefund, hsome⟩
    · rw [hnone] at htrial
      cases htrial
    · rw [hsome] at htrial
      cases htrial
      obtain ⟨hexactRestCny, hexactTotalCny, hmatching⟩ := hexperimentSound before reserved
        valueActual hbefore hrefund.reservedFinite hrefund.actualFinite
      have hrestCny : restCny = before.reservedAndSpent - reserved :=
        sub_eq_of_exact hrefund.taken hexactRestCny
      have htotalCny : totalCny = before.reservedAndSpent - reserved + valueActual := by
        rw [← hrestCny] at hexactTotalCny ⊢
        exact add_eq_of_exact hrefund.put hexactTotalCny
      rw [← h.experiment before hbefore]
      change totalCny = _
      rw [htotalCny]
      cases hcharged : reservation.charged with
      | true =>
          simp [Reservation.onExperiment, hcharged, Reservation.countedCny, hopen,
            hrefund.reservedFinite, hrefund.actualFinite]
      | false =>
          have hsame : valueActual = reserved := by simpa [hcharged] using hmatching
          simp [Reservation.onExperiment, hcharged, hsame]

theorem Accounted.approveExperiment {spending next : Spending} {limit : Decimal} {written : Bool}
    (h : spending.Accounted) (hcharged : spending.ChargedWithin)
    (hok : spending.approveExperiment limit written = .ok next) : next.Accounted := by
  obtain ⟨value, _, rfl⟩ := approveExperiment_eq_ok hok
  constructor
  · exact h.days
  · intro trial htrial
    cases htrial
    exact h.trialOf hcharged value

theorem accounted_start : start.Accounted where
  days _ := rfl
  experiment _ h := nomatch h

theorem accounted_step {spending : Spending} {call : BudgetCall} (h : spending.Accounted)
    (hcharged : spending.ChargedWithin) (hsound : spending.Sound call) :
    (spending.step call).Accounted := by
  rcases step_cases spending call with hsame | ⟨day, amount, cfg, taskSpent, amountCny, written,
    rfl, hok⟩ | ⟨limit, written, rfl, hok⟩ | ⟨index, reservation, actual, actualCny, written, rfl,
    hindex, hopen, hok⟩
  · rw [hsame]
    exact h
  · exact h.reserve hcharged hsound hok
  · exact h.approveExperiment hcharged hok
  · exact h.settle hindex hopen hsound hok

def LimitedTo (limit : ℚ) (spending : Spending) : Prop :=
  ∃ trial, spending.ledger.experiment = some trial ∧ trial.limit ≤ limit

theorem limitedTo_step {limit : ℚ} {spending : Spending} (h : spending.LimitedTo limit)
    (call : BudgetCall) : (spending.step call).LimitedTo limit := by
  obtain ⟨trial, htrial, hlimit⟩ := h
  have htrialOf : ∀ other, spending.ledger.trialOf other = trial := by
    intro other
    rw [Budget.trialOf, htrial, Option.getD_some]
  rcases step_cases spending call with hsame | ⟨day, amount, cfg, taskSpent, amountCny, written,
    -, hok⟩ | ⟨limit, written, -, hok⟩ | ⟨index, reservation, actual, actualCny, written, -, -, -,
    hok⟩
  · rw [hsame]
    exact ⟨trial, htrial, hlimit⟩
  · obtain ⟨charged, value, spent, total, taskTotal, hreserved, _⟩ := reserve_eq_ok hok
    rcases reserved_experiment hreserved with ⟨_, _, _, _, hsome⟩ | ⟨_, hnone, _⟩
    · refine ⟨_, hsome, ?_⟩
      rw [htrialOf]
      exact (min_le_right _ _).trans hlimit
    · rw [htrial] at hnone
      cases hnone
  · obtain ⟨value, _, hnext⟩ := approveExperiment_eq_ok hok
    refine ⟨_, congrArg (·.ledger.experiment) hnext, ?_⟩
    rw [htrialOf]
    exact (min_le_right _ _).trans hlimit
  · obtain ⟨refunded, value, spent, rest, total, hsettled, _⟩ := settle_eq_ok hok
    rcases settled_experiment hsettled with ⟨hnone, _⟩ | ⟨before, _, _, _, _, hbefore, _, hsome⟩
    · rw [htrial] at hnone
      cases hnone
    · rw [htrial] at hbefore
      cases hbefore
      exact ⟨_, hsome, hlimit⟩

theorem limitedTo_run {limit : ℚ} {spending : Spending} (h : spending.LimitedTo limit)
    (calls : List BudgetCall) : (calls.foldl step spending).LimitedTo limit :=
  (Runs.always_of_invariant step (LimitedTo limit) (fun _ call hs => limitedTo_step hs call)
    spending calls h).last

/-- In every run of calls whose sums keep their digits and whose settlements in an experiment are
of reservations charged to it, the file accounts for the reservations after each call. In every
run an experiment stays with a limit that never increases. -/
theorem ledger_accounts (calls : List BudgetCall)
    (hsound : Runs.StepsMeet step Sound start calls) :
    Runs.Always step Accounted start calls ∧
      ∀ earlier later, calls = earlier ++ later →
        ∀ trial, (earlier.foldl step start).ledger.experiment = some trial →
          (calls.foldl step start).LimitedTo trial.limit := by
  constructor
  · have hboth := Runs.always_of_stepsMeet step (fun s => s.Accounted ∧ s.ChargedWithin)
      (fun _ call hs hmet => ⟨accounted_step hs.1 hs.2 hmet, chargedWithin_step hs.2 call⟩)
      start calls ⟨accounted_start, chargedWithin_start⟩ hsound
    exact hboth.imp step fun _ h => h.1
  · rintro earlier later rfl trial htrial
    rw [List.foldl_append]
    exact limitedTo_run ⟨trial, htrial, le_rfl⟩ later

section Sample

/-- Settings that allow ten cents a day, with the given ceiling of the experiment. -/
def sampleConfig (experimentBudgetCny : ℚ) (h : 0 ≤ experimentBudgetCny ∧ experimentBudgetCny ≤ 3) :
    AgentRuntimeConfig where
  enabled := true
  backend := .cloud
  paymentAuthorized := true
  generationAuthorized := false
  dailyBudgetUsd := 10 / 100
  taskBudgetUsd := 2 / 100
  experimentBudgetCny := experimentBudgetCny
  maxModelRequests := 3
  maxContextBytes := 16384
  maxOutputTokens := 512
  daily_nonneg := by norm_num
  daily_le := le_rfl
  task_nonneg := by norm_num
  task_le := le_rfl
  experiment_nonneg := h.1
  experiment_le := h.2
  requests_pos := by norm_num
  requests_le := le_rfl
  context_ge := by norm_num
  context_le := by norm_num
  output_ge := by norm_num
  output_le := by norm_num
  payment _ _ := ⟨rfl, by norm_num, by norm_num⟩
  generation _ _ h := nomatch h

def sampleDay : Date := .of 2026 10 6

/-- The reservation of a tenth of a cent and of one fen. -/
def sampleReserve (experimentBudgetCny : ℚ)
    (h : 0 ≤ experimentBudgetCny ∧ experimentBudgetCny ≤ 3) : BudgetCall :=
  .reserve sampleDay (.finite (1 / 1000)) (sampleConfig experimentBudgetCny h) (.finite 0)
    (some (.finite (1 / 100))) true

/-- Half of a reservation is settled. -/
def sampleSettle : BudgetCall :=
  .settle 0 (some (.finite (1 / 2000))) (some (.finite (1 / 200))) true

/-- A reservation that is charged to an experiment of three yuan, and its settlement. -/
theorem charged_accounts :
    Runs.Always step Accounted start [sampleReserve 3 (by norm_num), sampleSettle] ∧
      ∀ earlier later, [sampleReserve 3 (by norm_num), sampleSettle] = earlier ++ later →
        ∀ trial, (earlier.foldl step start).ledger.experiment = some trial →
          ([sampleReserve 3 (by norm_num), sampleSettle].foldl step start).LimitedTo
            trial.limit := by
  refine ledger_accounts _ ⟨⟨?_, ?_⟩, ?_, trivial⟩
  · rintro value h
    cases h
    unfold Exact
    decide +kernel
  · rintro value h -
    cases h
    unfold Exact
    decide +kernel
  · intro reservation hreservation
    have hmade : (start.step (sampleReserve 3 (by norm_num))).reservations[0]? =
        some ⟨sampleDay, 1 / 1000, some (.finite (1 / 100)), true, none⟩ := by decide +kernel
    rw [hmade] at hreservation
    cases hreservation
    constructor
    · rintro value h
      cases h
      unfold Exact
      decide +kernel
    · rintro trial reserved value htrial hreserved hvalue
      have hexperiment : (start.step (sampleReserve 3 (by norm_num))).ledger.experiment =
          some ⟨3, 1 / 100⟩ := by decide +kernel
      rw [hexperiment] at htrial
      cases htrial
      cases hreserved
      cases hvalue
      unfold Exact
      decide +kernel

/-- A reservation from before the experiment is settled in it: the file then says that half a fen
is spent of the fen that the other reservation holds. -/
theorem straddling_not_accounted : ¬ Runs.Always step Accounted start
    [sampleReserve 0 (by norm_num), .approveExperiment (.finite 3) true,
      sampleReserve 3 (by norm_num), sampleSettle] := by
  intro h
  have hend := h.last.experiment
  have hfile : ([sampleReserve 0 (by norm_num), .approveExperiment (.finite 3) true,
      sampleReserve 3 (by norm_num), sampleSettle].foldl step start).ledger.experiment.map
        Experiment.reservedAndSpent = some (1 / 200) := by decide +kernel
  have hcharged : totalOf Reservation.onExperiment
      ([sampleReserve 0 (by norm_num), .approveExperiment (.finite 3) true,
        sampleReserve 3 (by norm_num), sampleSettle].foldl step start).reservations = 1 / 100 := by
    decide +kernel
  obtain ⟨trial, htrial, hspent⟩ := Option.map_eq_some_iff.mp hfile
  have hsame := hend trial htrial
  rw [hspent, hcharged] at hsame
  norm_num at hsame

end Sample

end Spending

end QuantWorkbench.Workbench
