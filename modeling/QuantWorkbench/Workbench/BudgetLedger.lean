import QuantWorkbench.Lib.Calendar
import QuantWorkbench.Lib.Decimals
import QuantWorkbench.Lib.Fallible
import QuantWorkbench.Lib.Keyed
import QuantWorkbench.Lib.Runs

/-!
The settings of the optional analysis of `workbench/agent_config.py`. Budgets are kept as the
exact values of their texts. A configuration carries what its validators have checked, so one
that is enabled for the cloud without its authorizations cannot be built.
-/

namespace QuantWorkbench.Workbench

inductive AgentBackend where
  | local
  | cloud
  deriving DecidableEq

structure AgentRuntimeConfig where
  enabled : Bool
  backend : AgentBackend
  paymentAuthorized : Bool
  generationAuthorized : Bool
  dailyBudgetUsd : ℚ
  taskBudgetUsd : ℚ
  experimentBudgetCny : ℚ
  maxModelRequests : ℕ
  maxContextBytes : ℕ
  maxOutputTokens : ℕ
  daily_nonneg : 0 ≤ dailyBudgetUsd
  daily_le : dailyBudgetUsd ≤ 10 / 100
  task_nonneg : 0 ≤ taskBudgetUsd
  task_le : taskBudgetUsd ≤ 2 / 100
  experiment_nonneg : 0 ≤ experimentBudgetCny
  experiment_le : experimentBudgetCny ≤ 3
  requests_pos : 1 ≤ maxModelRequests
  requests_le : maxModelRequests ≤ 3
  context_ge : 4096 ≤ maxContextBytes
  context_le : maxContextBytes ≤ 32768
  output_ge : 128 ≤ maxOutputTokens
  output_le : maxOutputTokens ≤ 2048
  payment : enabled → backend = .cloud →
    paymentAuthorized ∧ 0 < dailyBudgetUsd ∧ 0 < taskBudgetUsd
  generation : enabled → backend = .cloud → generationAuthorized → 0 < experimentBudgetCny

namespace AgentRuntimeConfig

/-- The prices of a million tokens, of which a configuration admits one value each. -/
def inputUsdPerMillion : ℚ := 30 / 100

def outputUsdPerMillion : ℚ := 120 / 100

def inputCnyPerMillion : ℚ := 200 / 100

def outputCnyPerMillion : ℚ := 800 / 100

/-- The configuration that a question about research is run with. -/
def forResearch (cfg : AgentRuntimeConfig) : AgentRuntimeConfig :=
  { cfg with
    maxOutputTokens := 2048
    maxContextBytes := 32768
    context_ge := by norm_num
    context_le := le_rfl
    output_ge := by norm_num
    output_le := le_rfl }

end AgentRuntimeConfig

end QuantWorkbench.Workbench

/-!
`BudgetLedger` of `workbench/agent_runtime.py`: amounts reserved and spent on each day, and those
of one experiment with a ceiling. A locked section reads the file, computes its new content and
replaces it, so that a call that raises before the end of its section leaves the file as it was.
An absent file is read as the empty budget.
-/

namespace QuantWorkbench.Workbench

open Lib

inductive BudgetError where
  | invalid
  | exhausted
  | usageBoundExceeded
  /-- A trapped signal of decimal arithmetic. -/
  | arithmetic
  | dayMissing
  | notWritten
  deriving DecidableEq

/-- The text of the error where the ledger raises it itself. -/
def BudgetError.message? : BudgetError → Option String
  | .invalid => some "AGENT_BUDGET_INVALID"
  | .exhausted => some "BUDGET_EXHAUSTED"
  | .usageBoundExceeded => some "AGENT_USAGE_BOUND_EXCEEDED"
  | .arithmetic | .dayMissing | .notWritten => none

structure DayAmount where
  day : Date
  amount : ℚ

structure Experiment where
  limit : ℚ
  reservedAndSpent : ℚ
  deriving DecidableEq

/-- The content of the ledger file. -/
structure Budget where
  days : Keyed DayAmount.day
  experiment : Option Experiment

namespace Budget

def empty : Budget := ⟨.empty, none⟩

def spentOn (budget : Budget) (day : Date) : ℚ :=
  ((budget.days.get? day).map DayAmount.amount).getD 0

def setDay (budget : Budget) (day : Date) (amount : ℚ) : Budget :=
  { budget with days := budget.days.put ⟨day, amount⟩ }

/-- What a content of the file has to satisfy when it is read. -/
def Valid (budget : Budget) : Prop :=
  (∀ entry ∈ budget.days.values, 0 ≤ entry.amount) ∧
    ∀ trial ∈ budget.experiment, 0 ≤ trial.reservedAndSpent ∧ 0 < trial.limit ∧ trial.limit ≤ 3

instance (budget : Budget) : Decidable budget.Valid := by
  unfold Valid
  infer_instance

def read (budget : Budget) : Except BudgetError Budget := do
  require budget.Valid .invalid
  return budget

def add (x y : ℚ) : Except BudgetError ℚ :=
  orRaise (DecimalContext.default.result? (x + y)) .arithmetic

def sub (x y : ℚ) : Except BudgetError ℚ :=
  orRaise (DecimalContext.default.result? (x - y)) .arithmetic

/-- A reservation is charged to the experiment if there is one or the settings start one. -/
def Charges (budget : Budget) (cfg : AgentRuntimeConfig) : Prop :=
  0 < cfg.experimentBudgetCny ∨ budget.experiment.isSome

instance (budget : Budget) (cfg : AgentRuntimeConfig) : Decidable (budget.Charges cfg) := by
  unfold Charges
  infer_instance

/-- The experiment that a charge goes to. -/
def trialOf (budget : Budget) (limit : ℚ) : Experiment :=
  budget.experiment.getD ⟨limit, 0⟩

def chargeExperiment (budget : Budget) (cfg : AgentRuntimeConfig) (amountCny : Option Decimal) :
    Except BudgetError Budget :=
  if budget.Charges cfg then do
    let trial := budget.trialOf cfg.experimentBudgetCny
    -- an existing experiment is not reset, raised or disabled by other settings
    let limit := min cfg.experimentBudgetCny trial.limit
    let amount ← orRaise (amountCny.bind Decimal.finite?) .exhausted
    require (0 < amount) .exhausted
    let total ← add trial.reservedAndSpent amount
    require (total ≤ limit) .exhausted
    return { budget with experiment := some ⟨limit, total⟩ }
  else
    return budget

def reserve (budget : Budget) (day : Date) (amount : Decimal) (cfg : AgentRuntimeConfig)
    (taskSpent : Decimal) (amountCny : Option Decimal) : Except BudgetError Budget := do
  let stored ← budget.read
  let charged ← stored.chargeExperiment cfg amountCny
  let spent := charged.spentOn day
  require (0 ≤ spent) .exhausted
  let amount ← orRaise amount.finite? .exhausted
  require (0 < amount) .exhausted
  let taskSpent ← orRaise taskSpent.finite? .exhausted
  require (0 ≤ taskSpent) .exhausted
  let total ← add spent amount
  require (total ≤ cfg.dailyBudgetUsd) .exhausted
  let taskTotal ← add taskSpent amount
  require (taskTotal ≤ cfg.taskBudgetUsd) .exhausted
  return charged.setDay day total

def approveExperiment (budget : Budget) (limit : Decimal) : Except BudgetError Budget := do
  let limit ← orRaise limit.finite? .invalid
  require (0 < limit ∧ limit ≤ 3) .invalid
  let stored ← budget.read
  let trial := stored.trialOf limit
  return { stored with experiment := some { trial with limit := min limit trial.limit } }

/-- Takes the reservation out of the experiment and puts the charge in. -/
def refundExperiment (budget : Budget) (reservedCny actualCny : Option Decimal) :
    Except BudgetError Budget :=
  match budget.experiment with
  | none => .ok budget
  | some trial => do
      let reserved ← orRaise (reservedCny.bind Decimal.finite?) .invalid
      let actual ← orRaise (actualCny.bind Decimal.finite?) .invalid
      require (0 < reserved ∧ 0 ≤ actual) .invalid
      let rest ← sub trial.reservedAndSpent reserved
      let total ← add rest actual
      return { budget with experiment := some { trial with reservedAndSpent := total } }

/-- What `settle` writes for a usage that is known; it returns at once for one that is not. -/
def settle (budget : Budget) (day : Date) (reserved actual : Decimal)
    (reservedCny actualCny : Option Decimal) : Except BudgetError Budget := do
  let actual ← orRaise actual.finite? .invalid
  let reserved ← orRaise reserved.finite? .invalid
  require (0 ≤ actual ∧ 0 < reserved) .invalid
  let stored ← budget.read
  let refunded ← stored.refundExperiment reservedCny actualCny
  let spent ← orRaise ((refunded.days.get? day).map DayAmount.amount) .dayMissing
  let rest ← sub spent reserved
  let total ← add rest actual
  require (0 ≤ total ∧ ∀ trial ∈ refunded.experiment, 0 ≤ trial.reservedAndSpent) .invalid
  return refunded.setDay day total

/-- What `settle` raises after it has written. -/
def checkBound (reserved actual : Decimal) (reservedCny actualCny : Option Decimal) :
    Except BudgetError Unit := do
  let above ← orRaise (actual.greater? reserved) .arithmetic
  require (above = false) .usageBoundExceeded
  match actualCny, reservedCny with
  | some actualCny, some reservedCny => do
      let above ← orRaise (actualCny.greater? reservedCny) .arithmetic
      require (above = false) .usageBoundExceeded
  | _, _ => return ()

@[simp] theorem spentOn_setDay (budget : Budget) (day : Date) (amount : ℚ) :
    (budget.setDay day amount).spentOn day = amount := by
  rw [spentOn, setDay, @Keyed.get?_put _ _ DayAmount.day _ budget.days ⟨day, amount⟩]
  rfl

theorem spentOn_setDay_of_ne (budget : Budget) {day other : Date} (amount : ℚ)
    (h : other ≠ day) : (budget.setDay day amount).spentOn other = budget.spentOn other := by
  rw [spentOn, setDay, Keyed.get?_put_of_ne budget.days (a := ⟨day, amount⟩) h]
  rfl

@[simp] theorem experiment_setDay (budget : Budget) (day : Date) (amount : ℚ) :
    (budget.setDay day amount).experiment = budget.experiment := rfl

theorem read_eq_ok_iff {budget stored : Budget} :
    budget.read = .ok stored ↔ budget.Valid ∧ budget = stored := by
  simp only [read, bind_eq_ok_iff, require_eq_ok_iff, exists_const]
  constructor
  · rintro ⟨hvalid, h⟩
    cases h
    exact ⟨hvalid, rfl⟩
  · rintro ⟨hvalid, rfl⟩
    exact ⟨hvalid, rfl⟩

theorem add_eq_ok_iff {x y total : ℚ} :
    add x y = .ok total ↔ DecimalContext.default.result? (x + y) = some total :=
  orRaise_eq_ok_iff

theorem sub_eq_ok_iff {x y total : ℚ} :
    sub x y = .ok total ↔ DecimalContext.default.result? (x - y) = some total :=
  orRaise_eq_ok_iff

theorem finite?_bind_eq_some_iff {amount : Option Decimal} {value : ℚ} :
    amount.bind Decimal.finite? = some value ↔ amount = some (.finite value) := by
  simp [Option.bind_eq_some_iff]

/-- What a charge of the experiment has checked, and what it leaves. -/
structure Charge (budget : Budget) (cfg : AgentRuntimeConfig) (amountCny : Option Decimal)
    (charged : Budget) (amount total : ℚ) : Prop where
  finite : amountCny = some (.finite amount)
  positive : 0 < amount
  sum : add (budget.trialOf cfg.experimentBudgetCny).reservedAndSpent amount = .ok total
  within : total ≤ min cfg.experimentBudgetCny (budget.trialOf cfg.experimentBudgetCny).limit
  result : charged = { budget with
    experiment := some
      ⟨min cfg.experimentBudgetCny (budget.trialOf cfg.experimentBudgetCny).limit, total⟩ }

theorem chargeExperiment_eq_ok_iff {budget charged : Budget} {cfg : AgentRuntimeConfig}
    {amountCny : Option Decimal} (h : budget.Charges cfg) :
    budget.chargeExperiment cfg amountCny = .ok charged ↔
      ∃ amount total, Charge budget cfg amountCny charged amount total := by
  rw [chargeExperiment, if_pos h]
  simp only [bind_eq_ok_iff, require_eq_ok_iff, orRaise_eq_ok_iff, finite?_bind_eq_some_iff,
    exists_const]
  constructor
  · rintro ⟨amount, hfinite, hpositive, total, hsum, hwithin, hresult⟩
    exact ⟨amount, total, hfinite, hpositive, hsum, hwithin, (Except.ok.inj hresult).symm⟩
  · rintro ⟨amount, total, hfinite, hpositive, hsum, hwithin, rfl⟩
    exact ⟨amount, hfinite, hpositive, total, hsum, hwithin, rfl⟩

theorem chargeExperiment_of_not {budget : Budget} {cfg : AgentRuntimeConfig}
    {amountCny : Option Decimal} (h : ¬ budget.Charges cfg) :
    budget.chargeExperiment cfg amountCny = .ok budget := if_neg h

theorem chargeExperiment_days {budget charged : Budget} {cfg : AgentRuntimeConfig}
    {amountCny : Option Decimal} (h : budget.chargeExperiment cfg amountCny = .ok charged) :
    charged.days = budget.days := by
  by_cases hcharges : budget.Charges cfg
  · obtain ⟨amount, total, hcharge⟩ := (chargeExperiment_eq_ok_iff hcharges).mp h
    rw [hcharge.result]
  · rw [chargeExperiment_of_not hcharges] at h
    cases h
    rfl

/-- What a successful reservation has checked, and what it leaves. -/
structure Reserved (budget : Budget) (day : Date) (amount : Decimal) (cfg : AgentRuntimeConfig)
    (taskSpent : Decimal) (amountCny : Option Decimal) (written charged : Budget)
    (value spent total taskTotal : ℚ) : Prop where
  valid : budget.Valid
  charge : budget.chargeExperiment cfg amountCny = .ok charged
  notNegative : 0 ≤ budget.spentOn day
  finite : amount = .finite value
  positive : 0 < value
  taskFinite : taskSpent = .finite spent
  taskNotNegative : 0 ≤ spent
  sum : add (budget.spentOn day) value = .ok total
  within : total ≤ cfg.dailyBudgetUsd
  taskSum : add spent value = .ok taskTotal
  taskWithin : taskTotal ≤ cfg.taskBudgetUsd
  result : written = charged.setDay day total

theorem reserve_eq_ok_iff {budget written : Budget} {day : Date} {amount : Decimal}
    {cfg : AgentRuntimeConfig} {taskSpent : Decimal} {amountCny : Option Decimal} :
    budget.reserve day amount cfg taskSpent amountCny = .ok written ↔
      ∃ charged value spent total taskTotal, Reserved budget day amount cfg taskSpent amountCny
        written charged value spent total taskTotal := by
  simp only [reserve, bind_eq_ok_iff, require_eq_ok_iff, orRaise_eq_ok_iff, read_eq_ok_iff,
    Decimal.finite?_eq_some_iff, exists_const]
  constructor
  · rintro ⟨_, ⟨hvalid, rfl⟩, charged, hcharge, hnonneg, value, hfinite, hpositive, spent, htask,
      htaskNonneg, total, hsum, hwithin, taskTotal, htaskSum, htaskWithin, hresult⟩
    rw [spentOn, chargeExperiment_days hcharge] at hnonneg hsum
    exact ⟨charged, value, spent, total, taskTotal, hvalid, hcharge, hnonneg, hfinite, hpositive,
      htask, htaskNonneg, hsum, hwithin, htaskSum, htaskWithin, (Except.ok.inj hresult).symm⟩
  · rintro ⟨charged, value, spent, total, taskTotal, h⟩
    have hspent : charged.spentOn day = budget.spentOn day := by
      rw [spentOn, chargeExperiment_days h.charge, ← spentOn]
    refine ⟨budget, ⟨h.valid, rfl⟩, charged, h.charge, ?_, value, h.finite, h.positive, spent,
      h.taskFinite, h.taskNotNegative, total, ?_, h.within, taskTotal, h.taskSum, h.taskWithin, ?_⟩
    · rw [hspent]
      exact h.notNegative
    · rw [hspent]
      exact h.sum
    · rw [h.result]
      rfl

theorem approveExperiment_eq_ok_iff {budget written : Budget} {limit : Decimal} :
    budget.approveExperiment limit = .ok written ↔
      ∃ value, limit = .finite value ∧ (0 < value ∧ value ≤ 3) ∧ budget.Valid ∧
        written = { budget with
          experiment := some { budget.trialOf value with
            limit := min value (budget.trialOf value).limit } } := by
  simp only [approveExperiment, bind_eq_ok_iff, require_eq_ok_iff, orRaise_eq_ok_iff,
    read_eq_ok_iff, Decimal.finite?_eq_some_iff, exists_const]
  constructor
  · rintro ⟨value, hfinite, hlimit, _, ⟨hvalid, rfl⟩, hresult⟩
    exact ⟨value, hfinite, hlimit, hvalid, (Except.ok.inj hresult).symm⟩
  · rintro ⟨value, hfinite, hlimit, hvalid, rfl⟩
    exact ⟨value, hfinite, hlimit, budget, ⟨hvalid, rfl⟩, rfl⟩

/-- What a refund of an experiment has checked, and what it leaves. -/
structure Refund (trial : Experiment) (reservedCny actualCny : Option Decimal)
    (reserved actual rest total : ℚ) : Prop where
  reservedFinite : reservedCny = some (.finite reserved)
  actualFinite : actualCny = some (.finite actual)
  signs : 0 < reserved ∧ 0 ≤ actual
  taken : sub trial.reservedAndSpent reserved = .ok rest
  put : add rest actual = .ok total

theorem refundExperiment_eq_ok_iff {budget refunded : Budget} {trial : Experiment}
    {reservedCny actualCny : Option Decimal} (h : budget.experiment = some trial) :
    budget.refundExperiment reservedCny actualCny = .ok refunded ↔
      ∃ reserved actual rest total, Refund trial reservedCny actualCny reserved actual rest total ∧
        refunded =
          { budget with experiment := some { trial with reservedAndSpent := total } } := by
  rw [refundExperiment, h]
  simp only [bind_eq_ok_iff, require_eq_ok_iff, orRaise_eq_ok_iff, finite?_bind_eq_some_iff,
    exists_const]
  constructor
  · rintro ⟨reserved, hreserved, actual, hactual, hsigns, rest, htaken, total, hput, hresult⟩
    exact ⟨reserved, actual, rest, total, ⟨hreserved, hactual, hsigns, htaken, hput⟩,
      (Except.ok.inj hresult).symm⟩
  · rintro ⟨reserved, actual, rest, total, hrefund, rfl⟩
    exact ⟨reserved, hrefund.reservedFinite, actual, hrefund.actualFinite, hrefund.signs, rest,
      hrefund.taken, total, hrefund.put, rfl⟩

theorem refundExperiment_of_none {budget : Budget} {reservedCny actualCny : Option Decimal}
    (h : budget.experiment = none) :
    budget.refundExperiment reservedCny actualCny = .ok budget := by
  rw [refundExperiment, h]

theorem refundExperiment_days {budget refunded : Budget} {reservedCny actualCny : Option Decimal}
    (h : budget.refundExperiment reservedCny actualCny = .ok refunded) :
    refunded.days = budget.days := by
  cases htrial : budget.experiment with
  | none =>
      rw [refundExperiment_of_none htrial] at h
      cases h
      rfl
  | some trial =>
      obtain ⟨_, _, _, _, _, rfl⟩ := (refundExperiment_eq_ok_iff htrial).mp h
      rfl

/-- What a settlement that writes has checked, and what it leaves. -/
structure Settled (budget : Budget) (day : Date) (reserved actual : Decimal)
    (reservedCny actualCny : Option Decimal) (written refunded : Budget)
    (reservedValue actualValue spent rest total : ℚ) : Prop where
  actualFinite : actual = .finite actualValue
  reservedFinite : reserved = .finite reservedValue
  signs : 0 ≤ actualValue ∧ 0 < reservedValue
  valid : budget.Valid
  refund : budget.refundExperiment reservedCny actualCny = .ok refunded
  present : (budget.days.get? day).map DayAmount.amount = some spent
  taken : sub spent reservedValue = .ok rest
  put : add rest actualValue = .ok total
  notNegative : 0 ≤ total ∧ ∀ trial ∈ refunded.experiment, 0 ≤ trial.reservedAndSpent
  result : written = refunded.setDay day total

theorem settle_eq_ok_iff {budget written : Budget} {day : Date} {reserved actual : Decimal}
    {reservedCny actualCny : Option Decimal} :
    budget.settle day reserved actual reservedCny actualCny = .ok written ↔
      ∃ refunded reservedValue actualValue spent rest total, Settled budget day reserved actual
        reservedCny actualCny written refunded reservedValue actualValue spent rest total := by
  simp only [settle, bind_eq_ok_iff, require_eq_ok_iff, orRaise_eq_ok_iff, read_eq_ok_iff,
    Decimal.finite?_eq_some_iff, exists_const]
  constructor
  · rintro ⟨actualValue, hactual, reservedValue, hreserved, hsigns, _, ⟨hvalid, rfl⟩, refunded,
      hrefund, spent, hpresent, rest, htaken, total, hput, hnonneg, hresult⟩
    rw [refundExperiment_days hrefund] at hpresent
    exact ⟨refunded, reservedValue, actualValue, spent, rest, total, hactual, hreserved, hsigns,
      hvalid, hrefund, hpresent, htaken, hput, hnonneg, (Except.ok.inj hresult).symm⟩
  · rintro ⟨refunded, reservedValue, actualValue, spent, rest, total, h⟩
    refine ⟨actualValue, h.actualFinite, reservedValue, h.reservedFinite, h.signs, budget,
      ⟨h.valid, rfl⟩, refunded, h.refund, spent, ?_, rest, h.taken, total, h.put, h.notNegative, ?_⟩
    · rw [refundExperiment_days h.refund]
      exact h.present
    · rw [h.result]
      rfl

end Budget

end QuantWorkbench.Workbench
