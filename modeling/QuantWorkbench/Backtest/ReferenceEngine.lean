import Mathlib.Data.Rat.Floor
import QuantWorkbench.Lib.Fields
import QuantWorkbench.Lib.Runs
import QuantWorkbench.Lib.Tables
import QuantWorkbench.Strategies.Contracts

/-!
The research backtest. Signals are turned into events before the loop over the dates; on the date
of an event each symbol whose weight is to change gets an order, and the weights of the day are the
targets of the event, with the old weights of the orders that were blocked.
-/

namespace QuantWorkbench.Backtest

open Lib
open Strategies (PortfolioTarget)

abbrev Weights := Keyed (Prod.fst : Text × ℚ → Text)

namespace Weights

def weight (weights : Weights) (symbol : Text) : ℚ :=
  ((weights.get? symbol).map Prod.snd).getD 0

def total (weights : Weights) : ℚ := (weights.values.map Prod.snd).sum

end Weights

inductive Side where
  | buy
  | sell
  deriving DecidableEq

/-! ### Costs -/

structure CostModel where
  commissionRate : ℚ
  minimumCommission : ℚ
  stampDutyRate : ℚ
  transferFeeRate : ℚ
  slippageBps : ℚ
  lotSize : ℕ
  commissionRate_nonneg : 0 ≤ commissionRate
  minimumCommission_nonneg : 0 ≤ minimumCommission
  stampDutyRate_nonneg : 0 ≤ stampDutyRate
  transferFeeRate_nonneg : 0 ≤ transferFeeRate
  slippageBps_nonneg : 0 ≤ slippageBps
  lotSize_pos : 0 < lotSize

theorem boardLot_pos : 0 < 100 := by norm_num

/-- The costs of a plain account. -/
def sampleCosts : CostModel where
  commissionRate := 3 / 10000
  minimumCommission := 5
  stampDutyRate := 5 / 10000
  transferFeeRate := 1 / 100000
  slippageBps := 5
  lotSize := 100
  commissionRate_nonneg := by norm_num
  minimumCommission_nonneg := by norm_num
  stampDutyRate_nonneg := by norm_num
  transferFeeRate_nonneg := by norm_num
  slippageBps_nonneg := by norm_num
  lotSize_pos := boardLot_pos

structure FeeBreakdown where
  notional : ℚ
  slippage : ℚ
  commission : ℚ
  stampDuty : ℚ
  transferFee : ℚ

def FeeBreakdown.total (fees : FeeBreakdown) : ℚ :=
  fees.slippage + fees.commission + fees.stampDuty + fees.transferFee

namespace CostModel

variable (model : CostModel)

def fillableQuantity (quantity : ℚ) : Except String ℤ := do
  require (0 ≤ quantity) "quantity must be finite and non-negative"
  return ⌊quantity / model.lotSize⌋ * model.lotSize

def estimate (side : Side) (price : ℚ) (quantity : ℤ) : Except String FeeBreakdown := do
  require (0 < price) "price must be finite and positive"
  let filledQuantity ← model.fillableQuantity quantity
  require (0 < filledQuantity ∧ quantity = filledQuantity) "quantity must be a positive whole lot"
  let notional := price * filledQuantity
  return {
    notional
    slippage := notional * model.slippageBps / 10000
    commission := max (notional * model.commissionRate) model.minimumCommission
    stampDuty := if side = .sell then notional * model.stampDutyRate else 0
    transferFee := notional * model.transferFeeRate }

end CostModel

/-! ### Runs -/

structure ReferenceBar where
  date : Date
  symbol : Text
  close : ℚ
  /-- Missing if the column holds no number. -/
  «open» : Option ℚ
  isSuspended : Bool
  isLimitUp : Bool
  isLimitDown : Bool

structure Execution where
  slippage : ℚ
  commission : ℚ
  tax : ℚ
  limitRule : Bool
  suspensionRule : Bool

structure Event where
  signalDate : Date
  executionDate : Date
  execution : Execution
  targets : Weights

/-- What the loop over the dates runs on: prepared bars, the events by their dates, and the cost
model with the initial capital, if there is one. -/
structure ReferenceLoop where
  bars : List ReferenceBar
  events : Date → Option Event
  capital : Option (CostModel × ℚ)
  currentPositions : Weights

inductive Rejection where
  | missingBar
  | suspended
  | limitUpBuyLocked
  | limitDownSellLocked
  | belowLotSize
  deriving DecidableEq

def Rejection.text : Rejection → String
  | missingBar => "missing_bar"
  | suspended => "suspended"
  | limitUpBuyLocked => "limit_up_buy_locked"
  | limitDownSellLocked => "limit_down_sell_locked"
  | belowLotSize => "below_lot_size"

structure OrderRow where
  date : Date
  signalDate : Date
  executionDate : Date
  symbol : Text
  side : Side
  previousWeight : ℚ
  targetWeight : ℚ
  rejectionReason : Option Rejection
  executionPrice : Option ℚ
  estimatedCost : ℚ
  filledQuantity : Option ℤ
  grossNotional : ℚ

def OrderRow.filled (row : OrderRow) : Bool := row.rejectionReason.isNone

/-- The order was blocked by its bar, before its quantity was known. -/
def OrderRow.blocked (row : OrderRow) : Bool :=
  row.rejectionReason.any fun reason => reason ≠ .belowLotSize

/-- What the loop over the dates carries. -/
structure ReferenceState where
  held : Weights
  nav : ℚ
  previousClose : Text → Option ℚ
  orders : List OrderRow
  returns : List ℚ
  costs : List ℚ

/-- Weights and changes up to this are none. -/
def tolerance : ℚ := 1 / 10 ^ 12

/-- Why an order is blocked by its bar. -/
def barRejection (execution : Execution) (bar : Option ReferenceBar) (delta : ℚ) :
    Option Rejection :=
  match bar with
  | none => some .missingBar
  | some bar =>
      if execution.suspensionRule ∧ bar.isSuspended then some .suspended
      else if execution.limitRule ∧ 0 < delta ∧ bar.isLimitUp then some .limitUpBuyLocked
      else if execution.limitRule ∧ delta < 0 ∧ bar.isLimitDown then some .limitDownSellLocked
      else none

namespace ReferenceLoop

variable (b : ReferenceLoop)

def dates : List Date := sortedSet (b.bars.map ReferenceBar.date)

def barsOn (day : Date) (symbol : Text) : List ReferenceBar :=
  b.bars.filter fun bar => bar.date = day ∧ bar.symbol = symbol

def closeOn (day : Date) (symbol : Text) : Option ℚ :=
  ((b.barsOn day symbol).getLast?).map ReferenceBar.close

def barOn (day : Date) (symbol : Text) : Except String (Option ReferenceBar) :=
  match b.barsOn day symbol with
  | [] => .ok none
  | [bar] => .ok (some bar)
  | _ => .error "The truth value of a Series is ambiguous."

/-- What became of an order. -/
structure Fill where
  rejectionReason : Option Rejection
  estimatedCost : ℚ
  filledQuantity : Option ℤ
  grossNotional : ℚ

def fillLots (model : CostModel) (initialCapital delta price : ℚ) (filledQuantity : ℤ) :
    Except String Fill :=
  if filledQuantity ≤ 0 then .ok ⟨some .belowLotSize, 0, some filledQuantity, 0⟩
  else do
    let fees ← model.estimate (if 0 < delta then .buy else .sell) price filledQuantity
    return ⟨none, fees.total / initialCapital, some filledQuantity, fees.notional⟩

/-- What an order fills and costs; without a capital its weight is filled as it is. -/
def fill (execution : Execution) (nav delta : ℚ) (price : Option ℚ) : Except String Fill :=
  match b.capital with
  | none =>
      let rate := if 0 < delta then execution.commission + execution.slippage
        else execution.commission + execution.slippage + execution.tax
      .ok ⟨none, |delta| * rate, none, 0⟩
  | some (model, initialCapital) => do
      let requestedNotional := |delta| * (nav * initialCapital)
      let price ← orRaise price "quantity must be finite and non-negative"
      require (price ≠ 0) "float division by zero"
      let filledQuantity ← model.fillableQuantity (requestedNotional / price)
      fillLots model initialCapital delta price filledQuantity

def blockOrFill (execution : Execution) (nav delta : ℚ) (bar : Option ReferenceBar) :
    Except String Fill :=
  match barRejection execution bar delta with
  | some reason => .ok ⟨some reason, 0, none, 0⟩
  | none => b.fill execution nav delta (bar.bind ReferenceBar.open)

/-- The change of a symbol's weight that an event asks for. -/
def delta (event : Event) (held : Weights) (symbol : Text) : ℚ :=
  event.targets.weight symbol - held.weight symbol

def orderRow (day : Date) (event : Event) (held : Weights) (nav : ℚ) (symbol : Text) :
    Except String OrderRow := do
  let bar ← b.barOn day symbol
  let fill ← b.blockOrFill event.execution nav (delta event held symbol) bar
  return {
    date := day
    signalDate := event.signalDate
    executionDate := event.executionDate
    symbol
    side := if 0 < delta event held symbol then .buy else .sell
    previousWeight := held.weight symbol
    targetWeight := event.targets.weight symbol
    rejectionReason := fill.rejectionReason
    executionPrice := bar.bind ReferenceBar.open
    estimatedCost := fill.estimatedCost
    filledQuantity := fill.filledQuantity
    grossNotional := fill.grossNotional }

def orderOf (day : Date) (event : Event) (held : Weights) (nav : ℚ) (symbol : Text) :
    Except String (Option OrderRow) :=
  if |delta event held symbol| ≤ tolerance then .ok none
  else (b.orderRow day event held nav symbol).map some

def eventSymbols (held targets : Weights) : List Text :=
  held.keys ++ targets.keys.filter fun symbol => symbol ∉ held.keys

/-- The orders of an event, none of which depends on another one. -/
def ordersOf (day : Date) (event : Event) (held : Weights) (nav : ℚ) :
    Except String (List OrderRow) := do
  let orders ← (eventSymbols held event.targets).mapM (b.orderOf day event held nav)
  return orders.filterMap id

def effectiveWeights (targets : Weights) (orders : List OrderRow) : Weights :=
  (orders.filter OrderRow.blocked).foldl
    (fun weights row => weights.put (row.symbol, row.previousWeight)) targets

def heldWeights (effective : Weights) : Weights :=
  effective.filter fun entry => tolerance < entry.2

/-- The part of the day's return that a symbol brings. -/
def symbolReturn (day : Date) (previousClose : Text → Option ℚ) (symbol : Text) (weight : ℚ) : ℚ :=
  match b.closeOn day symbol, previousClose symbol with
  | some current, some old => if 0 < old then weight * (current / old - 1) else 0
  | _, _ => 0

def grossReturn (day : Date) (previousClose : Text → Option ℚ) (held : Weights) : ℚ :=
  (held.values.map fun entry => b.symbolReturn day previousClose entry.1 entry.2).sum

def rebalance (day : Date) (state : ReferenceState) : Except String (List OrderRow × Weights) :=
  match b.events day with
  | none => .ok ([], state.held)
  | some event => do
      let orders ← b.ordersOf day event state.held state.nav
      return (orders, heldWeights (effectiveWeights event.targets orders))

def settle (day : Date) (state : ReferenceState) (orders : List OrderRow) (held : Weights) :
    ReferenceState :=
  let dailyCost := (orders.map OrderRow.estimatedCost).sum
  let gross := b.grossReturn day state.previousClose held
  { held
    nav := state.nav * (max 0 (1 - dailyCost) * (1 + gross))
    previousClose := fun symbol => (b.closeOn day symbol).or (state.previousClose symbol)
    orders := state.orders ++ orders
    returns := state.returns ++ [gross - dailyCost]
    costs := state.costs ++ [dailyCost] }

def day (state : ReferenceState) (current : Date) : Except String ReferenceState := do
  let (orders, held) ← b.rebalance current state
  return b.settle current state orders held

/-- A day of the loop, after which a run that has raised stays as it is. -/
def step (run : Except String ReferenceState) (current : Date) : Except String ReferenceState :=
  run >>= fun state => b.day state current

def start : ReferenceState where
  held := b.currentPositions
  nav := 1
  previousClose := fun _ => none
  orders := []
  returns := []
  costs := []

/-- The loop over the dates. -/
def run : Except String ReferenceState := b.dates.foldl b.step (.ok b.start)

end ReferenceLoop

/-! ### Events -/

/-- The signals of one date with the execution date of the first of them. -/
structure SignalGroup (S : Type) where
  signalDate : Date
  intendedExecutionDate : Date
  signals : S

/-- What a run is called with; the groups are in the order of their dates, and a strategy reads
the signals, the execution and the weights of the event before. -/
structure RunInput (S : Type) where
  marketData : List ReferenceBar
  groups : List (SignalGroup S)
  generateTargets : S → Execution → Weights → Except String (List PortfolioTarget)
  intervalDays : ℕ
  execution : Option Execution
  costModel : Execution → CostModel
  period : Option (Date × Date)
  currentPositions : Weights
  initialCapital : Option ℚ

structure Plan where
  events : Keyed (Prod.fst : Date × Event → Date)
  held : Weights
  lastRebalance : Option Date

namespace RunInput

variable {S : Type} (input : RunInput S)

def inPeriod (day : Date) : Bool :=
  input.period.all fun period => period.1 ≤ day ∧ day ≤ period.2

def shouldRebalance (current : Date) (last : Option Date) : Bool :=
  last.all fun previous => previous < current ∧
    (input.intervalDays : ℤ) ≤ Day.toordinal current - Day.toordinal previous

/-- One pass of the loop over the signal dates. -/
def planGroup (plan : Plan) (group : SignalGroup S) : Except String Plan := do
  if ¬ input.inPeriod group.signalDate ∨
      ¬ input.shouldRebalance group.signalDate plan.lastRebalance then
    return plan
  require (group.signalDate < group.intendedExecutionDate)
    "execution date must be after signal date"
  let execution ← orRaise input.execution "execution_spec is required for fast research"
  let targets ← input.generateTargets group.signals execution plan.held
  let weights : Weights := targets.foldl
    (fun weights target => weights.put (target.symbol.text, target.targetWeight)) Keyed.empty
  return {
    events := plan.events.put (group.intendedExecutionDate, {
      signalDate := group.signalDate
      executionDate := group.intendedExecutionDate
      execution
      targets := weights })
    held := weights
    lastRebalance := some group.signalDate }

/-- `ReferenceFastResearchEngine.run`, up to the frames of the result. -/
def run : Except String ReferenceState := do
  let bars := input.marketData.filter fun bar => input.inPeriod bar.date
  require (bars ≠ []) "market_data is empty after period filters"
  require (∀ capital ∈ input.initialCapital, 0 < capital)
    "initial_capital must be finite and positive"
  let plan ← input.groups.foldlM input.planGroup ⟨Keyed.empty, input.currentPositions, none⟩
  ReferenceLoop.run {
    bars
    events := fun day => (plan.events.get? day).map Prod.snd
    capital := input.initialCapital.bind fun capital =>
      input.execution.map fun execution => (input.costModel execution, capital)
    currentPositions := input.currentPositions }

end RunInput

end QuantWorkbench.Backtest
