import Mathlib.Algebra.Order.Field.Rat
import Mathlib.Algebra.BigOperators.Group.List.Basic
import QuantWorkbench.Data.Normalization
import QuantWorkbench.Lib.Fallible
import QuantWorkbench.Lib.Tables

/-!
The portfolio that every evaluated strategy is held to: targets from delayed predictions, sales
before purchases, fees and slippage, and a row of equity for each day of the calendar.
-/

namespace QuantWorkbench.Experiments

open Lib
open Data (Symbol)

structure EvaluationConfig where
  horizonDays : ℤ := 5
  signalDelayDays : ℤ := 1
  maxPositions : ℤ := 10
  maxSinglePosition : ℚ := 15 / 100
  maxGrossExposure : ℚ := 60 / 100
  commissionRate : ℚ := 3 / 10000
  stampDutyRate : ℚ := 5 / 10000
  transferFeeRate : ℚ := 1 / 100000
  slippageBps : ℚ := 5

structure EvaluationBar where
  symbol : Symbol
  date : Date
  «open» : ℚ
  close : ℚ
  isSuspended : Bool
  isLimitUp : Bool
  isLimitDown : Bool

structure Prediction where
  signalDate : Date
  symbol : Symbol
  /-- A missing score is below all others. -/
  rawScore : WithBot ℚ

/-- A position with the date on which it was entered. -/
structure Holding where
  symbol : Symbol
  quantity : ℚ
  entryDate : Date
  deriving DecidableEq

inductive Side where
  | buy
  | sell
  deriving DecidableEq

structure TradeRow where
  executionDate : Date
  side : Side
  symbol : Symbol
  notional : ℚ
  targetWeight : ℚ
  fees : ℚ
  deriving DecidableEq

structure EquityRow where
  date : Date
  equity : ℚ
  benchmarkEquity : ℚ
  turnover : ℚ
  positionCount : ℕ
  grossExposure : ℚ
  cash : ℚ
  deriving DecidableEq

/-- What is evaluated. -/
structure Evaluation where
  config : EvaluationConfig
  positiveHorizon : 1 ≤ config.horizonDays
  positiveDelay : 1 ≤ config.signalDelayDays
  predictions : List Prediction
  bars : List EvaluationBar
  benchmark : Symbol

namespace EvaluationConfig

variable (config : EvaluationConfig)

def slippage : ℚ := config.slippageBps / 10000

def costRate : ℚ := 1 + config.commissionRate + config.transferFeeRate

def saleRate : ℚ := config.commissionRate + config.stampDutyRate + config.transferFeeRate

def buyPosition (desired cash price : ℚ) : Except String (ℚ × ℚ × ℚ) := do
  let executionPrice := price * (1 + config.slippage)
  require (config.costRate ≠ 0) "division by zero"
  let spent := min desired (cash / config.costRate)
  let fees := spent * (config.costRate - 1)
  require (executionPrice ≠ 0) "division by zero"
  return (spent / executionPrice, spent, fees)

def sellPosition (quantity price : ℚ) : ℚ × ℚ :=
  let executionPrice := price * (1 - config.slippage)
  let proceeds := quantity * executionPrice
  (proceeds, proceeds * config.saleRate)

end EvaluationConfig

def EvaluationBar.canBuy (row : EvaluationBar) : Bool := !row.isSuspended && !row.isLimitUp

def EvaluationBar.canSell (row : EvaluationBar) : Bool := !row.isSuspended && !row.isLimitDown

/-- `head`, which leaves out rows from the end if the number is negative. -/
def head {α : Type} (count : ℤ) (rows : List α) : List α :=
  if 0 ≤ count then rows.take count.toNat else rows.take (rows.length - count.natAbs)

def targetWeights (group : List Prediction) (config : EvaluationConfig) : List (Symbol × ℚ) :=
  let selected := head config.maxPositions (keepFirst Prediction.symbol group)
  if selected = [] then []
  else
    let weight := min config.maxSinglePosition (config.maxGrossExposure / selected.length)
    selected.map fun row => (row.symbol, weight)

def delayedDate (calendar : List Date) (current : Date) (delay : ℤ) : Option Date :=
  let index := (calendar.filter fun day => day ≤ current).length
  calendar[(index + delay - 1).toNat]?

/-- What the loop over the calendar carries. -/
structure Simulation where
  cash : ℚ
  positions : List Holding
  benchmarkEquity : ℚ
  previousBenchmarkClose : Option ℚ
  equityRows : List EquityRow
  tradeRows : List TradeRow
  /-- The notional that was traded on the day. -/
  tradeNotional : ℚ

def Simulation.start : Simulation where
  cash := 1
  positions := []
  benchmarkEquity := 1
  previousBenchmarkClose := none
  equityRows := []
  tradeRows := []
  tradeNotional := 0

namespace Evaluation

variable (e : Evaluation)

def calendar : List Date := sortedSet (e.bars.map EvaluationBar.date)

def barLookup (symbol : Symbol) (day : Date) : Option EvaluationBar :=
  e.bars.reverse.find? fun row => row.symbol = symbol ∧ row.date = day

def event (day : Date) : Option (List Prediction) :=
  let signalDates := sortedSet (e.predictions.map Prediction.signalDate)
  let delayed := signalDates.filter fun signalDate =>
    delayedDate e.calendar signalDate e.config.signalDelayDays = some day
  delayed.getLast?.map fun signalDate =>
    sortValues (fun row => OrderDual.toDual row.rawScore)
      (e.predictions.filter fun row => row.signalDate = signalDate)

def markToMarket (cash : ℚ) (positions : List Holding) (day : Date)
    (price : EvaluationBar → ℚ) : ℚ :=
  cash + (positions.map fun holding =>
    ((e.barLookup holding.symbol day).map fun row => holding.quantity * price row).getD 0).sum

def grossExposure (positions : List Holding) (day : Date) (equity : ℚ) : ℚ :=
  if equity ≤ 0 then 0
  else (positions.map fun holding => ((e.barLookup holding.symbol day).map fun row =>
    holding.quantity * row.close).getD 0).sum / equity

/-- The bar at which a position is sold, if it is sold. -/
def saleBar (day : Date) (target : List (Symbol × ℚ)) (holding : Holding) :
    Option EvaluationBar :=
  if holding.symbol ∈ target.map Prod.fst then none
  else (e.barLookup holding.symbol day).filter fun row =>
    row.canSell && decide (holding.entryDate < day)

def sell (day : Date) (target : List (Symbol × ℚ)) (sim : Simulation) (holding : Holding) :
    Simulation :=
  match e.saleBar day target holding with
  | none => { sim with positions := sim.positions ++ [holding] }
  | some row =>
      let (proceeds, fees) := e.config.sellPosition holding.quantity row.open
      let notional := proceeds / max (1 - e.config.slippage) (1 / 10 ^ 12)
      { sim with
        cash := sim.cash + (proceeds - fees)
        tradeNotional := sim.tradeNotional + notional
        tradeRows := sim.tradeRows ++ [⟨day, .sell, holding.symbol, notional, 0, fees⟩] }

/-- The bar at which a target is bought, if it can be bought. -/
def purchaseBar (day : Date) (positions : List Holding) (symbol : Symbol) :
    Option EvaluationBar :=
  if symbol ∈ positions.map Holding.symbol then none
  else (e.barLookup symbol day).filter EvaluationBar.canBuy

def buy (day : Date) (accountAtOpen : ℚ) (sim : Simulation) (target : Symbol × ℚ) :
    Except String Simulation :=
  match e.purchaseBar day sim.positions target.1 with
  | none => .ok sim
  | some row => do
      let (quantity, spent, fees) ←
        e.config.buyPosition (accountAtOpen * target.2) sim.cash row.open
      if quantity ≤ 0 then return sim
      return { sim with
        cash := sim.cash - (spent + fees)
        positions := sim.positions ++ [⟨target.1, quantity, day⟩]
        tradeNotional := sim.tradeNotional + spent
        tradeRows := sim.tradeRows ++ [⟨day, .buy, target.1, spent, target.2, fees⟩] }

/-- The trades of a day on which predictions are executed. -/
def rebalance (day : Date) (group : List Prediction) (sim : Simulation) :
    Except String Simulation :=
  let target := targetWeights group e.config
  let accountAtOpen := e.markToMarket sim.cash sim.positions day EvaluationBar.open
  let sold := sim.positions.foldl (e.sell day target) { sim with positions := [] }
  target.foldlM (e.buy day accountAtOpen) sold

/-- The trades of a day. -/
def trade (day : Date) (sim : Simulation) : Except String Simulation :=
  match e.event day with
  | none => .ok { sim with tradeNotional := 0 }
  | some group => e.rebalance day group { sim with tradeNotional := 0 }

def close (day : Date) (sim : Simulation) : Except String Simulation := do
  let equity := e.markToMarket sim.cash sim.positions day EvaluationBar.close
  let row ← orRaise (e.barLookup e.benchmark day) "KeyError"
  let benchmarkEquity :=
    match sim.previousBenchmarkClose with
    | some previous =>
        if 0 < previous then sim.benchmarkEquity * (row.close / previous) else sim.benchmarkEquity
    | none => sim.benchmarkEquity
  return { sim with
    benchmarkEquity
    previousBenchmarkClose := some row.close
    equityRows := sim.equityRows ++ [{
      date := day
      equity
      benchmarkEquity
      turnover := sim.tradeNotional / max equity (1 / 10 ^ 12)
      positionCount := sim.positions.length
      grossExposure := e.grossExposure sim.positions day equity
      cash := sim.cash }] }

def day (sim : Simulation) (current : Date) : Except String Simulation := do
  let traded ← e.trade current sim
  e.close current traded

/-- A day of the loop, after which a run that has raised stays as it is. -/
def step (run : Except String Simulation) (current : Date) : Except String Simulation :=
  run >>= fun sim => e.day sim current

def simulate : Except String (List EquityRow × List TradeRow) := do
  let final ← e.calendar.foldl e.step (.ok Simulation.start)
  return (final.equityRows, final.tradeRows)

end Evaluation

end QuantWorkbench.Experiments
