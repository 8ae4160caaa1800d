import QuantWorkbench.Storage.OfficialSignalRuns
import QuantWorkbench.Storage.RealTimeStore

/-!
`EODPipeline` of `runtime/eod.py`: the stages from the close of a day to its official signals. A
stage raises the name of its exception's type, or returns.
-/

namespace QuantWorkbench.Runtime

open Lib Signals QuantWorkbench.Storage

variable {V D F : Type} [FloatFormat F] [FoldTable]

/-! ### Stages -/

variable (F) in
/-- What a generator gives: an official signal, which is a daily one, or another object, whose
`frequency.value` may be missing. -/
inductive GeneratedSignal where
  | official (signal : OfficialModelSignal F)
  | other (frequency : Option Text)

def GeneratedSignal.official? : GeneratedSignal F → Option (OfficialModelSignal F)
  | .official signal => some signal
  | .other _ => none

/-- The signal store of a pipeline: none, one in memory alone, or one with a file. -/
inductive SignalStoreUse where
  | absent
  | inMemory
  | onFile
  deriving DecidableEq

variable (V D F) in
structure EODPipeline where
  confirmClose : Date → Except String Bool
  loadFinalDaily : Date → Except String (List D)
  reconcile : List (Storage.MinuteBar V) → List D →
    Except String (List (Option (Storage.MinuteBar V)))
  updatePit : List D → Except String Unit
  generateOfficialSignals : List D → Except String (List (GeneratedSignal F))
  writeReport : List (GeneratedSignal F) → Except String Unit
  officialSignalStore : SignalStoreUse

variable (V F) in
/-- The two stores that a run changes. -/
structure EODStores where
  realTime : Storage.RealTimeStore V
  official : SignalStore F

inductive EODStatus where
  | waitingClose
  | completed
  | failed
  deriving DecidableEq

variable (F) in
structure EODPipelineResult where
  tradeDate : Date
  status : EODStatus
  steps : List String
  receipt : Option EODFinalizationReceipt
  officialSignals : List (GeneratedSignal F)
  error : String := ""

variable (V F) in
/-- The stores and the local variables of a run that its handler reads. -/
structure EODRun where
  stores : EODStores V F
  steps : List String
  receipt : Option EODFinalizationReceipt

/-- What `_parse_date` is given; from a text, it takes what `datetime.fromisoformat` reads. -/
inductive TradeDateArgument where
  | day (value : Day)
  | text (read : Option Date)

def parseTradeDate : TradeDateArgument → Except String Date
  | .day (.date value) => return value
  | .day (.datetime value _) => return value.date
  | .text read => orRaise read "ValueError"

namespace EODPipeline

/-- Whether some signal is not a daily one, as far as `any` looks. -/
def anyNotDaily : List (GeneratedSignal F) → Except String Bool
  | [] => return false
  | .official _ :: rest => anyNotDaily rest
  | .other none :: _ => .error "AttributeError"
  | .other (some frequency) :: rest =>
      if frequency = "daily".toList then anyNotDaily rest else return true

/-- The exception type of what `put_signals` raises. -/
def storeErrorType (error : String) : String :=
  if error = "can't compare these dates" then "TypeError" else "ValueError"

/-- A change of the official store; only its failed comparison is no `ValueError`. -/
def onOfficial (change : Raising String (SignalStore F) Unit) :
    Raising String (EODRun V F) Unit := fun run =>
  let (result, official) := change run.stores.official
  (result.mapError storeErrorType, { run with stores := { run.stores with official } })

def onRealTime
    (change : Raising String (Storage.RealTimeStore V) EODFinalizationReceipt) :
    Raising String (EODRun V F) Unit := fun run =>
  match change run.stores.realTime with
  | (.ok receipt, realTime) =>
      (.ok (), { run with stores := { run.stores with realTime }, receipt := some receipt })
  | (.error error, realTime) =>
      (.error error, { run with stores := { run.stores with realTime } })

def step (name : String) : Raising String (EODRun V F) Unit :=
  Raising.change fun run => { run with steps := run.steps ++ [name] }

def putOfficial (pipeline : EODPipeline V D F) (generated : List (GeneratedSignal F))
    (fault : Option String) : Raising String (EODRun V F) Unit := do
  if pipeline.officialSignalStore ≠ .absent then
    let signals ← Raising.lift
      (orRaise (generated.mapM GeneratedSignal.official?) "TypeError")
    onOfficial (putSignals signals (pipeline.officialSignalStore = .onFile) fault)

def generateSignals (pipeline : EODPipeline V D F) (tradeDate : Date) :
    Raising String (EODRun V F) (Option (List (GeneratedSignal F))) := do
  let closed ← Raising.lift (pipeline.confirmClose tradeDate)
  if closed = false then
    return none
  step "market_close_confirmed"
  let finalDaily ← Raising.lift (pipeline.loadFinalDaily tradeDate)
  step "final_daily_loaded"
  onRealTime (RealTimeStore.finalizeEod tradeDate fun bars => pipeline.reconcile bars finalDaily)
  step "intraday_reconciled"
  Raising.lift (pipeline.updatePit finalDaily)
  step "pit_updated"
  let generated ← Raising.lift (pipeline.generateOfficialSignals finalDaily)
  if (← Raising.lift (anyNotDaily generated)) then
    Raising.raise "ValueError"
  step "official_daily_signals_generated"
  return some generated

def publishSignals (pipeline : EODPipeline V D F) (generated : List (GeneratedSignal F))
    (fault : Option String) : Raising String (EODRun V F) Unit := do
  pipeline.putOfficial generated fault
  step "official_daily_signals_stored"
  Raising.lift (pipeline.writeReport generated)
  step "candidate_report_written"

/-- The body of the `try` block of `run`. -/
def stages (pipeline : EODPipeline V D F) (tradeDate : Date) (fault : Option String) :
    Raising String (EODRun V F) (Option (List (GeneratedSignal F))) := do
  match ← pipeline.generateSignals tradeDate with
  | none => return none
  | some generated =>
      pipeline.publishSignals generated fault
      return some generated

/-- `run`. An error of a stage becomes a failed result. -/
def run (pipeline : EODPipeline V D F) (tradeDate : TradeDateArgument) (fault : Option String) :
    Raising String (EODStores V F) (EODPipelineResult F) := do
  let parsedDate ← Raising.lift (parseTradeDate tradeDate)
  fun stores =>
    match pipeline.stages parsedDate fault ⟨stores, [], none⟩ with
    | (.ok none, after) =>
        (.ok ⟨parsedDate, .waitingClose, after.steps, none, [], ""⟩, after.stores)
    | (.ok (some generated), after) =>
        (.ok ⟨parsedDate, .completed, after.steps, after.receipt, generated, ""⟩, after.stores)
    | (.error error, after) =>
        (.ok ⟨parsedDate, .failed, after.steps, after.receipt, [], error⟩, after.stores)

end EODPipeline

end QuantWorkbench.Runtime
