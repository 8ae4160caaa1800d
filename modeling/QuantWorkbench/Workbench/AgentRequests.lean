import QuantWorkbench.Lib.JsonText
import QuantWorkbench.Workbench.BudgetRuns

/-!
The request loop of `AgentRuntime._run` in `workbench/agent_runtime.py`, for the tasks of any
number of processes that share one budget ledger. A task reserves the cost of its bound, sends the
request, and settles what the reply says it used; it can end at any point, by an error, by being
cancelled or because its process is killed. What the provider bills, the usage that it reports and
the clock are inputs.
-/

namespace QuantWorkbench.Workbench

open Lib

section Tools

def textProperty : Json := .obj [("type".toList, .str "string".toList)]

/-- A function that the model may call. -/
def tool (name description : String) (properties : List (Text × Json)) (required : List String) :
    Json :=
  let parameters := [("type".toList, .str "object".toList), ("properties".toList, .obj properties),
    ("additionalProperties".toList, .bool false)]
  let function := [("name".toList, .str name.toList),
    ("description".toList, .str description.toList),
    ("parameters".toList, .obj (if required = [] then parameters else
      ("required".toList, .arr (required.map fun key => .str key.toList)) :: parameters))]
  .obj [("type".toList, .str "function".toList), ("function".toList, .obj function)]

/-- `TOOLS` of `workbench/agent_provider.py`. -/
def tools : Json := .arr [
  tool "search_public_web" "按当前股票检索新闻、行业政策或公司公开信息。"
    [("symbol".toList, textProperty), ("query".toList, textProperty),
      ("scope".toList, .obj [("type".toList, .str "string".toList),
        ("enum".toList, .arr [.str "COMPANY".toList, .str "TOPIC".toList]),
        ("description".toList,
          .str "COMPANY 查公司；TOPIC 查相关行业、政策或宏观背景。".toList)])]
    ["symbol", "query"],
  tool "read_public_page" "阅读本次已检索来源的正文节选。"
    [("symbol".toList, textProperty), ("source_id".toList, textProperty)] ["symbol", "source_id"],
  tool "get_stock_research" "读取当前股票的补充历史风险指标和公告标题证据。"
    [("symbol".toList, textProperty)] ["symbol"],
  tool "get_stock_context" "读取当前指定股票的公开事实和阻塞原因。"
    [("symbol".toList, textProperty)] ["symbol"],
  tool "get_workflow_health" "读取脱敏工作流状态，不修改任务。" [] []]

end Tools

def canonicalLength (value : Json) : ℕ := (Text.utf8 (Json.dumps value)).length

/-- The bytes of the messages bound their tokens, with an overhead for the protocol. -/
def inputBound (messages : Json) : ℕ := canonicalLength messages + canonicalLength tools + 4096

/-- Prices of a million tokens. -/
structure TokenPrice where
  input : ℚ
  output : ℚ

namespace TokenPrice

def usd : TokenPrice :=
  ⟨AgentRuntimeConfig.inputUsdPerMillion, AgentRuntimeConfig.outputUsdPerMillion⟩

def cny : TokenPrice :=
  ⟨AgentRuntimeConfig.inputCnyPerMillion, AgentRuntimeConfig.outputCnyPerMillion⟩

def exactCost (price : TokenPrice) (inputTokens outputTokens : ℕ) : ℚ :=
  (inputTokens * price.input + outputTokens * price.output) / 1000000

def cost (price : TokenPrice) (inputTokens outputTokens : ℕ) : Except BudgetError ℚ := do
  let input ← orRaise (DecimalContext.default.result? (inputTokens * price.input)) .arithmetic
  let output ← orRaise (DecimalContext.default.result? (outputTokens * price.output)) .arithmetic
  let sum ← Budget.add input output
  orRaise (DecimalContext.default.result? (sum / 1000000)) .arithmetic

end TokenPrice

/-- The token counts of a reply. A count that is not an integer is absent. -/
structure Usage where
  input : Option ℤ
  output : Option ℤ

/-- The counts, if both are integers that are not negative. -/
def Usage.valid? (usage : Usage) : Option (ℕ × ℕ) := do
  let input ← usage.input
  let output ← usage.output
  guard (0 ≤ input ∧ 0 ≤ output)
  return (input.toNat, output.toNat)

/-- What the provider charges for a request. -/
structure Bill where
  usd : ℚ
  cny : ℚ

/-- A request of a task, from its reservation on. -/
structure AgentRequest where
  task : ℕ
  inputBound : ℕ
  maxOutput : ℕ
  reservation : Reservation
  /-- What it is billed, once it is sent. -/
  bill : Option Bill

inductive TaskPhase where
  | ready
  /-- A request that is reserved for is not sent yet. -/
  | reserved (request : ℕ)
  | sent (request : ℕ)
  | finished
  deriving DecidableEq

structure AgentTask where
  cfg : AgentRuntimeConfig
  taskCost : ℚ
  requests : ℕ
  phase : TaskPhase

/-- Goes on with the cost, or ends where computing it raises. -/
def AgentTask.advance (task : AgentTask) (cost : Except BudgetError ℚ) (phase : TaskPhase) :
    AgentTask :=
  match cost with
  | .ok taskCost => { task with taskCost, phase }
  | .error _ => { task with phase := .finished }

structure AgentSystem where
  ledger : Budget
  requests : List AgentRequest
  tasks : List AgentTask

inductive AgentEvent where
  /-- A task for the cloud starts, of a question about research or another one. -/
  | start (cfg : AgentRuntimeConfig) (research : Bool)
  | reserve (task : ℕ) (day : Date) (messages : Json) (written : Bool)
  | send (task : ℕ) (bill : Bill)
  | reply (task : ℕ) (usage : Option Usage) (written continues : Bool)
  /-- An error, a cancellation, the time limit or the end of the process. -/
  | stop (task : ℕ)
  | approveExperiment (limit : Decimal) (written : Bool)

namespace AgentSystem

def start : AgentSystem := ⟨.empty, [], []⟩

/-- The cloud generates only for settings that authorize it. -/
def Ready (cfg : AgentRuntimeConfig) : Prop :=
  cfg.enabled = true ∧ cfg.backend = .cloud ∧ cfg.generationAuthorized = true

instance (cfg : AgentRuntimeConfig) : Decidable (Ready cfg) := by
  unfold Ready
  infer_instance

def withTask (system : AgentSystem) (index : ℕ) (task : AgentTask) : AgentSystem :=
  { system with tasks := system.tasks.set index task }

def reservation (system : AgentSystem) (task : AgentTask) (day : Date) (messages : Json)
    (written : Bool) : Except BudgetError (Budget × Reservation) := do
  let reserved ← TokenPrice.usd.cost (inputBound messages) task.cfg.maxOutputTokens
  let reservedCny ← TokenPrice.cny.cost (inputBound messages) task.cfg.maxOutputTokens
  let ledger ← Spending.replaced written (system.ledger.reserve day (.finite reserved) task.cfg
    (.finite task.taskCost) (some (.finite reservedCny)))
  return (ledger, ⟨day, reserved, some (.finite reservedCny),
    decide (system.ledger.Charges task.cfg), none⟩)

def reserve (system : AgentSystem) (index : ℕ) (task : AgentTask) (day : Date) (messages : Json)
    (written : Bool) : AgentSystem :=
  if task.requests < task.cfg.maxModelRequests ∧
      canonicalLength messages ≤ task.cfg.maxContextBytes then
    match system.reservation task day messages written with
    | .error _ => system.withTask index { task with phase := .finished }
    | .ok (ledger, reservation) =>
        { ledger
          requests := system.requests ++
            [⟨index, inputBound messages, task.cfg.maxOutputTokens, reservation, none⟩]
          tasks := system.tasks.set index
            ({ task with requests := task.requests + 1 }.advance
              (Budget.add task.taskCost reservation.reserved) (.reserved system.requests.length)) }
  else system.withTask index { task with phase := .finished }

def send (system : AgentSystem) (index : ℕ) (task : AgentTask) (request : AgentRequest)
    (position : ℕ) (bill : Bill) : AgentSystem :=
  { system with
    requests := system.requests.set position { request with bill := some bill }
    tasks := system.tasks.set index { task with phase := .sent position } }

def settlement (system : AgentSystem) (request : AgentRequest) (input output : ℕ) (written : Bool) :
    Except BudgetError (Budget × ℚ × ℚ) := do
  let actual ← TokenPrice.usd.cost input output
  let actualCny ← TokenPrice.cny.cost input output
  let ledger ← Spending.replaced written (system.ledger.settle request.reservation.day
    (.finite request.reservation.reserved) (.finite actual) request.reservation.reservedCny
    (some (.finite actualCny)))
  return (ledger, actual, actualCny)

/-- The phase after a reply that was settled. -/
def nextPhase (continues : Bool) : TaskPhase := if continues then .ready else .finished

def reply (system : AgentSystem) (index : ℕ) (task : AgentTask) (request : AgentRequest)
    (position : ℕ) (usage : Option Usage) (written continues : Bool) : AgentSystem :=
  match usage.bind Usage.valid? with
  -- unknown charges stay reserved
  | none => system.withTask index { task with phase := nextPhase continues }
  | some (input, output) =>
      match system.settlement request input output written with
      | .error _ => system.withTask index { task with phase := .finished }
      | .ok (ledger, actual, actualCny) =>
          { ledger
            requests := system.requests.set position { request with
              reservation := { request.reservation with
                settled := some ⟨actual, some (.finite actualCny)⟩ } }
            tasks := system.tasks.set index
              (match Budget.checkBound (.finite request.reservation.reserved) (.finite actual)
                request.reservation.reservedCny (some (.finite actualCny)) with
              | .error _ => { task with phase := .finished }
              | .ok () => task.advance (do
                  let difference ← Budget.sub actual request.reservation.reserved
                  Budget.add task.taskCost difference) (nextPhase continues)) }

def step (system : AgentSystem) : AgentEvent → AgentSystem
  | .start cfg research =>
      if Ready cfg then
        { system with tasks := system.tasks ++
          [⟨if research then cfg.forResearch else cfg, 0, 0, .ready⟩] }
      else system
  | .reserve index day messages written =>
      match system.tasks[index]? with
      | none => system
      | some task =>
          if task.phase = .ready then system.reserve index task day messages written else system
  | .send index bill =>
      match system.tasks[index]? with
      | none => system
      | some task =>
          match task.phase with
          | .reserved position =>
              match system.requests[position]? with
              | none => system
              | some request => system.send index task request position bill
          | _ => system
  | .reply index usage written continues =>
      match system.tasks[index]? with
      | none => system
      | some task =>
          match task.phase with
          | .sent position =>
              match system.requests[position]? with
              | none => system
              | some request =>
                  system.reply index task request position usage written continues
          | _ => system
  | .stop index =>
      match system.tasks[index]? with
      | none => system
      | some task => system.withTask index { task with phase := .finished }
  | .approveExperiment limit written =>
      match Spending.replaced written (system.ledger.approveExperiment limit) with
      | .error _ => system
      | .ok ledger => { system with ledger }

end AgentSystem

end QuantWorkbench.Workbench
