import QuantWorkbench.Lib.IsoText
import QuantWorkbench.Lib.Rounding
import Mathlib.Data.List.Sort

/-!
The end-of-day refresh coordinator. A run writes its intent, releases the lock
while the refresh callback works and takes the lock again to conclude, so other
calls and a restart may fall between any two of its steps. Instants are counted in
microseconds.
-/

namespace QuantWorkbench.Runtime

open QuantWorkbench.Lib

abbrev Instant := ℤ

inductive EodStatus where
  | notRun
  | pending
  | running
  | blocked
  | success
  | failed
  | retryExhausted
  deriving DecidableEq

structure EodRefreshResult where
  success : Bool
  status : String
  noticeZh : Text
  inputSummary : Option Text
  deriving DecidableEq

/-- The arguments of the constructor. The calendar answers `none` where it raises
`CalendarUnavailableError`; the local date and time are those of Asia/Shanghai. -/
structure EodSettings where
  isSession : Date → Option Bool
  previousSession : Date → Option Date
  localDate : Instant → Date
  localTime : Instant → ℕ
  closeTime : ℕ
  retryBaseSeconds : ℚ
  retryBaseIsInt : Bool
  retryMaxSeconds : ℚ
  maximumAttempts : ℕ
  hasCheckpoint : Bool
  retryBase_nonneg : 0 ≤ retryBaseSeconds
  retryBase_le_max : retryBaseSeconds ≤ retryMaxSeconds
  maximumAttempts_pos : 1 ≤ maximumAttempts

/-- The attributes of the coordinator. The list of completed days has no
repetition and stands for a set. -/
structure EodMemory where
  completed : List Date
  pendingTarget : Option Date
  attempts : ℕ
  nextRetry : Option Instant
  lastAttempt : Option Instant
  lastSuccess : Option Instant
  lastSuccessDay : Option Date
  status : EodStatus
  noticeZh : Text
  errorCode : Option String
  blockedTarget : Option Date
  requestRevision : ℕ
  inputSummary : Option Text
  stopped : Bool
  deriving DecidableEq

/-- The body of the checkpoint file. -/
structure EodCheckpoint where
  status : EodStatus
  noticeZh : Text
  targetSession : Option Date
  attempts : ℕ
  lastAttemptAt : Option Instant
  lastSuccessAt : Option Instant
  lastSuccessSession : Option Date
  nextRetryAt : Option Instant
  errorCode : Option String
  inputSummary : Option Text
  completed : List Date
  blockedTarget : Option Date
  deriving DecidableEq

/-- How the refresh callback ends. `interrupted` is an exception that is not an
`Exception`, such as a keyboard interrupt. -/
inductive RefreshOutcome where
  | finished
  | result (answer : EodRefreshResult)
  | permissionError
  | otherError (name : String)
  | interrupted
  deriving DecidableEq

def RefreshOutcome.succeeded : RefreshOutcome → Bool
  | .finished => true
  | .result answer => answer.success
  | _ => false

/-- Where a run is while it does not hold the lock. -/
inductive RunPhase where
  | calling
  | returned (outcome : RefreshOutcome)
  | failed (byResult : Bool)
  deriving DecidableEq

structure EodRun where
  target : Date
  revision : ℕ
  attemptNumber : ℕ
  phase : RunPhase
  deriving DecidableEq

/-- What happens in the life of the coordinator, over all restarts. -/
inductive EodEvent where
  | started (target : Date) (current : Instant)
  | returned (target : Date) (success : Bool)
  | denied (target : Date)
  | failureRecorded (attemptNumber : ℕ) (current : Instant)
  | completed (target : Date)
  | requested (target : Date) (paused saved : Bool)
  | reviewed
  | retargeted (target : Date)
  | persisted (completed : List Date)
  | restarted
  deriving DecidableEq

/-- A coordinator with its run in progress, its checkpoint file and its history. -/
structure EodWorld where
  memory : EodMemory
  run : Option EodRun
  disk : Option EodCheckpoint
  log : List EodEvent
  deriving DecidableEq

def initialMemory : EodMemory where
  completed := []
  pendingTarget := none
  attempts := 0
  nextRetry := none
  lastAttempt := none
  lastSuccess := none
  lastSuccessDay := none
  status := .notRun
  noticeZh := "等待日线刷新。".toList
  errorCode := none
  blockedTarget := none
  requestRevision := 0
  inputSummary := none
  stopped := false

def EodWorld.initial : EodWorld := ⟨initialMemory, none, none, []⟩

/-- Operator approval is needed before anything is refreshed again. -/
def EodMemory.Paused (m : EodMemory) : Prop :=
  m.status = .blocked ∧
    (m.errorCode = some "PERMISSION_DENIED" ∨ m.errorCode = some "CHECKPOINT_WRITE_FAILED")

instance (m : EodMemory) : Decidable m.Paused := inferInstanceAs (Decidable (_ ∧ _))

/-- The days of the checkpoint file: the last sixty-four in order. -/
def recentDays (completed : List Date) : List Date :=
  let sorted := completed.insertionSort (· ≤ ·)
  sorted.drop (sorted.length - 64)

def EodMemory.checkpoint (m : EodMemory) : EodCheckpoint where
  status := m.status
  noticeZh := m.noticeZh
  targetSession := m.pendingTarget
  attempts := m.attempts
  lastAttemptAt := m.lastAttempt
  lastSuccessAt := m.lastSuccess
  lastSuccessSession := m.lastSuccessDay
  nextRetryAt := m.nextRetry
  errorCode := m.errorCode
  inputSummary := m.inputSummary
  completed := recentDays m.completed
  blockedTarget := m.blockedTarget

namespace EodMemory

variable (m : EodMemory)

def discard (target : Date) : EodMemory :=
  { m with completed := m.completed.filter (· ≠ target) }

def calendarFailed : EodMemory :=
  { m with
    errorCode := some "CALENDAR_UNAVAILABLE"
    status := .blocked
    noticeZh := "缺少该年份的正式交易日历，日线任务暂停；不会猜测交易日。".toList }

/-- A new target day starts with no attempts. -/
def retargeted (target : Date) : EodMemory :=
  { m with pendingTarget := some target, attempts := 0, nextRetry := none }

def intended (target : Date) (current : Instant) : EodMemory :=
  { m with
    attempts := m.attempts + 1
    lastAttempt := some current
    status := .running
    noticeZh := "正在刷新 ".toList ++ target.isoformat ++ " 的日线与候选。".toList }

/-- The run cannot save its state: nothing counts as completed and it is blocked. -/
def writeFailed (target : Date) : EodMemory :=
  { m.discard target with
    pendingTarget := some target
    status := .blocked
    blockedTarget := some target
    errorCode := some "CHECKPOINT_WRITE_FAILED"
    noticeZh := "任务状态无法可靠保存，已暂停；不会把未保存的任务标为完成。".toList }

def noted (errorCode : String) (noticeZh : Text) : EodMemory :=
  { m with errorCode := some errorCode, noticeZh := noticeZh }

def denied (target : Date) : EodMemory :=
  { m with
    errorCode := some "PERMISSION_DENIED"
    blockedTarget := some target
    status := .blocked
    nextRetry := none
    noticeZh := ("文件权限不足，日线任务暂停；修复权限并核验后解除任务阻塞，" ++
      "不会自动扩大权限。").toList }

/-- A success counts as completion only if nothing was requested since the run
began. -/
def succeeded (run : EodRun) (current : Instant) (noticeZh : Text) : EodMemory :=
  let pendingTarget := if run.revision = m.requestRevision then none else m.pendingTarget
  { m with
    errorCode := none
    completed :=
      if run.revision = m.requestRevision then m.completed.insert run.target else m.completed
    pendingTarget := pendingTarget
    nextRetry := none
    lastSuccess := some current
    lastSuccessDay := some run.target
    status := if pendingTarget = none then .success else .pending
    noticeZh := noticeZh }

def requested (target : Date) : EodMemory :=
  { m.discard target with
    requestRevision := m.requestRevision + 1
    pendingTarget := some target
    attempts := if m.Paused then m.attempts else 0
    nextRetry := none
    status := if m.Paused then m.status else .pending
    noticeZh :=
      if m.Paused then "持仓范围已更新；日线任务仍暂停，修复原因并核验后再重试。".toList
      else "持仓范围改变，等待补齐必要日线输入和持仓计划。".toList }

def reviewed : EodMemory :=
  { m with blockedTarget := none, status := .pending, errorCode := none }

def rejected : EodMemory :=
  { m with
    status := .blocked
    noticeZh := "任务检查点校验失败，已暂停；需核验该文件后恢复。".toList
    errorCode := some "CHECKPOINT_REJECTED"
    stopped := true }

/-- The run may not start for this target. -/
def Refused (target : Date) : Prop :=
  target ∈ m.completed ∨ m.blockedTarget = some target ∨ m.Paused ∨ m.stopped = true

instance (target : Date) : Decidable (m.Refused target) :=
  inferInstanceAs (Decidable (_ ∨ _))

end EodMemory

def EodWorld.record (w : EodWorld) (event : EodEvent) : EodWorld :=
  { w with log := event :: w.log }

namespace EodSettings

variable (c : EodSettings)

def latestCompletedSession (current : Instant) : Option Date :=
  match c.isSession (c.localDate current) with
  | none => none
  | some isOpen =>
      if isOpen ∧ c.closeTime ≤ c.localTime current then some (c.localDate current)
      else c.previousSession (c.localDate current)

/-- The target of `run_due`, `none` where the calendar raises. -/
def dueTarget (m : EodMemory) (current : Instant) : Option (Option Date) :=
  match c.isSession (c.localDate current) with
  | none => none
  | some isOpen =>
      if isOpen ∧ c.closeTime ≤ c.localTime current then some (some (c.localDate current))
      else some m.pendingTarget

/-- The checkpoint file after a write; without a path there is nothing to write. -/
def saved (w : EodWorld) : EodWorld :=
  if c.hasCheckpoint then
    ({ w with disk := some w.memory.checkpoint }).record (.persisted w.memory.completed)
  else w

/-- Writes the checkpoint, or raises and gives nothing back. -/
def persist (write : Bool) (w : EodWorld) : Option EodWorld :=
  if c.hasCheckpoint ∧ write = false then none else some (c.saved w)

def calendarFailure (write : Bool) (w : EodWorld) : EodWorld :=
  match c.persist write { w with memory := w.memory.calendarFailed } with
  | some w => w
  | none =>
      { w with memory :=
        { w.memory.calendarFailed with errorCode := some "CHECKPOINT_WRITE_FAILED" } }

/-- What is left when a write inside a run raises. -/
def writeFailure (target : Date) (w : EodWorld) : EodWorld :=
  { w with run := none, memory := w.memory.writeFailed target }

def retarget (target : Date) (w : EodWorld) : EodWorld :=
  if w.memory.pendingTarget = some target then w
  else ({ w with memory := w.memory.retargeted target }).record (.retargeted target)

def Waiting (m : EodMemory) (current : Instant) : Prop :=
  c.maximumAttempts ≤ m.attempts ∨ ∃ due ∈ m.nextRetry, current < due

instance (m : EodMemory) (current : Instant) : Decidable (c.Waiting m current) :=
  inferInstanceAs (Decidable (_ ∨ _))

/-- The intent is written before the callback is invoked. -/
def beginRun (target : Date) (current : Instant) (write : Bool) (w : EodWorld) : EodWorld :=
  let memory := w.memory.intended target current
  let run : EodRun := ⟨target, memory.requestRevision, memory.attempts, .calling⟩
  match c.persist write { w with memory := memory } with
  | none => writeFailure target { w with memory := memory }
  | some saved => ({ saved with run := some run }).record (.started target current)

/-- The part of a run under the lock before the callback. -/
def runTarget (target : Date) (current : Instant) (write : Bool) (w : EodWorld) : EodWorld :=
  if w.run.isSome then w
  else if w.memory.Refused target then w
  else if c.Waiting (retarget target w).memory current then retarget target w
  else c.beginRun target current write (retarget target w)

def runDue (current : Instant) (write : Bool) (w : EodWorld) : EodWorld :=
  if w.memory.stopped then w
  else
    match c.dueTarget w.memory current with
    | none => c.calendarFailure write w
    | some none => w
    | some (some target) => c.runTarget target current write w

def runInitial (current : Instant) (write : Bool) (w : EodWorld) : EodWorld :=
  if w.memory.stopped then w
  else
    match c.latestCompletedSession current with
    | none => c.calendarFailure write w
    | some target => c.runTarget target current write w

/-- The callback returns or raises; its summary is kept at once. -/
def refreshReturned (outcome : RefreshOutcome) (w : EodWorld) : EodWorld :=
  match w.run with
  | some run =>
      if run.phase = .calling then
        let memory := match outcome with
          | .result answer => { w.memory with inputSummary := answer.inputSummary }
          | _ => w.memory
        ({ w with memory := memory, run := some { run with phase := .returned outcome } }).record
          (.returned run.target outcome.succeeded)
      else w
  | none => w

def noteFailure (run : EodRun) (byResult : Bool) (errorCode : String) (noticeZh : Text)
    (w : EodWorld) : EodWorld :=
  { w with
    memory := w.memory.noted errorCode noticeZh
    run := some { run with phase := .failed byResult } }

def permissionDenied (target : Date) (write : Bool) (w : EodWorld) : EodWorld :=
  let w := ({ w with memory := w.memory.denied target }).record (.denied target)
  match c.persist write w with
  | some w => { w with run := none }
  | none => writeFailure target w

def succeed (run : EodRun) (current : Instant) (noticeZh : Text) (write : Bool)
    (w : EodWorld) : EodWorld :=
  let memory := w.memory.succeeded run current noticeZh
  match c.persist write { w with memory := memory } with
  | none => writeFailure run.target { w with memory := memory }
  | some saved =>
      if run.revision = w.memory.requestRevision then
        ({ saved with run := none }).record (.completed run.target)
      else { saved with run := none }

/-- The first part of a run under the lock after the callback. -/
def conclude (current : Instant) (write : Bool) (w : EodWorld) : EodWorld :=
  match w.run with
  | some run =>
      match run.phase with
      | .returned .interrupted => { w with run := none }
      | .returned .permissionError => c.permissionDenied run.target write w
      | .returned (.otherError name) =>
          noteFailure run false name "日线刷新失败，保留上次结果并按限额重试。".toList w
      | .returned .finished => c.succeed run current "日线刷新完成。".toList write w
      | .returned (.result answer) =>
          if answer.success then c.succeed run current answer.noticeZh write w
          else noteFailure run true answer.status answer.noticeZh w
      | _ => w
  | none => w

/-- The pause before the next attempt in microseconds. -/
def retryDelay (attemptNumber : ℕ) : ℤ :=
  Rounding.halfEven
    (min c.retryMaxSeconds (c.retryBaseSeconds * 2 ^ (attemptNumber - 1)) * 1000000)

/-- A power of two that no float can hold cannot be multiplied with one. -/
def delayOverflows (attemptNumber : ℕ) : Bool :=
  c.retryBaseIsInt = false ∧ 1025 ≤ attemptNumber

/-- Something was requested while the callback worked, so its failure says nothing. -/
def dropFailure (run : EodRun) (write : Bool) (w : EodWorld) : EodWorld :=
  let w := { w with memory := { w.memory with status := .pending } }
  match c.persist write w with
  | some w => { w with run := none }
  | none => writeFailure run.target w

def failedStatus (m : EodMemory) : EodStatus :=
  if c.maximumAttempts ≤ m.attempts then .retryExhausted else .failed

/-- The delay cannot be computed. An error in the first computation of a failed
result is handled like one of the callback and raised by the second. -/
def overflow (byResult : Bool) (w : EodWorld) : EodWorld :=
  let m := { w.memory with status := c.failedStatus w.memory }
  { w with
    run := none
    memory :=
      if byResult then m.noted "OverflowError" "日线刷新失败，保留上次结果并按限额重试。".toList
      else m }

def failedMemory (run : EodRun) (current : Instant) (m : EodMemory) : EodMemory :=
  { m with
    status := c.failedStatus m
    nextRetry :=
      if c.maximumAttempts ≤ m.attempts then none
      else some (current + c.retryDelay run.attemptNumber) }

def keepFailure (run : EodRun) (current : Instant) (write : Bool) (w : EodWorld) : EodWorld :=
  let w := { w with memory := c.failedMemory run current w.memory }
  match c.persist write w with
  | some w => ({ w with run := none }).record (.failureRecorded run.attemptNumber current)
  | none => writeFailure run.target w

def recordFailure (current : Instant) (write : Bool) (w : EodWorld) : EodWorld :=
  match w.run with
  | some run =>
      match run.phase with
      | .failed byResult =>
          if run.revision ≠ w.memory.requestRevision then c.dropFailure run write w
          else if c.delayOverflows run.attemptNumber then c.overflow byResult w
          else c.keepFailure run current write w
      | _ => w
  | none => w

def requestTarget (target : Date) (write : Bool) (w : EodWorld) : EodWorld :=
  let requested := { w with memory := w.memory.requested target }
  match c.persist write requested with
  | some saved => saved.record (.requested target w.memory.Paused true)
  | none => requested.record (.requested target w.memory.Paused false)

def requestRefresh (current : Instant) (write : Bool) (w : EodWorld) : EodWorld :=
  match c.latestCompletedSession current with
  | none => w
  | some target =>
      if w.memory.errorCode = some "CHECKPOINT_REJECTED" then w
      else c.requestTarget target write w

def retryAfterReview (current : Instant) (write : Bool) (w : EodWorld) : EodWorld :=
  if w.memory.errorCode = some "CHECKPOINT_REJECTED" then w
  else if w.memory.stopped then w
  else if w.run.isSome then w
  else
    c.requestRefresh current write (({ w with memory := w.memory.reviewed }).record .reviewed)

def stop (w : EodWorld) : EodWorld :=
  { w with memory := { w.memory with stopped := true } }

/-- The worker thread is started: the stop event is cleared unless the checkpoint
was rejected. -/
def start (w : EodWorld) : EodWorld :=
  { w with memory :=
    { w.memory with stopped := w.memory.errorCode = some "CHECKPOINT_REJECTED" } }

def restored (valid : Date → Bool) (body : EodCheckpoint) : EodMemory :=
  { initialMemory with
    completed := body.completed.filter valid
    pendingTarget := body.targetSession
    blockedTarget := body.blockedTarget
    attempts := body.attempts
    nextRetry := body.nextRetryAt
    lastAttempt := body.lastAttemptAt
    lastSuccess := body.lastSuccessAt
    lastSuccessDay := body.lastSuccessSession }

def restore (current : Instant) (valid : Date → Bool) (body : EodCheckpoint) : EodMemory :=
  if 64 < body.completed.length ∨ c.maximumAttempts < body.attempts then initialMemory.rejected
  else if ∃ last ∈ body.lastAttemptAt, current < last then (restored valid body).rejected
  else
    { restored valid body with
      status := if body.status = .running then .pending else body.status
      noticeZh :=
        if body.status = .running then "上次运行中断，等待按原目标和重试限额恢复。".toList
        else body.noticeZh
      errorCode := body.errorCode
      inputSummary := body.inputSummary }

/-- What a new coordinator starts from. -/
def loaded (current : Instant) (valid : Date → Bool) (disk : Option EodCheckpoint) :
    EodMemory :=
  match disk with
  | some body => if c.hasCheckpoint then c.restore current valid body else initialMemory
  | none => initialMemory

/-- The process ends wherever it is and a new coordinator reads the checkpoint. -/
def restart (current : Instant) (valid : Date → Bool) (w : EodWorld) : EodWorld :=
  ({ w with memory := c.loaded current valid w.disk, run := none }).record .restarted

end EodSettings

/-- The steps of all threads and of the operator. `runTarget` is a run whose target
was worked out before other steps were taken. -/
inductive EodInput where
  | runDue (current : Instant) (write : Bool)
  | runInitial (current : Instant) (write : Bool)
  | runTarget (target : Date) (current : Instant) (write : Bool)
  | refreshReturned (outcome : RefreshOutcome)
  | conclude (current : Instant) (write : Bool)
  | recordFailure (current : Instant) (write : Bool)
  | requestRefresh (current : Instant) (write : Bool)
  | retryAfterReview (current : Instant) (write : Bool)
  | stop
  | start
  | restart (current : Instant) (valid : Date → Bool)

def EodSettings.step (c : EodSettings) (w : EodWorld) : EodInput → EodWorld
  | .runDue current write => c.runDue current write w
  | .runInitial current write => c.runInitial current write w
  | .runTarget target current write => c.runTarget target current write w
  | .refreshReturned outcome => EodSettings.refreshReturned outcome w
  | .conclude current write => c.conclude current write w
  | .recordFailure current write => c.recordFailure current write w
  | .requestRefresh current write => c.requestRefresh current write w
  | .retryAfterReview current write => c.retryAfterReview current write w
  | .stop => EodSettings.stop w
  | .start => EodSettings.start w
  | .restart current valid => c.restart current valid w

/-- A day of October 2026. -/
def sampleDate (later : Fin 31) : Date := .daysFrom 2026 10 1 later

/-- Instants are whole days at four in the afternoon, and the calendar has no entry
for the second of them. -/
def sampleSettings : EodSettings where
  isSession := fun day => if day = sampleDate 1 then none else some true
  previousSession := fun _ => none
  localDate := fun current => sampleDate (Fin.ofNat 31 current.toNat)
  localTime := fun _ => 57600000000
  closeTime := 55800000000
  retryBaseSeconds := 60
  retryBaseIsInt := true
  retryMaxSeconds := 1800
  maximumAttempts := 8
  hasCheckpoint := true
  retryBase_nonneg := by norm_num
  retryBase_le_max := by norm_num
  maximumAttempts_pos := by norm_num

end QuantWorkbench.Runtime
