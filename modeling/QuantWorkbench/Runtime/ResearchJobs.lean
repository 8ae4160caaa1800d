import QuantWorkbench.Lib.Fallible
import QuantWorkbench.Lib.IsoText
import QuantWorkbench.Lib.JsonIndent
import QuantWorkbench.Lib.Keyed
import QuantWorkbench.Lib.Sha256
import Mathlib.Data.Finset.Basic

/-!
The supervisor of the research jobs. A tick of the workbench registers the jobs whose
cycle has begun and starts those that are due, each as a child process, and collects the
children that have exited. A new supervisor takes the jobs from the checkpoint and starts
without children.
-/

namespace QuantWorkbench.Runtime

open QuantWorkbench.Lib

/-- The allowed commands, by the word after `research`. -/
inductive ResearchCommand where
  | history
  | screen
  | predict
  | settle
  deriving DecidableEq

inductive ResourceClass where
  | network
  | cpu
  deriving DecidableEq

def ResearchCommand.verb : ResearchCommand → Text
  | .history => "history".toList
  | .screen => "screen".toList
  | .predict => "predict".toList
  | .settle => "settle".toList

def ResearchCommand.parts (command : ResearchCommand) : List Text :=
  ["research".toList, command.verb]

def allowedCommands : List ResearchCommand := [.history, .screen, .predict, .settle]

def ResearchCommand.ofParts? (parts : List Text) : Option ResearchCommand :=
  allowedCommands.find? fun command => command.parts = parts

def ResearchCommand.resourceClass : ResearchCommand → ResourceClass
  | .history => .network
  | _ => .cpu

def ResearchCommand.defaultStage : ResearchCommand → Text
  | .history => "history-backfill".toList
  | .screen => "engineering-screen".toList
  | .predict => "future-predict".toList
  | .settle => "outcome-settlement".toList

def validStages : List Text := allowedCommands.map ResearchCommand.defaultStage

structure ResearchJob where
  jobId : Text
  command : ResearchCommand
  dueAt : UtcDateTime
  inputFingerprint : Option Text
  stage : Text
  artifactDigest : Option Text
  nextEligibleAt : Option UtcDateTime
  completed : Bool
  processExitCode : Option ℤ
  failureReason : Option Text
  cycleKey : Text

def ResearchJob.resourceClass (job : ResearchJob) : ResourceClass := job.command.resourceClass

/-- A child process under the job it was started for; it runs until it has an exit code. -/
structure ResearchChild where
  jobId : Text
  command : ResearchCommand
  exitCode : Option ℤ
  deriving DecidableEq

def ResearchChild.running (child : ResearchChild) : Bool := child.exitCode.isNone

structure ResearchSupervisor where
  jobs : Keyed ResearchJob.jobId
  children : Keyed ResearchChild.jobId
  terminalJobIds : Finset Text
  accepting : Bool

/-- What the supervisor has done since it was made. -/
inductive ResearchEvent where
  | launched (jobId cycleKey : Text) (command : ResearchCommand)
  | shutdown
  deriving DecidableEq

/-- A supervisor with the jobs in its checkpoint file and its history, the newest first. -/
structure ResearchWorld where
  supervisor : ResearchSupervisor
  checkpoint : Option (Keyed ResearchJob.jobId)
  log : List ResearchEvent

/-! ### Checked texts and times -/

/-- A time as a caller passes it; one with an offset is known by its universal time. -/
inductive ClockTime where
  | naive
  | aware (utc : UtcDateTime)

def ClockTime.toUtc : ClockTime → Except String UtcDateTime
  | .naive => .error "datetime must be timezone-aware"
  | .aware utc => .ok utc

def unsafeArgument (value : Text) : Bool :=
  ["..".toList, "/".toList, "\\".toList, "--".toList].any fun token => token <:+: value

def safeMetadata (value : Option Text) (field : String) : Except String (Option Text) :=
  match value with
  | none => .ok none
  | some text =>
      if text.strip = [] ∨ 256 < text.strip.length ∨ unsafeArgument text.strip then
        .error (field ++ " is not safe")
      else .ok (some text.strip)

/-- `removeprefix`. -/
def withoutPrefix (start text : Text) : Text :=
  if start <+: text then text.drop start.length else text

def safeStatusDigest (value : Option Text) : Option Text :=
  match safeMetadata value "artifact_digest" with
  | .ok (some text) =>
      let raw := withoutPrefix "sha256:".toList text
      if raw.length = 64 ∧ raw.all (· ∈ "0123456789abcdef".toList) then some text else none
  | _ => none

def safeReason (value : Option Text) : Option Text :=
  value.bind fun text =>
    let reason := text.strip.upper
    if reason = [] ∨ 96 < reason.length ∨
        ¬ reason.all (· ∈ "ABCDEFGHIJKLMNOPQRSTUVWXYZ0123456789_".toList) then none
    else some reason

def cyclePayload (command : ResearchCommand) (cycleKey : Text) : Json :=
  .obj [("command".toList, .arr (command.parts.map .str)), ("cycle_key".toList, .str cycleKey)]

def cycleJobId (command : ResearchCommand) (cycleKey : Text) : Text :=
  command.verb ++ '-' ::
    (Sha256.ofText (asciiOnly (Json.dumps (cyclePayload command cycleKey)))).take 20

def legacyCycleKey (job : ResearchJob) : Text :=
  "legacy:".toList ++ job.command.verb ++ ':' ::
    (job.inputFingerprint.getD "no-fingerprint".toList ++ ':' :: job.dueAt.isoformat)

/-! ### Children and their evidence -/

/-- The payload of a status file that names its job, and whether the evidence file next
to it has the digest it states. -/
structure ChildStatus where
  status : Text
  artifactDigest : Option Text
  reasonCode : Option Text
  evidenceVerified : Bool

/-- What the children that still run exit with in a moment, if they exit. -/
abbrev Exits := Text → Option ℤ

def ResearchChild.exits (exits : Exits) (child : ResearchChild) : ResearchChild :=
  { child with exitCode := child.exitCode.or (exits child.jobId) }

theorem ResearchChild.exits_jobId (exits : Exits) (child : ResearchChild) :
    (child.exits exits).jobId = child.jobId := rfl

namespace ResearchSupervisor

def fresh : ResearchSupervisor := ⟨.empty, .empty, ∅, true⟩

def childrenExit (exits : Exits) (s : ResearchSupervisor) : ResearchSupervisor :=
  { s with children := s.children.map (ResearchChild.exits exits) (ResearchChild.exits_jobId exits) }

@[simp] theorem keys_childrenExit (exits : Exits) (s : ResearchSupervisor) :
    (s.childrenExit exits).children.keys = s.children.keys :=
  Keyed.keys_map (ResearchChild.exits_jobId exits) s.children

theorem mem_childrenExit {exits : Exits} {s : ResearchSupervisor} {child : ResearchChild} :
    child ∈ (s.childrenExit exits).children.values ↔
      ∃ old ∈ s.children.values, old.exits exits = child :=
  Keyed.mem_values_map (ResearchChild.exits_jobId exits)

def finishedJob (report : Option ChildStatus) (child : ResearchChild) (job : ResearchJob) :
    ResearchJob :=
  let digest := report.bind fun status => safeStatusDigest status.artifactDigest
  let success := child.exitCode = some 0 ∧ digest.isSome ∧
    ∃ status ∈ report, status.status.upper = "SUCCESS".toList ∧ status.evidenceVerified
  let reason := report.bind fun status => safeReason status.reasonCode
  let failure := if report.isNone then "STATUS_MISSING".toList else "WORKER_FAILED".toList
  { job with
    completed := success
    artifactDigest := digest.or job.artifactDigest
    processExitCode := child.exitCode
    failureReason := if success then none else some (reason.getD failure) }

/-- One round of the loop of `_collect_finished_children`. -/
def collectChild (reports : Text → Option ChildStatus) (s : ResearchSupervisor)
    (child : ResearchChild) : ResearchSupervisor :=
  if child.running then s
  else match s.jobs.get? child.jobId with
    | none => s
    | some job =>
        { s with
          jobs := s.jobs.put (finishedJob (reports child.jobId) child job)
          terminalJobIds := insert child.jobId s.terminalJobIds
          children := s.children.remove child.jobId }

/-- Some child has exited and its job is known. -/
def hasFinished (s : ResearchSupervisor) : Bool :=
  s.children.values.any fun child => !child.running && (s.jobs.get? child.jobId).isSome

def maximumRetainedTerminalJobs : ℕ := 64

/-- The jobs that are over and have no child, in the order of the job map. -/
def terminalHistory (s : ResearchSupervisor) : List Text :=
  s.jobs.keys.filter fun jobId => jobId ∈ s.terminalJobIds ∧ jobId ∉ s.children.keys

/-- All but the last of them. -/
def removable (s : ResearchSupervisor) : List Text :=
  s.terminalHistory.take (s.terminalHistory.length - maximumRetainedTerminalJobs)

def pruneTerminalHistory (s : ResearchSupervisor) : ResearchSupervisor :=
  { s with
    jobs := s.jobs.filter fun job => job.jobId ∉ s.removable
    terminalJobIds := s.terminalJobIds.filter fun jobId => jobId ∉ s.removable }

def collectFinishedChildren (reports : Text → Option ChildStatus) (s : ResearchSupervisor) :
    ResearchSupervisor :=
  (s.children.values.foldl (collectChild reports) s).pruneTerminalHistory

/-! ### Registration -/

def registerJob (jobId : Text) (command : List Text) (dueAt : ClockTime)
    (inputFingerprint stage artifactDigest completedArtifactDigest : Option Text)
    (nextEligibleAt nextEligible : Option ClockTime) (s : ResearchSupervisor) :
    Except String ResearchSupervisor := do
  let normalizedId := jobId.strip
  require (normalizedId ≠ [] ∧ unsafeArgument normalizedId = false) "job is not allowlisted"
  let normalized ← orRaise (ResearchCommand.ofParts? (command.map Text.strip))
    "job is not allowlisted"
  let due ← dueAt.toUtc
  let resolvedStage := (stage.filter (· ≠ [])).getD normalized.defaultStage
  require (resolvedStage ∈ validStages) "job stage is not allowlisted"
  let fingerprint ← safeMetadata inputFingerprint "input_fingerprint"
  require (artifactDigest = none ∨ completedArtifactDigest = none ∨
    artifactDigest = completedArtifactDigest) "artifact digests do not match"
  let digest ← safeMetadata ((artifactDigest.filter (· ≠ [])).or completedArtifactDigest)
    "artifact_digest"
  require (nextEligibleAt.isNone ∨ nextEligible.isNone) "next eligible times do not match"
  let eligible ← ((nextEligibleAt.or nextEligible).getD (.aware due)).toUtc
  return { s with
    jobs := s.jobs.put {
      jobId := normalizedId
      command := normalized
      dueAt := due
      inputFingerprint := fingerprint
      stage := resolvedStage
      artifactDigest := digest
      nextEligibleAt := some eligible
      completed := false
      processExitCode := none
      failureReason := none
      cycleKey := [] }
    terminalJobIds := s.terminalJobIds.erase normalizedId }

def cycleJob (command : ResearchCommand) (dueAt : UtcDateTime) (fingerprint : Option Text)
    (cycleKey : Text) : ResearchJob where
  jobId := cycleJobId command cycleKey
  command := command
  dueAt := dueAt
  inputFingerprint := fingerprint
  stage := command.defaultStage
  artifactDigest := none
  nextEligibleAt := some dueAt
  completed := false
  processExitCode := none
  failureReason := none
  cycleKey := cycleKey

def registerCycle (command : ResearchCommand) (dueAt : UtcDateTime) (fingerprint : Option Text)
    (cycleKey : Text) (s : ResearchSupervisor) :
    Except String (ResearchSupervisor × Option Text) := do
  let normalizedCycle ← orRaise (← safeMetadata (some cycleKey) "cycle_key")
    "cycle key is required"
  match s.jobs.get? (cycleJobId command normalizedCycle) with
  | some existing =>
      require (existing.command = command ∧ existing.cycleKey = normalizedCycle ∧
        existing.inputFingerprint = fingerprint) "cycle identity does not match existing job"
      return (s, none)
  | none =>
      let job := cycleJob command dueAt fingerprint normalizedCycle
      return ({ s with
        jobs := s.jobs.put job
        terminalJobIds := s.terminalJobIds.erase job.jobId }, some job.jobId)

/-- A cycle that a tick asks for. -/
structure DueCycle where
  command : ResearchCommand
  cycleKey : Text

/-- The cycles that a tick asks for, in the order of their registration. A cutoff without
an offset is noticed when it is compared, after the cycles before it. -/
def dueCycles (networkEnabled : Bool) (current : UtcDateTime) (sessionCompleted : Bool)
    (fingerprint : Option Text) (dataRefreshed : Bool) (outcomeCutoff : Option ClockTime) :
    List (Except String DueCycle) :=
  let named := fingerprint.getD "no-fingerprint".toList
  let day := current.date.isoformat
  (if networkEnabled ∧ sessionCompleted then
      [.ok ⟨.history, "history:".toList ++ day⟩]
    else []) ++
  (match fingerprint with
    | some text => [.ok ⟨.screen, "screen:".toList ++ text⟩]
    | none => []) ++
  (match outcomeCutoff.map ClockTime.toUtc with
    | some (.ok cutoff) =>
        if current < cutoff then
          [.ok ⟨.predict, "predict:".toList ++ named ++ ':' :: cutoff.date.isoformat⟩]
        else []
    | some (.error message) => [.error message]
    | none => []) ++
  (if dataRefreshed then
      [.ok ⟨.settle, "settle:".toList ++ named ++ ':' :: day⟩]
    else [])

def registerCycles (current : UtcDateTime) (fingerprint : Option Text) :
    List (Except String DueCycle) → ResearchSupervisor →
      ResearchSupervisor × Except String (List Text)
  | [], s => (s, .ok [])
  | .error message :: _, s => (s, .error message)
  | .ok cycle :: rest, s =>
      match registerCycle cycle.command current fingerprint cycle.cycleKey s with
      | .error message => (s, .error message)
      | .ok (s, registered) =>
          let (s, others) := registerCycles current fingerprint rest s
          (s, others.map (registered.toList ++ ·))

def registerDefaultJobs (networkEnabled : Bool) (now : ClockTime) (sessionCompleted : Bool)
    (dataFingerprint : Option Text) (dataRefreshed : Bool) (outcomeCutoff : Option ClockTime)
    (s : ResearchSupervisor) : ResearchSupervisor × Except String (List Text) :=
  match now.toUtc, safeMetadata dataFingerprint "input_fingerprint" with
  | .error message, _ => (s, .error message)
  | _, .error message => (s, .error message)
  | .ok current, .ok fingerprint =>
      match registerCycles current fingerprint
          (dueCycles networkEnabled current sessionCompleted fingerprint dataRefreshed
            outcomeCutoff) s with
      | (s, .error message) => (s, .error message)
      | (s, .ok registered) => (s.pruneTerminalHistory, .ok registered)

/-! ### Launching -/

def activeClasses (s : ResearchSupervisor) : List ResourceClass :=
  (s.children.values.filter ResearchChild.running).filterMap fun child =>
    (s.jobs.get? child.jobId).map ResearchJob.resourceClass

/-- The state of the loop of `start_due_jobs`, with the jobs it has started, the last one
first. -/
structure Launching where
  supervisor : ResearchSupervisor
  active : List ResourceClass
  started : List ResearchJob

/-- A job that the loop does not skip. -/
def Eligible (networkEnabled : Bool) (current : UtcDateTime) (state : Launching)
    (job : ResearchJob) : Prop :=
  job.completed = false ∧ job.jobId ∉ state.supervisor.terminalJobIds ∧
    job.jobId ∉ state.supervisor.children.keys ∧
    job.dueAt ≤ current ∧ job.nextEligibleAt.getD job.dueAt ≤ current ∧
    (job.resourceClass = .network → networkEnabled = true) ∧
    job.resourceClass ∉ state.active

instance (networkEnabled : Bool) (current : UtcDateTime) (state : Launching)
    (job : ResearchJob) : Decidable (Eligible networkEnabled current state job) := by
  unfold Eligible
  infer_instance

def launchFailed (job : ResearchJob) : ResearchJob :=
  { job with failureReason := some "LAUNCH_FAILED".toList, processExitCode := some (-1) }

/-- One round of the loop of `start_due_jobs`. -/
def startJob (networkEnabled : Bool) (current : UtcDateTime) (launchFails : Text → Bool)
    (state : Launching) (job : ResearchJob) : Launching :=
  if Eligible networkEnabled current state job then
    let s := state.supervisor
    if launchFails job.jobId then
      { state with supervisor := { s with
          jobs := s.jobs.put (launchFailed job)
          terminalJobIds := insert job.jobId s.terminalJobIds } }
    else
      { supervisor := { s with children := s.children.put ⟨job.jobId, job.command, none⟩ }
        active := job.resourceClass :: state.active
        started := job :: state.started }
  else state

/-- The second half of `start_due_jobs`, after the finished children were collected. -/
def launchDue (networkEnabled : Bool) (current : UtcDateTime) (launchFails : Text → Bool)
    (s : ResearchSupervisor) : Launching :=
  s.jobs.values.foldl (startJob networkEnabled current launchFails) ⟨s, s.activeClasses, []⟩

/-! ### Restoring -/

def validCheckpointJob (job : ResearchJob) : Bool :=
  job.jobId.strip ≠ [] ∧ job.stage ∈ validStages ∧
    (safeMetadata job.inputFingerprint "input_fingerprint").isOk ∧
    (safeMetadata job.artifactDigest "artifact_digest").isOk ∧
    (job.cycleKey = [] ∨ (safeMetadata (some job.cycleKey) "cycle_key").isOk) ∧
    (job.completed → (safeStatusDigest job.artifactDigest).isSome) ∧
    safeReason job.failureReason = job.failureReason

/-- A job as it is read back; a completed one is checked against its evidence again. -/
def restoredJob (verified : Text → Bool) (job : ResearchJob) : ResearchJob :=
  let intact := job.completed → verified job.jobId
  { job with
    nextEligibleAt := some (job.nextEligibleAt.getD job.dueAt)
    cycleKey := if job.cycleKey = [] then legacyCycleKey job else job.cycleKey
    completed := job.completed ∧ intact
    failureReason := if intact then job.failureReason
      else some "EVIDENCE_INTEGRITY_FAILURE".toList }

theorem restoredJob_jobId (verified : Text → Bool) (job : ResearchJob) :
    (restoredJob verified job).jobId = job.jobId := rfl

/-- `_restore_schedule_state`. It stops at a record that is not valid, and then has no
jobs. -/
def restore (verified : Text → Bool) (saved : Keyed ResearchJob.jobId) : ResearchSupervisor :=
  let read := saved.values.takeWhile validCheckpointJob
  let finished := (read.filter fun job => job.completed ∨ job.processExitCode.isSome).map
    ResearchJob.jobId
  { jobs := if saved.values.all validCheckpointJob then
        saved.map (restoredJob verified) (restoredJob_jobId verified)
      else .empty
    children := .empty
    terminalJobIds := finished.toFinset
    accepting := true }

end ResearchSupervisor

/-! ### Steps -/

/-- What happens to a supervisor apart from `register_job`. -/
inductive LifecycleInput where
  | registerDefaultJobs (now : ClockTime) (sessionCompleted : Bool)
      (dataFingerprint : Option Text) (dataRefreshed : Bool) (outcomeCutoff : Option ClockTime)
  | startDueJobs (now : ClockTime) (reports : Text → Option ChildStatus) (saved : Bool)
      (lateExits : Exits) (launchFails : Text → Bool)
  | childrenExit (exits : Exits)
  | shutdown (reports : Text → Option ChildStatus) (saved : Bool) (stops : Exits)
  | restart (readable : Bool) (verified : Text → Bool)

inductive SupervisorInput where
  | lifecycle (input : LifecycleInput)
  | registerJob (jobId : Text) (command : List Text) (dueAt : ClockTime)
      (inputFingerprint stage artifactDigest completedArtifactDigest : Option Text)
      (nextEligibleAt nextEligible : Option ClockTime)

def ResearchJob.launched (job : ResearchJob) : ResearchEvent :=
  .launched job.jobId job.cycleKey job.command

namespace ResearchWorld

open ResearchSupervisor

def initial : ResearchWorld := ⟨.fresh, none, []⟩

def writeCheckpoint (saved : Bool) (w : ResearchWorld) : ResearchWorld :=
  { w with checkpoint := if saved then some w.supervisor.jobs else w.checkpoint }

def collect (reports : Text → Option ChildStatus) (saved : Bool) (w : ResearchWorld) :
    ResearchWorld :=
  let finished := w.supervisor.hasFinished
  { w with supervisor := w.supervisor.collectFinishedChildren reports }.writeCheckpoint
    (finished && saved)

/-- Children may exit between the collection and the look at those that run. -/
def startDueJobs (networkEnabled : Bool) (now : ClockTime)
    (reports : Text → Option ChildStatus) (saved : Bool) (lateExits : Exits)
    (launchFails : Text → Bool) (w : ResearchWorld) : ResearchWorld :=
  if w.supervisor.accepting then
    match now.toUtc with
    | .error _ => w
    | .ok current =>
        let w := w.collect reports saved
        let state := (w.supervisor.childrenExit lateExits).launchDue networkEnabled current
          launchFails
        { w with
          supervisor := state.supervisor
          log := state.started.map ResearchJob.launched ++ w.log }
  else w

def shutdown (reports : Text → Option ChildStatus) (saved : Bool) (stops : Exits)
    (w : ResearchWorld) : ResearchWorld :=
  let w := { w with supervisor := { w.supervisor with accepting := false } }.collect reports saved
  let w := w.writeCheckpoint saved
  { w with supervisor := w.supervisor.childrenExit stops, log := .shutdown :: w.log }

/-- A new supervisor on the checkpoint file. -/
def restart (readable : Bool) (verified : Text → Bool) (w : ResearchWorld) : ResearchWorld :=
  { w with
    supervisor := match w.checkpoint with
      | some saved => if readable then restore verified saved else fresh
      | none => fresh
    log := [] }

def lifecycle (networkEnabled : Bool) (w : ResearchWorld) : LifecycleInput → ResearchWorld
  | .registerDefaultJobs now sessionCompleted dataFingerprint dataRefreshed outcomeCutoff =>
      { w with supervisor := (w.supervisor.registerDefaultJobs networkEnabled now
          sessionCompleted dataFingerprint dataRefreshed outcomeCutoff).1 }
  | .startDueJobs now reports saved lateExits launchFails =>
      w.startDueJobs networkEnabled now reports saved lateExits launchFails
  | .childrenExit exits => { w with supervisor := w.supervisor.childrenExit exits }
  | .shutdown reports saved stops => w.shutdown reports saved stops
  | .restart readable verified => w.restart readable verified

def step (networkEnabled : Bool) (w : ResearchWorld) : SupervisorInput → ResearchWorld
  | .lifecycle input => w.lifecycle networkEnabled input
  | .registerJob jobId command dueAt inputFingerprint stage artifactDigest
      completedArtifactDigest nextEligibleAt nextEligible =>
      match w.supervisor.registerJob jobId command dueAt inputFingerprint stage artifactDigest
          completedArtifactDigest nextEligibleAt nextEligible with
      | .ok supervisor => { w with supervisor := supervisor }
      | .error _ => w

end ResearchWorld

end QuantWorkbench.Runtime
