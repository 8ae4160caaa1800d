import QuantWorkbench.Lib.DecimalText
import QuantWorkbench.Lib.JsonBytes
import QuantWorkbench.Runtime.ResearchJobs

/-!
The checkpoint of the research supervisor as a file, and the status and evidence files of the
workers. A new supervisor reads the checkpoint and verifies each completed job again.
-/

namespace QuantWorkbench.Runtime

open Lib ResearchSupervisor

/-- `str(value)` of a value that is no string. -/
class ValueTexts where
  str : Json → Text

/-! ### Values -/

section

variable [ValueTexts]

def textOf : Json → Text
  | .str text => text
  | value => ValueTexts.str value

def givenText (payload : Json) (key : String) : Option Text :=
  match payload.member? key.toList with
  | none => none
  | some .null => none
  | some value => some (textOf value)

end

def equalsInt (number : ℤ) : Json → Bool
  | .int value => value = number
  | .bool value => (value.toNat : ℤ) = number
  | .float lexeme => DecimalText.parse lexeme = some (number : ℚ)
  | _ => false

def isObject : Json → Bool
  | .obj _ => true
  | _ => false

/-! ### Status and evidence -/

/-- The files of the workers, by the ids of their jobs; one that cannot be read is `none`. -/
structure ResearchFiles where
  status : Text → Option (List UInt8)
  evidence : Text → Option (List UInt8)

namespace ResearchFiles

def maximumStatusBytes : ℕ := 65536

def names (payload : Json) (job : ResearchJob) : Prop :=
  isObject payload = true ∧ payload.field "job_id" Json.asText = some job.jobId ∧
    payload.field "job" Json.asText = some job.command.verb

instance (payload : Json) (job : ResearchJob) : Decidable (names payload job) := by
  unfold names
  infer_instance

def readChildStatus (files : ResearchFiles) (job : ResearchJob) : Option Json := do
  let raw ← files.status job.jobId
  guard (raw ≠ [] ∧ raw.length ≤ maximumStatusBytes)
  let payload ← Json.ofBytes? raw
  guard (names payload job)
  return payload

def isEvidence (job : ResearchJob) (payload : Json) : Bool :=
  names payload job ∧ (payload.member? "format_version".toList).any (equalsInt 1) ∧
    (payload.member? "result".toList).any isObject

def statusHasVerifiedArtifact (files : ResearchFiles) (job : ResearchJob) (status : Json)
    (digest : Text) : Bool :=
  status.field "artifact_relpath" Json.asText =
      some ("evidence/".toList ++ job.jobId ++ ".json".toList) ∧
    (files.evidence job.jobId).any fun raw =>
      (Json.ofBytes? raw).any (isEvidence job) ∧
        Sha256.hexdigest raw = withoutPrefix "sha256:".toList digest

variable [ValueTexts]

/-- What a finished job takes from its status. -/
def report (files : ResearchFiles) (job : ResearchJob) : Option ChildStatus :=
  (files.readChildStatus job).map fun status => {
    status := (status.member? "status".toList).elim [] textOf
    artifactDigest := givenText status "artifact_digest"
    reasonCode := givenText status "reason_code"
    evidenceVerified := (safeStatusDigest (givenText status "artifact_digest")).any
      (files.statusHasVerifiedArtifact job status) }

/-- The reports of the children, by the jobs they were started for. -/
def reports (files : ResearchFiles) (s : ResearchSupervisor) (jobId : Text) : Option ChildStatus :=
  (s.jobs.get? jobId).bind files.report

/-- The status of a completed job has its digest, and its evidence that digest. -/
def verified (files : ResearchFiles) (job : ResearchJob) : Bool :=
  (files.readChildStatus job).any fun status =>
    (safeStatusDigest (givenText status "artifact_digest")).any fun digest =>
      some digest = job.artifactDigest ∧ files.statusHasVerifiedArtifact job status digest

end ResearchFiles

/-! ### Writing -/

def textJson (value : Option Text) : Json := Json.nullable .str value

def jobMembers (job : ResearchJob) : List (Text × Json) :=
  [("artifact_digest".toList, textJson job.artifactDigest),
    ("command".toList, .arr (job.command.parts.map .str)),
    ("completed".toList, .bool job.completed),
    ("completed_artifact_digest".toList, textJson job.artifactDigest),
    ("cycle_key".toList, if job.cycleKey = [] then .null else .str job.cycleKey),
    ("due_at".toList, .str job.dueAt.isoformat),
    ("failure_reason".toList, textJson job.failureReason),
    ("input_fingerprint".toList, textJson job.inputFingerprint),
    ("job_id".toList, .str job.jobId),
    ("next_eligible_at".toList, .str (job.nextEligibleAt.getD job.dueAt).isoformat),
    ("process_exit_code".toList, Json.nullable .int job.processExitCode),
    ("stage".toList, .str job.stage)]

def jobJson (job : ResearchJob) : Json := .obj (jobMembers job)

def checkpointBody (createdAt : UtcDateTime) (jobs : List ResearchJob) : List (Text × Json) :=
  [("created_at".toList, .str createdAt.isoformat), ("format_version".toList, .int 4),
    ("jobs".toList, .arr (jobs.map jobJson))]

def checkpointDigest (body : Json) : Text := Sha256.ofText (asciiOnly (Json.dumps body))

/-- The file that `_write_checkpoint` writes. -/
def checkpointBytes (createdAt : UtcDateTime) (jobs : Keyed ResearchJob.jobId) : List UInt8 :=
  let body := checkpointBody createdAt jobs.values
  (Json.dumpsIndented (.obj (Json.insertMember "sha256"
    (.str (checkpointDigest (.obj body))) body))).utf8

/-! ### Reading -/

def maximumCheckpointBytes : ℕ := 1048576

def readCheckpoint (raw : List UInt8) : Option Json := do
  guard (raw ≠ [] ∧ raw.length ≤ maximumCheckpointBytes)
  let parsed ← Json.ofBytes? raw
  guard (isObject parsed = true)
  guard ((parsed.member? "format_version".toList).any fun version =>
    equalsInt 2 version ∨ equalsInt 3 version ∨ equalsInt 4 version)
  let body := parsed.without "sha256"
  guard (parsed.field "sha256" Json.asText = some (checkpointDigest body))
  return body

section

variable [ValueTexts]

def givenMetadata (item : Json) (key : String) : Option (Option Text) :=
  (safeMetadata (givenText item key) key).toOption

/-- The flag of a completed job, which may be missing. -/
def readCompleted (item : Json) : Option Bool :=
  match item.member? "completed".toList with
  | none => some false
  | some value => value.asBool

def readExitCode (item : Json) : Option (Option ℤ) :=
  match item.member? "process_exit_code".toList with
  | none => some none
  | some value => Json.asNullable Json.asInt value

def readReason (item : Json) : Option (Option Text) := do
  let reason ← match item.member? "failure_reason".toList with
    | none => some none
    | some value => Json.asNullable Json.asText value
  guard (safeReason reason = reason)
  return reason

def readTime (item : Json) (key : String) : Option UtcDateTime :=
  (item.field key Json.asText).bind UtcDateTime.fromisoformat

/-- The digests of a job are the same, if the second one is given. -/
def digestsAgree (item : Json) : Bool :=
  match item.member? "completed_artifact_digest".toList with
  | none => true
  | some .null => true
  | some value => (item.member? "artifact_digest".toList).any fun digest =>
      Json.dumps value = Json.dumps digest

def readCycleKey (command : ResearchCommand) (item : Json) (cycleKey : Option Text) : Text :=
  cycleKey.getD ("legacy:".toList ++ command.verb ++ ':' ::
    ((givenText item "input_fingerprint").getD "no-fingerprint".toList ++ ':' ::
      (givenText item "due_at").getD "unknown".toList))

/-- A job of a checkpoint that `_valid_checkpoint_job` accepts. -/
def readJob (item : Json) : Option ResearchJob := do
  let jobId ← item.field "job_id" Json.asText
  guard (jobId.strip ≠ [])
  let command ← (item.field "command" Json.asTexts).bind ResearchCommand.ofParts?
  let stage ← item.field "stage" Json.asText
  guard (stage ∈ validStages)
  let dueAt ← readTime item "due_at"
  let nextEligibleAt ← readTime item "next_eligible_at"
  let inputFingerprint ← givenMetadata item "input_fingerprint"
  let artifactDigest ← givenMetadata item "artifact_digest"
  let cycleKey ← givenMetadata item "cycle_key"
  let _ ← givenMetadata item "completed_artifact_digest"
  guard (digestsAgree item = true)
  let completed ← readCompleted item
  guard (completed = true → (safeStatusDigest (givenText item "artifact_digest")).isSome)
  let processExitCode ← readExitCode item
  let failureReason ← readReason item
  return {
    jobId, command, dueAt, inputFingerprint, stage, artifactDigest
    nextEligibleAt := some nextEligibleAt
    completed, processExitCode, failureReason
    cycleKey := readCycleKey command item cycleKey }

def checkedJob (files : ResearchFiles) (job : ResearchJob) : ResearchJob :=
  if job.completed ∧ ¬ files.verified job then
    { job with completed := false, failureReason := some "EVIDENCE_INTEGRITY_FAILURE".toList }
  else job

/-- The loop of `_restore_schedule_state`, with the jobs and the terminal ids so far. It has no
jobs if a record is not valid or comes twice. -/
def restoreItems (files : ResearchFiles) (restored : Keyed ResearchJob.jobId)
    (terminal : Finset Text) : List Json → Option (Keyed ResearchJob.jobId) × Finset Text
  | [] => (some restored, terminal)
  | item :: rest =>
      match readJob item with
      | none => (none, terminal)
      | some job =>
          if job.jobId ∈ restored.keys then (none, terminal)
          else restoreItems files (restored.put (checkedJob files job))
            (if job.completed ∨ job.processExitCode.isSome then insert job.jobId terminal
              else terminal) rest

/-- A new supervisor on a checkpoint file. -/
def restoreCheckpoint (files : ResearchFiles) (raw : Option (List UInt8)) : ResearchSupervisor :=
  match (raw.bind readCheckpoint).bind fun body => body.field "jobs" (Json.asList some) with
  | none => fresh
  | some items =>
      let (restored, terminal) := restoreItems files .empty ∅ items
      { fresh with jobs := restored.getD .empty, terminalJobIds := terminal }

end

/-! ### Steps -/

/-- A supervisor, its checkpoint file and the files of the workers. -/
structure CheckpointWorld where
  supervisor : ResearchSupervisor
  checkpoint : Option (List UInt8)
  files : ResearchFiles

/-- What happens to a supervisor. A write has the time at which it succeeds. -/
inductive CheckpointInput where
  | registerJob (jobId : Text) (command : List Text) (dueAt : ClockTime)
      (inputFingerprint stage artifactDigest completedArtifactDigest : Option Text)
      (nextEligibleAt nextEligible : Option ClockTime)
  | registerDefaultJobs (now : ClockTime) (sessionCompleted : Bool)
      (dataFingerprint : Option Text) (dataRefreshed : Bool) (outcomeCutoff : Option ClockTime)
  | startDueJobs (now : ClockTime) (saved : Option UtcDateTime) (lateExits : Exits)
      (launchFails : Text → Bool)
  | childrenExit (exits : Exits)
  | shutdown (collected saved : Option UtcDateTime) (stops : Exits)
  | restart
  | workerWrites (jobId : Text) (status evidence : Option (List UInt8))

namespace CheckpointWorld

def initial (files : ResearchFiles) : CheckpointWorld := ⟨fresh, none, files⟩

def writeCheckpoint (saved : Option UtcDateTime) (w : CheckpointWorld) : CheckpointWorld :=
  { w with checkpoint := match saved with
      | none => w.checkpoint
      | some createdAt => some (checkpointBytes createdAt w.supervisor.jobs) }

/-- The job has its result, so no worker of it is running. -/
def isCompleted (w : CheckpointWorld) (jobId : Text) : Bool :=
  (w.supervisor.jobs.get? jobId).any ResearchJob.completed

def workerWrites (jobId : Text) (status evidence : Option (List UInt8)) (w : CheckpointWorld) :
    CheckpointWorld :=
  if w.isCompleted jobId then w
  else { w with files := {
    status := Function.update w.files.status jobId status
    evidence := Function.update w.files.evidence jobId evidence } }

variable [ValueTexts]

def collect (saved : Option UtcDateTime) (w : CheckpointWorld) : CheckpointWorld :=
  { w with supervisor := w.supervisor.collectFinishedChildren (w.files.reports w.supervisor)
    }.writeCheckpoint (if w.supervisor.hasFinished then saved else none)

def startDueJobs (networkEnabled : Bool) (now : ClockTime) (saved : Option UtcDateTime)
    (lateExits : Exits) (launchFails : Text → Bool) (w : CheckpointWorld) : CheckpointWorld :=
  if w.supervisor.accepting then
    match now.toUtc with
    | .error _ => w
    | .ok current =>
        let w := w.collect saved
        let state := (w.supervisor.childrenExit lateExits).launchDue networkEnabled current
          launchFails
        { w with supervisor := state.supervisor }
  else w

def shutdown (collected saved : Option UtcDateTime) (stops : Exits) (w : CheckpointWorld) :
    CheckpointWorld :=
  let w := { w with supervisor := { w.supervisor with accepting := false } }.collect collected
  let w := w.writeCheckpoint saved
  { w with supervisor := w.supervisor.childrenExit stops }

def step (networkEnabled : Bool) (w : CheckpointWorld) : CheckpointInput → CheckpointWorld
  | .registerJob jobId command dueAt inputFingerprint stage artifactDigest
      completedArtifactDigest nextEligibleAt nextEligible =>
      match w.supervisor.registerJob jobId command dueAt inputFingerprint stage artifactDigest
          completedArtifactDigest nextEligibleAt nextEligible with
      | .ok supervisor => { w with supervisor := supervisor }
      | .error _ => w
  | .registerDefaultJobs now sessionCompleted dataFingerprint dataRefreshed outcomeCutoff =>
      { w with supervisor := (w.supervisor.registerDefaultJobs networkEnabled now
          sessionCompleted dataFingerprint dataRefreshed outcomeCutoff).1 }
  | .startDueJobs now saved lateExits launchFails =>
      w.startDueJobs networkEnabled now saved lateExits launchFails
  | .childrenExit exits => { w with supervisor := w.supervisor.childrenExit exits }
  | .shutdown collected saved stops => w.shutdown collected saved stops
  | .restart => { w with supervisor := restoreCheckpoint w.files w.checkpoint }
  | .workerWrites jobId status evidence => w.workerWrites jobId status evidence

end CheckpointWorld

end QuantWorkbench.Runtime
