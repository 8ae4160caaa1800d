import QuantWorkbench.Runtime.CheckpointRecords

/-!
What every run of a supervisor keeps of its jobs: each was checked before it was recorded, it is
over exactly if its record says so, and a completed one has its evidence.
-/

namespace QuantWorkbench.Runtime

open Lib ResearchSupervisor

/-! ### Jobs that have not begun -/

/-- What a recorded job is that has not begun. -/
structure Unbegun (job : ResearchJob) : Prop extends Recorded job where
  notCompleted : job.completed = false
  noExitCode : job.processExitCode = none

theorem strip_verb (command : ResearchCommand) (rest : Text) :
    (command.verb ++ rest).strip ≠ [] := by
  cases command <;> exact Text.strip_cons_ne_nil _ rfl

theorem unbegun_cycleJob {command : ResearchCommand} {dueAt : UtcDateTime}
    {fingerprint : Option Text} {cycleKey : Text}
    (hfingerprint : safeMetadata fingerprint "input_fingerprint" = .ok fingerprint) :
    Unbegun (cycleJob command dueAt fingerprint cycleKey.strip) where
  jobId := strip_verb command _
  stage := List.mem_map_of_mem (by cases command <;> decide)
  fingerprint := hfingerprint
  digest := rfl
  cycleStrip := Text.strip_strip cycleKey
  reason := rfl
  next := rfl
  completed hcompleted := nomatch hcompleted
  notCompleted := rfl
  noExitCode := rfl

/-! ### Finished jobs -/

theorem safeStatusDigest_metadata {value : Option Text} {digest : Text}
    (h : safeStatusDigest value = some digest) :
    safeMetadata (some digest) "artifact_digest" = .ok (some digest) ∧
      safeStatusDigest (some digest) = some digest := by
  unfold safeStatusDigest at h
  split at h
  · rename_i text hsafe
    obtain ⟨hraw, hdigest⟩ := Option.ite_none_right_eq_some.mp h
    cases hdigest
    have hagain := safeMetadata_again hsafe "artifact_digest"
    refine ⟨hagain, ?_⟩
    rw [safeStatusDigest, hagain]
    exact if_pos hraw
  · cases h

theorem finishedJob_completed {report : Option ChildStatus} {child : ResearchChild}
    {job : ResearchJob} (h : (finishedJob report child job).completed = true) :
    child.exitCode = some 0 ∧ ∃ status digest, report = some status ∧
      safeStatusDigest status.artifactDigest = some digest ∧ status.evidenceVerified = true ∧
        (finishedJob report child job).artifactDigest = some digest := by
  simp only [finishedJob, decide_eq_true_eq] at h
  obtain ⟨hcode, hsome, status, hstatus, _, hverified⟩ := h
  cases hstatus
  obtain ⟨digest, hdigest⟩ := Option.isSome_iff_exists.mp hsome
  refine ⟨hcode, status, digest, rfl, hdigest, hverified, ?_⟩
  simp only [finishedJob, hdigest]
  rfl

theorem finishedJob_recorded {job : ResearchJob} (h : Recorded job) (report : Option ChildStatus)
    (child : ResearchChild) : Recorded (finishedJob report child job) := by
  refine {
    jobId := h.jobId
    stage := h.stage
    fingerprint := h.fingerprint
    digest := ?_
    cycleStrip := h.cycleStrip
    reason := ?_
    next := h.next
    completed := fun hcompleted => ?_ }
  · simp only [finishedJob]
    cases hreport : report.bind fun status => safeStatusDigest status.artifactDigest with
    | none => exact h.digest
    | some digest =>
        obtain ⟨status, _, hdigest⟩ := Option.bind_eq_some_iff.mp hreport
        exact (safeStatusDigest_metadata hdigest).1
  · simp only [finishedJob]
    split
    · rfl
    · cases hreport : report.bind fun status => safeReason status.reasonCode with
      | none =>
          rw [Option.getD_none]
          split <;> decide
      | some reason =>
          obtain ⟨status, _, hreason⟩ := Option.bind_eq_some_iff.mp hreport
          rw [Option.getD_some, ← hreason]
          exact safeReason_again
  · obtain ⟨_, status, digest, _, hdigest, _, hsame⟩ := finishedJob_completed hcompleted
    rw [hsame, (safeStatusDigest_metadata hdigest).2]
    rfl

/-! ### Failed and restored jobs -/

theorem launchFailed_recorded {job : ResearchJob} (h : Recorded job)
    (hopen : job.completed = false) : Recorded (launchFailed job) where
  jobId := h.jobId
  stage := h.stage
  fingerprint := h.fingerprint
  digest := h.digest
  cycleStrip := h.cycleStrip
  reason := by
    change safeReason (some "LAUNCH_FAILED".toList) = some "LAUNCH_FAILED".toList
    decide
  next := h.next
  completed hcompleted := absurd hcompleted (by simp [launchFailed, hopen])

/-- A job of a file that a supervisor has written. -/
structure SavedJob (job : ResearchJob) : Prop extends Recorded job where
  success : job.completed = true → job.processExitCode.isSome = true

theorem strip_of_ends {first last : Char} (hfirst : Text.isSpace first = false)
    (hlast : Text.isSpace last = false) (text : Text) :
    Text.strip (first :: (text ++ [last])) = first :: (text ++ [last]) := by
  rw [Text.strip, List.dropWhile_cons_of_neg (by simp [hfirst]), ← List.cons_append,
    List.rdropWhile_concat_neg _ _ _ (by simp [hlast])]

theorem legacyCycleKey_ends (job : ResearchJob) :
    ∃ middle : Text, legacyCycleKey job = 'l' :: (middle ++ ['0']) := by
  have hword : "legacy:".toList = 'l' :: "egacy:".toList := rfl
  have hoffset : "+00:00".toList = "+00:0".toList ++ ['0'] := rfl
  unfold legacyCycleKey UtcDateTime.isoformat
  rw [hword, hoffset]
  generalize "egacy:".toList = word
  generalize "+00:0".toList = offset
  generalize job.inputFingerprint.getD _ = fingerprint
  refine ⟨word ++ job.command.verb ++ ':' :: (fingerprint ++ ':' ::
    (job.dueAt.date.isoformat ++ 'T' :: (job.dueAt.timeText ++ offset))), ?_⟩
  simp

/-- A legacy key begins with its word and ends with the offset of its time. -/
theorem strip_legacyCycleKey (job : ResearchJob) :
    (legacyCycleKey job).strip = legacyCycleKey job := by
  obtain ⟨middle, hends⟩ := legacyCycleKey_ends job
  rw [hends]
  exact strip_of_ends (by decide) (by decide) middle
theorem restoredJob_recorded {job : ResearchJob} (h : Recorded job) (verified : Text → Bool) :
    Recorded (restoredJob verified job) where
  jobId := h.jobId
  stage := h.stage
  fingerprint := h.fingerprint
  digest := h.digest
  cycleStrip := by
    simp only [restoredJob]
    split
    · exact strip_legacyCycleKey job
    · exact h.cycleStrip
  reason := by
    simp only [restoredJob]
    split
    · exact h.reason
    · decide
  next := rfl
  completed hcompleted := h.completed (of_decide_eq_true hcompleted).1

/-! ### Kept jobs -/

variable [ValueTexts]

/-- A recorded job of a supervisor. -/
structure JobKept (files : ResearchFiles) (terminal : Finset Text) (job : ResearchJob) : Prop
    extends Recorded job where
  isOver : job.jobId ∈ terminal ↔ job.completed = true ∨ job.processExitCode.isSome = true
  success : job.completed = true → job.processExitCode.isSome = true
  verified : job.completed = true → files.verified job = true

def SupervisorKept (files : ResearchFiles) (s : ResearchSupervisor) : Prop :=
  ∀ job ∈ s.jobs.values, JobKept files s.terminalJobIds job

variable {files : ResearchFiles} {s : ResearchSupervisor}

theorem JobKept.congr {terminal after : Finset Text} {job : ResearchJob}
    (h : JobKept files terminal job) (hiff : job.jobId ∈ after ↔ job.jobId ∈ terminal) :
    JobKept files after job :=
  { h with isOver := hiff.trans h.isOver }

/-- A job that has not begun takes the place of the one with its id. -/
theorem SupervisorKept.putUnbegun (h : SupervisorKept files s) {job : ResearchJob}
    (hjob : Unbegun job) : SupervisorKept files { s with
      jobs := s.jobs.put job
      terminalJobIds := s.terminalJobIds.erase job.jobId } := by
  intro other hother
  rcases Keyed.mem_values_put.mp hother with rfl | ⟨hold, hne⟩
  · refine { hjob.toRecorded with isOver := ?_, success := ?_, verified := ?_ }
    · simp [hjob.notCompleted, hjob.noExitCode]
    · simp [hjob.notCompleted]
    · simp [hjob.notCompleted]
  · refine (h other hold).congr ?_
    rw [Finset.mem_erase, and_iff_right hne]

/-- A job that is over takes the place of the one with its id. -/
theorem SupervisorKept.putOver (h : SupervisorKept files s) {job : ResearchJob}
    (hrecorded : Recorded job) (hover : job.processExitCode.isSome = true)
    (hverified : job.completed = true → files.verified job = true)
    (children : Keyed ResearchChild.jobId) : SupervisorKept files { s with
      jobs := s.jobs.put job
      terminalJobIds := insert job.jobId s.terminalJobIds
      children := children } := by
  intro other hother
  rcases Keyed.mem_values_put.mp hother with rfl | ⟨hold, hne⟩
  · refine { hrecorded with isOver := ?_, success := fun _ => hover, verified := hverified }
    exact iff_of_true (Finset.mem_insert_self _ _) (Or.inr hover)
  · refine (h other hold).congr ?_
    rw [Finset.mem_insert, or_iff_right hne]

theorem SupervisorKept.pruneTerminalHistory (h : SupervisorKept files s) :
    SupervisorKept files s.pruneTerminalHistory := by
  intro job hjob
  obtain ⟨hmem, hkept⟩ := Keyed.mem_values_filter.mp hjob
  refine (h job hmem).congr ?_
  have hstays : job.jobId ∉ s.removable := by simpa using hkept
  exact Finset.mem_filter.trans (and_iff_left hstays)

/-! ### Registration -/

theorem SupervisorKept.registerJob (h : SupervisorKept files s) {jobId : Text}
    {command : List Text} {dueAt : ClockTime}
    {inputFingerprint stage artifactDigest completedArtifactDigest : Option Text}
    {nextEligibleAt nextEligible : Option ClockTime} {after : ResearchSupervisor}
    (hrun : s.registerJob jobId command dueAt inputFingerprint stage artifactDigest
      completedArtifactDigest nextEligibleAt nextEligible = .ok after) :
    SupervisorKept files after := by
  unfold ResearchSupervisor.registerJob at hrun
  obtain ⟨_, hid, hrun⟩ := bind_eq_ok_iff.mp hrun
  obtain ⟨normalized, _, hrun⟩ := bind_eq_ok_iff.mp hrun
  obtain ⟨due, _, hrun⟩ := bind_eq_ok_iff.mp hrun
  obtain ⟨_, hstage, hrun⟩ := bind_eq_ok_iff.mp hrun
  obtain ⟨fingerprint, hfingerprint, hrun⟩ := bind_eq_ok_iff.mp hrun
  obtain ⟨_, _, hrun⟩ := bind_eq_ok_iff.mp hrun
  obtain ⟨digest, hdigest, hrun⟩ := bind_eq_ok_iff.mp hrun
  obtain ⟨_, _, hrun⟩ := bind_eq_ok_iff.mp hrun
  obtain ⟨eligible, _, hrun⟩ := bind_eq_ok_iff.mp hrun
  cases hrun
  refine h.putUnbegun {
    jobId := ?_
    stage := require_eq_ok_iff.mp hstage
    fingerprint := safeMetadata_again hfingerprint _
    digest := safeMetadata_again hdigest _
    cycleStrip := rfl
    reason := rfl
    next := rfl
    completed := fun hcompleted => nomatch hcompleted
    notCompleted := rfl
    noExitCode := rfl }
  rw [Text.strip_strip]
  exact (require_eq_ok_iff.mp hid).1

theorem SupervisorKept.registerCycles {current : UtcDateTime} {fingerprint : Option Text}
    (hfingerprint : safeMetadata fingerprint "input_fingerprint" = .ok fingerprint) :
    ∀ (cycles : List (Except String DueCycle)) (s : ResearchSupervisor),
      SupervisorKept files s →
        SupervisorKept files (registerCycles current fingerprint cycles s).1
  | [], _, h => h
  | .error _ :: _, _, h => h
  | .ok cycle :: rest, s, h => by
      rw [ResearchSupervisor.registerCycles]
      split
      · exact h
      · rename_i after registered hrun
        apply SupervisorKept.registerCycles hfingerprint rest after
        rcases registerCycle_cases hrun with rfl | ⟨_, rfl⟩
        · exact h
        · exact h.putUnbegun (unbegun_cycleJob hfingerprint)

theorem SupervisorKept.registerDefaultJobs (h : SupervisorKept files s) (networkEnabled : Bool)
    (now : ClockTime) (sessionCompleted : Bool) (dataFingerprint : Option Text)
    (dataRefreshed : Bool) (outcomeCutoff : Option ClockTime) :
    SupervisorKept files (s.registerDefaultJobs networkEnabled now sessionCompleted
      dataFingerprint dataRefreshed outcomeCutoff).1 := by
  unfold ResearchSupervisor.registerDefaultJobs
  split
  · exact h
  · exact h
  · rename_i current fingerprint _ hfingerprint
    have hregistered : SupervisorKept files (ResearchSupervisor.registerCycles current
        fingerprint (dueCycles networkEnabled current sessionCompleted fingerprint dataRefreshed
          outcomeCutoff) s).1 :=
      .registerCycles (safeMetadata_again hfingerprint "input_fingerprint") _ s h
    split
    · rename_i hrun
      rw [hrun] at hregistered
      exact hregistered
    · rename_i hrun
      rw [hrun] at hregistered
      exact hregistered.pruneTerminalHistory

/-! ### Collection -/

/-- Whether a job is verified depends on its own files only. -/
theorem verified_congr {files other : ResearchFiles} {job : ResearchJob}
    (hstatus : other.status job.jobId = files.status job.jobId)
    (hevidence : other.evidence job.jobId = files.evidence job.jobId) :
    other.verified job = files.verified job := by
  have hread : other.readChildStatus job = files.readChildStatus job := by
    simp only [ResearchFiles.readChildStatus, hstatus]
  have hartifact : ∀ status digest, other.statusHasVerifiedArtifact job status digest =
      files.statusHasVerifiedArtifact job status digest := by
    intro status digest
    rw [ResearchFiles.statusHasVerifiedArtifact, hevidence, ResearchFiles.statusHasVerifiedArtifact]
  simp only [ResearchFiles.verified, hread, hartifact]

theorem finishedJob_verified {child : ResearchChild} {job : ResearchJob}
    (h : (finishedJob (files.report job) child job).completed = true) :
    files.verified (finishedJob (files.report job) child job) = true := by
  obtain ⟨_, status, digest, hreport, hdigest, hverified, hsame⟩ := finishedJob_completed h
  obtain ⟨payload, hread, rfl⟩ := Option.map_eq_some_iff.mp hreport
  obtain ⟨found, hfound, hartifact⟩ := (Option.any_eq_true _ _).mp hverified
  cases hdigest.symm.trans hfound
  refine (Option.any_eq_true _ _).mpr ⟨payload, hread, ?_⟩
  refine (Option.any_eq_true _ _).mpr ⟨digest, hdigest, ?_⟩
  rw [hsame]
  exact decide_eq_true ⟨rfl, hartifact⟩

def ReportsOf (files : ResearchFiles) (reports : Text → Option ChildStatus)
    (s : ResearchSupervisor) : Prop :=
  ∀ job ∈ s.jobs.values, reports job.jobId = files.report job

theorem SupervisorKept.collectChild (h : SupervisorKept files s)
    {reports : Text → Option ChildStatus} (hreports : ReportsOf files reports s)
    (child : ResearchChild) :
    SupervisorKept files (collectChild reports s child) ∧
      ReportsOf files reports (collectChild reports s child) := by
  unfold ResearchSupervisor.collectChild
  split
  · exact ⟨h, hreports⟩
  · rename_i hexited
    split
    · exact ⟨h, hreports⟩
    · rename_i job hjob
      obtain ⟨hmem, hid⟩ := Keyed.get?_eq_some_iff.mp hjob
      have hcode : child.exitCode.isSome = true := by
        cases hexit : child.exitCode with
        | none => exact absurd (by rw [ResearchChild.running, hexit]; rfl) hexited
        | some code => rfl
      rw [← hid, hreports job hmem]
      constructor
      · exact h.putOver (finishedJob_recorded (h job hmem).toRecorded _ child) hcode
          finishedJob_verified _
      · intro other hother
        rcases Keyed.mem_values_put.mp hother with rfl | ⟨hold, _⟩
        · exact hreports job hmem
        · exact hreports other hold

theorem SupervisorKept.collectFinishedChildren (h : SupervisorKept files s) :
    SupervisorKept files (s.collectFinishedChildren (files.reports s)) := by
  unfold ResearchSupervisor.collectFinishedChildren
  apply SupervisorKept.pruneTerminalHistory
  have hreports : ReportsOf files (files.reports s) s := by
    intro job hjob
    rw [ResearchFiles.reports, Keyed.get?_eq_some_iff.mpr ⟨hjob, rfl⟩]
    rfl
  generalize files.reports s = reports at hreports ⊢
  generalize s.children.values = children
  induction children generalizing s with
  | nil => exact h
  | cons child rest ih =>
      obtain ⟨hkept, hreported⟩ := h.collectChild hreports child
      exact ih hkept hreported

/-! ### Launching -/

theorem SupervisorKept.startJob {state : Launching} (h : SupervisorKept files state.supervisor)
    {job : ResearchJob} (hjob : Recorded job) (networkEnabled : Bool) (current : UtcDateTime)
    (launchFails : Text → Bool) :
    SupervisorKept files (startJob networkEnabled current launchFails state job).supervisor := by
  unfold ResearchSupervisor.startJob
  split
  · rename_i heligible
    have hopen : job.completed = false := heligible.1
    split
    · refine h.putOver (launchFailed_recorded hjob hopen) rfl (fun hcompleted => ?_) _
      exact absurd hcompleted (by simp [launchFailed, hopen])
    · exact h
  · exact h

theorem SupervisorKept.launchDue (h : SupervisorKept files s) (networkEnabled : Bool)
    (current : UtcDateTime) (launchFails : Text → Bool) :
    SupervisorKept files (s.launchDue networkEnabled current launchFails).supervisor := by
  have hloop : ∀ (pending : List ResearchJob) (state : Launching),
      (∀ job ∈ pending, Recorded job) → SupervisorKept files state.supervisor →
        SupervisorKept files (pending.foldl
          (ResearchSupervisor.startJob networkEnabled current launchFails) state).supervisor := by
    intro pending
    induction pending with
    | nil => exact fun _ _ hkept => hkept
    | cons job rest ih =>
        intro state hpending hkept
        obtain ⟨hjob, hrest⟩ := List.forall_mem_cons.mp hpending
        exact ih _ hrest (hkept.startJob hjob networkEnabled current launchFails)
  exact hloop s.jobs.values ⟨s, s.activeClasses, []⟩ (fun job hjob => (h job hjob).toRecorded) h

/-! ### Restoring -/

theorem SupervisorKept.restore {jobs : Keyed ResearchJob.jobId}
    (h : ∀ job ∈ jobs.values, SavedJob job) :
    SupervisorKept files (restore (verifiedIds files jobs) jobs) := by
  by_cases hall : jobs.values.all validCheckpointJob = true
  · intro job hjob
    simp only [ResearchSupervisor.restore, if_pos hall] at hjob
    obtain ⟨saved, hsaved, rfl⟩ := (Keyed.mem_values_map _).mp hjob
    have hfound : jobs.get? saved.jobId = some saved := Keyed.get?_eq_some_iff.mpr ⟨hsaved, rfl⟩
    have hwhole : jobs.values.takeWhile validCheckpointJob = jobs.values :=
      List.takeWhile_eq_self_iff.mpr (List.all_eq_true.mp hall)
    have hcompleted : (restoredJob (verifiedIds files jobs) saved).completed = true ↔
        saved.completed = true ∧ (saved.completed = true → files.verified saved = true) := by
      simp only [restoredJob, verifiedIds, hfound, Option.any_some, decide_eq_true_eq]
    refine { restoredJob_recorded (h saved hsaved).toRecorded _ with
      isOver := ?_, success := ?_, verified := ?_ }
    · simp only [ResearchSupervisor.restore, hwhole, List.mem_toFinset, List.mem_map,
        List.mem_filter, decide_eq_true_eq]
      rw [hcompleted]
      constructor
      · rintro ⟨other, ⟨hother, hover⟩, hid⟩
        obtain rfl := Keyed.eq_of_key_eq hother hsaved hid
        right
        exact hover.elim (h other hother).success id
      · intro hover
        refine ⟨saved, ⟨hsaved, Or.inr ?_⟩, rfl⟩
        exact hover.elim (fun hboth => (h saved hsaved).success hboth.1) id
    · exact fun hdone => (h saved hsaved).success (hcompleted.mp hdone).1
    · exact fun hdone => (hcompleted.mp hdone).2 (hcompleted.mp hdone).1
  · intro job hjob
    simp only [ResearchSupervisor.restore, if_neg hall] at hjob
    cases hjob

/-! ### Worlds -/

/-- The checkpoint file is one that a supervisor has written. -/
def CheckpointKept (checkpoint : Option (List UInt8)) : Prop :=
  ∀ raw ∈ checkpoint, ∃ createdAt jobs, raw = checkpointBytes createdAt jobs ∧
    ∀ job ∈ jobs.values, SavedJob job

structure WorldKept (w : CheckpointWorld) : Prop where
  jobs : SupervisorKept w.files w.supervisor
  checkpoint : CheckpointKept w.checkpoint

variable {w : CheckpointWorld}

theorem JobKept.saved {terminal : Finset Text} {job : ResearchJob}
    (h : JobKept files terminal job) : SavedJob job :=
  { h.toRecorded with success := h.success }

theorem WorldKept.writeCheckpoint (h : WorldKept w) (saved : Option UtcDateTime) :
    WorldKept (w.writeCheckpoint saved) := by
  refine ⟨h.jobs, ?_⟩
  cases saved with
  | none => exact h.checkpoint
  | some createdAt =>
      intro raw hraw
      cases hraw
      exact ⟨createdAt, w.supervisor.jobs, rfl, fun job hjob => (h.jobs job hjob).saved⟩

theorem WorldKept.collect (h : WorldKept w) (saved : Option UtcDateTime) :
    WorldKept (w.collect saved) := by
  apply WorldKept.writeCheckpoint
  exact ⟨h.jobs.collectFinishedChildren, h.checkpoint⟩

theorem WorldKept.workerWrites (h : WorldKept w) (jobId : Text)
    (status evidence : Option (List UInt8)) :
    WorldKept (w.workerWrites jobId status evidence) := by
  unfold CheckpointWorld.workerWrites
  split
  · exact h
  · rename_i hopen
    refine ⟨fun job hjob => ?_, h.checkpoint⟩
    have hkept := h.jobs job hjob
    refine { hkept.toRecorded with
      isOver := hkept.isOver, success := hkept.success, verified := fun hcompleted => ?_ }
    have hother : job.jobId ≠ jobId := by
      rintro rfl
      apply hopen
      rw [CheckpointWorld.isCompleted, Keyed.get?_eq_some_iff.mpr ⟨hjob, rfl⟩]
      exact hcompleted
    rw [verified_congr (Function.update_of_ne hother _ _) (Function.update_of_ne hother _ _)]
    exact hkept.verified hcompleted

theorem SupervisorKept.fresh : SupervisorKept files fresh := fun _ hjob => nomatch hjob

theorem WorldKept.restart (h : WorldKept w) :
    SupervisorKept w.files (restoreCheckpoint w.files w.checkpoint) := by
  cases hcheckpoint : w.checkpoint with
  | none => exact SupervisorKept.fresh
  | some raw =>
      obtain ⟨createdAt, jobs, rfl, hjobs⟩ := h.checkpoint raw hcheckpoint
      rw [restoreCheckpoint_checkpointBytes w.files createdAt fun job hjob =>
        (hjobs job hjob).toRecorded]
      split
      · exact SupervisorKept.restore hjobs
      · exact SupervisorKept.fresh

theorem worldKept_step (networkEnabled : Bool) (w : CheckpointWorld) (input : CheckpointInput)
    (h : WorldKept w) : WorldKept (w.step networkEnabled input) := by
  cases input with
  | registerJob jobId command dueAt inputFingerprint stage artifactDigest completedArtifactDigest
      nextEligibleAt nextEligible =>
      simp only [CheckpointWorld.step]
      split
      · rename_i hrun
        exact ⟨h.jobs.registerJob hrun, h.checkpoint⟩
      · exact h
  | registerDefaultJobs now sessionCompleted dataFingerprint dataRefreshed outcomeCutoff =>
      exact ⟨h.jobs.registerDefaultJobs networkEnabled now sessionCompleted dataFingerprint
        dataRefreshed outcomeCutoff, h.checkpoint⟩
  | startDueJobs now saved lateExits launchFails =>
      simp only [CheckpointWorld.step, CheckpointWorld.startDueJobs]
      split
      · split
        · exact h
        · rename_i current _
          obtain ⟨hjobs, hcheckpoint⟩ := h.collect saved
          refine ⟨SupervisorKept.launchDue ?_ networkEnabled current launchFails, hcheckpoint⟩
          exact hjobs
      · exact h
  | childrenExit exits => exact ⟨h.jobs, h.checkpoint⟩
  | shutdown collected saved stops =>
      have hstopped : WorldKept
          { w with supervisor := { w.supervisor with accepting := false } } :=
        ⟨h.jobs, h.checkpoint⟩
      obtain ⟨hjobs, hcheckpoint⟩ := (hstopped.collect collected).writeCheckpoint saved
      exact ⟨hjobs, hcheckpoint⟩
  | restart => exact ⟨h.restart, h.checkpoint⟩
  | workerWrites jobId status evidence => exact h.workerWrites jobId status evidence

theorem worldKept_run (networkEnabled : Bool) (files : ResearchFiles)
    (inputs : List CheckpointInput) :
    WorldKept (inputs.foldl (CheckpointWorld.step networkEnabled) (.initial files)) := by
  have hstart : WorldKept (.initial files) :=
    ⟨SupervisorKept.fresh, fun _ hraw => nomatch hraw⟩
  exact (Runs.always_of_invariant _ WorldKept (worldKept_step networkEnabled) _ inputs hstart).last

end QuantWorkbench.Runtime
