import QuantWorkbench.Runtime.CheckpointRuns

/-!
The round trip of the checkpoint: a new supervisor has the jobs of the old one, and of a completed
job whose evidence was changed it knows that. This is so exactly if the file is not too large, no
key of a cycle is refused and no job that is over was forgotten.
-/

namespace QuantWorkbench.Runtime

open Lib ResearchSupervisor

/-! ### What is restored -/

/-- What a checkpoint is to restore of a job. -/
structure JobView where
  jobId : Text
  command : ResearchCommand
  inputFingerprint : Option Text
  dueAt : UtcDateTime
  nextEligibleAt : Option UtcDateTime
  stage : Text
  completed : Bool
  processExitCode : Option ℤ
  failureReason : Option Text

def ResearchJob.view (job : ResearchJob) : JobView where
  jobId := job.jobId
  command := job.command
  inputFingerprint := job.inputFingerprint
  dueAt := job.dueAt
  nextEligibleAt := job.nextEligibleAt
  stage := job.stage
  completed := job.completed
  processExitCode := job.processExitCode
  failureReason := job.failureReason

def ResearchJob.brokenView (job : ResearchJob) : JobView :=
  { job.view with
    completed := false
    failureReason := some "EVIDENCE_INTEGRITY_FAILURE".toList }

def RestoresSame (before after : ResearchSupervisor) : Prop :=
  after.jobs.values.map ResearchJob.view = before.jobs.values.map ResearchJob.view ∧
    after.terminalJobIds = before.terminalJobIds

/-- The same jobs, but for one that is not completed and will not run again. -/
def RestoresBroken (before after : ResearchSupervisor) (jobId : Text) : Prop :=
  after.jobs.values.map ResearchJob.view = before.jobs.values.map (fun job =>
      if job.jobId = jobId then job.brokenView else job.view) ∧
    after.terminalJobIds = before.terminalJobIds ∧ jobId ∈ after.terminalJobIds

/-- Two contents with one digest. -/
def Collide (raw other : List UInt8) : Prop :=
  raw ≠ other ∧ Sha256.hexdigest raw = Sha256.hexdigest other

def ResearchFiles.withEvidence (files : ResearchFiles) (jobId : Text)
    (evidence : Option (List UInt8)) : ResearchFiles :=
  { files with evidence := Function.update files.evidence jobId evidence }

section

variable [ValueTexts]

/-- A new supervisor on the checkpoint that is written now has the same jobs, and with the evidence
of a completed job changed or removed it has the same jobs but for that one. -/
def RoundTrips (w : CheckpointWorld) (createdAt : UtcDateTime) : Prop :=
  RestoresSame w.supervisor
      (restoreCheckpoint w.files (some (checkpointBytes createdAt w.supervisor.jobs))) ∧
    ∀ job ∈ w.supervisor.jobs.values, job.completed = true → ∀ evidence,
      evidence ≠ w.files.evidence job.jobId →
        RestoresBroken w.supervisor (restoreCheckpoint (w.files.withEvidence job.jobId evidence)
            (some (checkpointBytes createdAt w.supervisor.jobs))) job.jobId ∨
          ∃ raw other, w.files.evidence job.jobId = some raw ∧ evidence = some other ∧
            Collide raw other

end

/-- The checkpoint that is written now can be read, and each job that is over is there. -/
structure FitsCheckpoint (w : CheckpointWorld) (createdAt : UtcDateTime) : Prop where
  size : (checkpointBytes createdAt w.supervisor.jobs).length ≤ maximumCheckpointBytes
  cycleKeys : ∀ job ∈ w.supervisor.jobs.values, cycleKeyAccepted job
  terminal : ∀ jobId ∈ w.supervisor.terminalJobIds, jobId ∈ w.supervisor.jobs.keys

/-! ### Restored jobs -/

theorem view_restoredJob {job : ResearchJob} (h : job.nextEligibleAt.isSome)
    (verified : Text → Bool) : (restoredJob verified job).view =
      if job.completed = true → verified job.jobId = true then job.view else job.brokenView := by
  obtain ⟨next, hnext⟩ := Option.isSome_iff_exists.mp h
  by_cases hintact : job.completed = true → verified job.jobId = true
  · have hcompleted : decide (job.completed = true ∧
        (job.completed = true → verified job.jobId = true)) = job.completed := by
      rw [Bool.eq_iff_iff, decide_eq_true_eq]
      exact and_iff_left hintact
    rw [if_pos hintact]
    simp only [ResearchJob.view, restoredJob, hcompleted, if_pos hintact, hnext, Option.getD_some]
  · rw [if_neg hintact]
    simp only [ResearchJob.brokenView, ResearchJob.view, restoredJob, hintact, and_false,
      decide_false, if_false, hnext, Option.getD_some]

variable {jobs : Keyed ResearchJob.jobId} {verified : Text → Bool}

theorem values_restore (hvalid : ∀ job ∈ jobs.values, validCheckpointJob job = true) :
    (restore verified jobs).jobs.values = jobs.values.map (restoredJob verified) := by
  have hall : jobs.values.all validCheckpointJob = true := List.all_eq_true.mpr hvalid
  simp only [restore, if_pos hall]
  rfl

theorem views_restore (hvalid : ∀ job ∈ jobs.values, validCheckpointJob job = true)
    (hnext : ∀ job ∈ jobs.values, job.nextEligibleAt.isSome) :
    (restore verified jobs).jobs.values.map ResearchJob.view = jobs.values.map fun job =>
      if job.completed = true → verified job.jobId = true then job.view else job.brokenView := by
  rw [values_restore hvalid, List.map_map]
  exact List.map_congr_left fun job hjob => view_restoredJob (hnext job hjob) verified

theorem mem_terminal_restore {jobId : Text} (h : jobId ∈ (restore verified jobs).terminalJobIds) :
    ∃ job ∈ jobs.values, job.jobId = jobId ∧
      (job.completed = true ∨ job.processExitCode.isSome = true) := by
  simp only [restore, List.mem_toFinset, List.mem_map, List.mem_filter, decide_eq_true_eq] at h
  obtain ⟨job, ⟨hjob, hover⟩, hid⟩ := h
  exact ⟨job, (List.takeWhile_prefix _).mem hjob, hid, hover⟩

theorem mem_terminal_restore_iff (hvalid : ∀ job ∈ jobs.values, validCheckpointJob job = true)
    {jobId : Text} : jobId ∈ (restore verified jobs).terminalJobIds ↔
      ∃ job ∈ jobs.values, job.jobId = jobId ∧
        (job.completed = true ∨ job.processExitCode.isSome = true) := by
  refine ⟨mem_terminal_restore, fun ⟨job, hjob, hid, hover⟩ => ?_⟩
  have hwhole : jobs.values.takeWhile validCheckpointJob = jobs.values :=
    List.takeWhile_eq_self_iff.mpr hvalid
  simp only [restore, hwhole, List.mem_toFinset, List.mem_map, List.mem_filter, decide_eq_true_eq]
  exact ⟨job, ⟨hjob, hover⟩, hid⟩

theorem jobs_restore_invalid {job : ResearchJob} (hjob : job ∈ jobs.values)
    (hinvalid : validCheckpointJob job = false) : (restore verified jobs).jobs.values = [] := by
  have hall : ¬ jobs.values.all validCheckpointJob = true := by
    rw [List.all_eq_true]
    exact fun hvalid => absurd (hvalid job hjob) (by simp [hinvalid])
  simp only [restore, if_neg hall]
  rfl

/-! ### The file without jobs -/

theorem length_asciiOnly_le (text : Text) : (asciiOnly text).length ≤ 12 * text.length := by
  refine Json.length_flatMap_le _ (fun c => ?_) text
  split_ifs
  · exact (by decide : 1 ≤ 12)
  · exact (by decide : 6 ≤ 12)
  · exact le_refl 12

theorem length_isoformat_le (t : UtcDateTime) : t.isoformat.length ≤ 40 := by
  have hfraction : ((if t.microsecond = 0 then [] else '.' :: digitsText 6 t.microsecond) :
      Text).length ≤ 7 := by
    split
    · exact Nat.zero_le 7
    · simp [digitsText_length]
  simp only [UtcDateTime.isoformat, UtcDateTime.timeText, Date.isoformat, List.length_append,
    List.length_cons, digitsText_length]
  have hoffset : "+00:00".toList.length = 6 := rfl
  omega

/-- The checkpoint of a supervisor without jobs is small. -/
theorem length_checkpointBytes_empty (createdAt : UtcDateTime) {jobs : Keyed ResearchJob.jobId}
    (h : jobs.values = []) :
    (checkpointBytes createdAt jobs).length ≤ maximumCheckpointBytes := by
  have hordered := checkpointBody_ordered createdAt []
  have hnew : "sha256".toList ∉ (checkpointBody createdAt []).map (·.1) := by
    change "sha256".toList ∉ ["created_at".toList, "format_version".toList, "jobs".toList]
    decide
  have hdigest : (checkpointDigest (.obj (checkpointBody createdAt []))).length = 64 :=
    Sha256.hexdigest_length _
  rw [checkpointBytes, h]
  generalize checkpointDigest (.obj (checkpointBody createdAt [])) = digest at hdigest ⊢
  have hsorted := (hordered.insertMember (Json.Canonical.str digest) hnew).canonical.sorted
  have hmembers : Json.insertMember "sha256" (.str digest) (checkpointBody createdAt []) =
      [("created_at".toList, .str createdAt.isoformat), ("format_version".toList, .int 4),
        ("jobs".toList, .arr []), ("sha256".toList, .str digest)] := rfl
  have hcreated := Json.quote_length_le createdAt.isoformat
  have hquoted := Json.quote_length_le digest
  have hiso := length_isoformat_le createdAt
  have htext : (Json.indented 0 (.obj (Json.insertMember "sha256" (.str digest)
      (checkpointBody createdAt [])))).length ≤ 1000 := by
    rw [hmembers]
    simp only [Json.indented, Json.indentedMembers, Json.encode, Json.newline, List.length_append,
      List.length_cons, List.length_replicate]
    have hkeys : (Json.quote "created_at".toList).length = 12 ∧
        (Json.quote "format_version".toList).length = 16 ∧
        (Json.quote "jobs".toList).length = 6 ∧ (Json.quote "sha256".toList).length = 8 ∧
        (Json.intText 4).length = 1 := by decide
    simp only [hkeys, List.length_nil]
    omega
  have hascii := length_asciiOnly_le (Json.indented 0 (.obj (Json.insertMember "sha256"
    (.str digest) (checkpointBody createdAt []))))
  have hbytes := Json.utf8_length_le (Json.dumpsIndented (.obj (Json.insertMember "sha256"
    (.str digest) (checkpointBody createdAt []))))
  rw [Json.dumpsIndented, hsorted] at hbytes ⊢
  have hmaximum : maximumCheckpointBytes = 1048576 := rfl
  omega

/-! ### Round trips -/

section

variable [ValueTexts] {w : CheckpointWorld} {createdAt : UtcDateTime}

/-- What a new supervisor has is what it should have only if the checkpoint can be read and nothing
was forgotten. -/
theorem fits_of_restoresSame (h : WorldKept w)
    (hsame : RestoresSame w.supervisor
      (restoreCheckpoint w.files (some (checkpointBytes createdAt w.supervisor.jobs)))) :
    FitsCheckpoint w createdAt := by
  obtain ⟨hviews, hterminal⟩ := hsame
  have hrecorded : ∀ job ∈ w.supervisor.jobs.values, Recorded job := fun job hjob =>
    (h.jobs job hjob).toRecorded
  rw [restoreCheckpoint_checkpointBytes w.files createdAt hrecorded] at hviews hterminal
  have hsize : (checkpointBytes createdAt w.supervisor.jobs).length ≤ maximumCheckpointBytes := by
    by_contra hlarge
    rw [if_neg hlarge] at hviews
    apply hlarge
    apply length_checkpointBytes_empty
    exact List.map_eq_nil_iff.mp hviews.symm
  rw [if_pos hsize] at hviews hterminal
  refine ⟨hsize, fun job hjob => ?_, fun jobId hover => ?_⟩
  · by_contra hrefused
    have hinvalid : validCheckpointJob job = false := by
      rw [← Bool.not_eq_true, validCheckpointJob_iff (hrecorded job hjob)]
      exact hrefused
    rw [jobs_restore_invalid hjob hinvalid] at hviews
    rw [List.map_eq_nil_iff.mp hviews.symm] at hjob
    cases hjob
  · rw [← hterminal] at hover
    obtain ⟨job, hjob, hid, _⟩ := mem_terminal_restore hover
    exact Keyed.mem_keys.mpr ⟨job, hjob, hid⟩

/-- The terminal ids of a new supervisor are the old ones. -/
theorem terminal_restored (h : WorldKept w) (hfits : FitsCheckpoint w createdAt)
    (verified : Text → Bool) :
    (restore verified w.supervisor.jobs).terminalJobIds = w.supervisor.terminalJobIds := by
  have hvalid : ∀ job ∈ w.supervisor.jobs.values, validCheckpointJob job = true :=
    fun job hjob => (validCheckpointJob_iff (h.jobs job hjob).toRecorded).mpr
      (hfits.cycleKeys job hjob)
  ext jobId
  rw [mem_terminal_restore_iff hvalid]
  constructor
  · rintro ⟨job, hjob, rfl, hover⟩
    exact (h.jobs job hjob).isOver.mpr hover
  · intro hterminal
    obtain ⟨job, hjob, rfl⟩ := Keyed.mem_keys.mp (hfits.terminal jobId hterminal)
    exact ⟨job, hjob, rfl, (h.jobs job hjob).isOver.mp hterminal⟩

/-- The jobs of a new supervisor, whatever the files are now. -/
theorem views_restored (h : WorldKept w) (hfits : FitsCheckpoint w createdAt)
    (files : ResearchFiles) :
    (restore (verifiedIds files w.supervisor.jobs) w.supervisor.jobs).jobs.values.map
        ResearchJob.view =
      w.supervisor.jobs.values.map fun job =>
        if job.completed = true → files.verified job = true then job.view else job.brokenView := by
  have hvalid : ∀ job ∈ w.supervisor.jobs.values, validCheckpointJob job = true :=
    fun job hjob => (validCheckpointJob_iff (h.jobs job hjob).toRecorded).mpr
      (hfits.cycleKeys job hjob)
  rw [views_restore hvalid fun job hjob => (h.jobs job hjob).next]
  apply List.map_congr_left
  intro job hjob
  rw [verifiedIds, Keyed.get?_eq_some_iff.mpr ⟨hjob, rfl⟩, Option.any_some]

theorem restoreCheckpoint_fits (h : WorldKept w) (hfits : FitsCheckpoint w createdAt)
    (files : ResearchFiles) :
    restoreCheckpoint files (some (checkpointBytes createdAt w.supervisor.jobs)) =
      restore (verifiedIds files w.supervisor.jobs) w.supervisor.jobs := by
  rw [restoreCheckpoint_checkpointBytes files createdAt fun job hjob =>
    (h.jobs job hjob).toRecorded, if_pos hfits.size]

theorem digest_of_verified {files : ResearchFiles} {job : ResearchJob}
    (h : files.verified job = true) : ∃ raw digest, files.evidence job.jobId = some raw ∧
      job.artifactDigest = some digest ∧
        Sha256.hexdigest raw = withoutPrefix "sha256:".toList digest := by
  obtain ⟨status, _, hstatus⟩ := (Option.any_eq_true _ _).mp h
  obtain ⟨digest, _, hdigest⟩ := (Option.any_eq_true _ _).mp hstatus
  obtain ⟨hsame, hartifact⟩ := of_decide_eq_true hdigest
  obtain ⟨_, hevidence⟩ := of_decide_eq_true hartifact
  obtain ⟨raw, hraw, hboth⟩ := (Option.any_eq_true _ _).mp hevidence
  exact ⟨raw, digest, hraw, hsame.symm, (of_decide_eq_true hboth).2⟩

/-- A completed job is verified with other evidence only if two contents have one digest. -/
theorem collide_of_verified {files other : ResearchFiles} {job : ResearchJob}
    (h : files.verified job = true) (h' : other.verified job = true)
    (hne : other.evidence job.jobId ≠ files.evidence job.jobId) :
    ∃ raw raw', files.evidence job.jobId = some raw ∧ other.evidence job.jobId = some raw' ∧
      Collide raw raw' := by
  obtain ⟨raw, digest, hraw, hdigest, hhash⟩ := digest_of_verified h
  obtain ⟨raw', digest', hraw', hdigest', hhash'⟩ := digest_of_verified h'
  cases hdigest.symm.trans hdigest'
  refine ⟨raw, raw', hraw, hraw', ?_, hhash.trans hhash'.symm⟩
  rintro rfl
  exact hne (hraw'.trans hraw.symm)

theorem restoresSame_of_fits (h : WorldKept w) (hfits : FitsCheckpoint w createdAt) :
    RestoresSame w.supervisor
      (restoreCheckpoint w.files (some (checkpointBytes createdAt w.supervisor.jobs))) := by
  rw [restoreCheckpoint_fits h hfits]
  refine ⟨?_, terminal_restored h hfits _⟩
  rw [views_restored h hfits]
  exact List.map_congr_left fun job hjob => if_pos (h.jobs job hjob).verified

theorem restoresBroken_of_fits (h : WorldKept w) (hfits : FitsCheckpoint w createdAt)
    {job : ResearchJob} (hjob : job ∈ w.supervisor.jobs.values) (hcompleted : job.completed = true)
    {evidence : Option (List UInt8)}
    (hbroken : (w.files.withEvidence job.jobId evidence).verified job = false) :
    RestoresBroken w.supervisor (restoreCheckpoint (w.files.withEvidence job.jobId evidence)
      (some (checkpointBytes createdAt w.supervisor.jobs))) job.jobId := by
  rw [restoreCheckpoint_fits h hfits]
  have hterminal := terminal_restored h hfits
    (verifiedIds (w.files.withEvidence job.jobId evidence) w.supervisor.jobs)
  refine ⟨?_, hterminal, ?_⟩
  · rw [views_restored h hfits]
    apply List.map_congr_left
    intro other hother
    by_cases hid : other.jobId = job.jobId
    · obtain rfl := Keyed.eq_of_key_eq hother hjob hid
      rw [if_pos rfl, if_neg]
      exact fun hintact => absurd (hintact hcompleted) (by simp [hbroken])
    · have hsame : (w.files.withEvidence job.jobId evidence).verified other =
          w.files.verified other :=
        verified_congr rfl (Function.update_of_ne hid _ _)
      rw [if_neg hid, hsame]
      exact if_pos (h.jobs other hother).verified
  · rw [hterminal]
    exact (h.jobs job hjob).isOver.mpr (Or.inl hcompleted)

/-- In every state that a run reaches, the checkpoint makes its round trip exactly if it can be read
and no job that is over was forgotten. -/
theorem CheckpointWorld.roundTrips_iff (networkEnabled : Bool) (files : ResearchFiles)
    (inputs : List CheckpointInput) (createdAt : UtcDateTime) :
    RoundTrips (inputs.foldl (step networkEnabled) (initial files)) createdAt ↔
      FitsCheckpoint (inputs.foldl (step networkEnabled) (initial files)) createdAt := by
  have h := worldKept_run networkEnabled files inputs
  generalize inputs.foldl (step networkEnabled) (initial files) = w at h ⊢
  refine ⟨fun htrips => fits_of_restoresSame h htrips.1, fun hfits => ?_⟩
  refine ⟨restoresSame_of_fits h hfits, fun job hjob hcompleted evidence hne => ?_⟩
  cases hverified : (w.files.withEvidence job.jobId evidence).verified job with
  | false => exact Or.inl (restoresBroken_of_fits h hfits hjob hcompleted hverified)
  | true =>
      right
      have hevidence : (w.files.withEvidence job.jobId evidence).evidence job.jobId = evidence :=
        Function.update_self _ _ _
      obtain ⟨raw, other, hraw, hother, hcollide⟩ := collide_of_verified
        ((h.jobs job hjob).verified hcompleted) hverified (by rwa [hevidence])
      exact ⟨raw, other, hraw, hevidence.symm.trans hother, hcollide⟩

end

section Sample

/-- Other values than strings have no text here. -/
@[reducible] def noTexts : ValueTexts := ⟨fun _ => []⟩

attribute [local instance] noTexts

def longFingerprint : Text := List.replicate 256 'a'

def noFiles : ResearchFiles := ⟨fun _ => none, fun _ => none⟩

def writtenJob : List CheckpointInput :=
  [.registerJob "job".toList ["research".toList, "screen".toList] (.aware sampleNoon)
      (some longFingerprint) none none none none none,
    .shutdown none (some sampleNoon) fun _ => none]

/-- A shutdown writes the jobs that it leaves. -/
theorem checkpoint_shutdown (w : CheckpointWorld) (collected : Option UtcDateTime)
    (createdAt : UtcDateTime) (stops : Exits) :
    (w.shutdown collected (some createdAt) stops).checkpoint =
      some (checkpointBytes createdAt
        (w.shutdown collected (some createdAt) stops).supervisor.jobs) := rfl

theorem length_legacyCycleKey {job : ResearchJob} {fingerprint : Text}
    (h : job.inputFingerprint = some fingerprint) :
    fingerprint.length < (legacyCycleKey job).length := by
  unfold legacyCycleKey
  rw [h, Option.getD_some]
  generalize "legacy:".toList = word
  simp only [List.length_append, List.length_cons]
  omega

theorem restoredJob_refused {job : ResearchJob} (verified : Text → Bool)
    (hkey : job.cycleKey = []) (h : job.inputFingerprint = some longFingerprint) :
    ¬ cycleKeyAccepted (restoredJob verified job) := by
  have hlegacy : (restoredJob verified job).cycleKey = legacyCycleKey job := by
    simp only [restoredJob, if_pos hkey]
  have hlength : 256 < (legacyCycleKey job).strip.length := by
    rw [strip_legacyCycleKey]
    have hlong := length_legacyCycleKey h
    rwa [longFingerprint, List.length_replicate] at hlong
  rintro (hempty | hok)
  · rw [← hlegacy, hempty] at hlength
    exact absurd hlength (by decide)
  · rw [hlegacy] at hok
    simp only [safeMetadata] at hok
    rw [if_pos (Or.inr (Or.inl hlength))] at hok
    cases hok

/-- The second restart forgets a job that the first one has given its legacy key. -/
theorem writtenJob_forgotten : ¬ ∀ networkEnabled files inputs createdAt,
    RoundTrips (List.foldl (CheckpointWorld.step networkEnabled)
      (CheckpointWorld.initial files) inputs) createdAt := by
  intro h
  have hrestarted := (fits_of_restoresSame (worldKept_run true noFiles _)
    (h true noFiles (writtenJob ++ [.restart]) sampleNoon).1).cycleKeys
  have hwritten := fits_of_restoresSame (worldKept_run true noFiles _)
    (h true noFiles writtenJob sampleNoon).1
  have hkept := worldKept_run true noFiles writtenJob
  have hjobs : (List.foldl (CheckpointWorld.step true) (CheckpointWorld.initial noFiles)
      writtenJob).supervisor.jobs.values.map (fun job => (job.cycleKey, job.inputFingerprint)) =
        [([], some longFingerprint)] := by decide +kernel
  have hcheckpoint : (List.foldl (CheckpointWorld.step true) (CheckpointWorld.initial noFiles)
      writtenJob).checkpoint = some (checkpointBytes sampleNoon (List.foldl
        (CheckpointWorld.step true) (CheckpointWorld.initial noFiles)
          writtenJob).supervisor.jobs) := by
    simp only [writtenJob, List.foldl_cons, List.foldl_nil]
    exact checkpoint_shutdown _ _ _ _
  rw [List.foldl_append] at hrestarted
  generalize List.foldl (CheckpointWorld.step true) (CheckpointWorld.initial noFiles)
    writtenJob = w at *
  obtain ⟨job, rest, hvalues⟩ : ∃ job rest, w.supervisor.jobs.values = job :: rest :=
    List.exists_cons_of_ne_nil fun hempty => by simp [hempty] at hjobs
  have hjob : job ∈ w.supervisor.jobs.values := hvalues ▸ List.mem_cons_self
  have hfirst : job.cycleKey = [] ∧ job.inputFingerprint = some longFingerprint := by
    rw [hvalues, List.map_cons, List.cons.injEq, Prod.mk.injEq] at hjobs
    exact hjobs.1
  have hstate : (List.foldl (CheckpointWorld.step true) w [.restart]).supervisor =
      restore (verifiedIds w.files w.supervisor.jobs) w.supervisor.jobs := by
    change restoreCheckpoint w.files w.checkpoint = _
    rw [hcheckpoint, restoreCheckpoint_fits hkept hwritten]
  have hvalid : ∀ job ∈ w.supervisor.jobs.values, validCheckpointJob job = true :=
    fun job hjob => (validCheckpointJob_iff (hkept.jobs job hjob).toRecorded).mpr
      (hwritten.cycleKeys job hjob)
  rw [hstate, values_restore hvalid] at hrestarted
  exact restoredJob_refused _ hfirst.1 hfirst.2 (hrestarted _ (List.mem_map_of_mem hjob))

end Sample

end QuantWorkbench.Runtime
