import QuantWorkbench.Runtime.ResearchCheckpoint
import QuantWorkbench.Runtime.ResearchCycles

/-!
A recorded job is read back as it was written, unless the key of its cycle is refused, and the file
of recorded jobs is read back unless it is too large.
-/

namespace QuantWorkbench.Runtime

open Lib ResearchSupervisor

/-! ### Checked texts -/

theorem safeMetadata_self {text : Text} {field : String} (hstrip : text.strip = text)
    (hne : text ≠ []) (hlength : text.length ≤ 256) (hsafe : unsafeArgument text = false) :
    safeMetadata (some text) field = .ok (some text) := by
  have hallowed : ¬ (text.strip = [] ∨ 256 < text.strip.length ∨
      unsafeArgument text.strip = true) := by
    rw [hstrip, hsafe]
    simp only [hne, Bool.false_eq_true, or_false, false_or]
    omega
  simp only [safeMetadata]
  rw [if_neg hallowed, hstrip]

/-- What was accepted is accepted again. -/
theorem safeMetadata_again {value found : Option Text} {field : String}
    (h : safeMetadata value field = .ok found) (other : String) :
    safeMetadata found other = .ok found := by
  cases value with
  | none =>
      cases h
      rfl
  | some text =>
      simp only [safeMetadata] at h
      split at h
      · cases h
      · rename_i hallowed
        cases h
        simp only [not_or, Bool.not_eq_true] at hallowed
        obtain ⟨hne, hlength, hsafe⟩ := hallowed
        exact safeMetadata_self (Text.strip_strip text) hne (by omega) hsafe

def reasonChars : Text := "ABCDEFGHIJKLMNOPQRSTUVWXYZ0123456789_".toList

theorem upper_of_reasonChars {text : Text} (h : ∀ c ∈ text, c ∈ reasonChars) :
    text.upper = text := by
  have hchar : ∀ c ∈ reasonChars, Text.upperChar c = [c] := by decide
  induction text with
  | nil => rfl
  | cons c rest ih =>
      obtain ⟨hc, hrest⟩ := List.forall_mem_cons.mp h
      rw [Text.upper, List.flatMap_cons, hchar c (h c List.mem_cons_self)]
      exact congrArg (c :: ·) (ih hrest)

theorem safeReason_again {value : Option Text} : safeReason (safeReason value) = safeReason value := by
  cases value with
  | none => rfl
  | some text =>
      simp only [safeReason, Option.bind_some]
      split
      · rfl
      · rename_i hallowed
        simp only [not_or, Decidable.not_not, List.all_eq_true, decide_eq_true_eq] at hallowed
        obtain ⟨hne, hlength, hchars⟩ := hallowed
        have hspace : ∀ c ∈ reasonChars, Text.isSpace c = false := by decide
        have hstrip : text.strip.upper.strip = text.strip.upper :=
          DecimalText.strip_of_noSpace fun c hc => hspace c (hchars c hc)
        have hupper : text.strip.upper.strip.upper = text.strip.upper := by
          rw [hstrip]
          exact upper_of_reasonChars hchars
        rw [Option.bind_some, hupper, if_neg]
        simp only [not_or, Decidable.not_not, List.all_eq_true, decide_eq_true_eq]
        exact ⟨hne, hlength, hchars⟩

/-! ### Recorded jobs -/

/-- What the supervisor has checked of a job before it keeps it. -/
structure Recorded (job : ResearchJob) : Prop where
  jobId : job.jobId.strip ≠ []
  stage : job.stage ∈ validStages
  fingerprint : safeMetadata job.inputFingerprint "input_fingerprint" = .ok job.inputFingerprint
  digest : safeMetadata job.artifactDigest "artifact_digest" = .ok job.artifactDigest
  cycleStrip : job.cycleKey.strip = job.cycleKey
  reason : safeReason job.failureReason = job.failureReason
  next : job.nextEligibleAt.isSome
  completed : job.completed = true → (safeStatusDigest job.artifactDigest).isSome

def cycleKeyAccepted (job : ResearchJob) : Prop :=
  job.cycleKey = [] ∨ (safeMetadata (some job.cycleKey) "cycle_key").isOk = true

instance (job : ResearchJob) : Decidable (cycleKeyAccepted job) :=
  inferInstanceAs (Decidable (_ ∨ _))

def resumedJob (job : ResearchJob) : ResearchJob :=
  { job with
    nextEligibleAt := some (job.nextEligibleAt.getD job.dueAt)
    cycleKey := if job.cycleKey = [] then legacyCycleKey job else job.cycleKey }

theorem nodup_jobMembers (job : ResearchJob) : ((jobMembers job).map (·.1)).Nodup := by
  change ["artifact_digest".toList, "command".toList, "completed".toList,
    "completed_artifact_digest".toList, "cycle_key".toList, "due_at".toList,
    "failure_reason".toList, "input_fingerprint".toList, "job_id".toList,
    "next_eligible_at".toList, "process_exit_code".toList, "stage".toList].Nodup
  decide

theorem member?_jobJson {job : ResearchJob} {key : String} {value : Json}
    (h : (key.toList, value) ∈ jobMembers job) :
    (jobJson job).member? key.toList = some value := by
  rw [jobJson, Json.member?]
  have hfound := (Json.find?_key_eq_some_iff (nodup_jobMembers job)).mpr ⟨h, rfl⟩
  rw [hfound]
  rfl

theorem ofParts?_parts (command : ResearchCommand) :
    ResearchCommand.ofParts? command.parts = some command := by
  cases command <;> decide

theorem field_jobJson {α : Type} {job : ResearchJob} {key : String} {value : Json}
    (h : (key.toList, value) ∈ jobMembers job) (read : Json → Option α) :
    (jobJson job).field key read = read value := by
  rw [Json.field, member?_jobJson h]
  rfl

theorem readTime_jobJson {job : ResearchJob} {key : String} {time : UtcDateTime}
    (h : (key.toList, .str time.isoformat) ∈ jobMembers job) :
    readTime (jobJson job) key = some time := by
  rw [readTime, field_jobJson h, Json.asText_str, Option.bind_some,
    UtcDateTime.fromisoformat_isoformat]

theorem readReason_jobJson {job : ResearchJob} (h : Recorded job) :
    readReason (jobJson job) = some job.failureReason := by
  have hmember : (jobJson job).member? "failure_reason".toList =
      some (textJson job.failureReason) := member?_jobJson (by simp [jobMembers])
  have hread : Json.asNullable Json.asText (textJson job.failureReason) =
      some job.failureReason :=
    Json.asNullable_nullable Json.asText_str (fun _ hnull => nomatch hnull) job.failureReason
  rw [readReason, hmember]
  simp only [hread, Option.bind_eq_bind, Option.bind_some, h.reason, guard_true]
  rfl

theorem readExitCode_jobJson (job : ResearchJob) :
    readExitCode (jobJson job) = some job.processExitCode := by
  have hmember : (jobJson job).member? "process_exit_code".toList =
      some (Json.nullable .int job.processExitCode) := member?_jobJson (by simp [jobMembers])
  have hread : Json.asNullable Json.asInt (Json.nullable Json.int job.processExitCode) =
      some job.processExitCode := by
    have hint : ∀ code : ℤ, Json.asInt (.int code) = some code := fun _ => rfl
    exact Json.asNullable_nullable hint (fun _ hnull => nomatch hnull) job.processExitCode
  rw [readExitCode, hmember]
  exact hread

theorem digestsAgree_jobJson (job : ResearchJob) : digestsAgree (jobJson job) = true := by
  have hcompleted : (jobJson job).member? "completed_artifact_digest".toList =
      some (textJson job.artifactDigest) := member?_jobJson (by simp [jobMembers])
  have hdigest : (jobJson job).member? "artifact_digest".toList =
      some (textJson job.artifactDigest) := member?_jobJson (by simp [jobMembers])
  rw [digestsAgree, hcompleted, hdigest]
  cases job.artifactDigest <;> simp [textJson, Json.nullable]

theorem validCheckpointJob_iff {job : ResearchJob} (h : Recorded job) :
    validCheckpointJob job = true ↔ cycleKeyAccepted job := by
  simp only [validCheckpointJob, decide_eq_true_eq, h.fingerprint, h.digest]
  constructor
  · exact fun hvalid => hvalid.2.2.2.2.1
  · exact fun haccepted => ⟨h.jobId, h.stage, rfl, rfl, haccepted, h.completed, h.reason⟩

section

variable [ValueTexts]

theorem givenText_textJson {payload : Json} {key : String} {value : Option Text}
    (h : payload.member? key.toList = some (textJson value)) : givenText payload key = value := by
  rw [givenText, h]
  cases value <;> rfl

theorem givenMetadata_jobJson {job : ResearchJob} {key : String} {value : Option Text}
    (h : (key.toList, textJson value) ∈ jobMembers job) {field : String}
    (hsafe : safeMetadata value field = .ok value) :
    givenMetadata (jobJson job) key = some value := by
  rw [givenMetadata, givenText_textJson (member?_jobJson h), safeMetadata_again hsafe]
  rfl

theorem givenMetadata_cycleKey {job : ResearchJob} (h : Recorded job) :
    givenMetadata (jobJson job) "cycle_key" =
      if cycleKeyAccepted job then some (if job.cycleKey = [] then none else some job.cycleKey)
      else none := by
  by_cases hempty : job.cycleKey = []
  · have hmember : (jobJson job).member? "cycle_key".toList = some .null :=
      member?_jobJson (by simp [jobMembers, hempty])
    have haccepted : cycleKeyAccepted job := Or.inl hempty
    rw [givenMetadata, givenText, hmember, if_pos haccepted, if_pos hempty]
    rfl
  · have hmember : (jobJson job).member? "cycle_key".toList = some (.str job.cycleKey) :=
      member?_jobJson (by simp [jobMembers, hempty])
    have hiff : cycleKeyAccepted job ↔
        (safeMetadata (some job.cycleKey) "cycle_key").isOk = true := or_iff_right hempty
    rw [givenMetadata, givenText, hmember, if_neg hempty]
    simp only [textOf]
    cases hsafe : safeMetadata (some job.cycleKey) "cycle_key" with
    | error error =>
        rw [if_neg]
        · rfl
        · rw [hiff, hsafe]
          exact Bool.false_ne_true
    | ok value =>
        have haccepted : cycleKeyAccepted job := by
          rw [hiff, hsafe]
          rfl
        rw [if_pos haccepted, safeMetadata_some hsafe, h.cycleStrip]
        rfl

theorem readCycleKey_jobJson (job : ResearchJob) :
    readCycleKey job.command (jobJson job)
        (if job.cycleKey = [] then none else some job.cycleKey) =
      (resumedJob job).cycleKey := by
  have hfingerprint : givenText (jobJson job) "input_fingerprint" = job.inputFingerprint :=
    givenText_textJson (member?_jobJson (by simp [jobMembers]))
  have hmember : (jobJson job).member? "due_at".toList = some (.str job.dueAt.isoformat) :=
    member?_jobJson (by simp [jobMembers])
  have hdue : givenText (jobJson job) "due_at" = some job.dueAt.isoformat := by
    rw [givenText, hmember]
    rfl
  rw [readCycleKey, hfingerprint, hdue, resumedJob]
  by_cases hempty : job.cycleKey = []
  · rw [if_pos hempty]
    simp only [if_pos hempty]
    rfl
  · rw [if_neg hempty]
    simp only [if_neg hempty]
    rfl

theorem readJob_jobJson {job : ResearchJob} (h : Recorded job) :
    readJob (jobJson job) = if cycleKeyAccepted job then some (resumedJob job) else none := by
  have hidMember : ("job_id".toList, Json.str job.jobId) ∈ jobMembers job := by
    simp [jobMembers]
  have hid : (jobJson job).field "job_id" Json.asText = some job.jobId :=
    field_jobJson hidMember _
  have hcommandMember : ("command".toList, Json.arr (job.command.parts.map .str)) ∈
      jobMembers job := by
    simp [jobMembers]
  have hcommand : (jobJson job).field "command" Json.asTexts = some job.command.parts :=
    (field_jobJson hcommandMember _).trans (Json.asTexts_map job.command.parts)
  have hstageMember : ("stage".toList, Json.str job.stage) ∈ jobMembers job := by
    simp [jobMembers]
  have hstage : (jobJson job).field "stage" Json.asText = some job.stage :=
    field_jobJson hstageMember _
  have hdue : readTime (jobJson job) "due_at" = some job.dueAt :=
    readTime_jobJson (by simp [jobMembers])
  have hnext : readTime (jobJson job) "next_eligible_at" =
      some (job.nextEligibleAt.getD job.dueAt) := readTime_jobJson (by simp [jobMembers])
  have hfingerprint : givenMetadata (jobJson job) "input_fingerprint" =
      some job.inputFingerprint := givenMetadata_jobJson (by simp [jobMembers]) h.fingerprint
  have hdigest : givenMetadata (jobJson job) "artifact_digest" = some job.artifactDigest :=
    givenMetadata_jobJson (by simp [jobMembers]) h.digest
  have hcopy : givenMetadata (jobJson job) "completed_artifact_digest" =
      some job.artifactDigest := givenMetadata_jobJson (by simp [jobMembers]) h.digest
  have hmember : (jobJson job).member? "completed".toList = some (.bool job.completed) :=
    member?_jobJson (by simp [jobMembers])
  have hcompleted : readCompleted (jobJson job) = some job.completed := by
    rw [readCompleted, hmember]
    rfl
  have hgiven : givenText (jobJson job) "artifact_digest" = job.artifactDigest :=
    givenText_textJson (member?_jobJson (by simp [jobMembers]))
  have hvalid : job.completed = true →
      (safeStatusDigest (givenText (jobJson job) "artifact_digest")).isSome = true := by
    rw [hgiven]
    exact h.completed
  rw [readJob, hid, hcommand, hstage, hdue, hnext, hfingerprint, hdigest, hcopy,
    givenMetadata_cycleKey h, digestsAgree_jobJson, hcompleted, readExitCode_jobJson,
    readReason_jobJson h]
  simp only [Option.bind_eq_bind, Option.bind_some, ofParts?_parts]
  by_cases haccepted : cycleKeyAccepted job
  · rw [if_pos haccepted, if_pos haccepted]
    simp only [guard, if_pos h.jobId, if_pos h.stage, if_pos hvalid, if_true, Option.bind_some,
      readCycleKey_jobJson]
    rfl
  · rw [if_neg haccepted, if_neg haccepted]
    simp only [Option.bind_none, Option.bind_fun_none]

/-! ### The loop -/

def verifiedIds (files : ResearchFiles) (saved : Keyed ResearchJob.jobId) (jobId : Text) : Bool :=
  (saved.get? jobId).any files.verified

theorem checkedJob_resumedJob {files : ResearchFiles} {saved : Keyed ResearchJob.jobId}
    {job : ResearchJob} (h : job ∈ saved.values) :
    checkedJob files (resumedJob job) = restoredJob (verifiedIds files saved) job := by
  have hfound : saved.get? job.jobId = some job := Keyed.get?_eq_some_iff.mpr ⟨h, rfl⟩
  have hsame : files.verified (resumedJob job) = files.verified job := rfl
  rw [checkedJob, hsame, restoredJob, verifiedIds, hfound]
  simp only [Option.any_some]
  by_cases hintact : job.completed = true → files.verified job = true
  · have hkept : ¬ ((resumedJob job).completed = true ∧ ¬ files.verified job = true) :=
      fun hbroken => hbroken.2 (hintact hbroken.1)
    have hcompleted : decide (job.completed = true ∧
        (job.completed = true → files.verified job = true)) = job.completed := by
      rw [Bool.eq_iff_iff, decide_eq_true_eq]
      exact and_iff_left hintact
    rw [if_neg hkept]
    simp only [hcompleted, if_pos hintact]
    rfl
  · obtain ⟨hcompleted, hbroken⟩ := Classical.not_imp.mp hintact
    rw [if_pos ⟨hcompleted, hbroken⟩]
    simp only [hintact, and_false, decide_false]
    rfl

theorem restoreItems_jobs {files : ResearchFiles} {saved : Keyed ResearchJob.jobId}
    {jobs : List ResearchJob} {restored : Keyed ResearchJob.jobId} (terminal : Finset Text)
    (hsaved : ∀ job ∈ jobs, job ∈ saved.values) (hrecorded : ∀ job ∈ jobs, Recorded job)
    (hnew : ∀ job ∈ jobs, job.jobId ∉ restored.keys) (hnodup : (jobs.map ResearchJob.jobId).Nodup) :
    restoreItems files restored terminal (jobs.map jobJson) =
      (if jobs.all validCheckpointJob then
          some ((jobs.map (restoredJob (verifiedIds files saved))).foldl Keyed.put restored)
        else none,
        terminal ∪ (((jobs.takeWhile validCheckpointJob).filter fun job =>
          job.completed ∨ job.processExitCode.isSome).map ResearchJob.jobId).toFinset) := by
  induction jobs generalizing restored terminal with
  | nil => simp [restoreItems]
  | cons job rest ih =>
      obtain ⟨hjob, hrestSaved⟩ := List.forall_mem_cons.mp hsaved
      obtain ⟨hkept, hrestKept⟩ := List.forall_mem_cons.mp hrecorded
      obtain ⟨hfresh, hrestNew⟩ := List.forall_mem_cons.mp hnew
      rw [List.map_cons, List.nodup_cons] at hnodup
      rw [List.map_cons, restoreItems, readJob_jobJson hkept]
      by_cases haccepted : cycleKeyAccepted job
      · have hvalid := (validCheckpointJob_iff hkept).mpr haccepted
        have hothers : ∀ other ∈ rest,
            other.jobId ∉ (restored.put (checkedJob files (resumedJob job))).keys := by
          intro other hother hmem
          rw [checkedJob_resumedJob hjob] at hmem
          rcases Keyed.mem_keys_put.mp hmem with hsame | hold
          · apply hnodup.1
            rw [← restoredJob_jobId (verifiedIds files saved) job, ← hsame]
            exact List.mem_map_of_mem hother
          · exact hrestNew other hother hold
        rw [if_pos haccepted]
        simp only
        rw [if_neg (show (resumedJob job).jobId ∉ restored.keys from hfresh),
          ih _ hrestSaved hrestKept hothers hnodup.2, checkedJob_resumedJob hjob,
          List.all_cons, hvalid, Bool.true_and, List.takeWhile_cons_of_pos hvalid]
        refine Prod.ext rfl ?_
        by_cases hover : job.completed = true ∨ job.processExitCode.isSome = true
        · refine (congrArg (· ∪ _) (if_pos hover)).trans ?_
          simp only [List.filter_cons, decide_eq_true hover, if_true, List.map_cons,
            List.toFinset_cons, Finset.insert_union, Finset.union_insert]
          rfl
        · refine (congrArg (· ∪ _) (if_neg hover)).trans ?_
          simp only [List.filter_cons, decide_eq_false hover, Bool.false_eq_true, if_false]
      · have hvalid : validCheckpointJob job = false := by
          rw [← Bool.not_eq_true, validCheckpointJob_iff hkept]
          exact haccepted
        rw [if_neg haccepted, List.all_cons, hvalid, List.takeWhile_cons_of_neg (by simp [hvalid])]
        simp

end

/-! ### The file -/

theorem jobJson_canonical (job : ResearchJob) : (jobJson job).Canonical := by
  have htext : ∀ value : Option Text, (textJson value).Canonical :=
    Json.Canonical.nullable Json.Canonical.str
  have hcode := Json.Canonical.nullable Json.Canonical.int job.processExitCode
  have hcycle : (if job.cycleKey = [] then Json.null else .str job.cycleKey).Canonical := by
    split
    · exact Json.Canonical.null
    · exact Json.Canonical.str job.cycleKey
  refine Json.Canonical.obj _ rfl ?_ ?_
  · change ["artifact_digest".toList, "command".toList, "completed".toList,
      "completed_artifact_digest".toList, "cycle_key".toList, "due_at".toList,
      "failure_reason".toList, "input_fingerprint".toList, "job_id".toList,
      "next_eligible_at".toList, "process_exit_code".toList, "stage".toList].Pairwise (· < ·)
    decide
  · intro member hmember
    simp only [jobMembers, List.mem_cons, List.not_mem_nil, or_false] at hmember
    rcases hmember with rfl | rfl | rfl | rfl | rfl | rfl | rfl | rfl | rfl | rfl | rfl | rfl
    · exact htext _
    · exact Json.Canonical.arr_map Json.Canonical.str _
    · exact Json.Canonical.bool _
    · exact htext _
    · exact hcycle
    · exact Json.Canonical.str _
    · exact htext _
    · exact htext _
    · exact Json.Canonical.str _
    · exact Json.Canonical.str _
    · exact hcode
    · exact Json.Canonical.str _

theorem checkpointBody_ordered (createdAt : UtcDateTime) (jobs : List ResearchJob) :
    Json.Ordered (checkpointBody createdAt jobs) := by
  constructor
  · change ["created_at".toList, "format_version".toList, "jobs".toList].Pairwise (· < ·)
    decide
  · intro member hmember
    simp only [checkpointBody, List.mem_cons, List.not_mem_nil, or_false] at hmember
    rcases hmember with rfl | rfl | rfl
    · exact Json.Canonical.str _
    · exact Json.Canonical.int _
    · exact Json.Canonical.arr_map jobJson_canonical jobs

/-- The file of a checkpoint is read back unless it is too large. -/
theorem readCheckpoint_checkpointBytes (createdAt : UtcDateTime)
    (jobs : Keyed ResearchJob.jobId) :
    readCheckpoint (checkpointBytes createdAt jobs) =
      if (checkpointBytes createdAt jobs).length ≤ maximumCheckpointBytes then
        some (.obj (checkpointBody createdAt jobs.values))
      else none := by
  have hordered := checkpointBody_ordered createdAt jobs.values
  have hnew : "sha256".toList ∉ (checkpointBody createdAt jobs.values).map (·.1) := by
    change "sha256".toList ∉ ["created_at".toList, "format_version".toList, "jobs".toList]
    decide
  have hversion : ("format_version".toList, Json.int 4) ∈ checkpointBody createdAt jobs.values := by
    simp [checkpointBody]
  rw [checkpointBytes]
  generalize checkpointBody createdAt jobs.values = body at hordered hnew hversion ⊢
  have hwhole := hordered.insertMember (Json.Canonical.str (checkpointDigest (.obj body))) hnew
  have hdigest : (Json.obj (Json.insertMember "sha256" (.str (checkpointDigest (.obj body)))
      body)).member? "sha256".toList = some (.str (checkpointDigest (.obj body))) :=
    Json.member?_insertMember hnew
  have hwithout : (Json.obj (Json.insertMember "sha256" (.str (checkpointDigest (.obj body)))
      body)).without "sha256" = .obj body := Json.without_insertMember hnew
  have hmember : ("format_version".toList, Json.int 4) ∈ Json.insertMember "sha256"
      (.str (checkpointDigest (.obj body))) body := Json.mem_insertMember.mpr (Or.inr hversion)
  generalize Json.insertMember "sha256" (.str (checkpointDigest (.obj body))) body = members at *
  have hformat : (Json.obj members).member? "format_version".toList = some (.int 4) := by
    have hkeys : (members.map (·.1)).Nodup := hwhole.order.imp fun hlt => ne_of_lt hlt
    have hfound : members.find? (fun m => m.1 = "format_version".toList) =
        some ("format_version".toList, .int 4) :=
      (Json.find?_key_eq_some_iff hkeys).mpr ⟨hmember, rfl⟩
    rw [Json.member?, hfound]
    rfl
  have hread : Json.ofBytes? (Json.dumpsIndented (.obj members)).utf8 = some (.obj members) := by
    rw [Json.ofBytes?, Text.decodeUtf8_utf8, Option.bind_some,
      Json.loads_dumpsIndented hwhole.canonical]
  generalize (Json.dumpsIndented (.obj members)).utf8 = raw at hread
  have hne : raw ≠ [] := by
    rintro rfl
    have hnone : Json.ofBytes? (Text.utf8 []) = none := by
      rw [Json.ofBytes?, Text.decodeUtf8_utf8]
      rfl
    exact absurd (hnone.symm.trans hread) (by simp)
  rw [readCheckpoint, hread]
  simp only [Option.bind_eq_bind, Option.bind_some, isObject, hformat, hwithout, Json.field, hdigest,
    Json.asText_str]
  by_cases hsize : raw.length ≤ maximumCheckpointBytes
  · rw [if_pos hsize, guard, if_pos ⟨hne, hsize⟩]
    rfl
  · rw [if_neg hsize, guard, if_neg fun hboth => hsize hboth.2]
    rfl

/-- The restored jobs in the order of the saved ones. -/
theorem values_restored [ValueTexts] (files : ResearchFiles) (jobs : Keyed ResearchJob.jobId) :
    ((jobs.values.map (restoredJob (verifiedIds files jobs))).foldl Keyed.put
      (Keyed.empty : Keyed ResearchJob.jobId)).values =
        (jobs.map (restoredJob (verifiedIds files jobs))
          (restoredJob_jobId (verifiedIds files jobs))).values := by
  refine Keyed.values_foldl_put_new ?_ (fun _ _ => List.not_mem_nil)
  rw [List.map_map]
  exact jobs.nodup

/-- A new supervisor on the file of recorded jobs has what `restore` makes of them, or nothing if
the file is too large. -/
theorem restoreCheckpoint_checkpointBytes [ValueTexts] (files : ResearchFiles)
    (createdAt : UtcDateTime) {jobs : Keyed ResearchJob.jobId}
    (h : ∀ job ∈ jobs.values, Recorded job) :
    restoreCheckpoint files (some (checkpointBytes createdAt jobs)) =
      if (checkpointBytes createdAt jobs).length ≤ maximumCheckpointBytes then
        restore (verifiedIds files jobs) jobs
      else fresh := by
  have hjobs : (Json.obj (checkpointBody createdAt jobs.values)).field "jobs"
      (Json.asList some) = some (jobs.values.map jobJson) := by
    have hmember : (Json.obj (checkpointBody createdAt jobs.values)).member? "jobs".toList =
        some (.arr (jobs.values.map jobJson)) := rfl
    rw [Json.field, hmember, Option.bind_some]
    have hitems := Json.mapM_map_some (fun item => (rfl : some (id item) = some item))
      (jobs.values.map jobJson)
    rwa [List.map_id] at hitems
  rw [restoreCheckpoint, Option.bind_some, readCheckpoint_checkpointBytes]
  by_cases hsize : (checkpointBytes createdAt jobs).length ≤ maximumCheckpointBytes
  · rw [if_pos hsize, if_pos hsize, Option.bind_some, hjobs]
    simp only
    rw [restoreItems_jobs ∅ (fun _ hjob => hjob) h (fun _ _ => List.not_mem_nil) jobs.nodup,
      restore, Finset.empty_union]
    simp only [fresh, ResearchSupervisor.mk.injEq, and_true]
    split
    · exact Keyed.ext (values_restored files jobs)
    · rfl
  · rw [if_neg hsize, if_neg hsize]
    rfl

end QuantWorkbench.Runtime
