import QuantWorkbench.Lib.Runs
import QuantWorkbench.Storage.ResearchReplace

/-!
Runs of the store with failing operations and cleanups between the calls. Every record of
the manifest has its blob after every call, and a cleanup deletes none of them. A call that
raises leaves the records as they are, except the first publication of a version of blanks:
it passes the checks of `replace_dataset` and of the manifest, and only the artifact of the
record that is already published refuses it.
-/

namespace QuantWorkbench.Storage

open Lib

def recordsOf : Option Text → List ManifestRecord
  | none => []
  | some text => (Json.lines text).filterMap fun line => (readRecord 0 line).toOption

theorem recordsOf_manifestText (records : List ManifestRecord) :
    recordsOf (some (manifestText records)) = records := by
  rw [recordsOf, manifestText_lines, List.filterMap_map]
  have hread : (fun line => (readRecord 0 line).toOption) ∘
      (fun record : ManifestRecord => Json.dumps record.toJson) = some := by
    funext record
    rw [Function.comp_apply, readRecord_dumps]
    rfl
  rw [hread, List.filterMap_some]

variable {Frame : Type} (parquet : Parquet Frame) (limits : StorageLimits)

/-! ### What is claimed of a run -/

def Backed (disk : Disk) : Prop :=
  ∀ record ∈ recordsOf disk.files.manifest, ∃ content,
    disk.files.blobs record.sha256 = some content ∧ Digest.ofContent content = record.sha256 ∧
      content.length = record.sizeBytes

def RaisingKeepsRecords (disk : Disk) : StoreCall Frame → Prop
  | .replace environment dataset key frame dataVersion =>
      ∀ error, (runReplace parquet limits environment dataset key frame dataVersion disk).1 =
          .error error →
        recordsOf (runReplace parquet limits environment dataset key frame dataVersion
          disk).2.files.manifest = recordsOf disk.files.manifest
  | .cleanup _ _ _ => True

def CleanupKeepsBlobs (disk : Disk) : StoreCall Frame → Prop
  | .replace _ _ _ _ _ => True
  | .cleanup environment grace dryRun =>
      ∀ record ∈ recordsOf disk.files.manifest,
        (cleanupRebuildableTemporaryFiles parquet environment grace dryRun
          disk).2.files.blobs record.sha256 = disk.files.blobs record.sha256

/-- A version of blanks that the checks let in is already recorded. -/
def NoNewBlankVersion (disk : Disk) : StoreCall Frame → Prop
  | .replace _ datasetText keyText _ versionText =>
      Text.strip versionText = [] → ∀ dataset key dataVersion,
        validateDataset datasetText = .ok dataset → validateKey keyText = .ok key →
        DataVersion.ofText? versionText = some dataVersion →
        (dataset, key, dataVersion) ∈
          (recordsOf disk.files.manifest).map ManifestRecord.logicalVersion
  | .cleanup _ _ _ => True

/-! ### The invariant -/

/-- The manifest is what these records are written as. -/
def Holds (records : List ManifestRecord) (manifest : Option Text) : Prop :=
  manifest = some (manifestText records) ∨ manifest = none ∧ records = []

/-- The manifest has records with valid blobs, and the next names are free. -/
structure Sound (disk : Disk) : Prop where
  holds : Holds (recordsOf disk.files.manifest) disk.files.manifest
  valid : ∀ record ∈ recordsOf disk.files.manifest,
    validateBlob parquet disk.files record = .ok ()
  fresh : Fresh disk

theorem sound_empty : Sound parquet Disk.empty :=
  ⟨Or.inr ⟨rfl, rfl⟩, fun _ h => absurd h List.not_mem_nil, fun _ _ => rfl⟩

variable {parquet}

theorem Sound.backed {disk : Disk} (h : Sound parquet disk) : Backed disk := by
  intro record hrecord
  obtain ⟨content, _, hblob, _, hsize, hdigest, _⟩ := validateBlob_eq_ok_iff.mp (h.valid record hrecord)
  exact ⟨content, hblob, hdigest, hsize⟩

theorem Sound.loadRecords_eq_ok_iff {disk : Disk} (h : Sound parquet disk)
    {records : List ManifestRecord} :
    loadRecords parquet disk.files = .ok records ↔
      records = recordsOf disk.files.manifest ∧ Distinct records := by
  rcases h.holds with hmanifest | ⟨hmanifest, hrecords⟩
  · rw [loadRecords, hmanifest, loadManifest_eq_ok_iff, ← hmanifest]
    constructor
    · rintro ⟨rfl, hdistinct, _⟩
      exact ⟨rfl, hdistinct⟩
    · rintro ⟨rfl, hdistinct⟩
      exact ⟨rfl, hdistinct, h.valid⟩
  · rw [loadRecords, hmanifest, loadManifest]
    constructor
    · rintro ⟨⟩
      exact ⟨rfl, distinct_nil⟩
    · rintro ⟨rfl, _⟩
      rfl

theorem Sound.kept {before after : Disk} (h : Sound parquet before) (hkept : Kept before after) :
    Sound parquet after where
  holds := by
    rw [hkept.manifest]
    exact h.holds
  valid := by
    rw [hkept.manifest]
    exact fun record hrecord => validateBlob_mono hkept.blobs (h.valid record hrecord)
  fresh := hkept.fresh h.fresh

theorem Sound.published {before after : Disk} {record : ManifestRecord} (h : Sound parquet before)
    (hpublished : Published (manifestText (recordsOf before.files.manifest ++ [record])) before after)
    (hvalid : validateBlob parquet after.files record = .ok ()) : Sound parquet after := by
  have hrecords : recordsOf after.files.manifest = recordsOf before.files.manifest ++ [record] := by
    rw [hpublished.manifest, recordsOf_manifestText]
  refine ⟨Or.inl (by rw [hrecords, hpublished.manifest]), ?_, hpublished.fresh h.fresh⟩
  intro other hother
  rw [hrecords, List.mem_append, List.mem_singleton] at hother
  rcases hother with hold | rfl
  · exact validateBlob_mono hpublished.blobs (h.valid other hold)
  · exact hvalid

/-! ### One call -/

theorem Sound.replace_cases {disk : Disk} (h : Sound parquet disk) (limits : StorageLimits)
    (environment : Environment) (datasetText keyText : Text) (frame : Frame) (versionText : Text) :
    Kept disk (runReplace parquet limits environment datasetText keyText frame versionText disk).2 ∨
    ∃ dataset key dataVersion record, validateDataset datasetText = .ok dataset ∧
      validateKey keyText = .ok key ∧ DataVersion.ofText? versionText = some dataVersion ∧
      Registered parquet environment (recordsOf disk.files.manifest) (parquet.bytes frame) dataset key
        dataVersion record disk
        (runReplace parquet limits environment datasetText keyText frame versionText disk).2 ∧
      artifactFromRecord record =
        (runReplace parquet limits environment datasetText keyText frame versionText disk).1 := by
  rcases runReplace_cases parquet limits environment
      datasetText keyText frame versionText h.fresh with
    ⟨error, hrun⟩ | ⟨records, dataset, key, dataVersion, hdataset, hkey, hversion, hload, hreplaced⟩
  · rw [hrun]
    exact Or.inl (Kept.refl disk)
  · obtain ⟨rfl, _⟩ := h.loadRecords_eq_ok_iff.mp hload
    generalize runReplace parquet limits environment datasetText keyText frame versionText disk =
      ended at hreplaced ⊢
    obtain ⟨result, after⟩ := ended
    cases hreplaced with
    | refused kept _ => exact Or.inl kept
    | repeated _ _ kept => exact Or.inl kept
    | registered registered built =>
        exact Or.inr ⟨dataset, key, dataVersion, _, hdataset, hkey, hversion, registered, built⟩

theorem Sound.raising_keeps {disk : Disk} (h : Sound parquet disk) {call : StoreCall Frame}
    (hversion : NoNewBlankVersion disk call) : RaisingKeepsRecords parquet limits disk call := by
  cases call with
  | cleanup _ _ _ => trivial
  | replace environment datasetText keyText frame versionText =>
      intro error herror
      rcases h.replace_cases limits environment datasetText keyText frame versionText with
        hkept | ⟨dataset, key, dataVersion, record, hdataset, hkey, haccepted, hregistered, hbuilt⟩
      · rw [hkept.manifest]
      · exfalso
        rw [herror] at hbuilt
        have hsame : record.dataVersion = dataVersion :=
          congrArg (fun v => v.2.2) hregistered.version
        have htext : dataVersion.text = versionText := by
          unfold DataVersion.ofText? at haccepted
          split at haccepted
          · cases haccepted
            rfl
          · cases haccepted
        have hblank : Text.strip versionText = [] := by
          by_contra hne
          rw [← htext, ← hsame] at hne
          obtain ⟨artifact, hartifact⟩ := artifactFromRecord_eq_ok_iff.mpr hne
          rw [hartifact] at hbuilt
          cases hbuilt
        apply hregistered.newVersion
        rw [hregistered.version]
        exact hversion hblank dataset key dataVersion hdataset hkey haccepted

/-! ### Cleanup -/

/-- What a cleanup leaves: the manifest, and the blobs that are referred to. -/
structure Cleaned (referenced : List Digest) (before after : Disk) : Prop where
  manifest : after.files.manifest = before.files.manifest
  blobs : ∀ digest ∈ referenced, after.files.blobs digest = before.files.blobs digest
  fresh : Fresh before → Fresh after

namespace Cleaned

variable {referenced : List Digest} {first second third : Disk}

theorem refl (disk : Disk) : Cleaned referenced disk disk := ⟨rfl, fun _ _ => rfl, id⟩

theorem trans (h : Cleaned referenced first second) (h' : Cleaned referenced second third) :
    Cleaned referenced first third where
  manifest := h'.manifest.trans h.manifest
  blobs digest hdigest := (h'.blobs digest hdigest).trans (h.blobs digest hdigest)
  fresh hfresh := h'.fresh (h.fresh hfresh)

theorem removeMarker (disk : Disk) (markerId : ℕ) :
    Cleaned referenced disk (disk.removeMarker markerId) := ⟨rfl, fun _ _ => rfl, id⟩

/-- A file that no record refers to is unlinked. -/
theorem unlink (disk : Disk) {target : OwnedTarget}
    (htarget : ∀ digest ∈ referenced, target ≠ .orphanBlob digest) :
    Cleaned referenced disk (disk.withFiles (disk.files.unlink target)) := by
  cases target with
  | stage _ => exact ⟨rfl, fun _ _ => rfl, id⟩
  | manifestTemp id => exact ⟨rfl, fun _ _ => rfl, fresh_setTemp_none id⟩
  | orphanBlob digest =>
      refine ⟨rfl, ?_, id⟩
      intro other hother
      have hne : other ≠ digest := fun hsame => htarget other hother (by rw [hsame])
      exact Function.update_of_ne hne _ _

end Cleaned

/-- The targets that may be deleted are none of the blobs that are referred to. -/
theorem inspectMarker_candidate {environment : CleanupEnvironment} {grace : ℚ}
    {referenced : List Digest} {disk : Disk} {markerId : ℕ} {target : OwnedTarget}
    (h : inspectMarker environment grace referenced disk markerId = .accepted target true) :
    ∀ digest ∈ referenced, target ≠ .orphanBlob digest := by
  unfold inspectMarker at h
  split at h
  · cases h
  split at h
  · cases h
  split at h
  · cases h
  rename_i ownership _
  split at h
  · cases h
  simp only at h
  split at h
  · cases h
  split at h
  · obtain ⟨htarget, hfree⟩ := Inspection.accepted.inj h
    rintro digest hdigest rfl
    rw [htarget] at hfree
    simp [hdigest] at hfree
  · cases h

theorem cleanMarker_cleaned {referenced : List Digest} {candidates : List OwnedTarget}
    (hcandidates : ∀ target ∈ candidates, ∀ digest ∈ referenced, target ≠ .orphanBlob digest)
    (state : CleanupState) (marker : ℕ × OwnedTarget) :
    Cleaned referenced state.disk (cleanMarker candidates state marker).disk := by
  unfold cleanMarker
  simp only
  split
  · exact Cleaned.removeMarker _ _
  split
  · exact Cleaned.refl _
  split
  · exact Cleaned.refl _
  split
  · split
    · rename_i hmem
      exact (Cleaned.unlink _ (hcandidates _ hmem)).trans (Cleaned.removeMarker _ _)
    · exact Cleaned.removeMarker _ _
  · exact Cleaned.refl _

theorem cleanMarkers_cleaned {referenced : List Digest} {candidates : List OwnedTarget}
    (hcandidates : ∀ target ∈ candidates, ∀ digest ∈ referenced, target ≠ .orphanBlob digest)
    (markers : List (ℕ × OwnedTarget)) (state : CleanupState) :
    Cleaned referenced state.disk (markers.foldl (cleanMarker candidates) state).disk := by
  induction markers generalizing state with
  | nil => exact Cleaned.refl _
  | cons marker rest ih => exact (cleanMarker_cleaned hcandidates state marker).trans (ih _)

/-- A cleanup keeps the blobs of the records it has loaded. -/
theorem cleanup_cleaned (parquet : Parquet Frame) (environment : CleanupEnvironment) (grace : ℚ) (dryRun : Bool) (disk : Disk) :
    (cleanupRebuildableTemporaryFiles parquet environment grace dryRun disk).2 = disk ∨
    ∃ records, loadRecords parquet disk.files = .ok records ∧
      Cleaned (records.map (·.sha256)) disk
        (cleanupRebuildableTemporaryFiles parquet environment grace dryRun disk).2 := by
  unfold cleanupRebuildableTemporaryFiles
  split
  · exact Or.inl rfl
  cases hload : loadRecords parquet disk.files with
  | error error => exact Or.inl rfl
  | ok records =>
      right
      refine ⟨records, rfl, ?_⟩
      simp only
      split
      · exact Cleaned.refl disk
      · refine cleanMarkers_cleaned ?_ _ ⟨disk, [], _⟩
        intro target htarget
        obtain ⟨⟨markerId, inspection⟩, hinspected, hcandidate⟩ := List.mem_filterMap.mp htarget
        obtain ⟨listed, _, hlisted⟩ := List.mem_map.mp hinspected
        cases hlisted
        split at hcandidate
        · rename_i hpair
          cases hcandidate
          exact inspectMarker_candidate (congrArg Prod.snd hpair)
        · cases hcandidate

theorem Sound.cleaned {before after : Disk} {records : List ManifestRecord}
    (h : Sound parquet before) (hload : loadRecords parquet before.files = .ok records)
    (hcleaned : Cleaned (records.map (·.sha256)) before after) : Sound parquet after := by
  obtain ⟨rfl, _⟩ := h.loadRecords_eq_ok_iff.mp hload
  refine ⟨?_, ?_, hcleaned.fresh h.fresh⟩
  · rw [hcleaned.manifest]
    exact h.holds
  · rw [hcleaned.manifest]
    intro record hrecord
    have hblob := hcleaned.blobs _ (List.mem_map_of_mem hrecord)
    have hvalid := h.valid record hrecord
    unfold validateBlob at hvalid ⊢
    rwa [hblob]

/-- No call breaks the invariant. -/
theorem Sound.step {disk : Disk} (h : Sound parquet disk) (call : StoreCall Frame) :
    Sound parquet (storeStep parquet limits disk call) := by
  cases call with
  | replace environment datasetText keyText frame versionText =>
      rcases h.replace_cases limits environment datasetText keyText frame versionText with
        hkept | ⟨_, _, _, record, _, _, _, hregistered, _⟩
      · exact h.kept hkept
      · exact h.published hregistered.published hregistered.blob
  | cleanup environment grace dryRun =>
      rcases cleanup_cleaned parquet environment grace dryRun disk with
        hsame | ⟨records, hload, hcleaned⟩
      · rw [storeStep, hsame]
        exact h
      · exact h.cleaned hload hcleaned

theorem Sound.cleanup_keeps {disk : Disk} (h : Sound parquet disk) (call : StoreCall Frame) :
    CleanupKeepsBlobs parquet disk call := by
  cases call with
  | replace _ _ _ _ _ => trivial
  | cleanup environment grace dryRun =>
      intro record hrecord
      rcases cleanup_cleaned parquet environment grace dryRun disk with
        hsame | ⟨records, hload, hcleaned⟩
      · rw [hsame]
      · obtain ⟨rfl, _⟩ := h.loadRecords_eq_ok_iff.mp hload
        exact hcleaned.blobs _ (List.mem_map_of_mem hrecord)

/-! ### Runs -/

variable (parquet)

/-- In every run from the empty store, whatever fails, every record has its blob and no cleanup
deletes one; and while no new version of blanks is given, no call that raises changes the
records. -/
theorem store_run_integrity (calls : List (StoreCall Frame))
    (h : Runs.StepsMeet (storeStep parquet limits) NoNewBlankVersion Disk.empty calls) :
    Runs.StepsMeet (storeStep parquet limits) (RaisingKeepsRecords parquet limits) Disk.empty calls ∧
      Runs.Always (storeStep parquet limits) Backed Disk.empty calls ∧
      Runs.StepsMeet (storeStep parquet limits) (CleanupKeepsBlobs parquet) Disk.empty calls := by
  have hstep : ∀ (disk : Disk) (call : StoreCall Frame), Sound parquet disk →
      Sound parquet (storeStep parquet limits disk call) := fun _ call hsound => hsound.step limits call
  refine ⟨?_, ?_, ?_⟩
  · exact h.imp _ _ hstep (fun _ _ hsound hversion => hsound.raising_keeps limits hversion)
      (sound_empty parquet)
  · exact (Runs.always_of_invariant _ _ hstep _ calls (sound_empty parquet)).imp _
      fun _ hsound => hsound.backed
  · exact h.imp _ _ hstep (fun _ call hsound _ => hsound.cleanup_keeps call) (sound_empty parquet)

/-! ### A store for examples -/

/-- Files with a magic number at both ends and one byte for each row. -/
def sampleParquet : Parquet ℕ where
  bytes rows := [80, 65, 82, 49] ++ List.replicate rows 0 ++ [80, 65, 82, 49]
  metadata content := if 8 ≤ content.length then some (content.length - 8, []) else none

def sampleLimits : StorageLimits := {}

def sampleEnvironment : Environment where
  faults _ _ := false
  now := ⟨.of 2026 1 5, 9, 30, 0, 0⟩
  treeSize := 0
  stagedTreeSize := 0
  freeBytes := 21474836480

def sampleKey : LogicalKey := ⟨"000001".toList, by decide, by decide, by decide⟩

def sampleRecord (dataVersion : DataVersion) : ManifestRecord :=
  newRecord sampleEnvironment (.of (sampleParquet.bytes 2)) 2 [] .researchReturns sampleKey dataVersion

theorem dataVersion_length (version : DataVersion) : version.text.length ≤ 256 := by
  have h := version.accepted
  rw [isVersionText, Bool.and_eq_true, Bool.and_eq_true, decide_eq_true_eq] at h
  exact h.1.2

theorem sampleLine_length (dataVersion : DataVersion) :
    (Json.dumps (sampleRecord dataVersion).toJson).length ≤ 5000 := by
  have hline := (sampleRecord dataVersion).line_length_le
  have hcreated : (sampleRecord dataVersion).createdAt.text.length = 20 := by
    change (Timestamp.zuluText sampleEnvironment.now).length = 20
    decide +kernel
  have hkey : (sampleRecord dataVersion).key.text.length = 6 := by
    change sampleKey.text.length = 6
    decide +kernel
  have hdataset : (sampleRecord dataVersion).dataset.value.length = 16 := by
    change ResearchDataset.researchReturns.value.length = 16
    decide +kernel
  have hrows : (Json.intText (sampleRecord dataVersion).rowCount).length = 1 := by
    change (Json.intText 2).length = 1
    decide +kernel
  have hsize : (Json.intText (sampleRecord dataVersion).sizeBytes).length = 2 := by
    change (Json.intText 10).length = 2
    decide +kernel
  have hversion : (sampleRecord dataVersion).dataVersion.text.length ≤ 256 :=
    dataVersion_length dataVersion
  omega

/-- A version fits into the example's store while its manifest is short. -/
theorem sample_accepts {records : List ManifestRecord} {blobs : Digest → Option Content}
    {dataVersion : DataVersion} (hlength : (manifestText records).length ≤ 100000)
    (hrecorded : ∀ existing, findIdempotent records .researchReturns sampleKey dataVersion
      (.ofContent (sampleParquet.bytes 2)) = some existing → Text.strip dataVersion.text ≠ [])
    (hunrecorded : findIdempotent records .researchReturns sampleKey dataVersion
        (.ofContent (sampleParquet.bytes 2)) = none →
      (.researchReturns, sampleKey, dataVersion) ∉ records.map ManifestRecord.logicalVersion)
    (hblobs : ∀ held, blobs (.ofContent (sampleParquet.bytes 2)) = some held →
      held = sampleParquet.bytes 2) :
    Accepts sampleParquet sampleLimits sampleEnvironment blobs records (sampleParquet.bytes 2)
      .researchReturns sampleKey dataVersion where
  serves := ⟨fun _ _ => rfl, by decide⟩
  readable := by decide
  recorded existing hfound := ⟨by decide, hrecorded existing hfound⟩
  unrecorded := hunrecorded
  room rows schema hmetadata := by
    obtain ⟨rfl, rfl⟩ : 2 = rows ∧ [] = schema := by
      have hread : sampleParquet.metadata (sampleParquet.bytes 2) = some (2, []) := by decide
      rw [hread] at hmetadata
      cases hmetadata
      exact ⟨rfl, rfl⟩
    have hreserve : manifestPeakReserve records (sampleRecord dataVersion) ≤ 1000000 := by
      have hnext := Json.utf8_length_le (manifestText (records ++ [sampleRecord dataVersion]))
      have hprevious := Json.utf8_length_le (manifestText records)
      have hline := sampleLine_length dataVersion
      rw [manifestText_append, List.length_append, List.length_append, List.length_singleton] at hnext
      rw [manifestPeakReserve, manifestText_append]
      omega
    have hsize : (sampleParquet.bytes 2).length = 10 := by decide
    unfold enforceLimits
    refine bind_eq_ok_iff.mpr ⟨(), require_eq_ok_iff.mpr ?_, ?_⟩
    · rw [hsize]
      decide
    refine bind_eq_ok_iff.mpr ⟨(), require_eq_ok_iff.mpr ?_, require_eq_ok_iff.mpr (by decide)⟩
    change 0 + manifestPeakReserve records (sampleRecord dataVersion) ≤ 21474836480
    omega
  blob := hblobs

theorem sampleKey_validated : validateKey "000001".toList = .ok sampleKey := validateKey_text sampleKey

theorem sampleDataset_validated : validateDataset "research_returns".toList = .ok .researchReturns := by
  decide

/-- The example's store publishes a new version. -/
theorem sample_registered {disk : Disk} {records : List ManifestRecord} (dataVersion : DataVersion)
    (hload : loadRecords sampleParquet disk.files = .ok records) (hfresh : Fresh disk)
    (hlength : (manifestText records).length ≤ 100000)
    (hnew : (.researchReturns, sampleKey, dataVersion) ∉ records.map ManifestRecord.logicalVersion)
    (hblobs : ∀ held, disk.files.blobs (.ofContent (sampleParquet.bytes 2)) = some held →
      held = sampleParquet.bytes 2) :
    ∃ record, Registered sampleParquet sampleEnvironment records (sampleParquet.bytes 2) .researchReturns sampleKey
        dataVersion record disk
        (runReplace sampleParquet sampleLimits sampleEnvironment "research_returns".toList
          "000001".toList 2 dataVersion.text disk).2 ∧
      artifactFromRecord record =
        (runReplace sampleParquet sampleLimits sampleEnvironment "research_returns".toList
          "000001".toList 2 dataVersion.text disk).1 := by
  have hreplaced : Replaced sampleParquet sampleLimits sampleEnvironment records
      (sampleParquet.bytes 2) .researchReturns sampleKey dataVersion disk
      (runReplace sampleParquet sampleLimits sampleEnvironment "research_returns".toList
        "000001".toList 2 dataVersion.text disk).1
      (runReplace sampleParquet sampleLimits sampleEnvironment "research_returns".toList
        "000001".toList 2 dataVersion.text disk).2 :=
    runReplace_replaced sampleDataset_validated sampleKey_validated
      (DataVersion.ofText?_text dataVersion) hload hfresh
  have hunfound : ∀ existing, findIdempotent records .researchReturns sampleKey dataVersion
      (.ofContent (sampleParquet.bytes 2)) ≠ some existing := by
    intro existing hfound
    obtain ⟨hmem, hversion, _⟩ := findIdempotent_eq_some hfound
    exact hnew (List.mem_map.mpr ⟨existing, hmem, hversion⟩)
  generalize runReplace sampleParquet sampleLimits sampleEnvironment "research_returns".toList
    "000001".toList 2 dataVersion.text disk = ended at hreplaced ⊢
  obtain ⟨result, after⟩ := ended
  cases hreplaced with
  | refused _ reason =>
      exact absurd (sample_accepts hlength (fun _ found => absurd found (hunfound _)) (fun _ => hnew)
        hblobs) reason
  | repeated found _ _ => exact absurd found (hunfound _)
  | registered registered built => exact ⟨_, registered, built⟩

def blankVersion : DataVersion := ⟨" ".toList, by decide⟩

/-- The first publication of one blank raises, and the manifest has its record. -/
theorem blankVersion_published :
    ¬ Runs.StepsMeet (storeStep sampleParquet sampleLimits)
      (RaisingKeepsRecords sampleParquet sampleLimits) Disk.empty
      [.replace sampleEnvironment "research_returns".toList "000001".toList 2 blankVersion.text] := by
  rintro ⟨hkeeps, -⟩
  have hload : loadRecords sampleParquet Disk.empty.files = .ok [] := rfl
  obtain ⟨record, hregistered, hbuilt⟩ := sample_registered blankVersion hload (fun _ _ => rfl)
    (by decide) List.not_mem_nil (fun _ h => nomatch h)
  cases hresult : artifactFromRecord record with
  | ok artifact =>
      have hversion : record.dataVersion = blankVersion :=
        congrArg (fun v => v.2.2) hregistered.version
      have hstrip := artifactFromRecord_eq_ok_iff.mp ⟨artifact, hresult⟩
      rw [hversion] at hstrip
      exact absurd (by decide) hstrip
  | error error =>
      have hsame := hkeeps error (hbuilt.symm.trans hresult)
      have hempty : recordsOf Disk.empty.files.manifest = [] := rfl
      rw [hregistered.published.manifest, recordsOf_manifestText, hempty] at hsame
      exact absurd hsame (List.cons_ne_nil _ _)

/-- A publication, and a cleanup after it. -/
def sampleCalls : List (StoreCall ℕ) :=
  [.replace sampleEnvironment "research_returns".toList "000001".toList 2 "v1".toList,
    .cleanup ⟨0, [0, 1, 2], fun _ => 0⟩ 0 false]

theorem sampleCalls_integrity :
    Runs.StepsMeet (storeStep sampleParquet sampleLimits)
        (RaisingKeepsRecords sampleParquet sampleLimits) Disk.empty sampleCalls ∧
      Runs.Always (storeStep sampleParquet sampleLimits) Backed Disk.empty sampleCalls ∧
      Runs.StepsMeet (storeStep sampleParquet sampleLimits) (CleanupKeepsBlobs sampleParquet)
        Disk.empty sampleCalls := by
  have hversion : NoNewBlankVersion Disk.empty
      (.replace sampleEnvironment "research_returns".toList "000001".toList 2 "v1".toList) :=
    fun hblank => absurd hblank (by decide)
  exact store_run_integrity sampleParquet sampleLimits sampleCalls ⟨hversion, trivial, trivial⟩

end QuantWorkbench.Storage
