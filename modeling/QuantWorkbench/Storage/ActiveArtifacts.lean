import QuantWorkbench.Lib.Sha256Eval
import QuantWorkbench.Storage.ResearchIntegrity

/-!
Which artifact is active after a publication. The active artifact of a key is the last one
of the manifest, but a version that was published before is found wherever it is, and
publishing it again does not make it the last one.
-/

namespace QuantWorkbench.Storage

open Lib

/-! ### The active artifact -/

def lastRecord (records : List ManifestRecord) (dataset : ResearchDataset) (key : LogicalKey) :
    Option ManifestRecord :=
  (records.filter fun record => record.dataset = dataset ∧ record.key = key).getLast?

theorem lastRecord_eq_some {records : List ManifestRecord} {dataset : ResearchDataset}
    {key : LogicalKey} {record : ManifestRecord} (h : lastRecord records dataset key = some record) :
    record ∈ records ∧ record.dataset = dataset ∧ record.key = key := by
  have hmem := List.mem_of_getLast? h
  obtain ⟨hrecord, hpair⟩ := List.mem_filter.mp hmem
  exact ⟨hrecord, of_decide_eq_true hpair⟩

theorem lastRecord_concat {records : List ManifestRecord} {record : ManifestRecord} :
    lastRecord (records ++ [record]) record.dataset record.key = some record := by
  rw [lastRecord, List.filter_append, List.filter_cons_of_pos (by simp), List.filter_nil,
    List.getLast?_concat]

theorem lastRecord_cons (record : ManifestRecord) (rest : List ManifestRecord)
    (dataset : ResearchDataset) (key : LogicalKey) :
    lastRecord (record :: rest) dataset key =
      if record.dataset = dataset ∧ record.key = key then
        some ((lastRecord rest dataset key).getD record)
      else lastRecord rest dataset key := by
  rw [lastRecord, List.filter_cons]
  by_cases hpair : record.dataset = dataset ∧ record.key = key
  · rw [if_pos (decide_eq_true hpair), if_pos hpair, List.getLast?_cons]
    rfl
  · rw [if_neg (by simpa using hpair), if_neg hpair]
    rfl

theorem artifact_key {record : ManifestRecord} {artifact : ResearchArtifact}
    (h : artifactFromRecord record = .ok artifact) : artifact.key = record.key.text := by
  unfold artifactFromRecord at h
  split at h
  · cases h
  split at h
  · cases h
  split at h
  · cases h
  cases h
  rfl

theorem artifact_dataVersion {record : ManifestRecord} {artifact : ResearchArtifact}
    (h : artifactFromRecord record = .ok artifact) : artifact.dataVersion = record.dataVersion.text := by
  unfold artifactFromRecord at h
  split at h
  · cases h
  split at h
  · cases h
  split at h
  · cases h
  cases h
  rfl

theorem text_of_validateKey {keyText : Text} {key : LogicalKey} (h : validateKey keyText = .ok key) :
    key.text = keyText := by
  unfold validateKey at h
  split at h
  · split at h
    · cases h
    · split at h
      · cases h
      · cases h
        rfl
  · cases h

theorem LogicalKey.eq_of_text {key other : LogicalKey} (h : key.text = other.text) : key = other := by
  cases key
  cases other
  cases h
  rfl

theorem DataVersion.eq_of_text {version other : DataVersion} (h : version.text = other.text) :
    version = other := by
  cases version
  cases other
  cases h
  rfl

theorem collectArtifacts_get? {dataset : ResearchDataset} {records : List ManifestRecord}
    (hversions : ∀ record ∈ records, Text.strip record.dataVersion.text ≠ [])
    (start : Keyed ResearchArtifact.key) :
    ∃ active, collectArtifacts dataset start records = .ok active ∧ ∀ key : LogicalKey,
      active.get? key.text = match lastRecord records dataset key with
        | some record => (artifactFromRecord record).toOption
        | none => start.get? key.text := by
  induction records generalizing start with
  | nil => exact ⟨start, rfl, fun _ => rfl⟩
  | cons record rest ih =>
      obtain ⟨hversion, hrest⟩ := List.forall_mem_cons.mp hversions
      by_cases hdataset : record.dataset = dataset
      · obtain ⟨artifact, hartifact⟩ := artifactFromRecord_eq_ok_iff.mpr hversion
        obtain ⟨active, hactive, hkeys⟩ := ih hrest (start.put artifact)
        refine ⟨active, ?_, ?_⟩
        · rw [collectArtifacts, if_pos hdataset, hartifact]
          exact hactive
        · intro key
          rw [hkeys key, lastRecord_cons]
          cases hlast : lastRecord rest dataset key with
          | some last =>
              by_cases hkey : record.key = key
              · rw [if_pos ⟨hdataset, hkey⟩]
                rfl
              · rw [if_neg (fun h => hkey h.2)]
          | none =>
              have hname := artifact_key hartifact
              by_cases hkey : record.key = key
              · rw [if_pos ⟨hdataset, hkey⟩]
                change (start.put artifact).get? key.text = (artifactFromRecord record).toOption
                rw [hartifact, ← hkey, ← hname, Keyed.get?_put]
                rfl
              · rw [if_neg (fun h => hkey h.2)]
                refine start.get?_put_of_ne ?_
                intro hsame
                exact hkey (LogicalKey.eq_of_text (hname.symm.trans hsame.symm))
      · obtain ⟨active, hactive, hkeys⟩ := ih hrest start
        refine ⟨active, ?_, ?_⟩
        · rw [collectArtifacts, if_neg hdataset]
          exact hactive
        · intro key
          rw [hkeys key, lastRecord_cons, if_neg (fun h => hdataset h.1)]

/-! ### Publications -/

/-- A call of `replace_dataset`. -/
structure Publication (Frame : Type) where
  environment : Environment
  dataset : Text
  key : Text
  frame : Frame
  dataVersion : Text

section

variable {Frame : Type} (parquet : Parquet Frame) (limits : StorageLimits)

def publish (disk : Disk) (publication : Publication Frame) :
    Except ResearchStoreError ResearchArtifact × Disk :=
  runReplace parquet limits publication.environment publication.dataset publication.key
    publication.frame publication.dataVersion disk

def publishStep (disk : Disk) (publication : Publication Frame) : Disk :=
  (publish parquet limits disk publication).2

def Succeeds (disk : Disk) (publication : Publication Frame) : Prop :=
  ∃ artifact, (publish parquet limits disk publication).1 = .ok artifact

/-- What the call returns is what both ways of reading return after it. -/
def BecomesActive (disk : Disk) (publication : Publication Frame) : Prop :=
  ∀ artifact, (publish parquet limits disk publication).1 = .ok artifact →
    activeArtifact parquet (publishStep parquet limits disk publication).files publication.dataset
        publication.key = .ok artifact ∧
      ∃ active, activeArtifacts parquet (publishStep parquet limits disk publication).files
          publication.dataset = .ok active ∧
        active.get? publication.key = some artifact

/-- The version, if it was published with this content before, is the last one of its key, and
otherwise its record has an identity of its own. -/
def LatestOrNew (disk : Disk) (publication : Publication Frame) : Prop :=
  ∀ dataset key dataVersion, validateDataset publication.dataset = .ok dataset →
    validateKey publication.key = .ok key →
    DataVersion.ofText? publication.dataVersion = some dataVersion →
    match findIdempotent (recordsOf disk.files.manifest) dataset key dataVersion
      (.ofContent (parquet.bytes publication.frame)) with
    | some existing => lastRecord (recordsOf disk.files.manifest) dataset key = some existing
    | none => recordId dataset key dataVersion (.ofContent (parquet.bytes publication.frame)) ∉
        (recordsOf disk.files.manifest).map ManifestRecord.id

/-- The manifest is loaded, and the artifacts of its records can be built. -/
structure Readable (disk : Disk) : Prop where
  sound : Sound parquet disk
  distinct : Distinct (recordsOf disk.files.manifest)
  versions : ∀ record ∈ recordsOf disk.files.manifest, Text.strip record.dataVersion.text ≠ []

variable {parquet}

theorem Readable.load {disk : Disk} (h : Readable parquet disk) :
    loadRecords parquet disk.files = .ok (recordsOf disk.files.manifest) :=
  h.sound.loadRecords_eq_ok_iff.mpr ⟨rfl, h.distinct⟩

theorem activeArtifact_eq_ok_iff {disk : Disk} {records : List ManifestRecord}
    {datasetText keyText : Text} {dataset : ResearchDataset} {key : LogicalKey}
    {artifact : ResearchArtifact} (hdataset : validateDataset datasetText = .ok dataset)
    (hkey : validateKey keyText = .ok key) (hload : loadRecords parquet disk.files = .ok records) :
    activeArtifact parquet disk.files datasetText keyText = .ok artifact ↔
      ∃ record, lastRecord records dataset key = some record ∧
        artifactFromRecord record = .ok artifact := by
  unfold activeArtifact
  rw [hdataset, hkey, hload]
  change (match lastRecord records dataset key with
    | some record => artifactFromRecord record
    | none => .error _) = Except.ok artifact ↔ _
  cases hlast : lastRecord records dataset key with
  | none =>
      constructor
      · rintro ⟨⟩
      · rintro ⟨_, ⟨⟩, _⟩
  | some record =>
      constructor
      · exact fun h => ⟨record, rfl, h⟩
      · rintro ⟨_, ⟨⟩, h⟩
        exact h

/-- Both ways of reading agree on a readable disk. -/
theorem Readable.activeArtifacts {disk : Disk} (h : Readable parquet disk)
    {datasetText keyText : Text} {dataset : ResearchDataset} {key : LogicalKey}
    {artifact : ResearchArtifact} (hdataset : validateDataset datasetText = .ok dataset)
    (hkey : validateKey keyText = .ok key)
    (hactive : activeArtifact parquet disk.files datasetText keyText = .ok artifact) :
    ∃ active, activeArtifacts parquet disk.files datasetText = .ok active ∧
      active.get? keyText = some artifact := by
  obtain ⟨record, hlast, hartifact⟩ := (activeArtifact_eq_ok_iff hdataset hkey h.load).mp hactive
  obtain ⟨active, hcollected, hkeys⟩ := @collectArtifacts_get? dataset _ h.versions .empty
  refine ⟨active, ?_, ?_⟩
  · unfold Storage.activeArtifacts
    rw [hdataset, h.load]
    exact hcollected
  · have hfound := hkeys key
    rw [hlast] at hfound
    rw [← text_of_validateKey hkey, hfound]
    change (artifactFromRecord record).toOption = _
    rw [hartifact]
    rfl

/-! ### One publication -/

variable (limits : StorageLimits)

theorem Readable.publish_cases {disk : Disk} (h : Readable parquet disk)
    {publication : Publication Frame} {artifact : ResearchArtifact}
    (hresult : (publish parquet limits disk publication).1 = .ok artifact) :
    ∃ dataset key dataVersion, validateDataset publication.dataset = .ok dataset ∧
      validateKey publication.key = .ok key ∧
      DataVersion.ofText? publication.dataVersion = some dataVersion ∧
      ((∃ existing, findIdempotent (recordsOf disk.files.manifest) dataset key dataVersion
            (.ofContent (parquet.bytes publication.frame)) = some existing ∧
          artifactFromRecord existing = .ok artifact ∧
          Kept disk (publishStep parquet limits disk publication)) ∨
        ∃ record, Registered parquet publication.environment (recordsOf disk.files.manifest)
            (parquet.bytes publication.frame) dataset key dataVersion record disk
            (publishStep parquet limits disk publication) ∧
          artifactFromRecord record = .ok artifact) := by
  unfold publishStep
  unfold publish at hresult ⊢
  rcases runReplace_cases parquet limits publication.environment publication.dataset
      publication.key publication.frame publication.dataVersion h.sound.fresh with
    ⟨error, hrun⟩ | ⟨records, dataset, key, dataVersion, hdataset, hkey, hversion, hload, hreplaced⟩
  · rw [hrun] at hresult
    cases hresult
  · obtain ⟨rfl, _⟩ := h.sound.loadRecords_eq_ok_iff.mp hload
    refine ⟨dataset, key, dataVersion, hdataset, hkey, hversion, ?_⟩
    generalize runReplace parquet limits publication.environment publication.dataset
      publication.key publication.frame publication.dataVersion disk = ended at hreplaced hresult ⊢
    obtain ⟨result, after⟩ := ended
    cases hresult
    cases hreplaced with
    | repeated found built kept => exact Or.inl ⟨_, found, built, kept⟩
    | registered registered built => exact Or.inr ⟨_, registered, built⟩

theorem Readable.kept {before after : Disk} (h : Readable parquet before) (hkept : Kept before after) :
    Readable parquet after := by
  refine ⟨h.sound.kept hkept, ?_, ?_⟩
  · rw [hkept.manifest]
    exact h.distinct
  · rw [hkept.manifest]
    exact h.versions

/-- The record that is found becomes active exactly if it is the last one of its key. -/
theorem Readable.repeated_active_iff {disk after : Disk} (h : Readable parquet disk)
    (hkept : Kept disk after) {datasetText keyText : Text} {dataset : ResearchDataset}
    {key : LogicalKey} {dataVersion : DataVersion} {digest : Digest} {existing : ManifestRecord}
    {artifact : ResearchArtifact} (hdataset : validateDataset datasetText = .ok dataset)
    (hkey : validateKey keyText = .ok key)
    (hfound : findIdempotent (recordsOf disk.files.manifest) dataset key dataVersion digest =
      some existing) (hbuilt : artifactFromRecord existing = .ok artifact) :
    activeArtifact parquet after.files datasetText keyText = .ok artifact ↔
      lastRecord (recordsOf disk.files.manifest) dataset key = some existing := by
  rw [activeArtifact_eq_ok_iff hdataset hkey (h.kept hkept).load, hkept.manifest]
  constructor
  · rintro ⟨record, hlast, hrecord⟩
    obtain ⟨hmem, hrecordDataset, hrecordKey⟩ := lastRecord_eq_some hlast
    obtain ⟨hexisting, hversion, _⟩ := findIdempotent_eq_some hfound
    have htexts : record.dataVersion.text = existing.dataVersion.text :=
      (artifact_dataVersion hrecord).symm.trans (artifact_dataVersion hbuilt)
    have hversions : record.dataVersion = existing.dataVersion := DataVersion.eq_of_text htexts
    have hsame : record.logicalVersion = existing.logicalVersion := by
      rw [hversion, ManifestRecord.logicalVersion, hrecordDataset, hrecordKey, hversions,
        show existing.dataVersion = dataVersion from congrArg (fun v => v.2.2) hversion]
    rw [hlast, List.inj_on_of_nodup_map h.distinct.versions hmem hexisting hsame]
  · exact fun hlast => ⟨existing, hlast, hbuilt⟩

/-- The record that is registered becomes active exactly if no other one has its identity. -/
theorem Readable.registered_active {disk after : Disk} (h : Readable parquet disk)
    {environment : Environment} {content : Content} {datasetText keyText : Text} {dataset : ResearchDataset}
    {key : LogicalKey} {dataVersion : DataVersion} {record : ManifestRecord}
    {artifact : ResearchArtifact} (hdataset : validateDataset datasetText = .ok dataset)
    (hkey : validateKey keyText = .ok key)
    (hregistered : Registered parquet environment (recordsOf disk.files.manifest) content dataset key
      dataVersion record disk after) (hbuilt : artifactFromRecord record = .ok artifact) :
    (activeArtifact parquet after.files datasetText keyText = .ok artifact ↔
      record.id ∉ (recordsOf disk.files.manifest).map ManifestRecord.id) ∧
      (record.id ∉ (recordsOf disk.files.manifest).map ManifestRecord.id → Readable parquet after) := by
  have hrecords : recordsOf after.files.manifest = recordsOf disk.files.manifest ++ [record] := by
    rw [hregistered.published.manifest, recordsOf_manifestText]
  have hsound := h.sound.published hregistered.published hregistered.blob
  have hreadable : record.id ∉ (recordsOf disk.files.manifest).map ManifestRecord.id →
      Readable parquet after := by
    intro hid
    refine ⟨hsound, ?_, ?_⟩
    · rw [hrecords]
      exact distinct_concat_iff.mpr ⟨h.distinct, hid, hregistered.newVersion⟩
    · rw [hrecords]
      intro other hother
      rcases List.mem_append.mp hother with hold | hnew
      · exact h.versions other hold
      · rw [List.mem_singleton.mp hnew]
        exact artifactFromRecord_eq_ok_iff.mp ⟨artifact, hbuilt⟩
  refine ⟨?_, hreadable⟩
  constructor
  · intro hactive
    cases hload : loadRecords parquet after.files with
    | error error =>
        unfold activeArtifact at hactive
        rw [hdataset, hkey, hload] at hactive
        cases hactive
    | ok records =>
        obtain ⟨rfl, hdistinct⟩ := hsound.loadRecords_eq_ok_iff.mp hload
        rw [hrecords] at hdistinct
        exact (distinct_concat_iff.mp hdistinct).2.1
  · intro hid
    rw [activeArtifact_eq_ok_iff hdataset hkey (hreadable hid).load, hrecords]
    have hrecordDataset : record.dataset = dataset := congrArg Prod.fst hregistered.version
    have hrecordKey : record.key = key := congrArg (fun v => v.2.1) hregistered.version
    refine ⟨record, ?_, hbuilt⟩
    rw [← hrecordDataset, ← hrecordKey]
    exact lastRecord_concat

theorem Readable.publication {disk : Disk} (h : Readable parquet disk)
    {publication : Publication Frame} (hsucceeds : Succeeds parquet limits disk publication) :
    (BecomesActive parquet limits disk publication ↔ LatestOrNew parquet disk publication) ∧
      (LatestOrNew parquet disk publication →
        Readable parquet (publishStep parquet limits disk publication)) := by
  obtain ⟨artifact, hresult⟩ := hsucceeds
  obtain ⟨dataset, key, dataVersion, hdataset, hkey, hversion, hended⟩ := h.publish_cases limits hresult
  have hlatest : LatestOrNew parquet disk publication ↔
      match findIdempotent (recordsOf disk.files.manifest) dataset key dataVersion
        (.ofContent (parquet.bytes publication.frame)) with
      | some existing => lastRecord (recordsOf disk.files.manifest) dataset key = some existing
      | none => recordId dataset key dataVersion (.ofContent (parquet.bytes publication.frame)) ∉
          (recordsOf disk.files.manifest).map ManifestRecord.id := by
    constructor
    · exact fun hall => hall dataset key dataVersion hdataset hkey hversion
    · intro hthis dataset' key' dataVersion' hdataset' hkey' hversion'
      cases hdataset.symm.trans hdataset'
      cases hkey.symm.trans hkey'
      cases hversion.symm.trans hversion'
      exact hthis
  have hreading : Readable parquet (publishStep parquet limits disk publication) →
      activeArtifact parquet (publishStep parquet limits disk publication).files
        publication.dataset publication.key = .ok artifact →
      BecomesActive parquet limits disk publication := by
    intro hafter hactive other hother
    cases hresult.symm.trans hother
    exact ⟨hactive, hafter.activeArtifacts hdataset hkey hactive⟩
  have hactive : BecomesActive parquet limits disk publication →
      activeArtifact parquet (publishStep parquet limits disk publication).files
        publication.dataset publication.key = .ok artifact :=
    fun hbecomes => (hbecomes artifact hresult).1
  rcases hended with ⟨existing, hfound, hbuilt, hkept⟩ | ⟨record, hregistered, hbuilt⟩
  · have hiff := h.repeated_active_iff hkept hdataset hkey hfound hbuilt
    rw [hlatest, hfound]
    refine ⟨⟨fun hbecomes => hiff.mp (hactive hbecomes), ?_⟩, fun _ => h.kept hkept⟩
    exact fun hlast => hreading (h.kept hkept) (hiff.mpr hlast)
  · obtain ⟨hiff, hafter⟩ := h.registered_active hdataset hkey hregistered hbuilt
    have hid : record.id = recordId dataset key dataVersion
        (.ofContent (parquet.bytes publication.frame)) := by
      rw [ManifestRecord.id, hregistered.sha256,
        show record.dataset = dataset from congrArg Prod.fst hregistered.version,
        show record.key = key from congrArg (fun v => v.2.1) hregistered.version,
        show record.dataVersion = dataVersion from congrArg (fun v => v.2.2) hregistered.version]
    rw [hlatest, hregistered.unrecorded]
    rw [hid] at hiff hafter
    exact ⟨⟨fun hbecomes => hiff.mp (hactive hbecomes),
      fun hfresh => hreading (hafter hfresh) (hiff.mpr hfresh)⟩, hafter⟩

theorem readable_empty : Readable parquet Disk.empty :=
  ⟨sound_empty parquet, distinct_nil, fun _ h => absurd h List.not_mem_nil⟩

variable (parquet)

/-- In a run of successful publications from the empty store each of them becomes active exactly
if a version that was published before is always the last one of its key, and a new record always
has an identity of its own. -/
theorem published_becomes_active_iff (publications : List (Publication Frame)) :
    Runs.StepsMeet (publishStep parquet limits) (fun disk publication =>
        Succeeds parquet limits disk publication ∧ BecomesActive parquet limits disk publication)
      Disk.empty publications ↔
    Runs.StepsMeet (publishStep parquet limits) (fun disk publication =>
        Succeeds parquet limits disk publication ∧ LatestOrNew parquet disk publication)
      Disk.empty publications := by
  refine Runs.stepsMeet_congr _ (Readable parquet) ?_ ?_ _ _ readable_empty
  · rintro disk publication hreadable ⟨hsucceeds, hlatest⟩
    exact (hreadable.publication limits hsucceeds).2 hlatest
  · intro disk publication hreadable
    exact and_congr_right fun hsucceeds => (hreadable.publication limits hsucceeds).1

end

/-! ### A version that is published again -/

def samplePublication (dataVersion : DataVersion) : Publication ℕ where
  environment := sampleEnvironment
  dataset := "research_returns".toList
  key := "000001".toList
  frame := 2
  dataVersion := dataVersion.text

theorem sample_published {disk : Disk} (h : Readable sampleParquet disk) {dataVersion : DataVersion}
    (hversion : Text.strip dataVersion.text ≠ [])
    (hlength : (manifestText (recordsOf disk.files.manifest)).length ≤ 100000)
    (hnew : (.researchReturns, sampleKey, dataVersion) ∉
      (recordsOf disk.files.manifest).map ManifestRecord.logicalVersion)
    (hid : (sampleRecord dataVersion).id ∉ (recordsOf disk.files.manifest).map ManifestRecord.id)
    (hblobs : ∀ held, disk.files.blobs (.ofContent (sampleParquet.bytes 2)) = some held →
      held = sampleParquet.bytes 2) :
    Succeeds sampleParquet sampleLimits disk (samplePublication dataVersion) ∧
      Readable sampleParquet
        (publishStep sampleParquet sampleLimits disk (samplePublication dataVersion)) ∧
      recordsOf (publishStep sampleParquet sampleLimits disk
          (samplePublication dataVersion)).files.manifest =
        recordsOf disk.files.manifest ++ [sampleRecord dataVersion] ∧
      ∀ held, (publishStep sampleParquet sampleLimits disk
          (samplePublication dataVersion)).files.blobs (.ofContent (sampleParquet.bytes 2)) =
        some held → held = sampleParquet.bytes 2 := by
  obtain ⟨record, hregistered, hresult⟩ :=
    sample_registered dataVersion h.load h.sound.fresh hlength hnew hblobs
  have hrecord : record = sampleRecord dataVersion := by
    obtain ⟨rows, schema, hmetadata, rfl⟩ := hregistered.built
    have hread : sampleParquet.metadata (sampleParquet.bytes 2) = some (2, []) := by decide
    rw [hread] at hmetadata
    cases hmetadata
    rfl
  obtain ⟨artifact, hartifact⟩ := artifactFromRecord_eq_ok_iff.mpr
    (show Text.strip (sampleRecord dataVersion).dataVersion.text ≠ [] from hversion)
  rw [hrecord] at hregistered hresult
  refine ⟨⟨artifact, hresult.symm.trans hartifact⟩, ?_, ?_, ?_⟩
  · exact (h.registered_active sampleDataset_validated sampleKey_validated hregistered hartifact).2 hid
  · rw [publishStep, publish, samplePublication, hregistered.published.manifest,
      recordsOf_manifestText]
  · intro held hheld
    cases hbefore : disk.files.blobs (.ofContent (sampleParquet.bytes 2)) with
    | none => exact Option.some.inj (hheld.symm.trans (hregistered.placed hbefore))
    | some content =>
        have hkept := hregistered.published.blobs _ _ hbefore
        rw [hblobs content hbefore] at hkept
        exact Option.some.inj (hheld.symm.trans hkept)

def firstVersion : DataVersion := ⟨"v1".toList, by decide⟩

def secondVersion : DataVersion := ⟨"v2".toList, by decide⟩

def sampleIdentity (dataVersion : DataVersion) : Text :=
  "research_returns".toList ++ Char.ofNat 0 :: ("000001".toList ++ Char.ofNat 0 ::
    (dataVersion.text ++ Char.ofNat 0 ::
      "a550ef19a7538235b826fe7e45ab4efdf8423de4def3672a26c282ff2c44109a".toList))

theorem sampleRecord_id (dataVersion : DataVersion) :
    (sampleRecord dataVersion).id = .ofContent (Text.utf8 (sampleIdentity dataVersion)) := by
  have hdigest : (Digest.ofContent (sampleParquet.bytes 2)).text =
      "a550ef19a7538235b826fe7e45ab4efdf8423de4def3672a26c282ff2c44109a".toList := by decide +kernel
  change recordId .researchReturns sampleKey dataVersion (.ofContent (sampleParquet.bytes 2)) = _
  rw [recordId, hdigest]
  rfl

theorem sampleRecord_id_ne : (sampleRecord secondVersion).id ≠ (sampleRecord firstVersion).id := by
  rw [sampleRecord_id, sampleRecord_id]
  intro hsame
  have htexts : Sha256.hexdigest (Text.utf8 (sampleIdentity secondVersion)) =
      Sha256.hexdigest (Text.utf8 (sampleIdentity firstVersion)) := congrArg Digest.text hsame
  have hfirst : (Sha256.hashNat (Text.utf8 (sampleIdentity secondVersion))).a =
      (Sha256.hashNat (Text.utf8 (sampleIdentity firstVersion))).a :=
    Sha256.first_eq_of_take (Nat.le_refl 8) (congrArg (List.take 8) htexts)
  exact absurd hfirst (by decide +kernel)

theorem sampleText_length (records : List ManifestRecord) (dataVersion : DataVersion) :
    (manifestText (records ++ [sampleRecord dataVersion])).length ≤
      (manifestText records).length + 5001 := by
  have hline := sampleLine_length dataVersion
  rw [manifestText_append, List.length_append, List.length_append, List.length_singleton]
  omega

/-- The first version is published, the second one, and the first one again: each publication
succeeds, and after the last one the second version is still the active one. -/
theorem republished_not_active :
    Runs.StepsMeet (publishStep sampleParquet sampleLimits) (Succeeds sampleParquet sampleLimits)
        Disk.empty [samplePublication firstVersion, samplePublication secondVersion,
          samplePublication firstVersion] ∧
      ¬ Runs.StepsMeet (publishStep sampleParquet sampleLimits)
        (BecomesActive sampleParquet sampleLimits) Disk.empty
        [samplePublication firstVersion, samplePublication secondVersion,
          samplePublication firstVersion] := by
  have hnonblank : ∀ version ∈ [firstVersion, secondVersion], Text.strip version.text ≠ [] := by
    decide
  obtain ⟨hsucceeds, hreadable, hrecords, hblobs⟩ := sample_published readable_empty
    (hnonblank firstVersion (by simp)) (by decide) List.not_mem_nil List.not_mem_nil
    (fun _ h => nomatch h)
  set disk := publishStep sampleParquet sampleLimits Disk.empty (samplePublication firstVersion)
  have hempty : recordsOf Disk.empty.files.manifest = [] := rfl
  rw [hempty, List.nil_append] at hrecords
  have hlength := sampleText_length [] firstVersion
  have hstart : (manifestText []).length = 0 := rfl
  rw [hstart, List.nil_append] at hlength
  obtain ⟨hsucceeds', hreadable', hrecords', hblobs'⟩ := sample_published hreadable
    (hnonblank secondVersion (by simp)) (by rw [hrecords]; omega)
    (by
      rw [hrecords, List.map_singleton, List.mem_singleton]
      exact fun h => absurd (congrArg (fun v => v.2.2) h) (by decide))
    (by
      rw [hrecords, List.map_singleton, List.mem_singleton]
      exact sampleRecord_id_ne) hblobs
  set disk' := publishStep sampleParquet sampleLimits disk (samplePublication secondVersion)
  rw [hrecords] at hrecords'
  have hfound : findIdempotent (recordsOf disk'.files.manifest) .researchReturns sampleKey firstVersion
      (.ofContent (sampleParquet.bytes 2)) = some (sampleRecord firstVersion) := by
    rw [hrecords']
    exact List.find?_cons_of_pos (decide_eq_true ⟨rfl, rfl, rfl, rfl⟩)
  have hrecorded : findIdempotent (recordsOf disk'.files.manifest) .researchReturns sampleKey
      firstVersion (.ofContent (sampleParquet.bytes 2)) ≠ none :=
    Option.ne_none_iff_exists'.mpr ⟨_, hfound⟩
  have hlength' := sampleText_length [sampleRecord firstVersion] secondVersion
  have haccepts : Accepts sampleParquet sampleLimits sampleEnvironment disk'.files.blobs
      (recordsOf disk'.files.manifest) (sampleParquet.bytes 2) .researchReturns sampleKey
      firstVersion := by
    refine sample_accepts ?_ (fun _ _ => hnonblank firstVersion (by simp)) ?_ hblobs'
    · rw [hrecords']
      exact (hlength'.trans (Nat.add_le_add_right hlength 5001)).trans (by decide)
    · intro hnone
      exact (hrecorded hnone).elim
  have hthird : Succeeds sampleParquet sampleLimits disk' (samplePublication firstVersion) := by
    have hreplaced : Replaced sampleParquet sampleLimits sampleEnvironment
        (recordsOf disk'.files.manifest) (sampleParquet.bytes 2) .researchReturns sampleKey
        firstVersion disk'
        (publish sampleParquet sampleLimits disk' (samplePublication firstVersion)).1
        (publish sampleParquet sampleLimits disk' (samplePublication firstVersion)).2 :=
      runReplace_replaced sampleDataset_validated sampleKey_validated
        (DataVersion.ofText?_text firstVersion) hreadable'.load hreadable'.sound.fresh
    unfold Succeeds
    generalize publish sampleParquet sampleLimits disk' (samplePublication firstVersion) =
      ended at hreplaced ⊢
    obtain ⟨result, after⟩ := ended
    cases hreplaced with
    | refused _ reason => exact absurd haccepts reason
    | repeated _ built _ => exact ⟨_, rfl⟩
    | registered registered _ => exact (hrecorded registered.unrecorded).elim
  refine ⟨⟨hsucceeds, hsucceeds', hthird, trivial⟩, ?_⟩
  intro hmeet
  have hbecomes : BecomesActive sampleParquet sampleLimits disk' (samplePublication firstVersion) :=
    hmeet.2.2.1
  -- unfolding the disk would run the publications
  clear_value disk'
  have hlatest : LatestOrNew sampleParquet disk' (samplePublication firstVersion) :=
    (hreadable'.publication sampleLimits hthird).1.mp hbecomes
  have hthis := hlatest .researchReturns sampleKey firstVersion sampleDataset_validated
    sampleKey_validated (DataVersion.ofText?_text firstVersion)
  change (match findIdempotent (recordsOf disk'.files.manifest) .researchReturns sampleKey
      firstVersion (.ofContent (sampleParquet.bytes 2)) with
    | some existing => _
    | none => _) at hthis
  rw [hfound, hrecords'] at hthis
  have hlast : lastRecord ([sampleRecord firstVersion] ++ [sampleRecord secondVersion])
      .researchReturns sampleKey = some (sampleRecord secondVersion) := lastRecord_concat
  have hsame := Option.some.inj (hlast.symm.trans hthis)
  exact absurd (congrArg ManifestRecord.dataVersion hsame) (by decide)

end QuantWorkbench.Storage
