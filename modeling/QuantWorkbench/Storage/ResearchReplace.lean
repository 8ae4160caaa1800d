import QuantWorkbench.Storage.ResearchPublication

/-!
What `replace_dataset` ends with: the artifact of a record that the manifest had or has
got, or an error that leaves the manifest as it was, unless the artifact of the new record
cannot be built.
-/

namespace QuantWorkbench.Storage

open Lib Raising

/-! ### Artifacts -/

theorem not_isSpace_of_isAlphanum {c : Char} (h : c.isAlphanum = true) : Text.isSpace c = false := by
  have hrange : 0x30 ≤ c.toNat ∧ c.toNat ≤ 0x7A := by
    delta Char.isAlphanum Char.isAlpha Char.isUpper Char.isLower Char.isDigit at h
    simp only [Bool.or_eq_true, Bool.and_eq_true, decide_eq_true_eq, UInt32.le_iff_toNat_le] at h
    simp at h
    omega
  have hout : ∀ value ∈ ([0x9, 0xA, 0xB, 0xC, 0xD, 0x1C, 0x1D, 0x1E, 0x1F, 0x20, 0x85, 0xA0,
      0x1680, 0x2000, 0x2001, 0x2002, 0x2003, 0x2004, 0x2005, 0x2006, 0x2007, 0x2008, 0x2009,
      0x200A, 0x2028, 0x2029, 0x202F, 0x205F, 0x3000] : List UInt32),
      ¬ (0x30 ≤ value.toNat ∧ value.toNat ≤ 0x7A) := by decide
  rw [Text.isSpace, decide_eq_false_iff_not]
  exact fun hmem => hout _ hmem hrange

theorem strip_key_ne_nil (key : LogicalKey) : Text.strip key.text ≠ [] := by
  have hpattern := key.pattern
  cases htext : key.text with
  | nil =>
      rw [htext] at hpattern
      cases hpattern
  | cons c rest =>
      rw [htext, isKeyText] at hpattern
      simp only [Bool.and_eq_true] at hpattern
      exact Text.strip_cons_ne_nil _ (not_isSpace_of_isAlphanum hpattern.1.1)

theorem strip_dataset_ne_nil (dataset : ResearchDataset) : Text.strip dataset.value ≠ [] := by
  cases dataset <;> decide

/-- The artifact of a record can be built exactly if its version is not blank. -/
theorem artifactFromRecord_eq_ok_iff {record : ManifestRecord} :
    (∃ artifact, artifactFromRecord record = .ok artifact) ↔
      Text.strip record.dataVersion.text ≠ [] := by
  unfold artifactFromRecord
  rw [dif_neg (strip_dataset_ne_nil _), dif_neg (strip_key_ne_nil _)]
  by_cases hversion : Text.strip record.dataVersion.text = []
  · rw [dif_pos hversion]
    simp [hversion]
  · rw [dif_neg hversion]
    simp [hversion]

/-! ### Blobs -/

section

variable {Frame : Type} {parquet : Parquet Frame}

theorem validateBlob_eq_ok_iff {files : DataFiles} {record : ManifestRecord} :
    validateBlob parquet files record = .ok () ↔
      ∃ content schema, files.blobs record.sha256 = some content ∧
        parquet.metadata content = some (record.rowCount, schema) ∧
        content.length = record.sizeBytes ∧ Digest.ofContent content = record.sha256 ∧
        Digest.ofContent schema = record.schemaFingerprint := by
  unfold validateBlob
  constructor
  · intro h
    obtain ⟨content, hcontent, h⟩ := bind_eq_ok_iff.mp h
    obtain ⟨⟨rows, schema⟩, hmetadata, h⟩ := bind_eq_ok_iff.mp h
    obtain ⟨hsize, hdigest, hrows, hschema⟩ := require_eq_ok_iff.mp h
    cases hrows
    exact ⟨content, schema, orRaise_eq_ok_iff.mp hcontent, orRaise_eq_ok_iff.mp hmetadata, hsize,
      hdigest, hschema⟩
  · rintro ⟨content, schema, hcontent, hmetadata, hsize, hdigest, hschema⟩
    refine bind_eq_ok_iff.mpr ⟨content, orRaise_eq_ok_iff.mpr hcontent, ?_⟩
    refine bind_eq_ok_iff.mpr ⟨_, orRaise_eq_ok_iff.mpr hmetadata, ?_⟩
    exact require_eq_ok_iff.mpr ⟨hsize, hdigest, rfl, hschema⟩

/-- A valid blob stays valid while no blob is lost. -/
theorem validateBlob_mono {files files' : DataFiles} {record : ManifestRecord}
    (hblobs : ∀ digest content, files.blobs digest = some content →
      files'.blobs digest = some content)
    (h : validateBlob parquet files record = .ok ()) :
    validateBlob parquet files' record = .ok () := by
  obtain ⟨content, schema, hcontent, hrest⟩ := validateBlob_eq_ok_iff.mp h
  exact validateBlob_eq_ok_iff.mpr ⟨content, schema, hblobs _ _ hcontent, hrest⟩

theorem kept_setStage (disk : Disk) (id : ℕ) (content : Option Content) :
    Kept disk (disk.withFiles (disk.files.setStage id content)) :=
  ⟨rfl, fun _ _ h => h, Nat.le_refl _, fun hfresh => hfresh⟩

/-- A digest without a blob may get one. -/
theorem kept_setBlob {disk : Disk} {digest : Digest} (content : Option Content)
    (h : disk.files.blobs digest = none) :
    Kept disk (disk.withFiles (disk.files.setBlob digest content)) := by
  refine ⟨rfl, ?_, Nat.le_refl _, fun hfresh => hfresh⟩
  intro other held hheld
  have hne : other ≠ digest := by
    intro hsame
    rw [hsame, h] at hheld
    cases hheld
  exact (Function.update_of_ne hne _ _).trans hheld

variable {environment : Environment} {s : Session}

theorem stageFrame_ends {stage stageMarker : ℕ} {frame : Frame}
    (hmarker : s.disk.markers.get? stageMarker = some ⟨stageMarker, .stage stage, none⟩) :
    Ends (stageFrame parquet environment stage stageMarker frame) s
      (fun expected s' => expected = .of (parquet.bytes frame) ∧ Kept s.disk s'.disk ∧
        s'.disk.files.stages stage = some (parquet.bytes frame) ∧
        s'.disk.files.blobs = s.disk.files.blobs ∧ s'.locals.rollback = s.locals.rollback)
      (fun _ s' => Kept s.disk s'.disk ∧ ¬ environment.Quiet) := by
  unfold stageFrame
  apply invoke_bind_ends
  · intro s1 hdisk1 hlocals1
    apply changeDisk_bind_ends
    intro s2 hdisk2 hlocals2
    have hcontent : s2.disk.files.content (.stage stage) = some (parquet.bytes frame) := by
      rw [hdisk2]
      exact Function.update_self _ _ _
    apply capture_bind_ends hcontent
    apply setLocals_bind_ends
    intro s3 hdisk3 hlocals3
    have hstaged : s3.disk = s.disk.withFiles
        (s.disk.files.setStage stage (some (parquet.bytes frame))) := by
      rw [hdisk3, hdisk2, hdisk1]
    have hkept3 : Kept s.disk s3.disk := by
      rw [hstaged]
      exact kept_setStage _ _ _
    have hsealable : s3.disk.markers.get? stageMarker =
        some ⟨stageMarker, .stage stage, none⟩ := by
      rw [hstaged]
      exact hmarker
    apply invoke_bind_ends
    · intro s4 hdisk4 hlocals4
      rw [← hdisk3, ← hdisk4] at hcontent
      rw [← hdisk4] at hsealable
      refine ((sealOwnedMarker_ends hsealable hcontent rfl).imp (fun _ _ h => h) ?_).bind ?_
      · rintro _ s5 ⟨hkept, hquiet⟩
        rw [hdisk4] at hkept
        exact ⟨hkept3.trans hkept, hquiet⟩
      · rintro _ s5 ⟨hlocals5, hdisk5⟩
        rw [hdisk4] at hdisk5
        refine ends_pure ⟨rfl, ?_, ?_, ?_, ?_⟩
        · rw [hdisk5]
          exact hkept3.trans (Kept.of_files rfl (Nat.le_refl _))
        · rw [hdisk5, hstaged]
          exact Function.update_self _ _ _
        · rw [hdisk5, hstaged]
          rfl
        · rw [hlocals5, hlocals4, hlocals3, hlocals2, hlocals1]
    · intro _ s4 hdisk4 hquiet
      rw [hdisk4]
      exact ⟨hkept3, hquiet⟩
  · intro _ s1 hdisk1 hquiet
    rw [hdisk1]
    exact ⟨Kept.refl _, hquiet⟩

/-- What a record says about content, apart from where it is. -/
structure Describes (parquet : Parquet Frame) (record : ManifestRecord) (content : Content) :
    Prop where
  size : content.length = record.sizeBytes
  digest : Digest.ofContent content = record.sha256
  metadata : ∃ schema, parquet.metadata content = some (record.rowCount, schema) ∧
    Digest.ofContent schema = record.schemaFingerprint

theorem Describes.validateBlob {files : DataFiles} {record : ManifestRecord} {content : Content}
    (h : Describes parquet record content) (hblob : files.blobs record.sha256 = some content) :
    validateBlob parquet files record = .ok () := by
  obtain ⟨schema, hmetadata, hschema⟩ := h.metadata
  exact validateBlob_eq_ok_iff.mpr
    ⟨content, schema, hblob, hmetadata, h.size, h.digest, hschema⟩

theorem renameToBlob_bind_ends {α : Type} {stage : ℕ} {digest : Digest} {content : Content}
    {next : Unit → StoreM α} {post : α → Session → Prop}
    {fails : ResearchStoreError → Session → Prop}
    (hstage : s.disk.files.stages stage = some content)
    (h : ∀ s' : Session, s'.disk = s.disk.withFiles
        ((s.disk.files.setBlob digest (some content)).setStage stage none) →
      s'.locals = s.locals → Ends (next ()) s' post fails) :
    Ends (renameToBlob stage digest >>= next) s post fails := by
  have hrenamed : Ends (renameToBlob stage digest) s (fun _ s' => s'.disk = s.disk.withFiles
      ((s.disk.files.setBlob digest (some content)).setStage stage none) ∧
      s'.locals = s.locals) fails := by
    unfold renameToBlob
    apply ends_read_bind
    refine ends_check_bind (fun _ => ends_change ⟨?_, rfl⟩) fun hnot => ?_
    · rw [← hstage]
    · rw [hstage] at hnot
      exact absurd (Option.some_ne_none content) hnot
  refine hrenamed.bind ?_
  rintro _ s' ⟨hdisk, hlocals⟩
  exact h s' hdisk hlocals

theorem placeBlob_ends {stage : ℕ} {record : ManifestRecord} {content : Content}
    (hstage : s.disk.files.stages stage = some content) (hdescribes : Describes parquet record content) :
    Ends (placeBlob parquet environment stage record) s
      (fun _ s' => Kept s.disk s'.disk ∧ validateBlob parquet s'.disk.files record = .ok () ∧
        (s.disk.files.blobs record.sha256 = none →
          s'.disk.files.blobs record.sha256 = some content) ∧
        s'.locals.rollback = s.locals.rollback)
      (fun _ s' => Kept s.disk s'.disk ∧
        ¬ (environment.Quiet ∧ ∀ held, s.disk.files.blobs record.sha256 = some held →
          held = content)) := by
  unfold placeBlob
  apply ends_read_bind
  cases hblob : s.disk.files.blobs record.sha256 with
  | some held =>
      refine ends_lift (fun _ hvalid => ⟨Kept.refl _, hvalid, ?_, rfl⟩)
        fun _ herror => ⟨Kept.refl _, ?_⟩
      · rintro ⟨⟩
      rintro ⟨_, hsame⟩
      cases hsame held rfl
      rw [hdescribes.validateBlob hblob] at herror
      cases herror
  | none =>
      refine ((createOwnedMarker_ends _).imp (fun _ _ h => h) ?_).bind ?_
      · exact fun _ s1 h => ⟨h.1, fun hquiet => h.2 hquiet.1⟩
      rintro blobMarker s1 ⟨_, hlocals1, hdisk1⟩
      have hkept1 : Kept s.disk s1.disk := by
        rw [hdisk1]
        exact Kept.of_files rfl (Nat.le_succ _)
      apply setLocals_bind_ends
      intro s2 hdisk2 hlocals2
      apply invoke_bind_ends
      · intro s3 hdisk3 hlocals3
        have hdisk : s3.disk = s1.disk := hdisk3.trans hdisk2
        have hstage3 : s3.disk.files.stages stage = some content := by
          rw [hdisk, hdisk1]
          exact hstage
        apply renameToBlob_bind_ends hstage3
        intro s4 hdisk4 hlocals4
        rw [hdisk] at hdisk4
        have hkept4 : Kept s.disk s4.disk := by
          refine hkept1.trans ?_
          rw [hdisk4]
          refine Kept.trans (kept_setBlob (some content) ?_) (kept_setStage _ stage none)
          rw [hdisk1]
          exact hblob
        have hplaced : s4.disk.files.blobs record.sha256 = some content := by
          rw [hdisk4]
          exact Function.update_self _ _ _
        have hsealable : s4.disk.markers.get? blobMarker =
            some ⟨blobMarker, .orphanBlob record.sha256, none⟩ := by
          rw [hdisk4, hdisk1]
          exact Disk.get?_putMarker _ ⟨blobMarker, .orphanBlob record.sha256, none⟩
        apply invoke_bind_ends
        · intro s5 hdisk5 hlocals5
          apply invoke_bind_ends
          · intro s6 hdisk6 hlocals6
            rw [← hdisk5, ← hdisk6] at hplaced hsealable
            have haccepts : (OwnedTarget.orphanBlob record.sha256).accepts content = true :=
              decide_eq_true hdescribes.digest.symm
            refine (sealOwnedMarker_ends hsealable hplaced haccepts).imp ?_ ?_
            · rintro _ s7 ⟨hlocals7, hdisk7⟩
              rw [hdisk6, hdisk5] at hdisk7
              rw [hdisk6, hdisk5] at hplaced
              refine ⟨?_, ?_, ?_, ?_⟩
              · rw [hdisk7]
                exact hkept4.trans (Kept.of_files rfl (Nat.le_refl _))
              · rw [hdisk7]
                exact hdescribes.validateBlob hplaced
              · rw [hdisk7]
                exact fun _ => hplaced
              · rw [hlocals7, hlocals6, hlocals5, hlocals4, hlocals3, hlocals2, hlocals1]
            · rintro _ s7 ⟨hkept, hquiet⟩
              rw [hdisk6, hdisk5] at hkept
              exact ⟨hkept4.trans hkept, fun h => hquiet h.1⟩
          · intro _ s6 hdisk6 hquiet
            rw [hdisk6, hdisk5]
            exact ⟨hkept4, fun h => hquiet h.1⟩
        · intro _ s5 hdisk5 hquiet
          rw [hdisk5]
          exact ⟨hkept4, fun h => hquiet h.1⟩
      · intro _ s3 hdisk3 hquiet
        rw [hdisk3, hdisk2]
        exact ⟨hkept1, fun h => hquiet h.1⟩

/-! ### The whole call -/

/-- Nothing stands in the way of the content under its logical version. -/
structure Accepts (parquet : Parquet Frame) (limits : StorageLimits) (environment : Environment)
    (blobs : Digest → Option Content) (records : List ManifestRecord) (content : Content)
    (dataset : ResearchDataset) (key : LogicalKey) (dataVersion : DataVersion) : Prop where
  serves : environment.Serves limits
  readable : parquet.metadata content ≠ none
  recorded : ∀ existing,
    findIdempotent records dataset key dataVersion (.ofContent content) = some existing →
      enforceLimits limits environment content.length 0 = .ok () ∧ Text.strip dataVersion.text ≠ []
  unrecorded : findIdempotent records dataset key dataVersion (.ofContent content) = none →
    (dataset, key, dataVersion) ∉ records.map ManifestRecord.logicalVersion
  room : ∀ rows schema, parquet.metadata content = some (rows, schema) →
    enforceLimits limits environment content.length (manifestPeakReserve records
      (newRecord environment (.of content) rows schema dataset key dataVersion)) = .ok ()
  blob : ∀ held, blobs (.ofContent content) = some held → held = content

/-- The manifest has got a record of the content under its logical version. -/
structure Registered (parquet : Parquet Frame) (environment : Environment)
    (records : List ManifestRecord) (content : Content)
    (dataset : ResearchDataset) (key : LogicalKey) (dataVersion : DataVersion)
    (record : ManifestRecord) (before after : Disk) : Prop where
  unrecorded : findIdempotent records dataset key dataVersion (.ofContent content) = none
  newVersion : record.logicalVersion ∉ records.map ManifestRecord.logicalVersion
  built : ∃ rows schema, parquet.metadata content = some (rows, schema) ∧
    record = newRecord environment (.of content) rows schema dataset key dataVersion
  published : Published (manifestText (records ++ [record])) before after
  blob : validateBlob parquet after.files record = .ok ()
  placed : before.files.blobs (.ofContent content) = none →
    after.files.blobs (.ofContent content) = some content

theorem Registered.version {records : List ManifestRecord} {content : Content}
    {dataset : ResearchDataset} {key : LogicalKey} {dataVersion : DataVersion}
    {record : ManifestRecord} {before after : Disk}
    (h : Registered parquet environment records content dataset key dataVersion record before after) :
    record.logicalVersion = (dataset, key, dataVersion) := by
  obtain ⟨_, _, _, rfl⟩ := h.built
  rfl

theorem Registered.sha256 {records : List ManifestRecord} {content : Content}
    {dataset : ResearchDataset} {key : LogicalKey} {dataVersion : DataVersion}
    {record : ManifestRecord} {before after : Disk}
    (h : Registered parquet environment records content dataset key dataVersion record before after) :
    record.sha256 = .ofContent content := by
  obtain ⟨_, _, _, rfl⟩ := h.built
  rfl

theorem findIdempotent_eq_some {records : List ManifestRecord} {dataset : ResearchDataset}
    {key : LogicalKey} {dataVersion : DataVersion} {digest : Digest} {existing : ManifestRecord}
    (h : findIdempotent records dataset key dataVersion digest = some existing) :
    existing ∈ records ∧ existing.logicalVersion = (dataset, key, dataVersion) ∧
      existing.sha256 = digest := by
  have hfound := List.find?_some h
  obtain ⟨hdataset, hkey, hversion, hdigest⟩ := of_decide_eq_true hfound
  refine ⟨List.mem_of_find?_eq_some h, ?_, hdigest⟩
  rw [ManifestRecord.logicalVersion, hdataset, hkey, hversion]

/-- The rest of the call on a staged frame. -/
theorem publishStage_ends {limits : StorageLimits} {records : List ManifestRecord} {stage : ℕ}
    {content : Content} {dataset : ResearchDataset} {key : LogicalKey} {dataVersion : DataVersion}
    (hstage : s.disk.files.stages stage = some content) (hfresh : Fresh s.disk)
    (hrollback : s.locals.rollback = none) :
    Ends (publishStage parquet limits environment records stage (.of content) dataset key dataVersion) s
      (fun artifact s' =>
        (∃ existing, findIdempotent records dataset key dataVersion (.ofContent content) =
            some existing ∧ artifactFromRecord existing = .ok artifact ∧ Kept s.disk s'.disk) ∨
        ∃ record, Registered parquet environment records content dataset key dataVersion record s.disk s'.disk ∧
          artifactFromRecord record = .ok artifact)
      (fun error s' =>
        (Kept s.disk s'.disk ∧ ¬ Accepts parquet limits environment s.disk.files.blobs records content
          dataset key dataVersion) ∨
        ∃ record, Registered parquet environment records content dataset key dataVersion record s.disk s'.disk ∧
          artifactFromRecord record = .error error) := by
  unfold publishStage
  apply ends_read_bind
  rw [hstage, Option.bind_some]
  apply ends_lift_bind
  · rintro ⟨rows, schema⟩ hmetadata
    rw [orRaise_eq_ok_iff] at hmetadata
    cases hfound : findIdempotent records dataset key dataVersion (FileSeal.of content).sha256 with
    | some existing =>
        apply ends_lift_bind
        · rintro _ hlimits
          refine ends_lift (fun artifact hartifact => Or.inl ⟨existing, hfound, hartifact, Kept.refl _⟩) ?_
          intro error herror
          refine Or.inl ⟨Kept.refl _, fun haccepts => ?_⟩
          obtain ⟨_, hversion, _⟩ := findIdempotent_eq_some hfound
          have hsame : existing.dataVersion = dataVersion := congrArg (fun v => v.2.2) hversion
          obtain ⟨artifact, hartifact⟩ := artifactFromRecord_eq_ok_iff.mpr
            (hsame ▸ (haccepts.recorded existing hfound).2)
          rw [hartifact] at herror
          cases herror
        · intro error herror
          refine Or.inl ⟨Kept.refl _, fun haccepts => ?_⟩
          rw [show enforceLimits limits environment (FileSeal.of content).sizeBytes 0 = .ok () from
            (haccepts.recorded existing hfound).1] at herror
          cases herror
    | none =>
        refine ends_check_bind ?_ ?_
        · intro hnew
          have hdescribes : Describes parquet
              (newRecord environment (.of content) rows schema dataset key dataVersion) content :=
            ⟨rfl, rfl, schema, hmetadata, rfl⟩
          apply ends_lift_bind
          · rintro _ _
            refine ((placeBlob_ends hstage hdescribes).imp (fun _ _ h => h) ?_).bind ?_
            · rintro _ s1 ⟨hkept, hnot⟩
              exact Or.inl ⟨hkept, fun haccepts => hnot ⟨haccepts.serves.quiet, haccepts.blob⟩⟩
            rintro _ s1 ⟨hkept1, hvalid1, hplaced1, hlocals1⟩
            refine ((publishManifest_ends (hkept1.fresh hfresh) (hlocals1.trans hrollback)).imp
              (fun _ _ h => h) ?_).bind ?_
            · rintro _ s2 ⟨hkept, hnot⟩
              exact Or.inl ⟨hkept1.trans hkept, fun haccepts => hnot haccepts.serves⟩
            intro _ s2 hpublished
            apply setLocals_bind_ends
            intro s3 hdisk3 _
            rw [← hdisk3] at hpublished
            have hregistered : Registered parquet environment records content dataset key dataVersion
                (newRecord environment (.of content) rows schema dataset key dataVersion)
                s.disk s3.disk :=
              ⟨hfound, hnew, ⟨rows, schema, hmetadata, rfl⟩, hpublished.after hkept1,
                validateBlob_mono hpublished.blobs hvalid1,
                fun hnone => hpublished.blobs _ _ (hplaced1 hnone)⟩
            exact ends_lift (fun _ hartifact => Or.inr ⟨_, hregistered, hartifact⟩)
              fun _ herror => Or.inr ⟨_, hregistered, herror⟩
          · intro error herror
            refine Or.inl ⟨Kept.refl _, fun haccepts => ?_⟩
            cases (haccepts.room rows schema hmetadata).symm.trans herror
        · intro hold
          exact Or.inl ⟨Kept.refl _, fun haccepts => hold (haccepts.unrecorded hfound)⟩
  · intro error herror
    refine Or.inl ⟨Kept.refl _, fun haccepts => haccepts.readable ?_⟩
    cases hmetadata : parquet.metadata content with
    | none => rfl
    | some found =>
        rw [hmetadata] at herror
        cases herror

theorem retireStage_ends (stage stageMarker : ℕ) :
    Ends (retireStage stage stageMarker) s (fun _ s' => Kept s.disk s'.disk) (fun _ _ => False) := by
  unfold retireStage
  apply ends_read_bind
  apply changeDisk_bind_ends
  intro s1 hdisk1 _
  have hkept1 : Kept s.disk s1.disk := by
    rw [hdisk1]
    exact s.disk.safeUnlinkOwnedFile_kept (fun _ h => by cases h) _ _
  split
  · exact ends_change (hkept1.trans (s1.disk.safeRetireOwnedMarker_kept _))
  · exact ends_pure hkept1

/-- How a call on checked arguments ends. -/
inductive Replaced (parquet : Parquet Frame) (limits : StorageLimits) (environment : Environment)
    (records : List ManifestRecord) (content : Content) (dataset : ResearchDataset)
    (key : LogicalKey) (dataVersion : DataVersion) (before : Disk) :
    Except ResearchStoreError ResearchArtifact → Disk → Prop
  | refused {error : ResearchStoreError} {after : Disk} (kept : Kept before after)
      (reason : ¬ Accepts parquet limits environment before.files.blobs records content dataset key
        dataVersion) :
      Replaced parquet limits environment records content dataset key dataVersion before
        (.error error) after
  | repeated {existing : ManifestRecord} {artifact : ResearchArtifact} {after : Disk}
      (found : findIdempotent records dataset key dataVersion (.ofContent content) = some existing)
      (built : artifactFromRecord existing = .ok artifact) (kept : Kept before after) :
      Replaced parquet limits environment records content dataset key dataVersion before
        (.ok artifact) after
  | registered {record : ManifestRecord} {result : Except ResearchStoreError ResearchArtifact}
      {after : Disk}
      (registered : Registered parquet environment records content dataset key dataVersion record before after)
      (built : artifactFromRecord record = result) :
      Replaced parquet limits environment records content dataset key dataVersion before result after

theorem Registered.between {records : List ManifestRecord} {content : Content}
    {dataset : ResearchDataset} {key : LogicalKey} {dataVersion : DataVersion}
    {record : ManifestRecord} {first second third fourth : Disk} (h : Kept first second)
    (hblobs : second.files.blobs = first.files.blobs)
    (h' : Registered parquet environment records content dataset key dataVersion record second third)
    (h'' : Kept third fourth) :
    Registered parquet environment records content dataset key dataVersion record first fourth where
  unrecorded := h'.unrecorded
  newVersion := h'.newVersion
  built := h'.built
  published := (h'.published.after h).kept h''
  blob := validateBlob_mono h''.blobs h'.blob
  placed hnone := h''.blobs _ _ (h'.placed (hblobs ▸ hnone))

theorem replaceChecked_ends {limits : StorageLimits} {records : List ManifestRecord}
    {dataset : ResearchDataset} {key : LogicalKey} {dataVersion : DataVersion} {frame : Frame}
    (hload : loadRecords parquet s.disk.files = .ok records) (hfresh : Fresh s.disk)
    (hrollback : s.locals.rollback = none) :
    Ends (replaceChecked parquet limits environment dataset key frame dataVersion) s
      (fun artifact s' => Replaced parquet limits environment records (parquet.bytes frame) dataset
        key dataVersion s.disk (.ok artifact) s'.disk)
      (fun error s' => Replaced parquet limits environment records (parquet.bytes frame) dataset
        key dataVersion s.disk (.error error) s'.disk) := by
  unfold replaceChecked
  apply ends_read_bind
  rw [hload]
  apply ends_lift_bind
  · rintro _ ⟨⟩
    apply newId_bind_ends
    intro s1 hdisk1 hlocals1
    have hkept1 : Kept s.disk s1.disk := by
      rw [hdisk1]
      exact Kept.of_files rfl (Nat.le_succ _)
    refine ((createOwnedMarker_ends _).imp (fun _ _ h => h) ?_).bind ?_
    · rintro _ s2 ⟨hkept, hquiet⟩
      exact .refused (hkept1.trans hkept) fun haccepts => hquiet haccepts.serves.quiet
    rintro stageMarker s2 ⟨_, hlocals2, hdisk2⟩
    have hkept2 : Kept s.disk s2.disk := by
      refine hkept1.trans ?_
      rw [hdisk2]
      exact Kept.of_files rfl (Nat.le_succ _)
    have hblobs2 : s2.disk.files.blobs = s.disk.files.blobs := by
      rw [hdisk2, hdisk1]
      rfl
    have hallocated : s2.disk.markers.get? stageMarker =
        some ⟨stageMarker, .stage s.disk.nextId, none⟩ := by
      rw [hdisk2]
      exact Disk.get?_putMarker _ ⟨stageMarker, .stage s.disk.nextId, none⟩
    have hbody : Ends (do
        let expected ← stageFrame parquet environment s.disk.nextId stageMarker frame
        publishStage parquet limits environment records s.disk.nextId expected dataset key
          dataVersion) s2
        (fun artifact s' => Replaced parquet limits environment records (parquet.bytes frame)
          dataset key dataVersion s.disk (.ok artifact) s'.disk)
        (fun error s' => Replaced parquet limits environment records (parquet.bytes frame)
          dataset key dataVersion s.disk (.error error) s'.disk) := by
      refine ((stageFrame_ends hallocated).imp (fun _ _ h => h) ?_).bind ?_
      · rintro _ s3 ⟨hkept, hquiet⟩
        exact .refused (hkept2.trans hkept) fun haccepts => hquiet haccepts.serves.quiet
      rintro _ s3 ⟨rfl, hkept3, hstage3, hblobs3, hlocals3⟩
      have hkept := hkept2.trans hkept3
      have hblobs := hblobs3.trans hblobs2
      have hstart : s3.locals.rollback = none := by rw [hlocals3, hlocals2, hlocals1, hrollback]
      refine (publishStage_ends hstage3 (hkept.fresh hfresh) hstart).imp ?_ ?_
      · rintro artifact s4 (⟨existing, hfound, hbuilt, hkept4⟩ | ⟨record, hregistered, hbuilt⟩)
        · exact .repeated hfound hbuilt (hkept.trans hkept4)
        · exact .registered (hregistered.between hkept hblobs (Kept.refl _)) hbuilt
      · rintro error s4 (⟨hkept4, hnot⟩ | ⟨record, hregistered, hbuilt⟩)
        · rw [hblobs] at hnot
          exact .refused (hkept.trans hkept4) hnot
        · exact .registered (hregistered.between hkept hblobs (Kept.refl _)) hbuilt
    have hretired : ∀ {result : Except ResearchStoreError ResearchArtifact} {disk disk' : Disk},
        Replaced parquet limits environment records (parquet.bytes frame) dataset key dataVersion
          s.disk result disk → Kept disk disk' →
        Replaced parquet limits environment records (parquet.bytes frame) dataset key dataVersion
          s.disk result disk' := by
      intro result disk disk' hreplaced hkept
      cases hreplaced with
      | refused hbefore hnot => exact .refused (hbefore.trans hkept) hnot
      | repeated hfound hbuilt hbefore => exact .repeated hfound hbuilt (hbefore.trans hkept)
      | registered hregistered hbuilt =>
          exact .registered (hregistered.between (Kept.refl _) rfl hkept) hbuilt
    refine hbody.andFinally ?_ ?_
    · exact fun _ s3 hreplaced => (retireStage_ends _ _).imp
        (fun _ _ hkept => hretired hreplaced hkept) fun _ _ h => h.elim
    · exact fun _ s3 hreplaced => (retireStage_ends _ _).imp
        (fun _ _ hkept => hretired hreplaced hkept) fun _ _ h => h.elim
  · rintro _ ⟨⟩

/-- A call whose arguments are checked, and whose manifest is loaded, ends in one of the three
ways. -/
theorem runReplace_replaced {limits : StorageLimits} {records : List ManifestRecord} {disk : Disk}
    {dataset : ResearchDataset} {key : LogicalKey} {dataVersion : DataVersion}
    {datasetText keyText versionText : Text} {frame : Frame}
    (hdataset : validateDataset datasetText = .ok dataset) (hkey : validateKey keyText = .ok key)
    (hversion : DataVersion.ofText? versionText = some dataVersion)
    (hload : loadRecords parquet disk.files = .ok records) (hfresh : Fresh disk) :
    Replaced parquet limits environment records (parquet.bytes frame) dataset key dataVersion disk
      (runReplace parquet limits environment datasetText keyText frame versionText disk).1
      (runReplace parquet limits environment datasetText keyText frame versionText disk).2 := by
  have hends : Ends (replaceDataset parquet limits environment datasetText keyText frame versionText)
      ⟨disk, {}, fun _ => 0⟩
      (fun artifact s' => Replaced parquet limits environment records (parquet.bytes frame) dataset
        key dataVersion disk (.ok artifact) s'.disk)
      (fun error s' => Replaced parquet limits environment records (parquet.bytes frame) dataset
        key dataVersion disk (.error error) s'.disk) := by
    unfold replaceDataset
    rw [hdataset, hkey, hversion]
    apply ends_lift_bind
    · rintro _ ⟨⟩
      apply ends_lift_bind
      · rintro _ ⟨⟩
        apply ends_lift_bind
        · rintro _ ⟨⟩
          exact replaceChecked_ends hload hfresh rfl
        · rintro _ ⟨⟩
      · rintro _ ⟨⟩
    · rintro _ ⟨⟩
  unfold runReplace
  cases hrun : replaceDataset parquet limits environment datasetText keyText frame versionText
      ⟨disk, {}, fun _ => 0⟩ with
  | mk result s' =>
      cases result with
      | ok artifact => exact hends.of_ok hrun
      | error error => exact hends.of_error hrun

/-- A call is refused at its checks, or by a manifest that is not loaded, or it ends in one of
the three ways. -/
theorem runReplace_cases (parquet : Parquet Frame) (limits : StorageLimits)
    (environment : Environment) {disk : Disk} (datasetText keyText : Text)
    (frame : Frame) (versionText : Text) (hfresh : Fresh disk) :
    (∃ error, runReplace parquet limits environment datasetText keyText frame versionText disk =
      (.error error, disk)) ∨
    ∃ records dataset key dataVersion, validateDataset datasetText = .ok dataset ∧
      validateKey keyText = .ok key ∧ DataVersion.ofText? versionText = some dataVersion ∧
      loadRecords parquet disk.files = .ok records ∧
      Replaced parquet limits environment records (parquet.bytes frame) dataset key dataVersion disk
        (runReplace parquet limits environment datasetText keyText frame versionText disk).1
        (runReplace parquet limits environment datasetText keyText frame versionText disk).2 := by
  cases hdataset : validateDataset datasetText with
  | error error =>
      left
      refine ⟨error, ?_⟩
      unfold runReplace replaceDataset
      rw [hdataset]
      rfl
  | ok dataset =>
      cases hkey : validateKey keyText with
      | error error =>
          left
          refine ⟨error, ?_⟩
          unfold runReplace replaceDataset
          rw [hdataset, hkey]
          rfl
      | ok key =>
          cases hversion : DataVersion.ofText? versionText with
          | none =>
              left
              refine ⟨.invalidValue "data_version is invalid", ?_⟩
              unfold runReplace replaceDataset
              rw [hdataset, hkey, hversion]
              rfl
          | some dataVersion =>
              cases hload : loadRecords parquet disk.files with
              | error error =>
                  left
                  refine ⟨error, ?_⟩
                  unfold runReplace replaceDataset replaceChecked
                  rw [hdataset, hkey, hversion]
                  change (fun r : Except ResearchStoreError ResearchArtifact × Session =>
                    (r.1, r.2.disk)) ((lift (loadRecords parquet disk.files) >>= _) _) = _
                  rw [hload]
                  rfl
              | ok records =>
                  right
                  exact ⟨records, dataset, key, dataVersion, rfl, rfl, rfl, rfl,
                    runReplace_replaced hdataset hkey hversion hload hfresh⟩

end

end QuantWorkbench.Storage
