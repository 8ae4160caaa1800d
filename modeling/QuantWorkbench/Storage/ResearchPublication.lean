import QuantWorkbench.Storage.ResearchDataStore

/-!
What each part of `replace_dataset` does to the disk. Up to the moment at which the new
manifest takes its place, a part that raises leaves the manifest and the blobs as they
are, and no part raises unless an operation fails.
-/

namespace QuantWorkbench.Storage

open Lib Raising

/-- No operation of the call fails. -/
def Environment.Quiet (environment : Environment) : Prop :=
  ∀ point n, environment.faults point n = false

/-- The names that are still to be given belong to no file. -/
def Fresh (disk : Disk) : Prop := ∀ id, disk.nextId ≤ id → disk.files.manifestTemps id = none

/-- The manifest is as it was, and no blob is lost or overwritten. -/
structure Kept (before after : Disk) : Prop where
  manifest : after.files.manifest = before.files.manifest
  blobs : ∀ digest content, before.files.blobs digest = some content →
    after.files.blobs digest = some content
  nextId : before.nextId ≤ after.nextId
  fresh : Fresh before → Fresh after

namespace Kept

variable {first second third : Disk}

theorem refl (disk : Disk) : Kept disk disk := ⟨rfl, fun _ _ h => h, Nat.le_refl _, id⟩

theorem trans (h : Kept first second) (h' : Kept second third) : Kept first third where
  manifest := h'.manifest.trans h.manifest
  blobs digest content hcontent := h'.blobs digest content (h.blobs digest content hcontent)
  nextId := h.nextId.trans h'.nextId
  fresh hfresh := h'.fresh (h.fresh hfresh)

theorem of_files (hfiles : second.files = first.files) (hid : first.nextId ≤ second.nextId) :
    Kept first second where
  manifest := by rw [hfiles]
  blobs _ _ h := by rwa [hfiles]
  nextId := hid
  fresh hfresh id h := by
    rw [hfiles]
    exact hfresh id (hid.trans h)

end Kept

/-! ### Files and markers -/

namespace Disk

variable (disk : Disk)

@[simp] theorem withFiles_files (files : DataFiles) : (disk.withFiles files).files = files := rfl
@[simp] theorem withFiles_markers (files : DataFiles) :
    (disk.withFiles files).markers = disk.markers := rfl
@[simp] theorem withFiles_nextId (files : DataFiles) :
    (disk.withFiles files).nextId = disk.nextId := rfl
@[simp] theorem nameGiven_files : disk.nameGiven.files = disk.files := rfl
@[simp] theorem nameGiven_markers : disk.nameGiven.markers = disk.markers := rfl
@[simp] theorem nameGiven_nextId : disk.nameGiven.nextId = disk.nextId + 1 := rfl
@[simp] theorem putMarker_files (ownership : OwnershipMarker) :
    (disk.putMarker ownership).files = disk.files := rfl
@[simp] theorem putMarker_nextId (ownership : OwnershipMarker) :
    (disk.putMarker ownership).nextId = disk.nextId := rfl
@[simp] theorem removeMarker_files (markerId : ℕ) :
    (disk.removeMarker markerId).files = disk.files := rfl
@[simp] theorem removeMarker_nextId (markerId : ℕ) :
    (disk.removeMarker markerId).nextId = disk.nextId := rfl

theorem get?_putMarker (ownership : OwnershipMarker) :
    (disk.putMarker ownership).markers.get? ownership.markerId = some ownership :=
  disk.markers.get?_put ownership

theorem get?_putMarker_of_ne {ownership : OwnershipMarker} {markerId : ℕ}
    (h : markerId ≠ ownership.markerId) :
    (disk.putMarker ownership).markers.get? markerId = disk.markers.get? markerId :=
  disk.markers.get?_put_of_ne h

theorem kept_unlink {target : OwnedTarget} (h : ∀ digest, target ≠ .orphanBlob digest)
    (markerId : ℕ) :
    Kept disk ((disk.withFiles (disk.files.unlink target)).removeMarker markerId) := by
  cases target with
  | orphanBlob digest => exact absurd rfl (h digest)
  | stage id => exact ⟨rfl, fun _ _ h => h, Nat.le_refl _, fun hfresh => hfresh⟩
  | manifestTemp id =>
      refine ⟨rfl, fun _ _ h => h, Nat.le_refl _, ?_⟩
      intro hfresh other hother
      change Function.update disk.files.manifestTemps id none other = none
      rw [Function.update_apply]
      split
      · rfl
      · exact hfresh other hother

theorem safeUnlinkOwnedFile_kept {target : OwnedTarget} (h : ∀ digest, target ≠ .orphanBlob digest)
    (markerId : ℕ) (expected : Option FileSeal) :
    Kept disk (disk.safeUnlinkOwnedFile target markerId expected) := by
  unfold safeUnlinkOwnedFile
  split
  · exact Kept.refl disk
  · rename_i ownership _
    by_cases htarget : ownership.target ≠ target
    · rw [if_pos htarget]
      exact Kept.refl disk
    · rw [if_neg htarget]
      split
      · exact Kept.of_files rfl (Nat.le_refl _)
      · exact Kept.refl disk
      · rename_i content known _ _
        by_cases hknown : FileSeal.of content = known
        · rw [if_pos hknown]
          exact disk.kept_unlink h markerId
        · rw [if_neg hknown]
          exact Kept.refl disk

theorem safeRetireOwnedMarker_kept (markerId : ℕ) :
    Kept disk (disk.safeRetireOwnedMarker markerId) := by
  unfold safeRetireOwnedMarker
  split
  · exact Kept.refl disk
  · split
    · split
      · exact Kept.refl disk
      · split
        · exact Kept.of_files rfl (Nat.le_refl _)
        · exact Kept.refl disk
    · exact Kept.refl disk

end Disk

/-! ### Single operations -/

section

variable {environment : Environment} {s : Session}

theorem invoke_ends (point : FaultPoint) :
    Ends (invoke environment point) s (fun _ s' => s'.disk = s.disk ∧ s'.locals = s.locals)
      (fun e s' => s'.disk = s.disk ∧ s'.locals = s.locals ∧ e = .osError ∧
        ¬ environment.Quiet) := by
  cases hfault : environment.faults point (s.calls point) with
  | false =>
      have hrun : invoke environment point s = (.ok (), { s with
          calls := Function.update s.calls point (s.calls point + 1) }) := by
        simp [invoke, hfault]
      exact ends_of_ok hrun ⟨rfl, rfl⟩
  | true =>
      have hrun : invoke environment point s = (.error .osError, { s with
          calls := Function.update s.calls point (s.calls point + 1) }) := by
        simp [invoke, hfault]
      refine ends_of_error hrun ⟨rfl, rfl, rfl, ?_⟩
      intro hquiet
      rw [hquiet] at hfault
      cases hfault

/-- An invocation in front of the rest of a call. -/
theorem invoke_bind_ends {α : Type} {point : FaultPoint} {next : Unit → StoreM α}
    {post : α → Session → Prop} {fails : ResearchStoreError → Session → Prop}
    (hnext : ∀ s' : Session, s'.disk = s.disk → s'.locals = s.locals →
      Ends (next ()) s' post fails)
    (hfails : ∀ e (s' : Session), s'.disk = s.disk → ¬ environment.Quiet → fails e s') :
    Ends (invoke environment point >>= next) s post fails :=
  Ends.bind ((invoke_ends point).imp (fun _ _ h => h) fun e s' h => hfails e s' h.1 h.2.2.2)
    fun _ s' h => hnext s' h.1 h.2

section

variable {α : Type} {post : α → Session → Prop} {fails : ResearchStoreError → Session → Prop}

theorem newId_bind_ends {next : ℕ → StoreM α}
    (h : ∀ s' : Session, s'.disk = s.disk.nameGiven → s'.locals = s.locals →
      Ends (next s.disk.nextId) s' post fails) :
    Ends (newId >>= next) s post fails :=
  h { s with disk := s.disk.nameGiven } rfl rfl

theorem setLocals_bind_ends {f : Locals → Locals} {next : Unit → StoreM α}
    (h : ∀ s' : Session, s'.disk = s.disk → s'.locals = f s.locals →
      Ends (next ()) s' post fails) :
    Ends (setLocals f >>= next) s post fails :=
  h { s with locals := f s.locals } rfl rfl

theorem changeDisk_bind_ends {f : Disk → Disk} {next : Unit → StoreM α}
    (h : ∀ s' : Session, s'.disk = f s.disk → s'.locals = s.locals →
      Ends (next ()) s' post fails) :
    Ends (changeDisk f >>= next) s post fails :=
  h { s with disk := f s.disk } rfl rfl

end

theorem createOwnedMarker_ends (target : OwnedTarget) :
    Ends (createOwnedMarker environment target) s
      (fun markerId s' => markerId = s.disk.nextId ∧ s'.locals = s.locals ∧
        s'.disk = s.disk.nameGiven.putMarker ⟨markerId, target, none⟩)
      (fun _ s' => Kept s.disk s'.disk ∧ ¬ environment.Quiet) := by
  unfold createOwnedMarker
  apply newId_bind_ends
  intro s1 hdisk1 hlocals1
  apply invoke_bind_ends
  · intro s2 hdisk2 hlocals2
    apply changeDisk_bind_ends
    intro s3 hdisk3 hlocals3
    apply invoke_bind_ends
    · intro s4 hdisk4 hlocals4
      refine ends_pure ⟨rfl, ?_, ?_⟩
      · rw [hlocals4, hlocals3, hlocals2, hlocals1]
      · rw [hdisk4, hdisk3, hdisk2, hdisk1]
    · intro _ s4 hdisk4 hquiet
      rw [hdisk4, hdisk3, hdisk2, hdisk1]
      exact ⟨Kept.of_files rfl (Nat.le_succ _), hquiet⟩
  · intro _ s2 hdisk2 hquiet
    rw [hdisk2, hdisk1]
    exact ⟨Kept.of_files rfl (Nat.le_succ _), hquiet⟩

theorem readOwnedMarker_allocated {disk : Disk} {markerId : ℕ} {target : OwnedTarget}
    (h : disk.markers.get? markerId = some ⟨markerId, target, none⟩) :
    disk.readOwnedMarker markerId = .ok ⟨markerId, target, none⟩ := by
  rw [Disk.readOwnedMarker, h]
  cases target <;> rfl

/-- An allocated marker of a file is sealed with what the file is. -/
theorem sealOwnedMarker_ends {markerId : ℕ} {target : OwnedTarget} {content : Content}
    (hmarker : s.disk.markers.get? markerId = some ⟨markerId, target, none⟩)
    (hcontent : s.disk.files.content target = some content)
    (haccepts : target.accepts content = true) :
    Ends (sealOwnedMarker environment markerId target) s
      (fun _ s' => s'.locals = s.locals ∧
        s'.disk = s.disk.putMarker ⟨markerId, target, some (.of content)⟩)
      (fun _ s' => Kept s.disk s'.disk ∧ ¬ environment.Quiet) := by
  unfold sealOwnedMarker
  apply ends_read_bind
  rw [readOwnedMarker_allocated hmarker, hcontent]
  apply ends_lift_bind
  · rintro _ ⟨⟩
    refine ends_check_bind (fun _ => ?_) fun hnot => absurd rfl hnot
    refine ends_check_bind (fun _ => ?_) fun hnot => absurd rfl hnot
    apply ends_lift_bind
    · rintro _ ⟨⟩
      refine ends_check_bind (fun _ => ?_) fun hnot => absurd haccepts hnot
      apply invoke_bind_ends
      · intro s1 hdisk1 hlocals1
        apply changeDisk_bind_ends
        intro s2 hdisk2 hlocals2
        refine (invoke_ends .directoryFsync).imp ?_ ?_
        · rintro _ s3 ⟨hdisk3, hlocals3⟩
          rw [hdisk3, hlocals3, hdisk2, hlocals2, hdisk1, hlocals1]
          exact ⟨rfl, rfl⟩
        · rintro _ s3 ⟨hdisk3, _, _, hquiet⟩
          rw [hdisk3, hdisk2, hdisk1]
          exact ⟨Kept.of_files rfl (Nat.le_refl _), hquiet⟩
      · intro _ s1 hdisk1 hquiet
        rw [hdisk1]
        exact ⟨Kept.refl _, hquiet⟩
    · intro _ h
      cases h
  · intro _ h
    cases h

theorem capture_bind_ends {α : Type} {target : OwnedTarget} {content : Content}
    {next : FileSeal → StoreM α} {post : α → Session → Prop}
    {fails : ResearchStoreError → Session → Prop}
    (hcontent : s.disk.files.content target = some content)
    (h : Ends (next (.of content)) s post fails) :
    Ends (captureExpectedOwnedFile target >>= next) s post fails := by
  have hrun : (captureExpectedOwnedFile target) s = (.ok (.of content), s) := by
    change (lift (orRaise (s.disk.files.content target) _) >>= fun content =>
      (pure (FileSeal.of content) : StoreM FileSeal)) s = _
    rw [hcontent]
    rfl
  have hcaptured : Ends (captureExpectedOwnedFile target) s
      (fun expected s' => expected = .of content ∧ s' = s) fails := ends_of_ok hrun ⟨rfl, rfl⟩
  refine hcaptured.bind ?_
  rintro _ _ ⟨rfl, rfl⟩
  exact h

theorem writeClosedFile_bind_ends {α : Type} {id : ℕ} {payload : Text} {next : Unit → StoreM α}
    {post : α → Session → Prop} {fails : ResearchStoreError → Session → Prop}
    (hnone : s.disk.files.manifestTemps id = none)
    (h : ∀ s' : Session, s'.disk = s.disk.withFiles (s.disk.files.setTemp id (some payload)) →
      s'.locals = s.locals → Ends (next ()) s' post fails) :
    Ends (writeClosedFile id payload >>= next) s post fails := by
  have hwritten : Ends (writeClosedFile id payload) s (fun _ s' => s'.disk =
      s.disk.withFiles (s.disk.files.setTemp id (some payload)) ∧ s'.locals = s.locals) fails := by
    unfold writeClosedFile
    apply ends_read_bind
    exact ends_check_bind (fun _ => ends_change ⟨rfl, rfl⟩) fun hnot => absurd hnone hnot
  refine hwritten.bind ?_
  rintro _ s' ⟨hdisk, hlocals⟩
  exact h s' hdisk hlocals

/-! ### The manifest -/

namespace DataFiles

variable (files : DataFiles)

@[simp] theorem setTemp_same (id : ℕ) (text : Option Text) :
    (files.setTemp id text).manifestTemps id = text := Function.update_self _ _ _

theorem setTemp_of_ne {id other : ℕ} (text : Option Text) (h : other ≠ id) :
    (files.setTemp id text).manifestTemps other = files.manifestTemps other :=
  Function.update_of_ne h _ _

@[simp] theorem setTemp_manifest (id : ℕ) (text : Option Text) :
    (files.setTemp id text).manifest = files.manifest := rfl
@[simp] theorem setTemp_blobs (id : ℕ) (text : Option Text) :
    (files.setTemp id text).blobs = files.blobs := rfl
@[simp] theorem setManifest_manifest (manifest : Option Text) :
    (files.setManifest manifest).manifest = manifest := rfl
@[simp] theorem setManifest_blobs (manifest : Option Text) :
    (files.setManifest manifest).blobs = files.blobs := rfl
@[simp] theorem setManifest_temps (manifest : Option Text) :
    (files.setManifest manifest).manifestTemps = files.manifestTemps := rfl

end DataFiles

/-- A file under a name that is given out may be written. -/
theorem kept_setTemp {disk : Disk} {id : ℕ} (text : Option Text) (h : id < disk.nextId) :
    Kept disk (disk.withFiles (disk.files.setTemp id text)) := by
  refine ⟨rfl, fun _ _ h => h, Nat.le_refl _, ?_⟩
  intro hfresh other hother
  change disk.nextId ≤ other at hother
  rw [Disk.withFiles_files, DataFiles.setTemp_of_ne _ _ (by omega)]
  exact hfresh other hother

/-- The previous manifest, if there was one, is kept in a file of its own. -/
structure Copied (previous : Option Text) (before after : Session) : Prop where
  kept : Kept before.disk after.disk
  temps : ∀ id < before.disk.nextId,
    after.disk.files.manifestTemps id = before.disk.files.manifestTemps id
  markers : ∀ id < before.disk.nextId, after.disk.markers.get? id = before.disk.markers.get? id
  rollbackMarker : after.locals.rollback ≠ none → after.locals.rollbackMarker ≠ none
  copy : ∀ text, previous = some text → ∃ id, after.locals.rollback = some id ∧
    before.disk.nextId ≤ id ∧ after.disk.files.manifestTemps id = some text

theorem copyManifest_ends (hfresh : Fresh s.disk) (hrollback : s.locals.rollback = none)
    (previous : Option Text) :
    Ends (copyManifest environment previous) s (fun _ s' => Copied previous s s')
      (fun _ s' => Kept s.disk s'.disk ∧ ¬ environment.Quiet) := by
  cases previous with
  | none =>
      refine ends_pure ⟨Kept.refl _, fun _ _ => rfl, fun _ _ => rfl, ?_, ?_⟩
      · exact fun h => absurd hrollback h
      · intro _ h
        cases h
  | some text =>
      unfold copyManifest
      apply newId_bind_ends
      intro s1 hdisk1 hlocals1
      apply setLocals_bind_ends
      intro s2 hdisk2 hlocals2
      have hstart : s2.disk = s.disk.nameGiven := hdisk2.trans hdisk1
      have hkept2 : Kept s.disk s2.disk := by
        rw [hstart]
        exact Kept.of_files rfl (Nat.le_succ _)
      refine ((createOwnedMarker_ends _).imp (fun _ _ h => h) ?_).bind ?_
      · rintro _ s3 ⟨hkept, hquiet⟩
        exact ⟨hkept2.trans hkept, hquiet⟩
      rintro marker s3 ⟨hmarker, hlocals3, hdisk3⟩
      apply setLocals_bind_ends
      intro s4 hdisk4 hlocals4
      apply writeClosedFile_bind_ends
      · rw [hdisk4, hdisk3, hstart]
        exact hfresh _ (Nat.le_refl _)
      intro s5 hdisk5 hlocals5
      apply capture_bind_ends
      · rw [hdisk5]
        simp [DataFiles.content]
        rfl
      apply setLocals_bind_ends
      intro s6 hdisk6 hlocals6
      have hmarkerId : marker = s.disk.nextId + 1 := by
        rw [hmarker, hstart]
        rfl
      have hallocated : s4.disk = s.disk.nameGiven.nameGiven.putMarker
          ⟨marker, .manifestTemp s.disk.nextId, none⟩ := by
        rw [hdisk4, hdisk3, hstart]
      have hwritten : s6.disk = s4.disk.withFiles
          (s4.disk.files.setTemp s.disk.nextId (some text)) := by
        rw [hdisk6, hdisk5]
      have hkept4 : Kept s.disk s4.disk := by
        rw [hallocated]
        exact Kept.of_files rfl (show s.disk.nextId ≤ s.disk.nextId + 1 + 1 by omega)
      have hkept6 : Kept s.disk s6.disk := by
        rw [hwritten]
        refine hkept4.trans (kept_setTemp _ ?_)
        rw [hallocated]
        exact show s.disk.nextId < s.disk.nextId + 1 + 1 by omega
      have hsealable : s6.disk.markers.get? marker =
          some ⟨marker, .manifestTemp s.disk.nextId, none⟩ := by
        rw [hwritten, hallocated]
        exact Disk.get?_putMarker s.disk.nameGiven.nameGiven
          ⟨marker, .manifestTemp s.disk.nextId, none⟩
      have hcontent : s6.disk.files.content (.manifestTemp s.disk.nextId) =
          some (Text.utf8 text) := by
        rw [hwritten]
        simp [DataFiles.content]
      apply invoke_bind_ends
      · intro s7 hdisk7 hlocals7
        rw [← hdisk7] at hsealable hcontent
        refine (sealOwnedMarker_ends hsealable hcontent rfl).imp ?_ ?_
        · rintro _ s8 ⟨hlocals8, hdisk8⟩
          rw [hdisk7] at hdisk8
          have hlocals : s8.locals.rollback = some s.disk.nextId ∧
              s8.locals.rollbackMarker = some marker := by
            rw [hlocals8, hlocals7, hlocals6, hlocals5, hlocals4, hlocals3, hlocals2]
            exact ⟨rfl, rfl⟩
          refine ⟨?_, ?_, ?_, ?_, ?_⟩
          · rw [hdisk8]
            exact hkept6.trans (Kept.of_files rfl (Nat.le_refl _))
          · intro id hid
            rw [hdisk8, Disk.putMarker_files, hwritten, Disk.withFiles_files,
              DataFiles.setTemp_of_ne _ _ (by omega), hallocated]
            rfl
          · intro id hid
            rw [hdisk8, Disk.get?_putMarker_of_ne _ (show id ≠ marker by omega), hwritten,
              Disk.withFiles_markers, hallocated,
              Disk.get?_putMarker_of_ne _ (show id ≠ marker by omega)]
            rfl
          · rw [hlocals.2]
            exact fun _ => Option.some_ne_none marker
          · rintro _ ⟨⟩
            refine ⟨s.disk.nextId, hlocals.1, Nat.le_refl _, ?_⟩
            rw [hdisk8, Disk.putMarker_files, hwritten]
            exact DataFiles.setTemp_same _ _ _
        · rintro _ s8 ⟨hkept, hquiet⟩
          rw [hdisk7] at hkept
          exact ⟨hkept6.trans hkept, hquiet⟩
      · intro _ s7 hdisk7 hquiet
        rw [hdisk7]
        exact ⟨hkept6, hquiet⟩

/-- The call meets no fault, and the new manifest fits below the root. -/
structure Environment.Serves (limits : StorageLimits) (environment : Environment) : Prop where
  quiet : environment.Quiet
  room : environment.stagedTreeSize ≤ limits.maximumResearchDataBytes

theorem stageManifest_ends {limits : StorageLimits} {temp marker : ℕ} {payload : Text}
    (hmarker : s.disk.markers.get? marker = some ⟨marker, .manifestTemp temp, none⟩)
    (hnone : s.disk.files.manifestTemps temp = none) (hid : temp < s.disk.nextId) :
    Ends (stageManifest limits environment temp marker payload) s
      (fun _ s' => s'.disk = (s.disk.withFiles (s.disk.files.setTemp temp (some payload))).putMarker
          ⟨marker, .manifestTemp temp, some (.of (Text.utf8 payload))⟩ ∧
        Kept s.disk s'.disk ∧ s'.locals.rollback = s.locals.rollback ∧
        s'.locals.rollbackMarker = s.locals.rollbackMarker)
      (fun _ s' => Kept s.disk s'.disk ∧ ¬ environment.Serves limits) := by
  unfold stageManifest
  apply writeClosedFile_bind_ends hnone
  intro s1 hdisk1 hlocals1
  have hcontent : s1.disk.files.content (.manifestTemp temp) = some (Text.utf8 payload) := by
    rw [hdisk1]
    simp [DataFiles.content]
  apply capture_bind_ends hcontent
  apply setLocals_bind_ends
  intro s2 hdisk2 hlocals2
  have hkept2 : Kept s.disk s2.disk := by
    rw [hdisk2, hdisk1]
    exact kept_setTemp _ hid
  have hsealable : s2.disk.markers.get? marker = some ⟨marker, .manifestTemp temp, none⟩ := by
    rw [hdisk2, hdisk1]
    exact hmarker
  apply invoke_bind_ends
  · intro s3 hdisk3 hlocals3
    rw [← hdisk2, ← hdisk3] at hcontent
    rw [← hdisk3] at hsealable
    refine ((sealOwnedMarker_ends hsealable hcontent rfl).imp (fun _ _ h => h) ?_).bind ?_
    · rintro _ s4 ⟨hkept, hquiet⟩
      rw [hdisk3] at hkept
      exact ⟨hkept2.trans hkept, fun hserves => hquiet hserves.quiet⟩
    · rintro _ s4 ⟨hlocals4, hdisk4⟩
      rw [hdisk3] at hdisk4
      have hkept4 : Kept s.disk s4.disk := by
        rw [hdisk4]
        exact hkept2.trans (Kept.of_files rfl (Nat.le_refl _))
      refine ends_check (fun _ => ⟨?_, hkept4, ?_, ?_⟩) fun hroom =>
        ⟨hkept4, fun hserves => hroom hserves.room⟩
      · rw [hdisk4, hdisk2, hdisk1]
      · rw [hlocals4, hlocals3, hlocals2, hlocals1]
      · rw [hlocals4, hlocals3, hlocals2, hlocals1]
  · intro _ s3 hdisk3 hquiet
    rw [hdisk3]
    exact ⟨hkept2, fun hserves => hquiet hserves.quiet⟩

theorem fresh_setTemp_none {disk : Disk} {files : DataFiles} (id : ℕ)
    (h : Fresh (disk.withFiles files)) : Fresh (disk.withFiles (files.setTemp id none)) := by
  intro other hother
  by_cases hsame : other = id
  · rw [hsame, Disk.withFiles_files, DataFiles.setTemp_same]
  · rw [Disk.withFiles_files, DataFiles.setTemp_of_ne _ _ hsame]
    exact h other hother

/-- A file of which the content is known takes the place of the manifest. -/
theorem renameToManifest_ends {id : ℕ} {text : Text} {fails : ResearchStoreError → Session → Prop}
    (hsome : s.disk.files.manifestTemps id = some text) :
    Ends (renameToManifest id) s
      (fun _ s' => s'.disk =
          s.disk.withFiles ((s.disk.files.setManifest (some text)).setTemp id none) ∧
        s'.locals = s.locals) fails := by
  unfold renameToManifest
  apply ends_read_bind
  refine ends_check_bind (fun _ => ends_change ⟨?_, rfl⟩) fun hnot => ?_
  · rw [← hsome]
  · rw [hsome] at hnot
    exact absurd (Option.some_ne_none text) hnot

/-- A disk on which only the manifest and its temporary files differ. -/
theorem fresh_rename {disk : Disk} (manifest : Option Text) (id : ℕ) (h : Fresh disk) :
    Fresh (disk.withFiles ((disk.files.setManifest manifest).setTemp id none)) :=
  fresh_setTemp_none id h

/-- The copy of the previous manifest takes its place again. -/
theorem restoreManifest_ends {previous : Option Text}
    {fails : ResearchStoreError → Session → Prop}
    (hcopy : ∀ text, previous = some text → ∃ id, s.locals.rollback = some id ∧
      s.disk.files.manifestTemps id = some text) :
    Ends (restoreManifest previous) s
      (fun _ s' => s'.disk.files.manifest = previous ∧
        s'.disk.files.blobs = s.disk.files.blobs ∧ s'.disk.nextId = s.disk.nextId ∧
        (Fresh s.disk → Fresh s'.disk)) fails := by
  unfold restoreManifest
  cases previous with
  | none => exact ends_change ⟨rfl, rfl, rfl, fun hfresh => hfresh⟩
  | some text =>
      obtain ⟨id, hrollback, hsome⟩ := hcopy text rfl
      apply ends_read_bind
      rw [hrollback]
      apply ends_lift_bind
      · rintro _ ⟨⟩
        refine (renameToManifest_ends hsome).imp ?_ fun _ _ h => h
        rintro _ s1 ⟨hdisk1, _⟩
        rw [hdisk1]
        exact ⟨rfl, rfl, rfl, fresh_rename _ _⟩
      · intro _ h
        cases h

theorem replaceManifest_ends {temp : ℕ} {payload : Text}
    (hstaged : s.disk.files.manifestTemps temp = some payload)
    (hcopy : ∀ text, s.disk.files.manifest = some text → ∃ id, s.locals.rollback = some id ∧
      id ≠ temp ∧ s.disk.files.manifestTemps id = some text) :
    Ends (replaceManifest environment temp s.disk.files.manifest) s
      (fun _ s' => s'.disk =
          s.disk.withFiles ((s.disk.files.setManifest (some payload)).setTemp temp none) ∧
        s'.locals = s.locals)
      (fun _ s' => Kept s.disk s'.disk ∧ ¬ environment.Quiet) := by
  unfold replaceManifest
  apply invoke_bind_ends
  · intro s1 hdisk1 hlocals1
    have hstaged1 : s1.disk.files.manifestTemps temp = some payload := by rwa [hdisk1]
    refine (renameToManifest_ends hstaged1).bind ?_
    rintro _ s2 ⟨hdisk2, hlocals2⟩
    rw [hdisk1] at hdisk2
    have hthrough : Ends (invoke environment .directoryFsync) s2
        (fun _ s' => s'.disk =
            s.disk.withFiles ((s.disk.files.setManifest (some payload)).setTemp temp none) ∧
          s'.locals = s.locals)
        (fun e s' => s'.disk = s2.disk ∧ s'.locals = s2.locals ∧ e = .osError ∧
          ¬ environment.Quiet) := by
      refine (invoke_ends .directoryFsync).imp ?_ fun _ _ h => h
      rintro _ s3 ⟨hdisk3, hlocals3⟩
      rw [hdisk3, hdisk2, hlocals3, hlocals2, hlocals1]
      exact ⟨rfl, rfl⟩
    refine hthrough.onRaise ?_ ?_
    · rintro _ s3 _ ⟨hdisk3, hlocals3, _, hquiet⟩
      rw [hdisk2] at hdisk3
      rw [hlocals2, hlocals1] at hlocals3
      have hcopied : ∀ text, s.disk.files.manifest = some text →
          ∃ id, s3.locals.rollback = some id ∧ s3.disk.files.manifestTemps id = some text := by
        intro text htext
        obtain ⟨id, hrollback, hne, hsome⟩ := hcopy text htext
        refine ⟨id, by rw [hlocals3, hrollback], ?_⟩
        rw [hdisk3, Disk.withFiles_files, DataFiles.setTemp_of_ne _ _ hne]
        exact hsome
      refine (restoreManifest_ends hcopied).imp ?_ fun _ _ h => h
      rintro _ s4 ⟨hmanifest, hblobs, hid, hfresh⟩
      refine ⟨⟨hmanifest, ?_, ?_, ?_⟩, hquiet⟩
      · intro digest content hcontent
        rw [hblobs, hdisk3]
        exact hcontent
      · rw [hid, hdisk3]
        exact Nat.le_refl _
      · intro hstart
        apply hfresh
        rw [hdisk3]
        exact fresh_rename _ _ hstart
    · rintro e s3 hhandles ⟨_, _, rfl, _⟩
      cases hhandles
  · intro _ s1 hdisk1 hquiet
    rw [hdisk1]
    exact ⟨Kept.refl _, hquiet⟩

/-- Only a copy without a marker stops the unlinking. -/
theorem unlinkManifestTemps_ends (temp marker : ℕ) :
    Ends (unlinkManifestTemps temp marker) s (fun _ s' => Kept s.disk s'.disk)
      (fun _ s' => Kept s.disk s'.disk ∧ s.locals.rollback ≠ none ∧
        s.locals.rollbackMarker = none) := by
  have hunlink : ∀ (disk : Disk) (id markerId : ℕ) (expected : Option FileSeal),
      Kept disk (disk.safeUnlinkOwnedFile (.manifestTemp id) markerId expected) :=
    fun disk _ markerId expected =>
      disk.safeUnlinkOwnedFile_kept (fun _ h => by cases h) markerId expected
  unfold unlinkManifestTemps
  apply ends_read_bind
  apply changeDisk_bind_ends
  intro s1 hdisk1 hlocals1
  have hkept1 : Kept s.disk s1.disk := by
    rw [hdisk1]
    exact hunlink _ _ _ _
  cases hrollback : s.locals.rollback with
  | none => exact ends_pure hkept1
  | some rollback =>
      apply ends_lift_bind
      · intro rollbackMarker _
        exact ends_change (hkept1.trans (hunlink _ _ _ _))
      · intro _ herror
        refine ⟨hkept1, Option.some_ne_none rollback, ?_⟩
        cases hmarker : s.locals.rollbackMarker with
        | none => rfl
        | some rollbackMarker =>
            rw [hmarker] at herror
            cases herror

/-- The manifest is the text, and no blob is lost or overwritten. -/
structure Published (text : Text) (before after : Disk) : Prop where
  manifest : after.files.manifest = some text
  blobs : ∀ digest content, before.files.blobs digest = some content →
    after.files.blobs digest = some content
  nextId : before.nextId ≤ after.nextId
  fresh : Fresh before → Fresh after

theorem Published.after {text : Text} {first second third : Disk} (h : Kept first second)
    (h' : Published text second third) : Published text first third where
  manifest := h'.manifest
  blobs digest content hcontent := h'.blobs digest content (h.blobs digest content hcontent)
  nextId := h.nextId.trans h'.nextId
  fresh hfresh := h'.fresh (h.fresh hfresh)

theorem Published.kept {text : Text} {first second third : Disk} (h : Published text first second)
    (h' : Kept second third) : Published text first third where
  manifest := h'.manifest.trans h.manifest
  blobs digest content hcontent := h'.blobs digest content (h.blobs digest content hcontent)
  nextId := h.nextId.trans h'.nextId
  fresh hfresh := h'.fresh (h.fresh hfresh)

theorem published_rename {disk : Disk} (text : Text) (id : ℕ) :
    Published text disk
      (disk.withFiles ((disk.files.setManifest (some text)).setTemp id none)) :=
  ⟨rfl, fun _ _ h => h, Nat.le_refl _, fresh_rename _ _⟩

/-- The new manifest is in place, or the old one is. -/
theorem publishManifest_ends {limits : StorageLimits} {records : List ManifestRecord}
    (hfresh : Fresh s.disk) (hrollback : s.locals.rollback = none) :
    Ends (publishManifest limits environment records) s
      (fun _ s' => Published (manifestText records) s.disk s'.disk)
      (fun _ s' => Kept s.disk s'.disk ∧ ¬ environment.Serves limits) := by
  unfold publishManifest
  apply newId_bind_ends
  intro s1 hdisk1 hlocals1
  have hkept1 : Kept s.disk s1.disk := by
    rw [hdisk1]
    exact Kept.of_files rfl (Nat.le_succ _)
  refine ((createOwnedMarker_ends _).imp (fun _ _ h => h) ?_).bind ?_
  · rintro _ s2 ⟨hkept, hquiet⟩
    exact ⟨hkept1.trans hkept, fun hserves => hquiet hserves.quiet⟩
  rintro marker s2 ⟨hmarker, hlocals2, hdisk2⟩
  have hid : s2.disk.nextId = s.disk.nextId + 2 ∧ marker = s.disk.nextId + 1 := by
    rw [hmarker, hdisk2, hdisk1]
    exact ⟨rfl, rfl⟩
  have hkept2 : Kept s.disk s2.disk := by
    refine hkept1.trans ?_
    rw [hdisk2]
    exact Kept.of_files rfl (Nat.le_succ _)
  have hallocated : s2.disk.markers.get? marker =
      some ⟨marker, .manifestTemp s.disk.nextId, none⟩ := by
    rw [hdisk2]
    exact Disk.get?_putMarker _ ⟨marker, .manifestTemp s.disk.nextId, none⟩
  have hfree : s2.disk.files.manifestTemps s.disk.nextId = none := by
    rw [hdisk2, hdisk1]
    exact hfresh _ (Nat.le_refl _)
  apply ends_read_bind
  have hbody : Ends (do
      copyManifest environment s2.disk.files.manifest
      stageManifest limits environment s.disk.nextId marker (manifestText records)
      replaceManifest environment s.disk.nextId s2.disk.files.manifest) s2
      (fun _ s' => Published (manifestText records) s.disk s'.disk ∧
        (s'.locals.rollback ≠ none → s'.locals.rollbackMarker ≠ none))
      (fun _ s' => Kept s.disk s'.disk ∧ ¬ environment.Serves limits) := by
    have hstart : s2.locals.rollback = none := by rw [hlocals2, hlocals1, hrollback]
    refine ((copyManifest_ends (hkept2.fresh hfresh) hstart _).imp (fun _ _ h => h) ?_).bind ?_
    · rintro _ s3 ⟨hkept, hquiet⟩
      exact ⟨hkept2.trans hkept, fun hserves => hquiet hserves.quiet⟩
    intro _ s3 hcopied
    have hkept3 := hkept2.trans hcopied.kept
    have hnext3 := hcopied.kept.nextId
    have hallocated3 : s3.disk.markers.get? marker =
        some ⟨marker, .manifestTemp s.disk.nextId, none⟩ := by
      rw [hcopied.markers marker (by omega), hallocated]
    have hfree3 : s3.disk.files.manifestTemps s.disk.nextId = none := by
      rw [hcopied.temps _ (by omega), hfree]
    refine ((stageManifest_ends hallocated3 hfree3 (by omega)).imp (fun _ _ h => h) ?_).bind ?_
    · rintro _ s4 ⟨hkept, hserves⟩
      exact ⟨hkept3.trans hkept, hserves⟩
    rintro _ s4 ⟨hdisk4, hstaged4, hrollback4, hmarker4⟩
    have hkept4 := hkept3.trans hstaged4
    have hmanifest : s2.disk.files.manifest = s4.disk.files.manifest := by
      rw [hkept4.manifest, hkept2.manifest]
    have hstaged : s4.disk.files.manifestTemps s.disk.nextId = some (manifestText records) := by
      rw [hdisk4]
      exact DataFiles.setTemp_same _ _ _
    rw [hmanifest]
    refine (replaceManifest_ends hstaged ?_).imp ?_ ?_
    · intro text htext
      obtain ⟨id, hcopy, hlater, hsome⟩ := hcopied.copy text (hmanifest.trans htext)
      have hne : id ≠ s.disk.nextId := by omega
      refine ⟨id, by rw [hrollback4, hcopy], hne, ?_⟩
      rw [hdisk4, Disk.putMarker_files, Disk.withFiles_files, DataFiles.setTemp_of_ne _ _ hne]
      exact hsome
    · rintro _ s5 ⟨hdisk5, hlocals5⟩
      refine ⟨?_, ?_⟩
      · rw [hdisk5]
        exact Published.after hkept4 (published_rename _ _)
      · rw [hlocals5, hrollback4, hmarker4]
        exact hcopied.rollbackMarker
    · rintro _ s5 ⟨hkept, hquiet⟩
      exact ⟨hkept4.trans hkept, fun hserves => hquiet hserves.quiet⟩
  refine hbody.andFinally ?_ ?_
  · rintro _ s3 ⟨hpublished, hmarked⟩
    refine (unlinkManifestTemps_ends _ _).imp ?_ ?_
    · exact fun _ s4 hkept => hpublished.kept hkept
    · rintro _ s4 ⟨_, hsome, hnone⟩
      exact absurd hnone (hmarked hsome)
  · rintro _ s3 ⟨hkept, hserves⟩
    refine (unlinkManifestTemps_ends _ _).imp ?_ ?_
    · exact fun _ s4 hunlinked => ⟨hkept.trans hunlinked, hserves⟩
    · exact fun _ s4 hunlinked => ⟨hkept.trans hunlinked.1, hserves⟩

end

end QuantWorkbench.Storage
