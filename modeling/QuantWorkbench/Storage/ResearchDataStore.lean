import QuantWorkbench.Lib.Keyed
import QuantWorkbench.Lib.Raising
import QuantWorkbench.Storage.ResearchManifest

/-!
`ResearchDataStore` of `storage/research_data_store.py`: immutable blobs under their
digest, a manifest that is replaced as a whole, and markers that say which temporary
files the store owns. A call that raises leaves the disk as it is at that moment, after
what its `finally` parts do.

The lock makes the calls on one store follow one another. Paths are checked for reparse
points before every access; here they pass. The hexadecimal names of `uuid4` are numbers
that no earlier name has, and as nothing else writes below the root, a file is known by its
size and digest.
-/

namespace QuantWorkbench.Storage

open Lib Raising

abbrev Content := List UInt8

/-- What the store relies on to write a frame, and to read the number of rows and the
serialized schema of a file. -/
structure Parquet (Frame : Type) where
  bytes : Frame → Content
  metadata : Content → Option (ℕ × Content)

structure StorageLimits where
  maximumSingleFileBytes : ℕ := 536870912
  maximumResearchDataBytes : ℕ := 21474836480
  minimumFreeBytes : ℕ := 21474836480

/-- The operations that a store can be given, each of which may fail. -/
inductive FaultPoint where
  | parquetWriter
  | fileFsync
  | blobReplace
  | manifestFsync
  | manifestReplace
  | directoryFsync
  deriving DecidableEq, Repr

/-- What one call meets: which invocation of an operation fails without effect, the time,
the bytes below the root when the limits are checked and when the new manifest is staged,
and the free bytes of the volume. -/
structure Environment where
  faults : FaultPoint → ℕ → Bool
  now : UtcDateTime
  treeSize : ℕ
  stagedTreeSize : ℕ
  freeBytes : ℕ

/-! ### The disk -/

/-- A file that a marker can own: its kind and its path. -/
inductive OwnedTarget where
  | stage (id : ℕ)
  | manifestTemp (id : ℕ)
  | orphanBlob (digest : Digest)
  deriving DecidableEq

/-- Size and digest of a file. -/
structure FileSeal where
  sizeBytes : ℕ
  sha256 : Digest
  deriving DecidableEq

def FileSeal.of (content : Content) : FileSeal := ⟨content.length, .ofContent content⟩

/-- A marker is allocated until it has a seal. -/
structure OwnershipMarker where
  markerId : ℕ
  target : OwnedTarget
  sealed : Option FileSeal

/-- The files besides the markers. The manifest and its temporary files are kept as the
text they encode in UTF-8. -/
structure DataFiles where
  manifest : Option Text
  manifestTemps : ℕ → Option Text
  stages : ℕ → Option Content
  blobs : Digest → Option Content

structure Disk where
  files : DataFiles
  markers : Keyed OwnershipMarker.markerId
  nextId : ℕ

def Disk.empty : Disk where
  files := ⟨none, fun _ => none, fun _ => none, fun _ => none⟩
  markers := .empty
  nextId := 0

def DataFiles.content (files : DataFiles) : OwnedTarget → Option Content
  | .stage id => files.stages id
  | .manifestTemp id => (files.manifestTemps id).map Text.utf8
  | .orphanBlob digest => files.blobs digest

namespace DataFiles

def setManifest (manifest : Option Text) (files : DataFiles) : DataFiles := { files with manifest }

def setTemp (id : ℕ) (text : Option Text) (files : DataFiles) : DataFiles :=
  { files with manifestTemps := Function.update files.manifestTemps id text }

def setStage (id : ℕ) (content : Option Content) (files : DataFiles) : DataFiles :=
  { files with stages := Function.update files.stages id content }

def setBlob (digest : Digest) (content : Option Content) (files : DataFiles) : DataFiles :=
  { files with blobs := Function.update files.blobs digest content }

def unlink (files : DataFiles) : OwnedTarget → DataFiles
  | .stage id => files.setStage id none
  | .manifestTemp id => files.setTemp id none
  | .orphanBlob digest => files.setBlob digest none

end DataFiles

namespace Disk

def withFiles (disk : Disk) (files : DataFiles) : Disk := { disk with files }

def putMarker (disk : Disk) (ownership : OwnershipMarker) : Disk :=
  { disk with markers := disk.markers.put ownership }

def removeMarker (disk : Disk) (markerId : ℕ) : Disk :=
  { disk with markers := disk.markers.remove markerId }

def nameGiven (disk : Disk) : Disk := { disk with nextId := disk.nextId + 1 }

def readOwnedMarker (disk : Disk) (markerId : ℕ) : Except ResearchStoreError OwnershipMarker :=
  match disk.markers.get? markerId with
  | none => .error (.integrity "ownership marker is invalid JSON")
  | some ownership =>
      match ownership.target, ownership.sealed with
      | .orphanBlob digest, some known =>
          if digest = known.sha256 then .ok ownership
          else .error (.integrity "orphan marker digest does not match target")
      | _, _ => .ok ownership

def safeUnlinkOwnedFile (target : OwnedTarget) (markerId : ℕ) (expected : Option FileSeal)
    (disk : Disk) : Disk :=
  match disk.readOwnedMarker markerId with
  | .error _ => disk
  | .ok ownership =>
      if ownership.target ≠ target then disk
      else
        match disk.files.content target, ownership.sealed.or expected with
        | none, _ => disk.removeMarker markerId
        | some _, none => disk
        | some content, some known =>
            if FileSeal.of content = known then
              (disk.withFiles (disk.files.unlink target)).removeMarker markerId
            else disk

def safeRetireOwnedMarker (markerId : ℕ) (disk : Disk) : Disk :=
  match disk.readOwnedMarker markerId with
  | .error _ => disk
  | .ok ownership =>
      match ownership.target, ownership.sealed with
      | .orphanBlob digest, some known =>
          match disk.files.blobs digest with
          | none => disk
          | some content =>
              if FileSeal.of content = known then disk.removeMarker markerId else disk
      | _, _ => disk

end Disk

/-! ### One call -/

/-- The variables of a call that its `finally` parts read. -/
structure Locals where
  stageExpected : Option FileSeal := none
  blobMarker : Option ℕ := none
  manifestPublished : Bool := false
  tempExpected : Option FileSeal := none
  rollback : Option ℕ := none
  rollbackMarker : Option ℕ := none
  rollbackExpected : Option FileSeal := none

structure Session where
  disk : Disk
  locals : Locals
  calls : FaultPoint → ℕ

abbrev StoreM (α : Type) := Raising ResearchStoreError Session α

def setLocals (f : Locals → Locals) : StoreM Unit := change fun s => { s with locals := f s.locals }

def changeDisk (f : Disk → Disk) : StoreM Unit := change fun s => { s with disk := f s.disk }

def changeFiles (f : DataFiles → DataFiles) : StoreM Unit :=
  changeDisk fun disk => disk.withFiles (f disk.files)

/-- One invocation of an operation, which has its effect afterwards. -/
def invoke (environment : Environment) (point : FaultPoint) : StoreM Unit := fun s =>
  let s' := { s with calls := Function.update s.calls point (s.calls point + 1) }
  if environment.faults point (s.calls point) then (.error .osError, s') else (.ok (), s')

/-- `uuid4`. -/
def newId : StoreM ℕ := fun s => (.ok s.disk.nextId, { s with disk := s.disk.nameGiven })

def createOwnedMarker (environment : Environment) (target : OwnedTarget) : StoreM ℕ := do
  let markerId ← newId
  invoke environment .fileFsync
  changeDisk fun disk => disk.putMarker ⟨markerId, target, none⟩
  invoke environment .directoryFsync
  return markerId

def captureExpectedOwnedFile (target : OwnedTarget) : StoreM FileSeal := do
  let files ← read fun s => s.disk.files
  let content ← lift (orRaise (files.content target)
    (.integrity "current ownership target is not a regular file"))
  return .of content

def OwnedTarget.accepts : OwnedTarget → Content → Bool
  | .orphanBlob digest, content => digest = Digest.ofContent content
  | _, _ => true

def sealOwnedMarker (environment : Environment) (markerId : ℕ) (target : OwnedTarget) :
    StoreM Unit := do
  let disk ← read fun s => s.disk
  let ownership ← lift (disk.readOwnedMarker markerId)
  check (ownership.sealed = none) (.integrity "ownership marker is already sealed")
  check (ownership.target = target) (.integrity "ownership marker target changed before seal")
  let content ← lift (orRaise (disk.files.content target)
    (.integrity "ownership target is not a regular file"))
  check (target.accepts content = true) (.integrity "orphan ownership digest mismatch")
  invoke environment .fileFsync
  changeDisk fun disk => disk.putMarker { ownership with sealed := some (.of content) }
  invoke environment .directoryFsync

def writeClosedFile (id : ℕ) (payload : Text) : StoreM Unit := do
  let files ← read fun s => s.disk.files
  check (files.manifestTemps id = none) .osError
  changeFiles (·.setTemp id (some payload))

/-! ### Publication -/

/-- The part of `_publish_manifest` that copies the previous manifest. -/
def copyManifest (environment : Environment) : Option Text → StoreM Unit
  | none => pure ()
  | some previous => do
      let rollback ← newId
      setLocals fun l => { l with rollback := some rollback }
      let rollbackMarker ← createOwnedMarker environment (.manifestTemp rollback)
      setLocals fun l => { l with rollbackMarker := some rollbackMarker }
      writeClosedFile rollback previous
      let expected ← captureExpectedOwnedFile (.manifestTemp rollback)
      setLocals fun l => { l with rollbackExpected := some expected }
      invoke environment .manifestFsync
      sealOwnedMarker environment rollbackMarker (.manifestTemp rollback)

/-- The part that writes the new manifest beside the old one. -/
def stageManifest (limits : StorageLimits) (environment : Environment) (temp marker : ℕ)
    (payload : Text) : StoreM Unit := do
  writeClosedFile temp payload
  let expected ← captureExpectedOwnedFile (.manifestTemp temp)
  setLocals fun l => { l with tempExpected := some expected }
  invoke environment .manifestFsync
  sealOwnedMarker environment marker (.manifestTemp temp)
  check (environment.stagedTreeSize ≤ limits.maximumResearchDataBytes)
    (.quota "研究数据总量超过配额")

/-- A temporary file takes the place of the manifest. -/
def renameToManifest (id : ℕ) : StoreM Unit := do
  let files ← read fun s => s.disk.files
  check (files.manifestTemps id ≠ none) .osError
  changeFiles fun files => (files.setManifest (files.manifestTemps id)).setTemp id none

def restoreManifest (previous : Option Text) : StoreM Unit := do
  match previous with
  | none => changeFiles (·.setManifest none)
  | some _ =>
      let rollback ← read fun s => s.locals.rollback
      let id ← lift (orRaise rollback (.integrity "manifest rollback file is missing"))
      renameToManifest id

/-- The part that replaces the manifest, and puts the old one back if the directory
cannot be written through. -/
def replaceManifest (environment : Environment) (temp : ℕ) (previous : Option Text) :
    StoreM Unit := do
  invoke environment .manifestReplace
  renameToManifest temp
  (invoke environment .directoryFsync).onRaise (· = .osError) (restoreManifest previous)

/-- The `finally` part of `_publish_manifest`. -/
def unlinkManifestTemps (temp marker : ℕ) : StoreM Unit := do
  let locals ← read fun s => s.locals
  changeDisk (·.safeUnlinkOwnedFile (.manifestTemp temp) marker locals.tempExpected)
  match locals.rollback with
  | none => pure ()
  | some rollback =>
      let rollbackMarker ← lift (orRaise locals.rollbackMarker
        (.integrity "manifest rollback marker is missing"))
      changeDisk (·.safeUnlinkOwnedFile (.manifestTemp rollback) rollbackMarker
        locals.rollbackExpected)

def publishManifest (limits : StorageLimits) (environment : Environment)
    (records : List ManifestRecord) : StoreM Unit := do
  let temp ← newId
  let marker ← createOwnedMarker environment (.manifestTemp temp)
  let previous ← read fun s => s.disk.files.manifest
  andFinally
    (do
      copyManifest environment previous
      stageManifest limits environment temp marker (manifestText records)
      replaceManifest environment temp previous)
    (unlinkManifestTemps temp marker)

/-! ### Artifacts -/

/-- `ResearchArtifact`, with the path below the root of the store. -/
structure ResearchArtifact where
  dataset : Text
  key : Text
  dataVersion : Text
  sha256 : Digest
  path : Text
  rowCount : ℕ
  sizeBytes : ℕ
  createdAt : UtcDateTime
  schemaFingerprint : Digest
  datasetNonempty : Text.strip dataset ≠ []
  keyNonempty : Text.strip key ≠ []
  dataVersionNonempty : Text.strip dataVersion ≠ []
  deriving DecidableEq

def artifactFromRecord (record : ManifestRecord) : Except ResearchStoreError ResearchArtifact :=
  if hdataset : Text.strip record.dataset.value = [] then
    .error (.invalidValue "dataset must be non-empty")
  else if hkey : Text.strip record.key.text = [] then
    .error (.invalidValue "key must be non-empty")
  else if hversion : Text.strip record.dataVersion.text = [] then
    .error (.invalidValue "data_version must be non-empty")
  else
    .ok
      { dataset := record.dataset.value
        key := record.key.text
        dataVersion := record.dataVersion.text
        sha256 := record.sha256
        path := blobPath record.sha256
        rowCount := record.rowCount
        sizeBytes := record.sizeBytes
        createdAt := record.createdAt.instant
        schemaFingerprint := record.schemaFingerprint
        datasetNonempty := hdataset
        keyNonempty := hkey
        dataVersionNonempty := hversion }

/-! ### Replacing a dataset -/

section

variable {Frame : Type} (parquet : Parquet Frame)

def validateBlob (files : DataFiles) (record : ManifestRecord) : Except ResearchStoreError Unit := do
  let content ← orRaise (files.blobs record.sha256) (.integrity "研究数据 blob 不是普通文件")
  let (rows, schema) ← orRaise (parquet.metadata content) (.integrity "研究数据 blob 不可读")
  require (content.length = record.sizeBytes ∧ Digest.ofContent content = record.sha256 ∧
    rows = record.rowCount ∧ Digest.ofContent schema = record.schemaFingerprint)
    (.integrity "研究数据 blob 摘要或大小不匹配")

def loadRecords (files : DataFiles) : Except ResearchStoreError (List ManifestRecord) :=
  loadManifest (validateBlob parquet files) files.manifest

def enforceLimits (limits : StorageLimits) (environment : Environment)
    (newSize additionalPeakBytes : ℕ) : Except ResearchStoreError Unit := do
  require (newSize ≤ limits.maximumSingleFileBytes) (.quota "研究数据单文件超过配额上限")
  require (environment.treeSize + additionalPeakBytes ≤ limits.maximumResearchDataBytes)
    (.quota "研究数据总量超过配额")
  require (limits.minimumFreeBytes ≤ environment.freeBytes) (.quota "D盘空闲空间低于安全下限")

def manifestPeakReserve (records : List ManifestRecord) (newRecord : ManifestRecord) : ℕ :=
  (Text.utf8 (manifestText (records ++ [newRecord]))).length +
    (Text.utf8 (manifestText records)).length + 16384

def findIdempotent (records : List ManifestRecord) (dataset : ResearchDataset) (key : LogicalKey)
    (dataVersion : DataVersion) (digest : Digest) : Option ManifestRecord :=
  records.find? fun record => record.dataset = dataset ∧ record.key = key ∧
    record.dataVersion = dataVersion ∧ record.sha256 = digest

/-- The part of `replace_dataset` that writes the frame to a file of its own. -/
def stageFrame (environment : Environment) (stage stageMarker : ℕ) (frame : Frame) :
    StoreM FileSeal := do
  invoke environment .parquetWriter
  changeFiles (·.setStage stage (some (parquet.bytes frame)))
  let expected ← captureExpectedOwnedFile (.stage stage)
  setLocals fun l => { l with stageExpected := some expected }
  invoke environment .fileFsync
  sealOwnedMarker environment stageMarker (.stage stage)
  return expected

/-- The file of the stage becomes the blob. -/
def renameToBlob (stage : ℕ) (digest : Digest) : StoreM Unit := do
  let files ← read fun s => s.disk.files
  check (files.stages stage ≠ none) .osError
  changeFiles fun files => (files.setBlob digest (files.stages stage)).setStage stage none

/-- The part that puts the blob in place, unless it is there. -/
def placeBlob (environment : Environment) (stage : ℕ) (record : ManifestRecord) : StoreM Unit := do
  let files ← read fun s => s.disk.files
  match files.blobs record.sha256 with
  | some _ => lift (validateBlob parquet files record)
  | none =>
      let blobMarker ← createOwnedMarker environment (.orphanBlob record.sha256)
      setLocals fun l => { l with blobMarker := some blobMarker }
      invoke environment .blobReplace
      renameToBlob stage record.sha256
      invoke environment .directoryFsync
      invoke environment .fileFsync
      sealOwnedMarker environment blobMarker (.orphanBlob record.sha256)

def newRecord (environment : Environment) (expected : FileSeal) (rowCount : ℕ) (schema : Content)
    (dataset : ResearchDataset) (key : LogicalKey) (dataVersion : DataVersion) : ManifestRecord where
  createdAt := .ofInstant environment.now
  dataVersion := dataVersion
  dataset := dataset
  key := key
  rowCount := rowCount
  schemaFingerprint := .ofContent schema
  sha256 := expected.sha256
  sizeBytes := expected.sizeBytes

/-- The part between the stage and the end of `replace_dataset`. -/
def publishStage (limits : StorageLimits) (environment : Environment)
    (records : List ManifestRecord) (stage : ℕ) (expected : FileSeal)
    (dataset : ResearchDataset) (key : LogicalKey) (dataVersion : DataVersion) :
    StoreM ResearchArtifact := do
  let files ← read fun s => s.disk.files
  let (rowCount, schema) ← lift (orRaise ((files.stages stage).bind parquet.metadata)
    .unreadableParquet)
  match findIdempotent records dataset key dataVersion expected.sha256 with
  | some existing =>
      lift (enforceLimits limits environment expected.sizeBytes 0)
      lift (artifactFromRecord existing)
  | none =>
      check ((dataset, key, dataVersion) ∉ records.map ManifestRecord.logicalVersion)
        (.conflict "同一逻辑 dataset/key/data_version 不能指向不同内容")
      let record := newRecord environment expected rowCount schema dataset key dataVersion
      lift (enforceLimits limits environment expected.sizeBytes
        (manifestPeakReserve records record))
      placeBlob parquet environment stage record
      publishManifest limits environment (records ++ [record])
      setLocals fun l => { l with manifestPublished := true }
      lift (artifactFromRecord record)

/-- The `finally` part of `replace_dataset`. -/
def retireStage (stage stageMarker : ℕ) : StoreM Unit := do
  let locals ← read fun s => s.locals
  changeDisk (·.safeUnlinkOwnedFile (.stage stage) stageMarker locals.stageExpected)
  match locals.manifestPublished, locals.blobMarker with
  | true, some blobMarker => changeDisk (·.safeRetireOwnedMarker blobMarker)
  | _, _ => pure ()

def replaceChecked (limits : StorageLimits) (environment : Environment) (dataset : ResearchDataset)
    (key : LogicalKey) (frame : Frame) (dataVersion : DataVersion) : StoreM ResearchArtifact := do
  let files ← read fun s => s.disk.files
  let records ← lift (loadRecords parquet files)
  let stage ← newId
  let stageMarker ← createOwnedMarker environment (.stage stage)
  andFinally
    (do
      let expected ← stageFrame parquet environment stage stageMarker frame
      publishStage parquet limits environment records stage expected dataset key dataVersion)
    (retireStage stage stageMarker)

def replaceDataset (limits : StorageLimits) (environment : Environment) (dataset key : Text)
    (frame : Frame) (dataVersion : Text) : StoreM ResearchArtifact := do
  let dataset ← lift (validateDataset dataset)
  let key ← lift (validateKey key)
  let dataVersion ← lift (orRaise (DataVersion.ofText? dataVersion)
    (.invalidValue "data_version is invalid"))
  replaceChecked parquet limits environment dataset key frame dataVersion

/-! ### Reading -/

def activeArtifact (files : DataFiles) (dataset key : Text) :
    Except ResearchStoreError ResearchArtifact := do
  let dataset ← validateDataset dataset
  let key ← validateKey key
  let records ← loadRecords parquet files
  match (records.filter fun record => record.dataset = dataset ∧ record.key = key).getLast? with
  | some record => artifactFromRecord record
  | none =>
      let datasetName := String.ofList dataset.value
      let keyName := String.ofList key.text
      .error (.missingKey s!"no active research artifact for {datasetName}/{keyName}")

def collectArtifacts (dataset : ResearchDataset) :
    Keyed ResearchArtifact.key → List ManifestRecord →
      Except ResearchStoreError (Keyed ResearchArtifact.key)
  | active, [] => .ok active
  | active, record :: rest =>
      if record.dataset = dataset then do
        let artifact ← artifactFromRecord record
        collectArtifacts dataset (active.put artifact) rest
      else collectArtifacts dataset active rest

def activeArtifacts (files : DataFiles) (dataset : Text) :
    Except ResearchStoreError (Keyed ResearchArtifact.key) := do
  let dataset ← validateDataset dataset
  let records ← loadRecords parquet files
  collectArtifacts dataset .empty records

/-! ### Cleanup -/

/-- What a cleanup meets: the time, the markers as the directory lists them, and when each
of them was modified. -/
structure CleanupEnvironment where
  now : ℚ
  listing : List ℕ
  modified : ℕ → ℚ

/-- `CleanupReport`, with the candidates in the order in which they are found. -/
structure CleanupReport where
  candidates : List OwnedTarget
  removed : List OwnedTarget
  dryRun : Bool
  rejected : List ℕ

/-- What the first pass makes of a marker. -/
inductive Inspection where
  | skipped
  | rejected
  | accepted (target : OwnedTarget) (isCandidate : Bool)

def matchesSeal (files : DataFiles) (target : OwnedTarget) (known : FileSeal) : Bool :=
  match files.content target with
  | none => false
  | some content => FileSeal.of content = known

/-- The body of the first loop. -/
def inspectMarker (environment : CleanupEnvironment) (grace : ℚ) (referenced : List Digest)
    (disk : Disk) (markerId : ℕ) : Inspection :=
  if disk.markers.get? markerId |>.isNone then .skipped
  else if 0 < grace ∧ environment.now - grace < environment.modified markerId then .skipped
  else
    match disk.readOwnedMarker markerId with
    | .error _ => .rejected
    | .ok ownership =>
        match ownership.sealed with
        | none => .rejected
        | some known =>
            let isReferenced := match ownership.target with
              | .orphanBlob digest => decide (digest ∈ referenced)
              | _ => false
            if (disk.files.content ownership.target).isNone then .accepted ownership.target false
            else if matchesSeal disk.files ownership.target known then
              .accepted ownership.target (!isReferenced)
            else .rejected

structure CleanupState where
  disk : Disk
  removed : List OwnedTarget
  rejected : List ℕ

/-- The body of the second loop. -/
def cleanMarker (candidates : List OwnedTarget) (state : CleanupState)
    (marker : ℕ × OwnedTarget) : CleanupState :=
  let disk := state.disk
  if (disk.files.content marker.2).isNone then { state with disk := disk.removeMarker marker.1 }
  else
    match disk.readOwnedMarker marker.1 with
    | .error _ => { state with rejected := state.rejected ++ [marker.1] }
    | .ok ownership =>
        match ownership.sealed with
        | none => { state with rejected := state.rejected ++ [marker.1] }
        | some known =>
            if ownership.target = marker.2 ∧ matchesSeal disk.files marker.2 known then
              if marker.2 ∈ candidates then
                { state with
                  disk := (disk.withFiles (disk.files.unlink marker.2)).removeMarker marker.1
                  removed := state.removed ++ [marker.2] }
              else { state with disk := disk.removeMarker marker.1 }
            else { state with rejected := state.rejected ++ [marker.1] }

def cleanupRebuildableTemporaryFiles (environment : CleanupEnvironment) (grace : ℚ)
    (dryRun : Bool) (disk : Disk) : Except ResearchStoreError CleanupReport × Disk :=
  if grace < 0 then (.error (.invalidValue "grace_seconds must be non-negative"), disk)
  else
    match loadRecords parquet disk.files with
    | .error error => (.error error, disk)
    | .ok records =>
        let referenced := records.map (·.sha256)
        let inspected := environment.listing.map fun markerId =>
          (markerId, inspectMarker environment grace referenced disk markerId)
        let rejected := inspected.filterMap fun
          | (markerId, .rejected) => some markerId
          | _ => none
        let markerTargets := inspected.filterMap fun
          | (markerId, .accepted target _) => some (markerId, target)
          | _ => none
        let candidates := inspected.filterMap fun
          | (_, .accepted target true) => some target
          | _ => none
        if dryRun then (.ok ⟨candidates, [], dryRun, rejected⟩, disk)
        else
          let state := markerTargets.foldl (cleanMarker candidates) ⟨disk, [], rejected⟩
          (.ok ⟨candidates, state.removed, dryRun, state.rejected⟩, state.disk)

/-! ### Runs -/

/-- A call on the store. -/
inductive StoreCall (Frame : Type) where
  | replace (environment : Environment) (dataset key : Text) (frame : Frame) (dataVersion : Text)
  | cleanup (environment : CleanupEnvironment) (grace : ℚ) (dryRun : Bool)

def runReplace (limits : StorageLimits) (environment : Environment) (dataset key : Text)
    (frame : Frame) (dataVersion : Text) (disk : Disk) :
    Except ResearchStoreError ResearchArtifact × Disk :=
  let ended := replaceDataset parquet limits environment dataset key frame dataVersion
    ⟨disk, {}, fun _ => 0⟩
  (ended.1, ended.2.disk)

def storeStep (limits : StorageLimits) (disk : Disk) : StoreCall Frame → Disk
  | .replace environment dataset key frame dataVersion =>
      (runReplace parquet limits environment dataset key frame dataVersion disk).2
  | .cleanup environment grace dryRun =>
      (cleanupRebuildableTemporaryFiles parquet environment grace dryRun disk).2

end

end QuantWorkbench.Storage
