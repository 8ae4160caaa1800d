import QuantWorkbench.Lib.Fallible
import QuantWorkbench.Lib.IsoText
import QuantWorkbench.Lib.JsonLines
import QuantWorkbench.Lib.Sha256

/-!
The records of the research manifest: what `_validate_record` lets in, the line a
record is written as, and that the line is read back. A record that is not valid
cannot be built.
-/

namespace QuantWorkbench.Storage

open Lib

inductive ResearchStoreError where
  | osError
  | unreadableParquet
  | missingKey (message : String)
  | invalidValue (message : String)
  | boundary (message : String)
  | integrity (message : String)
  | conflict (message : String)
  | quota (message : String)
  deriving DecidableEq, Repr

/-! ### What identifies a record -/

inductive ResearchDataset where
  | instrumentHistory
  | pointInTimeUniverse
  | researchReturns
  | corporateActions
  | frozenSnapshots
  | trialEvidence
  deriving DecidableEq, Repr

namespace ResearchDataset

def value : ResearchDataset → Text
  | instrumentHistory => "instrument_history".toList
  | pointInTimeUniverse => "point_in_time_universe".toList
  | researchReturns => "research_returns".toList
  | corporateActions => "corporate_actions".toList
  | frozenSnapshots => "frozen_snapshots".toList
  | trialEvidence => "trial_evidence".toList

def all : List ResearchDataset :=
  [instrumentHistory, pointInTimeUniverse, researchReturns, corporateActions, frozenSnapshots,
    trialEvidence]

def ofValue? (text : Text) : Option ResearchDataset := all.find? fun dataset => dataset.value = text

@[simp] theorem ofValue?_value (dataset : ResearchDataset) : ofValue? dataset.value = some dataset := by
  cases dataset <;> decide

end ResearchDataset

def validateDataset (dataset : Text) : Except ResearchStoreError ResearchDataset :=
  orRaise (ResearchDataset.ofValue? dataset)
    (.invalidValue "dataset is not in the governed allowlist")

def isKeyText : Text → Bool
  | [] => false
  | c :: rest => c.isAlphanum && decide (rest.length ≤ 127) &&
      rest.all fun d => d.isAlphanum || d = '.' || d = '_' || d = '-'

def reservedDeviceNames : List Text :=
  (["CON", "PRN", "AUX", "NUL", "CONIN$", "CONOUT$", "COM¹", "COM²", "COM³", "LPT¹", "LPT²", "LPT³"] ++
    ["COM1", "COM2", "COM3", "COM4", "COM5", "COM6", "COM7", "COM8", "COM9", "LPT1", "LPT2", "LPT3",
      "LPT4", "LPT5", "LPT6", "LPT7", "LPT8", "LPT9"]).map String.toList

/-- A key is a component of a path that Windows has. Keys have no blanks to strip. -/
def namesDevice (key : Text) : Bool := Text.upper (key.takeWhile (· ≠ '.')) ∈ reservedDeviceNames

structure LogicalKey where
  text : Text
  pattern : isKeyText text = true
  noFinalDot : text.getLast? ≠ some '.'
  noDevice : namesDevice text = false
  deriving DecidableEq

def validateKey (key : Text) : Except ResearchStoreError LogicalKey :=
  if hpattern : isKeyText key = true then
    if hdot : key.getLast? = some '.' then .error (.boundary "项目目录路径组件不能以点或空格结尾")
    else
      match hdevice : namesDevice key with
      | true => .error (.boundary "项目目录路径不能使用 Windows 保留设备名")
      | false => .ok ⟨key, hpattern, hdot, hdevice⟩
  else .error (.invalidValue "logical key is not path safe")

@[simp] theorem validateKey_text (key : LogicalKey) : validateKey key.text = .ok key := by
  rw [validateKey, dif_pos key.pattern, dif_neg key.noFinalDot]
  split
  · rename_i hdevice
    rw [key.noDevice] at hdevice
    cases hdevice
  · rfl

/-- What `replace_dataset` and `_validate_record` ask of a version. -/
def isVersionText (text : Text) : Bool :=
  !text.isEmpty && decide (text.length ≤ 256) &&
    text.all fun c => c ≠ '\r' && c ≠ '\n' && c ≠ Char.ofNat 0

structure DataVersion where
  text : Text
  accepted : isVersionText text = true
  deriving DecidableEq

def DataVersion.ofText? (text : Text) : Option DataVersion :=
  if h : isVersionText text = true then some ⟨text, h⟩ else none

@[simp] theorem DataVersion.ofText?_text (version : DataVersion) :
    ofText? version.text = some version :=
  dif_pos version.accepted

/-! ### Digests and instants -/

def isHexDigit (c : Char) : Bool := c.isDigit || ('a'.val ≤ c.val && c.val ≤ 'f'.val)

def isDigestText (text : Text) : Bool := decide (text.length = 64) && text.all isHexDigit

structure Digest where
  text : Text
  wellFormed : isDigestText text = true
  deriving DecidableEq

namespace Digest

def ofText? (text : Text) : Option Digest :=
  if h : isDigestText text = true then some ⟨text, h⟩ else none

@[simp] theorem ofText?_text (digest : Digest) : ofText? digest.text = some digest :=
  dif_pos digest.wellFormed

theorem hexdigest_wellFormed (content : List UInt8) :
    isDigestText (Sha256.hexdigest content) = true := by
  have hall : ∀ n : Fin 16, isHexDigit (Nat.digitChar n) = true := by decide
  simp only [isDigestText, Bool.and_eq_true, decide_eq_true_eq, List.all_eq_true]
  refine ⟨Sha256.hexdigest_length content, ?_⟩
  intro c hc
  obtain ⟨n, hn, rfl⟩ := Sha256.hexdigest_digits content c hc
  exact hall ⟨n, hn⟩

def ofContent (content : List UInt8) : Digest := ⟨Sha256.hexdigest content, hexdigest_wellFormed content⟩

end Digest

/-- `datetime.fromisoformat` after the zone `Z` is spelt out. -/
def readInstant (text : Text) : Option UtcDateTime :=
  UtcDateTime.fromisoformat (text.flatMap fun c => if c = 'Z' then "+00:00".toList else [c])

/-- A text that stands for an instant. -/
structure Timestamp where
  text : Text
  instant : UtcDateTime
  reads : readInstant text = some instant
  deriving DecidableEq

namespace Timestamp

def ofText? (text : Text) : Option Timestamp :=
  match h : readInstant text with
  | some instant => some ⟨text, instant, h⟩
  | none => none

@[simp] theorem ofText?_text (stamp : Timestamp) : ofText? stamp.text = some stamp := by
  rw [ofText?]
  split
  · rename_i instant h
    obtain rfl : instant = stamp.instant := Option.some.inj (h.symm.trans stamp.reads)
    rfl
  · rename_i h
    rw [stamp.reads] at h
    cases h

/-- `isoformat()` with the zone written as `Z`. -/
def zuluText (t : UtcDateTime) : Text := t.date.isoformat ++ 'T' :: (t.timeText ++ ['Z'])

theorem zone_not_mem_digitsText (width n : ℕ) : 'Z' ∉ digitsText width n := by
  intro hmem
  have hdigit := digitsText_all width n _ hmem
  cases hdigit

theorem zone_not_mem_date (d : Date) : 'Z' ∉ d.isoformat := by
  simp [Date.isoformat, zone_not_mem_digitsText]

theorem zone_not_mem_time (t : UtcDateTime) : 'Z' ∉ t.timeText := by
  rw [UtcDateTime.timeText]
  split <;> simp [zone_not_mem_digitsText]

/-- Without the letter nothing is spelt out. -/
theorem spelt_of_not_mem {text : Text} (h : 'Z' ∉ text) :
    (text.flatMap fun c => if c = 'Z' then "+00:00".toList else [c]) = text := by
  induction text with
  | nil => rfl
  | cons c rest ih =>
      rw [List.mem_cons, not_or] at h
      rw [List.flatMap_cons, if_neg (Ne.symm h.1), ih h.2, List.singleton_append]

theorem readInstant_zuluText (t : UtcDateTime) : readInstant (zuluText t) = some t := by
  have hspelt : (zuluText t).flatMap (fun c => if c = 'Z' then "+00:00".toList else [c]) =
      t.isoformat := by
    rw [zuluText, List.flatMap_append, List.flatMap_cons, List.flatMap_append,
      spelt_of_not_mem (zone_not_mem_date t.date), spelt_of_not_mem (zone_not_mem_time t)]
    rfl
  rw [readInstant, hspelt, UtcDateTime.fromisoformat_isoformat]

def ofInstant (t : UtcDateTime) : Timestamp := ⟨zuluText t, t, readInstant_zuluText t⟩

end Timestamp

/-! ### Records -/

structure ManifestRecord where
  createdAt : Timestamp
  dataVersion : DataVersion
  dataset : ResearchDataset
  key : LogicalKey
  rowCount : ℕ
  schemaFingerprint : Digest
  sha256 : Digest
  sizeBytes : ℕ
  deriving DecidableEq

def manifestSchema : Text := "a-share-quant.research-artifact".toList

def recordId (dataset : ResearchDataset) (key : LogicalKey) (dataVersion : DataVersion)
    (sha256 : Digest) : Digest :=
  .ofContent (Text.utf8 (dataset.value ++ Char.ofNat 0 :: (key.text ++ Char.ofNat 0 ::
    (dataVersion.text ++ Char.ofNat 0 :: sha256.text))))

/-- The path of a blob below the root of the store. -/
def blobPath (sha256 : Digest) : Text := "blobs/".toList ++ sha256.text ++ ".parquet".toList

def canonicalRecordSha256 (record : Json) : Digest :=
  .ofContent (Text.utf8 (Json.dumps (record.without "record_sha256")))

namespace ManifestRecord

def id (record : ManifestRecord) : Digest :=
  recordId record.dataset record.key record.dataVersion record.sha256

def logicalKey (record : ManifestRecord) : ResearchDataset × LogicalKey :=
  (record.dataset, record.key)

instance lawfulLogicalVersion : LawfulBEq (ResearchDataset × LogicalKey × DataVersion) :=
  inferInstance

def logicalVersion (record : ManifestRecord) : ResearchDataset × LogicalKey × DataVersion :=
  (record.dataset, record.key, record.dataVersion)

/-- The fields that come before `record_sha256` in the order of the keys. -/
def leadingMembers (record : ManifestRecord) : List (Text × Json) :=
  [("blob_path".toList, .str (blobPath record.sha256)),
    ("created_at".toList, .str record.createdAt.text),
    ("data_version".toList, .str record.dataVersion.text),
    ("dataset".toList, .str record.dataset.value),
    ("key".toList, .str record.key.text),
    ("manifest_schema".toList, .str manifestSchema),
    ("manifest_version".toList, .int 1),
    ("record_id".toList, .str record.id.text)]

def trailingMembers (record : ManifestRecord) : List (Text × Json) :=
  [("row_count".toList, .int record.rowCount),
    ("schema_fingerprint".toList, .str record.schemaFingerprint.text),
    ("sha256".toList, .str record.sha256.text),
    ("size_bytes".toList, .int record.sizeBytes)]

/-- The record as `replace_dataset` writes it. -/
def toJson (record : ManifestRecord) : Json :=
  .obj (record.leadingMembers ++
    ("record_sha256".toList,
      .str (canonicalRecordSha256 (.obj (record.leadingMembers ++ record.trailingMembers))).text) ::
    record.trailingMembers)

end ManifestRecord

def recordFields : List Text :=
  ["blob_path".toList, "created_at".toList, "data_version".toList, "dataset".toList,
    "key".toList, "manifest_schema".toList, "manifest_version".toList, "record_id".toList,
    "record_sha256".toList, "row_count".toList, "schema_fingerprint".toList, "sha256".toList,
    "size_bytes".toList]

def digestField (record : Json) (field : String) : Except ResearchStoreError Digest :=
  orRaise ((record.text? field).bind Digest.ofText?) (.integrity s!"manifest {field} 无效")

/-- The dataset and the key of a record; what is wrong with them is not told. -/
def logicalIdentity (record : Json) : Except ResearchStoreError (ResearchDataset × LogicalKey) :=
  match validateDataset ((record.text? "dataset").getD []), validateKey ((record.text? "key").getD []) with
  | .ok dataset, .ok key => .ok (dataset, key)
  | _, _ => .error (.integrity "manifest 逻辑标识无效")

def validateRecord (record : Json) : Except ResearchStoreError ManifestRecord := do
  require (record.hasKeys recordFields = true) (.integrity "manifest schema 字段无效")
  require (record.text? "manifest_schema" = some manifestSchema ∧
    record.count? "manifest_version" = some 1) (.integrity "manifest schema/version 不受支持")
  let dataVersion ← orRaise ((record.text? "data_version").bind DataVersion.ofText?)
    (.integrity "manifest data_version 无效")
  let (dataset, key) ← logicalIdentity record
  let sha256 ← digestField record "sha256"
  let schemaFingerprint ← digestField record "schema_fingerprint"
  let id ← digestField record "record_id"
  let recordSha256 ← digestField record "record_sha256"
  let rowCount ← orRaise (record.count? "row_count") (.integrity "manifest row_count 无效")
  let sizeBytes ← orRaise (record.count? "size_bytes") (.integrity "manifest size_bytes 无效")
  let createdAt ← orRaise ((record.text? "created_at").bind Timestamp.ofText?)
    (.integrity "manifest created_at 无效")
  require (id = recordId dataset key dataVersion sha256) (.integrity "manifest 记录摘要不匹配")
  require (record.text? "blob_path" = some (blobPath sha256))
    (.integrity "manifest blob 路径越界或不规范")
  require (recordSha256 = canonicalRecordSha256 record) (.integrity "manifest record 摘要不匹配")
  return { createdAt, dataVersion, dataset, key, rowCount, schemaFingerprint, sha256, sizeBytes }

/-! ### Writing and reading back -/

namespace ManifestRecord

variable (record : ManifestRecord)

theorem toJson_keys : record.toJson.keys = recordFields := rfl

theorem toJson_writable : record.toJson.Writable := by
  refine ⟨?_, ?_⟩
  · change recordFields.Nodup
    decide
  · simp [Json.WritableMembers, Json.Writable, leadingMembers, trailingMembers]

/-- The fields are written in the order of the keys. -/
theorem toJson_sorted : record.toJson.sorted = record.toJson := by
  apply Json.sorted_of_inOrder
  · change recordFields.Pairwise (· ≤ ·)
    decide
  · simp [leadingMembers, trailingMembers, Json.isScalar]

theorem loads_dumps_toJson : Json.loads (Json.dumps record.toJson) = some record.toJson := by
  rw [Json.loads_dumps record.toJson_writable, toJson_sorted]

theorem toJson_hasKeys : record.toJson.hasKeys recordFields = true := by
  have h := Json.hasKeys_sorted record.toJson_keys
  rwa [← toJson_sorted]

theorem toJson_unsigned : record.toJson.without "record_sha256" =
    .obj (record.leadingMembers ++ record.trailingMembers) := rfl

theorem logicalIdentity_toJson :
    logicalIdentity record.toJson = .ok (record.dataset, record.key) := by
  have hdataset : record.toJson.text? "dataset" = some record.dataset.value := rfl
  have hkey : record.toJson.text? "key" = some record.key.text := rfl
  rw [logicalIdentity, hdataset, hkey]
  simp [validateDataset, orRaise]

theorem digestField_toJson {field : String} {digest : Digest}
    (h : record.toJson.text? field = some digest.text) :
    digestField record.toJson field = .ok digest := by
  rw [digestField, h]
  simp [orRaise]

/-- A record is read back from its fields. -/
theorem validateRecord_toJson : validateRecord record.toJson = .ok record := by
  have hschema : record.toJson.text? "manifest_schema" = some manifestSchema := rfl
  have hversion : record.toJson.count? "manifest_version" = some 1 := rfl
  have hdata : record.toJson.text? "data_version" = some record.dataVersion.text := rfl
  have hcreated : record.toJson.text? "created_at" = some record.createdAt.text := rfl
  have hrows : record.toJson.count? "row_count" = some record.rowCount := rfl
  have hsize : record.toJson.count? "size_bytes" = some record.sizeBytes := rfl
  have hpath : record.toJson.text? "blob_path" = some (blobPath record.sha256) := rfl
  have hsha : digestField record.toJson "sha256" = .ok record.sha256 :=
    record.digestField_toJson rfl
  have hfingerprint : digestField record.toJson "schema_fingerprint" =
      .ok record.schemaFingerprint :=
    record.digestField_toJson rfl
  have hid : digestField record.toJson "record_id" = .ok record.id := record.digestField_toJson rfl
  have hrecord : digestField record.toJson "record_sha256" =
      .ok (canonicalRecordSha256 (.obj (record.leadingMembers ++ record.trailingMembers))) :=
    record.digestField_toJson rfl
  have hcanonical : canonicalRecordSha256 (.obj (record.leadingMembers ++ record.trailingMembers)) =
      canonicalRecordSha256 record.toJson := by
    rw [canonicalRecordSha256, canonicalRecordSha256, toJson_unsigned]
    rfl
  have hrequire : ∀ {condition : Prop} [Decidable condition] (error : ResearchStoreError),
      condition → require condition error = .ok () := fun _ h => require_eq_ok_iff.mpr h
  rw [validateRecord, hrequire _ record.toJson_hasKeys, hrequire _ ⟨hschema, hversion⟩, hdata,
    logicalIdentity_toJson, hsha, hfingerprint, hid, hrecord, hrows, hsize, hcreated]
  simp only [bind, Except.bind, Option.bind_some, DataVersion.ofText?_text,
    Timestamp.ofText?_text, orRaise]
  have hsame : record.id = recordId record.dataset record.key record.dataVersion record.sha256 :=
    rfl
  rw [hrequire _ hsame, hrequire _ hpath, hrequire _ hcanonical]
  rfl

end ManifestRecord

/-! ### The manifest -/

def manifestText (records : List ManifestRecord) : Text :=
  Json.joined (records.map ManifestRecord.toJson)

def readRecord (number : ℕ) (line : Text) : Except ResearchStoreError ManifestRecord := do
  let record ← orRaise (Json.loads line) (.integrity s!"manifest 第 {number} 行无效")
  validateRecord record

/-- The loop of `_load_records` over the numbered lines, with the identities that came
before. -/
def loadLines (validateBlob : ManifestRecord → Except ResearchStoreError Unit) :
    ℕ → List ManifestRecord → List Text → Except ResearchStoreError (List ManifestRecord)
  | _, earlier, [] => .ok earlier
  | number, earlier, line :: rest => do
      let record ← readRecord number line
      require (record.id ∉ earlier.map ManifestRecord.id) (.integrity "manifest 含重复或冲突记录")
      require (record.logicalVersion ∉ earlier.map ManifestRecord.logicalVersion)
        (.conflict "manifest 同一逻辑 dataset/key/data_version 存在重复或冲突")
      validateBlob record
      loadLines validateBlob (number + 1) (earlier ++ [record]) rest

def loadManifest (validateBlob : ManifestRecord → Except ResearchStoreError Unit)
    (manifest : Option Text) : Except ResearchStoreError (List ManifestRecord) :=
  match manifest with
  | none => .ok []
  | some text => do
      require (text = [] ∨ text.getLast? = some '\n') (.integrity "manifest 截断或缺少终止换行")
      loadLines validateBlob 1 [] (Json.lines text)

theorem readRecord_dumps (number : ℕ) (record : ManifestRecord) :
    readRecord number (Json.dumps record.toJson) = .ok record := by
  rw [readRecord, record.loads_dumps_toJson]
  exact record.validateRecord_toJson

theorem manifestText_lines (records : List ManifestRecord) :
    Json.lines (manifestText records) = records.map fun record => Json.dumps record.toJson := by
  rw [manifestText, Json.lines_joined, List.map_map]
  · rfl
  · intro value hvalue
    obtain ⟨record, _, rfl⟩ := List.mem_map.mp hvalue
    exact record.toJson_writable

theorem manifestText_getLast (records : List ManifestRecord) :
    manifestText records = [] ∨ (manifestText records).getLast? = some '\n' := by
  rcases List.eq_nil_or_concat records with rfl | ⟨front, last, rfl⟩
  · exact Or.inl rfl
  · right
    rw [manifestText, List.concat_eq_append, List.map_append, Json.joined_append]
    simp [Json.joined]

theorem manifestText_append (records : List ManifestRecord) (record : ManifestRecord) :
    manifestText (records ++ [record]) =
      manifestText records ++ (Json.dumps record.toJson ++ ['\n']) := by
  rw [manifestText, List.map_append, Json.joined_append]
  simp [Json.joined, manifestText]

/-- No two records have one identity or one logical version. -/
structure Distinct (records : List ManifestRecord) : Prop where
  ids : (records.map ManifestRecord.id).Nodup
  versions : (records.map ManifestRecord.logicalVersion).Nodup

theorem distinct_nil : Distinct [] := ⟨List.nodup_nil, List.nodup_nil⟩

theorem distinct_concat_iff {records : List ManifestRecord} {record : ManifestRecord} :
    Distinct (records ++ [record]) ↔ Distinct records ∧
      record.id ∉ records.map ManifestRecord.id ∧
      record.logicalVersion ∉ records.map ManifestRecord.logicalVersion := by
  have hnodup : ∀ {α : Type} (f : ManifestRecord → α), ((records ++ [record]).map f).Nodup ↔
      (records.map f).Nodup ∧ f record ∉ records.map f := by
    intro α f
    rw [List.map_append, List.map_singleton, ← List.concat_eq_append, List.nodup_concat,
      and_comm]
  constructor
  · intro h
    obtain ⟨hids, hid⟩ := (hnodup _).mp h.ids
    obtain ⟨hversions, hversion⟩ := (hnodup _).mp h.versions
    exact ⟨⟨hids, hversions⟩, hid, hversion⟩
  · rintro ⟨h, hid, hversion⟩
    exact ⟨(hnodup _).mpr ⟨h.ids, hid⟩, (hnodup _).mpr ⟨h.versions, hversion⟩⟩

theorem Distinct.prefix {records more : List ManifestRecord} (h : Distinct (records ++ more)) :
    Distinct records := by
  have hids := h.ids
  have hversions := h.versions
  rw [List.map_append] at hids hversions
  exact ⟨hids.of_append_left, hversions.of_append_left⟩

/-- Written records are loaded exactly if they are distinct and their blobs are valid. -/
theorem loadLines_eq_ok_iff (validateBlob : ManifestRecord → Except ResearchStoreError Unit)
    (records : List ManifestRecord) :
    ∀ (number : ℕ) (earlier loaded : List ManifestRecord), Distinct earlier →
      (loadLines validateBlob number earlier
          (records.map fun record => Json.dumps record.toJson) = .ok loaded ↔
        loaded = earlier ++ records ∧ Distinct (earlier ++ records) ∧
          ∀ record ∈ records, validateBlob record = .ok ()) := by
  induction records with
  | nil =>
      intro number earlier loaded hearlier
      rw [List.map_nil, loadLines, List.append_nil]
      constructor
      · intro h
        cases h
        exact ⟨rfl, hearlier, fun _ hmem => absurd hmem List.not_mem_nil⟩
      · rintro ⟨rfl, _⟩
        rfl
  | cons record rest ih =>
      intro number earlier loaded hearlier
      rw [List.map_cons, loadLines, readRecord_dumps]
      have hjoined : earlier ++ record :: rest = (earlier ++ [record]) ++ rest := by simp
      constructor
      · intro h
        obtain ⟨_, hrecord, h⟩ := bind_eq_ok_iff.mp h
        cases hrecord
        obtain ⟨_, hid, h⟩ := bind_eq_ok_iff.mp h
        obtain ⟨_, hversion, h⟩ := bind_eq_ok_iff.mp h
        obtain ⟨_, hblob, h⟩ := bind_eq_ok_iff.mp h
        have hnext : Distinct (earlier ++ [record]) := distinct_concat_iff.mpr
          ⟨hearlier, require_eq_ok_iff.mp hid, require_eq_ok_iff.mp hversion⟩
        obtain ⟨rfl, hall, hrest⟩ := (ih _ _ _ hnext).mp h
        rw [hjoined]
        exact ⟨rfl, hall, List.forall_mem_cons.mpr ⟨hblob, hrest⟩⟩
      · rintro ⟨rfl, hall, hblobs⟩
        rw [hjoined] at hall ⊢
        obtain ⟨hblob, hrest⟩ := List.forall_mem_cons.mp hblobs
        obtain ⟨_, hid, hversion⟩ := distinct_concat_iff.mp hall.prefix
        refine bind_eq_ok_iff.mpr ⟨record, rfl, ?_⟩
        refine bind_eq_ok_iff.mpr ⟨(), require_eq_ok_iff.mpr hid, ?_⟩
        refine bind_eq_ok_iff.mpr ⟨(), require_eq_ok_iff.mpr hversion, ?_⟩
        refine bind_eq_ok_iff.mpr ⟨(), hblob, ?_⟩
        exact (ih _ _ _ hall.prefix).mpr ⟨rfl, hall, hrest⟩

theorem loadManifest_eq_ok_iff {validateBlob : ManifestRecord → Except ResearchStoreError Unit}
    {records loaded : List ManifestRecord} :
    loadManifest validateBlob (some (manifestText records)) = .ok loaded ↔
      loaded = records ∧ Distinct records ∧ ∀ record ∈ records, validateBlob record = .ok () := by
  have hlines := loadLines_eq_ok_iff validateBlob records 1 [] loaded
    distinct_nil
  rw [List.nil_append] at hlines
  rw [loadManifest, manifestText_lines, ← hlines]
  constructor
  · intro h
    obtain ⟨_, _, h⟩ := bind_eq_ok_iff.mp h
    exact h
  · intro h
    exact bind_eq_ok_iff.mpr ⟨(), require_eq_ok_iff.mpr (manifestText_getLast records), h⟩

/-! ### Lengths -/

theorem Digest.text_length (digest : Digest) : digest.text.length = 64 := by
  have h := digest.wellFormed
  rw [isDigestText, Bool.and_eq_true, decide_eq_true_eq] at h
  exact h.1

theorem encode_digest_length (digest : Digest) : (Json.encode (.str digest.text)).length ≤ 386 := by
  have hquote := Json.quote_length_le digest.text
  rw [digest.text_length] at hquote
  rw [Json.encode]
  exact hquote

theorem ManifestRecord.line_length_le (record : ManifestRecord) :
    (Json.dumps record.toJson).length ≤
      6 * (record.createdAt.text.length + record.dataVersion.text.length +
        record.key.text.length + record.dataset.value.length) +
      (Json.intText record.rowCount).length + (Json.intText record.sizeBytes).length + 3000 := by
  have hkeys : (recordFields.map fun key => (Json.quote key).length).sum = 163 := by
    decide +kernel
  have hschema : (Json.encode (.str manifestSchema)).length = 33 := by decide +kernel
  have hone : (Json.encode (.int 1)).length = 1 := by decide +kernel
  have hpath : (Json.encode (.str (blobPath record.sha256))).length ≤ 470 := by
    have hquote := Json.quote_length_le (blobPath record.sha256)
    have hlengths : ∀ a b c : Text, (a ++ b ++ c).length = a.length + b.length + c.length := by
      intro a b c
      rw [List.length_append, List.length_append]
    have hlength : (blobPath record.sha256).length =
        "blobs/".toList.length + record.sha256.text.length + ".parquet".toList.length :=
      hlengths _ _ _
    have hends : "blobs/".toList.length = 6 ∧ ".parquet".toList.length = 8 := by decide +kernel
    have hdigest := record.sha256.text_length
    rw [Json.encode]
    omega
  have htext : ∀ text : Text, (Json.encode (.str text)).length ≤ 6 * text.length + 2 := by
    intro text
    rw [Json.encode]
    exact Json.quote_length_le text
  have hid := encode_digest_length record.id
  have hsha := encode_digest_length record.sha256
  have hfingerprint := encode_digest_length record.schemaFingerprint
  have hsigned := encode_digest_length
    (canonicalRecordSha256 (.obj (record.leadingMembers ++ record.trailingMembers)))
  have hcreated := htext record.createdAt.text
  have hversion := htext record.dataVersion.text
  have hkey := htext record.key.text
  have hdataset := htext record.dataset.value
  have hlength : (Json.dumps record.toJson).length ≤
      (recordFields.map fun key => (Json.quote key).length).sum +
        ([.str (blobPath record.sha256), .str record.createdAt.text, .str record.dataVersion.text,
          .str record.dataset.value, .str record.key.text, .str manifestSchema, .int 1,
          .str record.id.text, .str (canonicalRecordSha256
            (.obj (record.leadingMembers ++ record.trailingMembers))).text, .int record.rowCount,
          .str record.schemaFingerprint.text, .str record.sha256.text,
          .int record.sizeBytes].map fun value : Json => (Json.encode value).length).sum +
        2 * recordFields.length + 2 := by
    rw [Json.dumps, record.toJson_sorted]
    exact Json.encode_obj_length record.toJson_keys rfl
  have hcount : recordFields.length = 13 := rfl
  have hrows : (Json.encode (.int record.rowCount)).length = (Json.intText record.rowCount).length := by
    rw [Json.encode]
  have hsize : (Json.encode (.int record.sizeBytes)).length = (Json.intText record.sizeBytes).length := by
    rw [Json.encode]
  simp only [List.map_cons, List.map_nil, List.sum_cons, List.sum_nil] at hlength
  omega

end QuantWorkbench.Storage
