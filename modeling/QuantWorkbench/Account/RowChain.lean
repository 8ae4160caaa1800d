import QuantWorkbench.Account.DurableLedger
import QuantWorkbench.Lib.HashChain
import QuantWorkbench.Lib.JsonLoaded

/-!
The rows of a ledger file as a chain of digests, whatever text they are read from. What a row says
is its kind and its payload; blanks and the order of keys do not count.
-/

namespace QuantWorkbench.Account

open Lib Data

/-! ### Reading a row -/

def SpellsRow (line : Text) (row : Json) : Prop :=
  ∃ value, Json.loads line = some value ∧ value.sorted = row.sorted

theorem completeRow_sorted_congr {kind previousHash recordHash : Text} {payload other : Json}
    (h : payload.sorted = other.sorted) :
    (completeRow kind previousHash payload recordHash).sorted =
      (completeRow kind previousHash other recordHash).sorted := by
  simp only [completeRow, Json.sorted_obj, Json.sortedMembers, h]

theorem unsignedRow_sorted_congr {kind previousHash : Text} {payload other : Json}
    (h : payload.sorted = other.sorted) :
    (unsignedRow kind previousHash payload).sorted =
      (unsignedRow kind previousHash other).sorted := by
  simp only [unsignedRow, Json.sorted_obj, Json.sortedMembers, h]

/-- What the digest of a row is taken over does not show the order of the keys. -/
theorem dumps_unsignedRow_congr {kind previousHash : Text} {payload other : Json}
    (h : payload.sorted = other.sorted) :
    Json.dumps (unsignedRow kind previousHash payload) =
      Json.dumps (unsignedRow kind previousHash other) := by
  rw [Json.dumps, Json.dumps, unsignedRow_sorted_congr h]

theorem unsignedRow_writable {kind previousHash : Text} {payload : Json} (h : payload.Writable) :
    (unsignedRow kind previousHash payload).Writable := by
  refine ⟨?_, ?_⟩
  · change ["kind".toList, "previous_hash".toList, "payload".toList].Nodup
    decide
  · simp [Json.WritableMembers, Json.Writable, h]

/-- The members of an object that was read. -/
theorem textField_eq_some {value : Json} {key : String} {text : Text}
    (h : textField value key = some text) : value.member? key.toList = some (.str text) := by
  obtain ⟨member, hmember, htext⟩ := Option.bind_eq_some_iff.mp h
  cases member with
  | str other =>
      rw [hmember]
      exact congrArg (fun t => some (Json.str t)) (Option.some.inj htext)
  | _ => cases htext

theorem strip_ne_nil_of_mem {line : Text} {c : Char} (hc : c ∈ line)
    (hspace : Text.isSpace c = false) : Text.strip line ≠ [] := by
  intro h
  have hdropped : (line.dropWhile Text.isSpace).dropWhile Text.isSpace = [] :=
    List.dropWhile_eq_nil_iff.mpr (List.rdropWhile_eq_nil_iff.mp h)
  rw [List.dropWhile_idempotent, List.dropWhile_eq_nil_iff] at hdropped
  rw [hdropped c hc] at hspace
  cases hspace

/-- The text whose digest is compared when the line is read. -/
def unsignedText (line : Text) : Option Text := do
  let parsed ← Json.loads line
  let kind ← textField parsed "kind"
  let previous ← textField parsed "previous_hash"
  let payload ← parsed.member? "payload".toList
  some (Json.dumps (unsignedRow kind previous payload))

/-- What the checks of one line have made sure of. -/
structure ReadsRow (previousHash line : Text) (row : StoredRow) : Prop where
  hashed : unsignedText line = some (Json.dumps (unsignedRow row.kind previousHash row.payload))
  spells : SpellsRow line (completeRow row.kind previousHash row.payload row.recordHash)
  kind : row.kind = "fill".toList ∨ row.kind = "correction".toList
  hash : row.recordHash = digest (unsignedRow row.kind previousHash row.payload)
  writable : row.payload.Writable

theorem readRow_some {previousHash line : Text} {row : StoredRow}
    (h : readRow previousHash line = some row) : ReadsRow previousHash line row := by
  rw [readRow] at h
  by_cases hstrip : Text.strip line = []
  · rw [if_pos hstrip] at h
    cases h
  rw [if_neg hstrip] at h
  obtain ⟨value, hloads, h⟩ := Option.bind_eq_some_iff.mp h
  obtain ⟨kind, hkind, h⟩ := Option.bind_eq_some_iff.mp h
  obtain ⟨previous, hprevious, h⟩ := Option.bind_eq_some_iff.mp h
  obtain ⟨payload, hpayload, h⟩ := Option.bind_eq_some_iff.mp h
  obtain ⟨recordHash, hhash, h⟩ := Option.bind_eq_some_iff.mp h
  split at h
  · rename_i hchecks
    obtain ⟨hkeys, hkinds, hchained, hdigest⟩ := hchecks
    cases h
    subst hchained
    have hwritable := Json.loads_writable hloads
    cases value with
    | obj members =>
        obtain ⟨hnodup, hvalues⟩ := hwritable
        refine ⟨?_, ⟨.obj members, hloads, ?_⟩, hkinds, hdigest, ?_⟩
        · simp only [unsignedText, hloads, hkind, hprevious, hpayload, Option.bind_eq_bind,
            Option.bind_some]
        · apply Json.sorted_eq_of_member? hnodup (completeRow_nodup _ _ _ _)
          intro key
          by_cases hrequired : key ∈ requiredKeys
          · simp only [requiredKeys, List.mem_cons, List.not_mem_nil, or_false] at hrequired
            rcases hrequired with rfl | rfl | rfl | rfl
            · rw [textField_eq_some hkind]
              rfl
            · rw [textField_eq_some hprevious]
              rfl
            · rw [hpayload]
              rfl
            · rw [textField_eq_some hhash]
              rfl
          · rw [Json.hasKeys, Bool.and_eq_true, List.all_eq_true, List.all_eq_true] at hkeys
            rw [Json.member?_eq_none, Json.member?_eq_none]
            · exact hrequired
            · intro hmem
              exact hrequired (by simpa using hkeys.2 key hmem)
        · obtain ⟨member, hfound, rfl⟩ := Option.map_eq_some_iff.mp hpayload
          exact Json.writableMembers_iff.mp hvalues member (List.mem_of_find?_eq_some hfound)
    | _ => cases hkind
  · cases h

theorem readRow_of_spells {previousHash line kind recordHash : Text} {payload : Json}
    (h : SpellsRow line (completeRow kind previousHash payload recordHash))
    (hkind : kind = "fill".toList ∨ kind = "correction".toList)
    (hhash : recordHash = digest (unsignedRow kind previousHash payload)) :
    ∃ row, readRow previousHash line = some row ∧ row.kind = kind ∧
      row.payload.sorted = payload.sorted ∧ row.recordHash = recordHash := by
  obtain ⟨value, hloads, hsorted⟩ := h
  cases value with
  | obj members =>
      have hnodup : (members.map (·.1)).Nodup := (Json.loads_writable hloads).1
      have hcomplete := completeRow_nodup kind previousHash payload recordHash
      have htext : ∀ key, textField (.obj members) key =
          textField (completeRow kind previousHash payload recordHash) key := by
        intro key
        rw [← textField_sorted hnodup, hsorted]
        exact textField_sorted hcomplete key
      have hmember : ((Json.obj members).member? "payload".toList).map Json.sorted =
          some payload.sorted := by
        rw [← Json.member?_sorted hnodup, hsorted]
        exact Json.member?_sorted hcomplete _
      obtain ⟨read, hread, hpayload⟩ := Option.map_eq_some_iff.mp hmember
      have hkeys : (Json.obj members).hasKeys requiredKeys = true := by
        have hmem : ∀ key, key ∈ members.map (·.1) ↔ key ∈ requiredKeys := by
          intro key
          rw [← Json.mem_keys_sorted, hsorted]
          exact Json.mem_keys_sorted
        rw [Json.hasKeys, Bool.and_eq_true, List.all_eq_true, List.all_eq_true]
        refine ⟨?_, ?_⟩
        · intro key hkey
          exact decide_eq_true ((hmem key).mpr hkey)
        · intro key hkey
          exact decide_eq_true ((hmem key).mp hkey)
      have hstrip : Text.strip line ≠ [] :=
        strip_ne_nil_of_mem (Json.brace_mem_of_loads hloads) (by decide)
      have hdigest : recordHash = digest (unsignedRow kind previousHash read) := by
        rw [hhash, digest, digest, dumps_unsignedRow_congr hpayload]
      refine ⟨⟨kind, read, recordHash⟩, ?_, rfl, hpayload, rfl⟩
      have hkindField : textField (.obj members) "kind" = some kind := htext "kind"
      have hpreviousField : textField (.obj members) "previous_hash" = some previousHash :=
        htext "previous_hash"
      have hhashField : textField (.obj members) "record_hash" = some recordHash :=
        htext "record_hash"
      rw [readRow, if_neg hstrip]
      simp only [hloads, hkindField, hpreviousField, hread, hhashField, Option.bind_eq_bind,
        Option.bind_some, hkeys, true_and]
      exact if_pos ⟨hkind, hdigest⟩
  | _ => simp [Json.sorted, completeRow] at hsorted

/-! ### Reading the payload -/

section

variable {D : Type} [TradeDateText D]

theorem fillFromDict_sorted {payload : Json} (h : payload.Writable) :
    (FillEvent.fromDict payload.sorted : Option (FillEvent D)) = FillEvent.fromDict payload := by
  cases payload with
  | obj members => exact FillEvent.fromDict_sorted h.1
  | _ => rfl

theorem correctionFromDict_sorted {payload : Json} (h : payload.Writable) :
    (LedgerCorrection.fromDict payload.sorted : Option (LedgerCorrection D)) =
      LedgerCorrection.fromDict payload := by
  cases payload with
  | obj members =>
      have hreplacement : ((Json.obj members).sorted.member? "replacement".toList).bind
          (FillEvent.fromDict : Json → Option (FillEvent D)) =
            ((Json.obj members).member? "replacement".toList).bind FillEvent.fromDict := by
        rw [Json.member?_sorted h.1, Option.bind_map]
        cases hmember : (Json.obj members).member? "replacement".toList with
        | none => rfl
        | some value =>
            obtain ⟨member, hfound, rfl⟩ := Option.map_eq_some_iff.mp hmember
            exact fillFromDict_sorted
              (Json.writableMembers_iff.mp h.2 member (List.mem_of_find?_eq_some hfound))
      simp only [LedgerCorrection.fromDict, textField_sorted h.1, hreplacement]
  | _ => rfl

/-- A row is read alike whatever the order of the keys of its payload. -/
theorem fromDict_sorted (kind : Text) {payload : Json} (h : payload.Writable) :
    (LedgerRecord.fromDict kind payload.sorted : Option (LedgerRecord D)) =
      LedgerRecord.fromDict kind payload := by
  rw [LedgerRecord.fromDict, LedgerRecord.fromDict, fillFromDict_sorted h,
    correctionFromDict_sorted h]

end

/-! ### The chain of a file -/

/-- What a row says, whatever the order of the keys. -/
def StoredRow.content (row : StoredRow) : Text × Json := (row.kind, row.payload.sorted)

def chainHash (previousHash : Text) (content : Text × Json) : Text :=
  digest (unsignedRow content.1 previousHash content.2)

/-- The text whose digest is taken. -/
def hashedText (input : Text × Text × Json) : Text :=
  Json.dumps (unsignedRow input.2.1 input.1 input.2.2)

theorem chainHash_ne_nil (previousHash : Text) (content : Text × Json) :
    chainHash previousHash content ≠ [] := by
  intro h
  have hlength := Sha256.hexdigest_length
    (Text.utf8 (Json.dumps (unsignedRow content.1 previousHash content.2)))
  change (chainHash previousHash content).length = 64 at hlength
  rw [h] at hlength
  cases hlength

/-- The loop over the lines, as a relation between the lines and the rows. -/
inductive ReadsRows : Text → List Text → List StoredRow → Prop where
  | nil (previousHash : Text) : ReadsRows previousHash [] []
  | cons {previousHash line : Text} {row : StoredRow} {lines : List Text} {rows : List StoredRow}
      (hrow : readRow previousHash line = some row) (hrows : ReadsRows row.recordHash lines rows) :
      ReadsRows previousHash (line :: lines) (row :: rows)

theorem readRows_eq_ok_iff {number : ℕ} {previousHash : Text} {lines : List Text}
    {rows : List StoredRow} :
    readRows number previousHash lines = .ok rows ↔ ReadsRows previousHash lines rows := by
  induction lines generalizing number previousHash rows with
  | nil =>
      constructor
      · intro h
        cases h
        exact .nil previousHash
      · rintro ⟨⟩
        rfl
  | cons line lines ih =>
      rw [readRows]
      cases hrow : readRow previousHash line with
      | none =>
          constructor
          · intro h
            cases h
          · rintro (_ | ⟨hsome, _⟩)
            rw [hrow] at hsome
            cases hsome
      | some row =>
          dsimp only
          constructor
          · intro h
            cases hrest : readRows (number + 1) row.recordHash lines with
            | error error =>
                rw [hrest] at h
                cases h
            | ok others =>
                rw [hrest] at h
                cases h
                exact .cons hrow (ih.mp hrest)
          · rintro (_ | ⟨hsome, hrows⟩)
            rw [hrow] at hsome
            cases hsome
            rw [ih.mpr hrows]
            rfl

namespace ReadsRows

variable {previousHash : Text} {lines : List Text} {rows : List StoredRow}

theorem writable (h : ReadsRows previousHash lines rows) :
    ∀ row ∈ rows, row.payload.Writable := by
  induction h with
  | nil => exact fun row hrow => absurd hrow List.not_mem_nil
  | cons hrow _ ih => exact List.forall_mem_cons.mpr ⟨(readRow_some hrow).writable, ih⟩

theorem chained_eq {previousHash line : Text} {row : StoredRow}
    (hrow : readRow previousHash line = some row) :
    chainHash previousHash row.content = row.recordHash := by
  rw [(readRow_some hrow).hash, chainHash, StoredRow.content, digest_sorted_payload]

theorem digests (h : ReadsRows previousHash lines rows) :
    rows.map (·.recordHash) =
      HashChain.digests chainHash previousHash (rows.map StoredRow.content) := by
  induction h with
  | nil => rfl
  | cons hrow _ ih =>
      rw [List.map_cons, List.map_cons, HashChain.digests, chained_eq hrow, ih]

/-- What the digests of the rows are taken over. -/
theorem inputs (h : ReadsRows previousHash lines rows) :
    ∀ input ∈ HashChain.inputs chainHash previousHash (rows.map StoredRow.content),
      hashedText input ∈ lines.filterMap unsignedText ∧ input.2.2.Writable ∧
        input.2.2.sorted = input.2.2 := by
  induction h with
  | nil => exact fun input hinput => absurd hinput List.not_mem_nil
  | @cons _ line _ _ _ hrow _ ih =>
      have hread := readRow_some hrow
      rw [List.map_cons, HashChain.inputs, chained_eq hrow]
      rw [List.forall_mem_cons]
      refine ⟨⟨?_, Json.sorted_writable _ hread.writable, Json.sorted_sorted _⟩, ?_⟩
      · apply List.mem_filterMap.mpr
        refine ⟨line, List.mem_cons_self, ?_⟩
        rw [hread.hashed, hashedText]
        exact congrArg some (dumps_unsignedRow_congr (Json.sorted_sorted _).symm)
      · intro input hinput
        obtain ⟨hmem, hvalue⟩ := ih input hinput
        refine ⟨?_, hvalue⟩
        obtain ⟨other, hother, htext⟩ := List.mem_filterMap.mp hmem
        exact List.mem_filterMap.mpr ⟨other, List.mem_cons_of_mem _ hother, htext⟩

end ReadsRows

variable {D : Type} [TradeDateText D]

/-! ### The rows of records -/

/-- What the row of a record says. -/
def LedgerRecord.chained (record : LedgerRecord D) : Text × Json :=
  (record.kind, record.toDict.sorted)

def completeRows : Text → List (LedgerRecord D) → List Json
  | _, [] => []
  | previousHash, record :: rest =>
      completeRow record.kind previousHash record.toDict (rowHash previousHash record) ::
        completeRows (rowHash previousHash record) rest

theorem chainHash_chained (previousHash : Text) (record : LedgerRecord D) :
    chainHash previousHash record.chained = rowHash previousHash record := by
  rw [chainHash, LedgerRecord.chained, digest_sorted_payload, rowHash]

theorem digests_storedRows (previousHash : Text) (records : List (LedgerRecord D)) :
    (storedRows previousHash records).map (·.recordHash) =
      HashChain.digests chainHash previousHash (records.map LedgerRecord.chained) := by
  induction records generalizing previousHash with
  | nil => rfl
  | cons record rest ih =>
      rw [storedRows, List.map_cons, List.map_cons, HashChain.digests, chainHash_chained, ih]
      rfl

theorem chained_writable (records : List (LedgerRecord D)) (previousHash : Text) :
    ∀ input ∈ HashChain.inputs chainHash previousHash (records.map LedgerRecord.chained),
      input.2.2.Writable ∧ input.2.2.sorted = input.2.2 := by
  induction records generalizing previousHash with
  | nil => exact fun input hinput => absurd hinput List.not_mem_nil
  | cons record rest ih =>
      rw [List.map_cons, HashChain.inputs, List.forall_mem_cons]
      exact ⟨⟨Json.sorted_writable _ record.toDict_writable, Json.sorted_sorted _⟩, ih _⟩

theorem ReadsRows.spells {previousHash : Text} {lines : List Text} {rows : List StoredRow}
    (h : ReadsRows previousHash lines rows) {records : List (LedgerRecord D)}
    (hcontent : rows.map StoredRow.content = records.map LedgerRecord.chained) :
    List.Forall₂ SpellsRow lines (completeRows previousHash records) := by
  induction h generalizing records with
  | nil =>
      obtain rfl : records = [] := List.map_eq_nil_iff.mp hcontent.symm
      exact .nil
  | cons hrow _ ih =>
      cases records with
      | nil => cases hcontent
      | cons record rest =>
          rw [List.map_cons, List.map_cons, List.cons.injEq] at hcontent
          obtain ⟨hsame, hrest⟩ := hcontent
          have hhash := chained_eq hrow
          rw [hsame, chainHash_chained] at hhash
          obtain ⟨value, hloads, hsorted⟩ := (readRow_some hrow).spells
          have hkind := congrArg Prod.fst hsame
          have hpayload := congrArg Prod.snd hsame
          rw [← hhash] at ih hsorted
          refine .cons ⟨value, hloads, ?_⟩ (ih hrest)
          rw [hsorted, completeRow_sorted_congr hpayload]
          exact congrArg (fun kind => (completeRow kind _ _ _).sorted) hkind

theorem readsRows_of_spells {previousHash : Text} {lines : List Text}
    {records : List (LedgerRecord D)}
    (h : List.Forall₂ SpellsRow lines (completeRows previousHash records)) :
    ∃ rows, ReadsRows previousHash lines rows ∧
      rows.map StoredRow.content = records.map LedgerRecord.chained := by
  induction records generalizing previousHash lines with
  | nil =>
      cases h
      exact ⟨[], .nil previousHash, rfl⟩
  | cons record rest ih =>
      rw [completeRows] at h
      cases h with
      | cons hline hlines =>
          obtain ⟨rows, hrows, hcontent⟩ := ih hlines
          obtain ⟨row, hrow, hkind, hpayload, hhash⟩ :=
            readRow_of_spells hline (kind_cases record) rfl
          refine ⟨row :: rows, .cons hrow (hhash ▸ hrows), ?_⟩
          rw [List.map_cons, List.map_cons, hcontent, StoredRow.content, hkind, hpayload]
          rfl

theorem recordFromRow_content {row : StoredRow} (h : row.payload.Writable) :
    (recordFromRow row : Except StoreError (LedgerRecord D)) =
      recordFromRow ⟨row.content.1, row.content.2, row.recordHash⟩ := by
  simp only [recordFromRow, StoredRow.content, fromDict_sorted _ h]

theorem mapM_recordFromRow {rows : List StoredRow} {records : List (LedgerRecord D)}
    (hwritable : ∀ row ∈ rows, row.payload.Writable)
    (hcontent : rows.map StoredRow.content = records.map LedgerRecord.chained)
    (previousHash : Text) :
    rows.mapM (recordFromRow : StoredRow → Except StoreError (LedgerRecord D)) =
      (storedRows previousHash records).mapM recordFromRow := by
  induction rows generalizing records previousHash with
  | nil =>
      obtain rfl : records = [] := List.map_eq_nil_iff.mp hcontent.symm
      rfl
  | cons row rows ih =>
      cases records with
      | nil => cases hcontent
      | cons record rest =>
          rw [List.map_cons, List.map_cons, List.cons.injEq] at hcontent
          obtain ⟨hrow, hrows⟩ := List.forall_mem_cons.mp hwritable
          have hfirst : (recordFromRow row : Except StoreError (LedgerRecord D)) =
              recordFromRow (storedRow previousHash record) := by
            rw [recordFromRow_content hrow, hcontent.1]
            rfl
          rw [storedRows, List.mapM_cons, List.mapM_cons, hfirst,
            ih hrows hcontent.2 (rowHash previousHash record)]

end QuantWorkbench.Account
