import QuantWorkbench.Account.RowChain
import QuantWorkbench.Lib.JsonBytes

/-!
What the chain of digests tells of a damaged ledger file. Each row answers for the rows before it
and none for those after it, so a file that spells the first rows of the original, and no more, is
read without complaint.
-/

namespace QuantWorkbench.Account

open Lib Data

variable {D : Type} [TradeDateText D]

/-! ### Files of bytes -/

inductive ReadError where
  | undecodable
  | store (error : StoreError)
  deriving DecidableEq, Repr

def loadBytes (bytes : List UInt8) : Except ReadError (List (LedgerRecord D)) :=
  match Text.decodeUtf8 bytes with
  | none => .error .undecodable
  | some text => (loadRecords (some text)).mapError .store

/-- The lines of a text as `_validated_rows` goes through them. -/
def fileLines (text : Text) : List Text := Text.splitlines (Text.universalNewlines text)

def fileRows (bytes : List UInt8) : List (List UInt8) :=
  (Line.split Text.byteEnds bytes).map Line.raw

section

variable [DecidableEq D]

/-- The file after calls of `append`, of which some may be refused. -/
def appendAll (records : List (LedgerRecord D)) : Option Text :=
  records.foldl (fun file record =>
    match appendRecord file record with
    | .error _ => file
    | .ok result => result.2) none

def acceptedRecords (records : List (LedgerRecord D)) : List (LedgerRecord D) :=
  records.foldl (fun stored record =>
    match appendRecord (fileOf stored) record with
    | .error _ => stored
    | .ok _ => addRecord stored record) []

theorem appendAll_eq (records : List (LedgerRecord D)) :
    appendAll records = fileOf (acceptedRecords records) := by
  induction records using List.reverseRecOn with
  | nil => rfl
  | append_singleton records record ih =>
      rw [appendAll, acceptedRecords, List.foldl_append, List.foldl_append]
      change (match appendRecord (appendAll records) record with
        | .error _ => appendAll records
        | .ok result => result.2) = fileOf (match
          appendRecord (fileOf (acceptedRecords records)) record with
        | .error _ => acceptedRecords records
        | .ok _ => addRecord (acceptedRecords records) record)
      rw [ih]
      cases happend : appendRecord (fileOf (acceptedRecords records)) record with
      | error error => rfl
      | ok result => exact appendRecord_ok happend

theorem appendAll_text (records : List (LedgerRecord D)) :
    (appendAll records).getD [] = fileText [] (acceptedRecords records) := by
  rw [appendAll_eq, fileOf]
  split
  · rename_i hnone
    rw [hnone]
    rfl
  · rfl

end

/-! ### Damage -/

/-- No row that is read has another digest than the stored rows have. -/
def NothingRehashed (stored : List (LedgerRecord D)) (bytes : List UInt8) : Prop :=
  ∀ text rows, Text.decodeUtf8 bytes = some text → validatedRows (some text) = .ok rows →
    ∀ row ∈ rows, row.recordHash ∈ (storedRows [] stored).map (·.recordHash)

/-- What can become of the file: it is cut at some byte, its rows are deleted, repeated or put into
another order, or bytes of it are changed, the digests not being computed again. -/
inductive Damaged [DecidableEq D] (records : List (LedgerRecord D)) : List UInt8 → Prop where
  | truncated {bytes : List UInt8} (h : bytes <+: Text.utf8 ((appendAll records).getD [])) :
      Damaged records bytes
  | rearranged (rows : List (List UInt8))
      (h : ∀ row ∈ rows, row ∈ fileRows (Text.utf8 ((appendAll records).getD []))) :
      Damaged records rows.flatten
  | edited {bytes : List UInt8} (h : NothingRehashed (acceptedRecords records) bytes) :
      Damaged records bytes

/-! ### Cut lines -/

theorem readRow_beginning {previousHash : Text} (other : Text) {text : Text} {record : LedgerRecord D}
    (h : text <+: recordLine previousHash record) :
    text = recordLine previousHash record ∨ readRow other text = none := by
  obtain ⟨back, hline⟩ := h
  cases back with
  | nil =>
      rw [List.append_nil] at hline
      exact .inl hline
  | cons c back => exact .inr (readRow_cut hline.symm)

/-- Whatever a line of a record is read after, its digest is the one that was written. -/
theorem recordHash_of_readRow {previousHash other : Text} {record : LedgerRecord D}
    {row : StoredRow} (h : readRow other (recordLine previousHash record) = some row) :
    row.recordHash = rowHash previousHash record := by
  obtain ⟨value, hloads, hsorted⟩ := (readRow_some h).spells
  have hwritten : Json.loads (recordLine previousHash record) =
      some (completeRow record.kind previousHash record.toDict
        (rowHash previousHash record)).sorted :=
    Json.loads_dumps (completeRow_writable previousHash record (rowHash previousHash record))
  obtain rfl := Option.some.inj (hwritten.symm.trans hloads)
  rw [Json.sorted_sorted] at hsorted
  have hfield : textField (completeRow record.kind previousHash record.toDict
      (rowHash previousHash record)) "record_hash" =
        textField (completeRow row.kind other row.payload row.recordHash) "record_hash" := by
    rw [completeRow, completeRow, ← textField_sorted (completeRow_nodup _ _ _ _),
      ← textField_sorted (completeRow_nodup row.kind other row.payload row.recordHash)]
    exact congrArg (fun value => textField value "record_hash") hsorted
  exact (Option.some.inj hfield).symm

/-- The first line boundary of a text. -/
theorem exists_first_break {t : Text} (h : ∃ c ∈ t, Text.lineBreaks.isBreak c = true)
    (hcr : '\r' ∉ t) :
    ∃ front c back, t = front ++ c :: back ∧ (∀ d ∈ front, Text.lineBreaks.isBreak d = false) ∧
      ∀ rest, Text.splitlines (front ++ c :: rest) = front :: Text.splitlines rest := by
  obtain ⟨b, hmem, hb⟩ := h
  cases hfind : t.find? Text.lineBreaks.isBreak with
  | none => exact absurd hb (by simpa using List.find?_eq_none.mp hfind b hmem)
  | some c =>
      obtain ⟨hc, front, back, rfl, hfront⟩ := List.find?_eq_some_iff_append.mp hfind
      have hplain : ∀ d ∈ front, Text.lineBreaks.isBreak d = false := by
        intro d hd
        simpa using hfront d hd
      have hne : c ≠ Text.lineBreaks.cr := by
        rintro rfl
        exact hcr (by simp [Text.lineBreaks])
      refine ⟨front, c, back, rfl, hplain, ?_⟩
      intro rest
      rw [Text.splitlines, Line.split_break Text.lineBreaks front c rest hplain hc hne]
      rfl

theorem splitlines_unbroken {t : Text} (hne : t ≠ [])
    (h : ∀ c ∈ t, Text.lineBreaks.isBreak c = false) : Text.splitlines t = [t] := by
  rw [Text.splitlines, Line.split_unbroken Text.lineBreaks t hne h]
  rfl

theorem recordLine_first_break (previousHash : Text) (record : LedgerRecord D) :
    ∃ front c back, recordLine previousHash record ++ ['\n'] = front ++ c :: back ∧
      front <+: recordLine previousHash record ∧
      (∀ d ∈ front, Text.lineBreaks.isBreak d = false) ∧
      ∀ rest, Text.splitlines (front ++ c :: rest) = front :: Text.splitlines rest := by
  have hcr : '\r' ∉ recordLine previousHash record ++ ['\n'] := by
    rw [List.mem_append]
    rintro (hline | hend)
    · exact no_cr_of_dumps (completeRow_writable _ _ _) hline
    · revert hend
      decide
  obtain ⟨front, c, back, hsplit, hfront, hlines⟩ :=
    exists_first_break ⟨'\n', List.mem_append_right _ (List.mem_singleton_self _), by decide⟩ hcr
  refine ⟨front, c, back, hsplit, ?_, hfront, hlines⟩
  have hprefix : front <+: recordLine previousHash record ++ ['\n'] := ⟨c :: back, hsplit.symm⟩
  apply List.prefix_of_prefix_length_le hprefix (List.prefix_append _ _)
  have hlength := congrArg List.length hsplit
  rw [List.length_append, List.length_append, List.length_singleton, List.length_cons] at hlength
  omega

theorem readsRows_recordLine {previousHash other rest : Text} {record : LedgerRecord D}
    {rows : List StoredRow}
    (h : ReadsRows other (Text.splitlines (recordLine previousHash record ++ '\n' :: rest)) rows) :
    ∃ row others, rows = row :: others ∧ row.recordHash = rowHash previousHash record ∧
      ReadsRows row.recordHash (Text.splitlines rest) others := by
  obtain ⟨front, c, back, hsplit, hfront, _, hlines⟩ := recordLine_first_break previousHash record
  have htext : recordLine previousHash record ++ '\n' :: rest = front ++ c :: (back ++ rest) := by
    have happend := congrArg (· ++ rest) hsplit
    simpa using happend
  rw [htext, hlines] at h
  cases h with
  | @cons _ _ row _ others hrow hrows =>
      rcases readRow_beginning other hfront with hwhole | hcut
      · obtain ⟨rfl, rfl⟩ : c = '\n' ∧ back = [] := by
          rw [← hwhole] at hsplit
          have htail := List.append_cancel_left hsplit
          cases htail
          exact ⟨rfl, rfl⟩
        rw [hwhole] at hrow
        exact ⟨row, others, rfl, recordHash_of_readRow hrow, hrows⟩
      · rw [hcut] at hrow
        cases hrow

/-! ### Damage without a new digest -/

theorem no_cr_of_prefix {t u : Text} (h : t <+: u) (hcr : '\r' ∉ u) : '\r' ∉ t :=
  fun hmem => hcr (h.subset hmem)

/-- A cut file is read as rows with the digests of its first records. -/
theorem rehashed_of_prefix {stored : List (LedgerRecord D)} {previousHash other text : Text}
    {rows : List StoredRow} (htext : text <+: fileText previousHash stored)
    (h : ReadsRows other (Text.splitlines text) rows) :
    ∀ row ∈ rows, row.recordHash ∈ (storedRows previousHash stored).map (·.recordHash) := by
  induction stored generalizing previousHash other text rows with
  | nil =>
      obtain rfl := List.prefix_nil.mp htext
      cases h
      exact fun row hrow => absurd hrow List.not_mem_nil
  | cons record rest ih =>
      rw [storedRows, List.map_cons]
      rw [fileText] at htext
      by_cases hlong : (recordLine previousHash record ++ ['\n']).length ≤ text.length
      · have hline : recordLine previousHash record ++ ['\n'] <+: text := by
          apply List.prefix_of_prefix_length_le _ htext hlong
          exact ⟨fileText (rowHash previousHash record) rest, by simp⟩
        obtain ⟨tail, rfl⟩ := hline
        have htail : tail <+: fileText (rowHash previousHash record) rest := by
          rw [List.append_assoc, List.singleton_append] at htext
          have hrest := (List.prefix_append_right_inj _).mp htext
          exact (List.prefix_cons_inj _).mp hrest
        rw [List.append_assoc, List.singleton_append] at h
        obtain ⟨row, others, rfl, hhash, hothers⟩ := readsRows_recordLine h
        rw [List.forall_mem_cons]
        refine ⟨List.mem_cons.mpr (.inl hhash), ?_⟩
        intro later hlater
        exact List.mem_cons_of_mem _ (ih htail hothers later hlater)
      · have hshort : text <+: recordLine previousHash record := by
          apply List.prefix_of_prefix_length_le htext (List.prefix_append _ _)
          rw [List.length_append, List.length_singleton] at hlong
          omega
        have hcr : '\r' ∉ text :=
          no_cr_of_prefix hshort (no_cr_of_dumps (completeRow_writable _ _ _))
        by_cases hbroken : ∃ c ∈ text, Text.lineBreaks.isBreak c = true
        · obtain ⟨front, c, back, rfl, _, hlines⟩ := exists_first_break hbroken hcr
          rw [hlines] at h
          cases h with
          | cons hrow _ =>
              have hcut : readRow other front = none := by
                obtain ⟨more, hmore⟩ := hshort
                rw [List.append_assoc, List.cons_append] at hmore
                exact readRow_cut hmore.symm
              rw [hcut] at hrow
              cases hrow
        · push Not at hbroken
          by_cases hempty : text = []
          · rw [hempty] at h
            cases h
            exact fun row hrow => absurd hrow List.not_mem_nil
          · rw [splitlines_unbroken hempty (by simpa using hbroken)] at h
            cases h with
            | cons hrow hrows =>
                cases hrows
                rcases readRow_beginning other hshort with hwhole | hcut
                · rw [hwhole] at hrow
                  rw [List.forall_mem_cons]
                  refine ⟨List.mem_cons.mpr (.inl (recordHash_of_readRow hrow)), ?_⟩
                  exact fun row hrow => absurd hrow List.not_mem_nil
                · rw [hcut] at hrow
                  cases hrow

def rowsText (written : List (Text × LedgerRecord D)) : Text :=
  written.flatMap fun entry => recordLine entry.1 entry.2 ++ ['\n']

theorem rehashed_of_rows {written : List (Text × LedgerRecord D)} {other : Text}
    {rows : List StoredRow} (h : ReadsRows other (Text.splitlines (rowsText written)) rows) :
    ∀ row ∈ rows, ∃ entry ∈ written, row.recordHash = rowHash entry.1 entry.2 := by
  induction written generalizing other rows with
  | nil =>
      cases h
      exact fun row hrow => absurd hrow List.not_mem_nil
  | cons entry rest ih =>
      rw [rowsText, List.flatMap_cons, List.append_assoc, List.singleton_append] at h
      obtain ⟨row, others, rfl, hhash, hothers⟩ := readsRows_recordLine h
      rw [List.forall_mem_cons]
      refine ⟨⟨entry, List.mem_cons_self, hhash⟩, ?_⟩
      intro later hlater
      obtain ⟨found, hfound, hlaterHash⟩ := ih hothers later hlater
      exact ⟨found, List.mem_cons_of_mem _ hfound, hlaterHash⟩

theorem mem_fileRows {stored : List (LedgerRecord D)} {previousHash : Text} {row : List UInt8}
    (h : row ∈ fileRows (Text.utf8 (fileText previousHash stored))) :
    ∃ entry : Text × LedgerRecord D, row = Text.utf8 (recordLine entry.1 entry.2 ++ ['\n']) ∧
      rowHash entry.1 entry.2 ∈ (storedRows previousHash stored).map (·.recordHash) := by
  induction stored generalizing previousHash with
  | nil => cases h
  | cons record rest ih =>
      have hend : Text.utf8 ('\n' :: fileText (rowHash previousHash record) rest) =
          10 :: Text.utf8 (fileText (rowHash previousHash record) rest) := rfl
      have hplain : ∀ b ∈ Text.utf8 (recordLine previousHash record),
          Text.byteEnds.isBreak b = false :=
        Json.lineBytes_noBreak
          (completeRow_writable previousHash record (rowHash previousHash record))
      rw [fileRows, fileText, Text.utf8_append, hend,
        Line.split_break Text.byteEnds _ 10 _ hplain (by decide) (by decide), List.map_cons] at h
      rcases List.mem_cons.mp h with hfirst | hlater
      · refine ⟨(previousHash, record), ?_, List.mem_cons_self⟩
        rw [hfirst, Text.utf8_append]
        rfl
      · obtain ⟨entry, hentry, hhash⟩ := ih hlater
        exact ⟨entry, hentry, List.mem_cons_of_mem _ hhash⟩

theorem validatedRows_text_ok {text : Text} {rows : List StoredRow} (hcr : '\r' ∉ text)
    (h : validatedRows (some text) = .ok rows) : ReadsRows [] (Text.splitlines text) rows := by
  rw [validatedRows, Text.universalNewlines_of_no_cr hcr] at h
  exact readRows_eq_ok_iff.mp h

theorem no_cr_of_rowsText (written : List (Text × LedgerRecord D)) : '\r' ∉ rowsText written := by
  intro hmem
  obtain ⟨entry, _, hline⟩ := List.mem_flatMap.mp hmem
  rcases List.mem_append.mp hline with hline | hend
  · exact no_cr_of_dumps (completeRow_writable _ _ _) hline
  · revert hend
    decide

theorem nothingRehashed_of_truncated {stored : List (LedgerRecord D)} {bytes : List UInt8}
    (h : bytes <+: Text.utf8 (fileText [] stored)) : NothingRehashed stored bytes := by
  intro text rows htext hrows
  rw [← Text.utf8_of_decodeUtf8 htext] at h
  have hprefix := Text.prefixed_of_utf8 h
  have hcr := no_cr_of_prefix hprefix (no_cr_of_fileText _ _)
  exact rehashed_of_prefix hprefix (validatedRows_text_ok hcr hrows)

theorem nothingRehashed_of_rearranged {stored : List (LedgerRecord D)}
    {written : List (List UInt8)}
    (h : ∀ row ∈ written, row ∈ fileRows (Text.utf8 (fileText [] stored))) :
    NothingRehashed stored written.flatten := by
  have hentries : ∃ entries : List (Text × LedgerRecord D),
      written.flatten = Text.utf8 (rowsText entries) ∧
        ∀ entry ∈ entries, rowHash entry.1 entry.2 ∈ (storedRows [] stored).map (·.recordHash) := by
    induction written with
    | nil => exact ⟨[], rfl, fun entry hentry => absurd hentry List.not_mem_nil⟩
    | cons row rest ih =>
        obtain ⟨hrow, hrest⟩ := List.forall_mem_cons.mp h
        obtain ⟨entries, htext, hentries⟩ := ih hrest
        obtain ⟨entry, rfl, hentry⟩ := mem_fileRows hrow
        refine ⟨entry :: entries, ?_, List.forall_mem_cons.mpr ⟨hentry, hentries⟩⟩
        rw [List.flatten_cons, htext, ← Text.utf8_append]
        rfl
  obtain ⟨entries, htext, hentries⟩ := hentries
  intro text rows hdecoded hrows row hrow
  rw [htext, Text.decodeUtf8_utf8] at hdecoded
  obtain rfl := Option.some.inj hdecoded
  have hread := validatedRows_text_ok (no_cr_of_rowsText entries) hrows
  obtain ⟨entry, hentry, hhash⟩ := rehashed_of_rows hread row hrow
  rw [hhash]
  exact hentries entry hentry

theorem Damaged.nothingRehashed [DecidableEq D] {records : List (LedgerRecord D)}
    {bytes : List UInt8} (h : Damaged records bytes) :
    NothingRehashed (acceptedRecords records) bytes := by
  cases h with
  | truncated h =>
      rw [appendAll_text] at h
      exact nothingRehashed_of_truncated h
  | rearranged rows h =>
      rw [appendAll_text] at h
      exact nothingRehashed_of_rearranged h
  | edited h => exact h

/-! ### What is read of a damaged file -/

def storedTexts (stored : List (LedgerRecord D)) : List Text :=
  (HashChain.inputs chainHash [] (stored.map LedgerRecord.chained)).map hashedText

/-- SHA-256 tells all the texts apart whose digests are taken for the file and for the damaged
one. -/
def NoCollision (stored : List (LedgerRecord D)) (bytes : List UInt8) : Prop :=
  ∀ text, Text.decodeUtf8 bytes = some text →
    ∀ a ∈ storedTexts stored ++ (fileLines text).filterMap unsignedText,
      ∀ b ∈ storedTexts stored ++ (fileLines text).filterMap unsignedText,
        Sha256.ofText a = Sha256.ofText b → a = b

def Spells (bytes : List UInt8) (records : List (LedgerRecord D)) : Prop :=
  ∃ text, Text.decodeUtf8 bytes = some text ∧
    List.Forall₂ SpellsRow (fileLines text) (completeRows [] records)

/-- The text that is hashed shows the content of the row and the digest before it. -/
theorem eq_of_hashedText {a b : Text × Text × Json}
    (ha : a.2.2.Writable ∧ a.2.2.sorted = a.2.2) (hb : b.2.2.Writable ∧ b.2.2.sorted = b.2.2)
    (h : hashedText a = hashedText b) : a = b := by
  obtain ⟨previous, kind, payload⟩ := a
  obtain ⟨previous', kind', payload'⟩ := b
  have hsorted := Json.sorted_eq_of_dumps_eq (unsignedRow_writable ha.1)
    (unsignedRow_writable hb.1) h
  have hnodup : ∀ (kind previous : Text) (payload : Json),
      ([("kind".toList, Json.str kind), ("previous_hash".toList, .str previous),
        ("payload".toList, payload)].map (·.1)).Nodup := by
    intro kind previous payload
    change ["kind".toList, "previous_hash".toList, "payload".toList].Nodup
    decide
  have hmember : ∀ key, ((unsignedRow kind previous payload).member? key).map Json.sorted =
      ((unsignedRow kind' previous' payload').member? key).map Json.sorted := by
    intro key
    rw [unsignedRow, unsignedRow, ← Json.member?_sorted (hnodup _ _ _),
      ← Json.member?_sorted (hnodup _ _ _)]
    exact congrArg (Json.member? key) hsorted
  have hkind := Option.some.inj (hmember "kind".toList)
  have hprevious := Option.some.inj (hmember "previous_hash".toList)
  have hpayload : payload.sorted = payload'.sorted := Option.some.inj (hmember "payload".toList)
  simp only [Json.sorted, Json.str.injEq] at hkind hprevious
  have hsame : payload = payload' := ha.2.symm.trans (hpayload.trans hb.2)
  rw [hkind, hprevious, hsame]

theorem spelled_of_readsRows {stored : List (LedgerRecord D)} {text : Text}
    {rows : List StoredRow} {bytes : List UInt8} (htext : Text.decodeUtf8 bytes = some text)
    (hread : ReadsRows [] (fileLines text) rows) (hnew : NothingRehashed stored bytes)
    (hcollision : NoCollision stored bytes) :
    ∃ front back, stored = front ++ back ∧
      rows.map StoredRow.content = front.map LedgerRecord.chained := by
  have hchain : HashChain.NoCollision chainHash [] (stored.map LedgerRecord.chained)
      (rows.map StoredRow.content) := by
    have hinputs : ∀ input ∈ HashChain.inputs chainHash [] (stored.map LedgerRecord.chained) ++
        HashChain.inputs chainHash [] (rows.map StoredRow.content),
          hashedText input ∈ storedTexts stored ++ (fileLines text).filterMap unsignedText ∧
            input.2.2.Writable ∧ input.2.2.sorted = input.2.2 := by
      intro input hinput
      rcases List.mem_append.mp hinput with hstored | hrows
      · exact ⟨List.mem_append_left _ (List.mem_map_of_mem hstored),
          chained_writable stored [] input hstored⟩
      · obtain ⟨hmem, hvalue⟩ := hread.inputs input hrows
        exact ⟨List.mem_append_right _ hmem, hvalue⟩
    refine ⟨?_, fun row previous => chainHash_ne_nil previous row⟩
    intro a ha b hb hsame
    obtain ⟨hmemA, hvalueA⟩ := hinputs a ha
    obtain ⟨hmemB, hvalueB⟩ := hinputs b hb
    exact eq_of_hashedText hvalueA hvalueB (hcollision text htext _ hmemA _ hmemB hsame)
  have hprefix := hchain.prefix_of_digests (by
    intro d hd
    rw [← hread.digests] at hd
    rw [← digests_storedRows]
    obtain ⟨row, hrow, rfl⟩ := List.mem_map.mp hd
    exact hnew text rows htext (readRows_eq_ok_iff.mpr hread) row hrow)
  obtain ⟨rest, hrest⟩ := hprefix
  obtain ⟨front, back, hsplit, hfront, _⟩ := List.map_eq_append_iff.mp hrest.symm
  exact ⟨front, back, hsplit, hfront.symm⟩

/-- A file that spells the rows of readable records is read as them. -/
theorem loadBytes_of_spells {bytes : List UInt8} {records : List (LedgerRecord D)}
    (h : Spells bytes records) (hreadable : ∀ record ∈ records, ReadsBack record.tradeDate) :
    loadBytes bytes = .ok records := by
  obtain ⟨text, htext, hlines⟩ := h
  obtain ⟨rows, hrows, hcontent⟩ := readsRows_of_spells hlines
  have hvalid : validatedRows (some text) = .ok rows := readRows_eq_ok_iff.mpr hrows
  have hload : loadRecords (some text) = .ok records := by
    rw [loadRecords, hvalid]
    exact (mapM_recordFromRow hrows.writable hcontent []).trans (mapM_storedRows hreadable)
  rw [loadBytes, htext]
  simp only [hload, Except.mapError]

/-- What a damaged file without new digests is read as: a beginning of the records, which it
spells. -/
theorem spells_of_loadBytes {stored result : List (LedgerRecord D)} {bytes : List UInt8}
    (hnew : NothingRehashed stored bytes) (hcollision : NoCollision stored bytes)
    (h : loadBytes bytes = .ok result) :
    ∃ back, stored = result ++ back ∧ (∀ record ∈ result, ReadsBack record.tradeDate) ∧
      Spells bytes result := by
  rw [loadBytes] at h
  cases htext : Text.decodeUtf8 bytes with
  | none =>
      rw [htext] at h
      cases h
  | some text =>
      rw [htext] at h
      cases hrows : validatedRows (some text) with
      | error error =>
          simp only [loadRecords, hrows, Except.mapError] at h
          cases h
      | ok rows =>
          have hread : ReadsRows [] (fileLines text) rows := readRows_eq_ok_iff.mp hrows
          obtain ⟨front, back, hsplit, hcontent⟩ :=
            spelled_of_readsRows htext hread hnew hcollision
          have hmap := mapM_recordFromRow hread.writable hcontent []
          have hspells : Spells bytes front := ⟨text, htext, hread.spells hcontent⟩
          simp only [loadRecords, hrows, hmap] at h
          cases hrecords : (storedRows [] front).mapM
              (recordFromRow : StoredRow → Except StoreError (LedgerRecord D)) with
          | error error =>
              rw [hrecords] at h
              cases h
          | ok loaded =>
              rw [hrecords] at h
              have hreadable := readsBack_of_mapM hrecords
              obtain rfl : result = front := by
                have hloaded := Except.ok.inj h
                rw [mapM_storedRows hreadable] at hrecords
                exact hloaded.symm.trans (Except.ok.inj hrecords).symm
              exact ⟨back, hsplit, hreadable, hspells⟩

/-- The damage is detected, or does not show, exactly when the damaged file does not spell the
rows of the first records and no more: nothing in the last row it has tells of the rows that were
after it. -/
theorem damage_detected_iff [DecidableEq D] (records : List (LedgerRecord D))
    (bytes : List UInt8) (hdamaged : Damaged records bytes)
    (hcollision : NoCollision (acceptedRecords records) bytes) :
    ((∃ error, (loadBytes bytes : Except ReadError (List (LedgerRecord D))) = .error error) ∨
        loadBytes bytes = .ok (acceptedRecords records)) ↔
      ¬ ∃ front back, acceptedRecords records = front ++ back ∧ back ≠ [] ∧
        (∀ record ∈ front, ReadsBack record.tradeDate) ∧ Spells bytes front := by
  constructor
  · rintro hdetected ⟨front, back, hsplit, hback, hreadable, hspells⟩
    have hload := loadBytes_of_spells hspells hreadable
    rcases hdetected with ⟨error, herror⟩ | hexact
    · rw [hload] at herror
      cases herror
    · have hsame : front = front ++ back :=
        (Except.ok.inj (hload.symm.trans hexact)).trans hsplit
      exact hback (List.self_eq_append_right.mp hsame)
  · intro hnone
    cases hload : (loadBytes bytes : Except ReadError (List (LedgerRecord D))) with
    | error error => exact .inl ⟨error, rfl⟩
    | ok result =>
        right
        obtain ⟨back, hsplit, hreadable, hspells⟩ :=
          spells_of_loadBytes hdamaged.nothingRehashed hcollision hload
        by_cases hback : back = []
        · rw [hsplit, hback, List.append_nil]
        · exact absurd ⟨result, back, hsplit, hback, hreadable, hspells⟩ hnone

/-! ### A file that was emptied -/

def onlyRecord : LedgerRecord Date :=
  .fill (sampleFill 'a' .buy 100 100000 (sampleDay 0))

theorem acceptedRecords_onlyRecord : acceptedRecords [onlyRecord] = [onlyRecord] := by
  have hadded : acceptedRecords [onlyRecord] = addRecord [] onlyRecord := rfl
  rw [hadded, addRecord, if_neg List.not_mem_nil, List.nil_append]

theorem emptied_damaged : Damaged [onlyRecord] [] := .truncated List.nil_prefix

theorem emptied_noCollision : NoCollision (acceptedRecords [onlyRecord]) [] := by
  rw [acceptedRecords_onlyRecord]
  intro text htext a ha b hb _
  obtain rfl := Option.some.inj ((Text.decodeUtf8_utf8 []).symm.trans htext)
  have ha' := List.mem_singleton.mp ha
  exact ha'.trans (List.mem_singleton.mp hb).symm

theorem emptied_detected_iff :
    ((∃ error, (loadBytes [] : Except ReadError (List (LedgerRecord Date))) = .error error) ∨
        loadBytes [] = .ok (acceptedRecords [onlyRecord])) ↔
      ¬ ∃ front back, acceptedRecords [onlyRecord] = front ++ back ∧ back ≠ [] ∧
        (∀ record ∈ front, ReadsBack record.tradeDate) ∧ Spells [] front :=
  damage_detected_iff [onlyRecord] [] emptied_damaged emptied_noCollision

/-- The file of one record, cut before its first byte, is read as no records. -/
theorem emptied_not_detected :
    Damaged [onlyRecord] [] ∧ NoCollision (acceptedRecords [onlyRecord]) [] ∧
      ¬ ((∃ error, (loadBytes [] : Except ReadError (List (LedgerRecord Date))) = .error error) ∨
        loadBytes [] = .ok (acceptedRecords [onlyRecord])) := by
  refine ⟨emptied_damaged, emptied_noCollision, ?_⟩
  have hload : (loadBytes [] : Except ReadError (List (LedgerRecord Date))) = .ok [] := rfl
  rw [acceptedRecords_onlyRecord, hload]
  rintro (⟨error, herror⟩ | hexact)
  · cases herror
  · cases hexact

end QuantWorkbench.Account
