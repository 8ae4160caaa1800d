import QuantWorkbench.Account.Store

/-!
Which records the durable ledger reads back. The rows are chained and verified
on reading, so one row that is not read makes the whole file unreadable. Two
things stop a written row from being read: a character in one of its texts that
ends a line for `splitlines` although JSON writes it as it is, and a trade date
that is written as more than a date.
-/

namespace QuantWorkbench.Account

open Lib Data

/-! ### Line boundaries in a row -/

/-- The line boundaries that JSON does not escape. -/
def rawBoundaries : List Char :=
  [Char.ofNat 0x85, Char.ofNat 0x2028, Char.ofNat 0x2029]

/-- The text has no line boundary that JSON leaves as it is. -/
def OneLine (t : Text) : Prop := ∀ c ∈ t, c ∉ rawBoundaries

theorem isBreak_of_mem_rawBoundaries {c : Char} (h : c ∈ rawBoundaries) :
    Text.lineBreaks.isBreak c = true ∧ 0x80 ≤ c.toNat := by
  simp only [rawBoundaries, List.mem_cons, List.not_mem_nil, or_false] at h
  rcases h with rfl | rfl | rfl <;> decide

/-- Every other boundary is a control character. -/
theorem mem_rawBoundaries_of_isBreak {c : Char} (h : Text.lineBreaks.isBreak c = true)
    (hlow : 0x20 ≤ c.toNat) : c ∈ rawBoundaries := by
  have hcode : ∀ n : ℕ, c.val = UInt32.ofNat n → n < 0x10000 → c = Char.ofNat n := by
    intro n hval hn
    have hnat : c.toNat = n := by
      change c.val.toNat = n
      rw [hval, UInt32.toNat_ofNat_of_lt' (hn.trans (by decide))]
    rw [← hnat, Char.ofNat_toNat]
  have hnot : ∀ n : ℕ, n < 0x20 → c.val ≠ UInt32.ofNat n := by
    rintro n hn heq
    have hnat : c.toNat = n := by
      change c.val.toNat = n
      rw [heq, UInt32.toNat_ofNat_of_lt' (hn.trans (by decide))]
    omega
  simp only [Text.lineBreaks, List.mem_cons, List.not_mem_nil, or_false,
    decide_eq_true_eq] at h
  simp only [rawBoundaries, List.mem_cons, List.not_mem_nil, or_false]
  rcases h with h | h | h | h | h | h | h | h | h | h
  · exact absurd h (hnot 0xA (by decide))
  · exact absurd h (hnot 0xB (by decide))
  · exact absurd h (hnot 0xC (by decide))
  · exact absurd h (hnot 0xD (by decide))
  · exact absurd h (hnot 0x1C (by decide))
  · exact absurd h (hnot 0x1D (by decide))
  · exact absurd h (hnot 0x1E (by decide))
  · exact .inl (hcode 0x85 h (by decide))
  · exact .inr (.inl (hcode 0x2028 h (by decide)))
  · exact .inr (.inr (hcode 0x2029 h (by decide)))

theorem oneLine_of_plain {t : Text} (h : ∀ c ∈ t, Json.IsPlain c) : OneLine t := by
  intro c hc hmem
  have hhigh := (isBreak_of_mem_rawBoundaries hmem).2
  have hlow := (h c hc).2
  omega

/-- The line of a value has a boundary in it exactly when one of its strings has. -/
theorem dumps_unbroken_iff {value : Json} (hwritable : value.Writable) :
    (∀ c ∈ Json.dumps value, Text.lineBreaks.isBreak c = false) ↔
      ∀ t ∈ value.texts, OneLine t := by
  constructor
  · intro h t ht c hc hmem
    obtain ⟨hbreak, hhigh⟩ := isBreak_of_mem_rawBoundaries hmem
    have hwritten : c ∈ Json.dumps value :=
      Json.mem_encode_of_mem hhigh hc _ ((Json.mem_texts_sorted value).mpr ht)
    rw [h c hwritten] at hbreak
    cases hbreak
  · intro h c hc
    by_contra hbreak
    rw [Bool.not_eq_false] at hbreak
    rcases Json.mem_encode _ (Json.sorted_writable value hwritable) hc with
      hplain | ⟨hlow, t, ht, hmem⟩
    · have hraw := mem_rawBoundaries_of_isBreak hbreak hplain.1
      have := (isBreak_of_mem_rawBoundaries hraw).2
      have := hplain.2
      omega
    · exact h t ((Json.mem_texts_sorted value).mp ht) c hmem
        (mem_rawBoundaries_of_isBreak hbreak hlow)

theorem no_cr_of_dumps {value : Json} (hwritable : value.Writable) :
    '\r' ∉ Json.dumps value := by
  intro hmem
  rcases Json.mem_encode _ (Json.sorted_writable value hwritable) hmem with hplain | ⟨hlow, _⟩
  · exact absurd hplain.1 (by decide)
  · exact absurd hlow (by decide)

theorem isPlain_digest (value : Json) : ∀ c ∈ digest value, Json.IsPlain c := by
  intro c hc
  obtain ⟨n, hn, rfl⟩ := Sha256.hexdigest_digits _ c hc
  have hall : ∀ k : Fin 16, Json.IsPlain (Nat.digitChar k) := by decide
  exact hall ⟨n, hn⟩

variable {D : Type} [TradeDateText D]

def LedgerRecord.freeTexts : LedgerRecord D → List Text
  | .fill event => [event.eventId, event.name, event.source]
  | .correction item => [item.correctionId, item.originalEventId, item.replacement.eventId,
      item.replacement.name, item.replacement.source]

theorem oneLine_symbol (symbol : Symbol) : OneLine symbol.text := by
  intro c hc hmem
  have hdigits := symbol.sixDigits
  rw [isSixDigits, Bool.and_eq_true, List.all_eq_true] at hdigits
  have hdigit := hdigits.2 c hc
  have hnone : ∀ d ∈ rawBoundaries, Text.isDigit d = false := by decide
  rw [hnone c hmem] at hdigit
  cases hdigit

theorem oneLine_side (side : TradeSide) : OneLine side.value := by
  apply oneLine_of_plain
  cases side <;> decide

theorem oneLine_price (ticks : ℕ) : OneLine (DecimalText.format 4 ticks) := by
  apply oneLine_of_plain
  intro c hc
  rcases List.mem_append.mp hc with hc | hc
  · exact Json.isPlain_of_isNumberChar (Json.isNumberChar_of_isDigit (Json.toDigits_all _ c hc))
  · rcases List.mem_cons.mp hc with rfl | hc
    · decide
    · exact isPlain_digitsText _ _ c hc

/-- A field name. -/
private theorem oneLine_key (key : String) (h : ∀ c ∈ key.toList, Json.IsPlain c) :
    OneLine key.toList ↔ True :=
  ⟨fun _ => trivial, fun _ => oneLine_of_plain h⟩

theorem fill_oneLine_iff (event : FillEvent D) :
    (∀ t ∈ event.toDict.texts, OneLine t) ↔
      ∀ t ∈ [event.eventId, event.name, event.source], OneLine t := by
  have hdate : OneLine (TradeDateText.isoformat event.tradeDate) :=
    oneLine_of_plain (TradeDateText.isPlain _)
  have hrecorded : OneLine event.recordedAt.isoformat :=
    oneLine_of_plain (UtcDateTime.isPlain_isoformat _)
  simp only [FillEvent.toDict, FillEvent.members, Json.texts, Json.textsOfMembers,
    List.singleton_append, List.nil_append, List.append_nil, List.forall_mem_cons,
    List.not_mem_nil, false_implies, implies_true, and_true, hdate, hrecorded, oneLine_side,
    oneLine_symbol, oneLine_price, true_and]
  rw [oneLine_key "event_id" (by decide), oneLine_key "side" (by decide),
    oneLine_key "symbol" (by decide), oneLine_key "quantity" (by decide),
    oneLine_key "price" (by decide), oneLine_key "trade_date" (by decide),
    oneLine_key "name" (by decide), oneLine_key "source" (by decide),
    oneLine_key "recorded_at" (by decide)]
  simp only [true_and, and_true]

theorem record_oneLine_iff (record : LedgerRecord D) :
    (∀ t ∈ record.toDict.texts, OneLine t) ↔ ∀ t ∈ record.freeTexts, OneLine t := by
  cases record with
  | fill event => exact fill_oneLine_iff event
  | correction item =>
      have hrecorded : OneLine item.recordedAt.isoformat :=
        oneLine_of_plain (UtcDateTime.isPlain_isoformat _)
      have hfill := fill_oneLine_iff item.replacement
      simp only [List.forall_mem_cons, List.not_mem_nil, false_implies, implies_true,
        and_true] at hfill
      simp only [LedgerRecord.toDict, LedgerCorrection.toDict, LedgerCorrection.members,
        LedgerRecord.freeTexts, Json.texts, Json.textsOfMembers, List.singleton_append,
        List.append_nil, List.forall_mem_cons, List.forall_mem_append, List.not_mem_nil,
        false_implies, implies_true, and_true, hrecorded, hfill]
      rw [oneLine_key "correction_id" (by decide), oneLine_key "original_event_id" (by decide),
        oneLine_key "replacement" (by decide), oneLine_key "recorded_at" (by decide)]
      simp only [true_and, and_true]

/-! ### One row -/

theorem completeRow_nodup (kind previousHash : Text) (payload : Json) (recordHash : Text) :
    ([("kind".toList, Json.str kind), ("previous_hash".toList, .str previousHash),
      ("payload".toList, payload), ("record_hash".toList, .str recordHash)].map (·.1)).Nodup := by
  change ["kind".toList, "previous_hash".toList, "payload".toList, "record_hash".toList].Nodup
  decide

theorem completeRow_writable (previousHash : Text) (record : LedgerRecord D)
    (recordHash : Text) :
    (completeRow record.kind previousHash record.toDict recordHash).Writable := by
  refine ⟨completeRow_nodup _ _ _ _, ?_⟩
  simp [Json.WritableMembers, Json.Writable, record.toDict_writable]

theorem digest_sorted_payload (kind previousHash : Text) (payload : Json) :
    digest (unsignedRow kind previousHash payload.sorted) =
      digest (unsignedRow kind previousHash payload) := by
  have hsorted : (unsignedRow kind previousHash payload.sorted).sorted =
      (unsignedRow kind previousHash payload).sorted := by
    simp only [unsignedRow, Json.sorted_obj, Json.sortedMembers, Json.sorted_sorted]
  rw [digest, digest, Json.dumps, Json.dumps, hsorted]

omit [TradeDateText D] in
theorem kind_cases (record : LedgerRecord D) :
    record.kind = "fill".toList ∨ record.kind = "correction".toList := by
  cases record with
  | fill event => exact .inl rfl
  | correction item => exact .inr rfl

theorem recordLine_eq (previousHash : Text) (record : LedgerRecord D) :
    ∃ members, Json.Writable (.obj members) ∧
      recordLine previousHash record = Json.encode (.obj members) := by
  have hwritable := Json.sorted_writable _
    (completeRow_writable previousHash record (rowHash previousHash record))
  rw [completeRow, Json.sorted_obj] at hwritable
  refine ⟨_, hwritable, ?_⟩
  rw [recordLine, Json.dumps, completeRow, Json.sorted_obj]

theorem recordLine_cons (previousHash : Text) (record : LedgerRecord D) :
    ∃ rest, recordLine previousHash record = '{' :: rest := by
  obtain ⟨members, _, hline⟩ := recordLine_eq previousHash record
  rw [hline]
  exact Json.encode_obj members

def storedRow (previousHash : Text) (record : LedgerRecord D) : StoredRow where
  kind := record.kind
  payload := record.toDict.sorted
  recordHash := rowHash previousHash record

/-- A written row passes its checks. -/
theorem readRow_recordLine (previousHash : Text) (record : LedgerRecord D) :
    readRow previousHash (recordLine previousHash record) =
      some (storedRow previousHash record) := by
  have hwritable := completeRow_writable previousHash record (rowHash previousHash record)
  have hnodup := completeRow_nodup record.kind previousHash record.toDict
    (rowHash previousHash record)
  have hloads : Json.loads (recordLine previousHash record) =
      some (completeRow record.kind previousHash record.toDict
        (rowHash previousHash record)).sorted := Json.loads_dumps hwritable
  have hstrip : Text.strip (recordLine previousHash record) ≠ [] := by
    obtain ⟨rest, hline⟩ := recordLine_cons previousHash record
    rw [hline]
    exact Text.strip_cons_ne_nil rest (by decide)
  have hkind : textField (completeRow record.kind previousHash record.toDict
      (rowHash previousHash record)).sorted "kind" = some record.kind :=
    textField_sorted hnodup _
  have hprevious : textField (completeRow record.kind previousHash record.toDict
      (rowHash previousHash record)).sorted "previous_hash" = some previousHash :=
    textField_sorted hnodup _
  have hpayload : (completeRow record.kind previousHash record.toDict
      (rowHash previousHash record)).sorted.member? "payload".toList =
        some record.toDict.sorted := Json.member?_sorted hnodup _
  have hhash : textField (completeRow record.kind previousHash record.toDict
      (rowHash previousHash record)).sorted "record_hash" =
        some (rowHash previousHash record) := textField_sorted hnodup _
  have hkeys : (completeRow record.kind previousHash record.toDict
      (rowHash previousHash record)).sorted.hasKeys requiredKeys = true := Json.hasKeys_sorted rfl
  rw [readRow, if_neg hstrip]
  simp only [hloads, hkind, hprevious, hpayload, hhash, Option.bind_eq_bind, Option.bind_some,
    hkeys, kind_cases, digest_sorted_payload, true_and]
  exact if_pos rfl

def LedgerRecord.IsOneLine (record : LedgerRecord D) : Prop :=
  ∀ t ∈ record.freeTexts, OneLine t

theorem isPlain_rowHash (previousHash : Text) (record : LedgerRecord D) :
    ∀ c ∈ rowHash previousHash record, Json.IsPlain c := isPlain_digest _

theorem recordLine_unbroken_iff {previousHash : Text} (record : LedgerRecord D)
    (hprevious : ∀ c ∈ previousHash, Json.IsPlain c) :
    (∀ c ∈ recordLine previousHash record, Text.lineBreaks.isBreak c = false) ↔
      record.IsOneLine := by
  have hkind : OneLine record.kind := by
    rcases kind_cases record with h | h
    · rw [h]
      exact oneLine_of_plain (by decide)
    · rw [h]
      exact oneLine_of_plain (by decide)
  have hpast : OneLine previousHash := oneLine_of_plain hprevious
  have hhash : OneLine (rowHash previousHash record) :=
    oneLine_of_plain (isPlain_rowHash previousHash record)
  rw [recordLine, dumps_unbroken_iff (completeRow_writable _ _ _)]
  simp only [completeRow, Json.texts, Json.textsOfMembers, List.singleton_append,
    List.append_nil, List.forall_mem_cons, List.forall_mem_append, List.not_mem_nil,
    false_implies, implies_true, and_true, hkind, hpast, hhash, true_and, record_oneLine_iff]
  rw [oneLine_key "kind" (by decide), oneLine_key "previous_hash" (by decide),
    oneLine_key "payload" (by decide), oneLine_key "record_hash" (by decide)]
  simp only [true_and, and_true]
  rfl

/-- The first piece of a line that is divided is not a row. -/
theorem readRow_cut {previousHash other front back : Text} {c : Char} {record : LedgerRecord D}
    (hline : recordLine previousHash record = front ++ c :: back) :
    readRow other front = none := by
  obtain ⟨members, hwritable, htext⟩ := recordLine_eq previousHash record
  rw [htext] at hline
  rw [readRow, Json.loads_eq_none_of_cut hwritable hline (by simp)]
  split <;> rfl

/-! ### The whole file -/

def fileText : Text → List (LedgerRecord D) → Text
  | _, [] => []
  | previousHash, record :: rest =>
      recordLine previousHash record ++ '\n' :: fileText (rowHash previousHash record) rest

/-- The file that holds the records; it is missing before the first one. -/
def fileOf (records : List (LedgerRecord D)) : Option Text :=
  if records = [] then none else some (fileText [] records)

def storedRows : Text → List (LedgerRecord D) → List StoredRow
  | _, [] => []
  | previousHash, record :: rest =>
      storedRow previousHash record :: storedRows (rowHash previousHash record) rest

/-- The digest of the last row. -/
def lastHash : Text → List (LedgerRecord D) → Text
  | previousHash, [] => previousHash
  | previousHash, record :: rest => lastHash (rowHash previousHash record) rest

theorem fileText_concat (previousHash : Text) (records : List (LedgerRecord D))
    (record : LedgerRecord D) :
    fileText previousHash (records ++ [record]) =
      fileText previousHash records ++
        (recordLine (lastHash previousHash records) record ++ ['\n']) := by
  induction records generalizing previousHash with
  | nil => simp [fileText, lastHash]
  | cons head rest ih => simp [fileText, lastHash, ih]

theorem getLast?_storedRows (previousHash : Text) (records : List (LedgerRecord D)) :
    ((storedRows previousHash records).getLast?.map (·.recordHash)).getD previousHash =
      lastHash previousHash records := by
  induction records generalizing previousHash with
  | nil => rfl
  | cons record rest ih =>
      rw [storedRows, lastHash, ← ih, List.getLast?_cons]
      cases (storedRows (rowHash previousHash record) rest).getLast? <;> rfl

theorem no_cr_of_fileText (previousHash : Text) (records : List (LedgerRecord D)) :
    '\r' ∉ fileText previousHash records := by
  induction records generalizing previousHash with
  | nil => simp [fileText]
  | cons record rest ih =>
      rw [fileText, List.mem_append, List.mem_cons]
      rintro (hline | hend | hrest)
      · exact no_cr_of_dumps (completeRow_writable _ _ _) hline
      · cases hend
      · exact ih _ hrest

theorem readRows_fileText (number : ℕ) {previousHash : Text} (records : List (LedgerRecord D))
    (hprevious : ∀ c ∈ previousHash, Json.IsPlain c)
    (hrecords : ∀ record ∈ records, record.IsOneLine) :
    readRows number previousHash (Text.splitlines (fileText previousHash records)) =
      .ok (storedRows previousHash records) := by
  induction records generalizing number previousHash with
  | nil => rfl
  | cons record rest ih =>
      have hline := (recordLine_unbroken_iff record hprevious).mpr (hrecords record (by simp))
      have hrest := ih (number + 1) (isPlain_rowHash previousHash record)
        (fun r hr => hrecords r (by simp [hr]))
      rw [fileText, Text.splitlines_line _ hline, readRows, readRow_recordLine]
      simp only [storedRow, hrest, Except.map]
      rfl

/-- One row on several lines makes the file unreadable. -/
theorem readRows_broken (number : ℕ) {previousHash : Text} (records : List (LedgerRecord D))
    (hprevious : ∀ c ∈ previousHash, Json.IsPlain c)
    (hbroken : ∃ record ∈ records, ¬ record.IsOneLine) :
    ∃ error, readRows number previousHash
      (Text.splitlines (fileText previousHash records)) = .error error := by
  induction records generalizing number previousHash with
  | nil => simp at hbroken
  | cons record rest ih =>
      by_cases hone : record.IsOneLine
      · have hline := (recordLine_unbroken_iff record hprevious).mpr hone
        have htail : ∃ r ∈ rest, ¬ r.IsOneLine := by
          obtain ⟨r, hr, hnot⟩ := hbroken
          rcases List.mem_cons.mp hr with rfl | hr
          · exact absurd hone hnot
          · exact ⟨r, hr, hnot⟩
        obtain ⟨error, herror⟩ :=
          ih (number + 1) (isPlain_rowHash previousHash record) htail
        refine ⟨error, ?_⟩
        rw [fileText, Text.splitlines_line _ hline, readRows, readRow_recordLine]
        simp only [storedRow, herror, Except.map]
      · have hline : ∃ c ∈ recordLine previousHash record,
            Text.lineBreaks.isBreak c = true := by
          by_contra hnone
          push Not at hnone
          apply hone
          rw [← recordLine_unbroken_iff record hprevious]
          intro c hc
          simpa using hnone c hc
        have hcr : '\r' ∉ recordLine previousHash record :=
          no_cr_of_dumps (completeRow_writable _ _ _)
        obtain ⟨front, c, back, hsplit, hlines⟩ := Text.splitlines_broken hcr hline
        refine ⟨.hashValidation number, ?_⟩
        rw [fileText, hlines, readRows, readRow_cut hsplit]

theorem validatedRows_fileOf {records : List (LedgerRecord D)}
    (hrecords : ∀ record ∈ records, record.IsOneLine) :
    validatedRows (fileOf records) = .ok (storedRows [] records) := by
  unfold fileOf
  split
  · rename_i hempty
    rw [hempty]
    rfl
  · rw [validatedRows, Text.universalNewlines_of_no_cr (no_cr_of_fileText _ _)]
    exact readRows_fileText 1 records (by simp) hrecords

theorem validatedRows_broken {records : List (LedgerRecord D)}
    (hbroken : ∃ record ∈ records, ¬ record.IsOneLine) :
    ∃ error, validatedRows (fileOf records) = .error error := by
  have hne : records ≠ [] := by
    rintro rfl
    simp at hbroken
  rw [fileOf, if_neg hne, validatedRows,
    Text.universalNewlines_of_no_cr (no_cr_of_fileText _ _)]
  exact readRows_broken 1 records (by simp) hbroken

end QuantWorkbench.Account
