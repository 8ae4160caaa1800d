import QuantWorkbench.Account.Conservation
import QuantWorkbench.Account.StoreRoundTrip

/-!
The durable ledger over a whole sequence of appends. Whatever the records are,
the file holds the accepted ones in order of their first acceptance; it reads
them back, and takes further records, exactly when each of them is written on
one line and with a date that is read back.
-/

namespace QuantWorkbench.Account

open Lib Data

variable {D : Type} [TradeDateText D]

def LedgerRecord.Readable (record : LedgerRecord D) : Prop :=
  record.IsOneLine ∧ ReadsBack record.tradeDate

/-! ### Reading the records -/

theorem recordFromRow_storedRow {previousHash : Text} {record : LedgerRecord D}
    (h : ReadsBack record.tradeDate) :
    (recordFromRow (storedRow previousHash record) : Except StoreError (LedgerRecord D)) =
      .ok record := by
  have hread := (LedgerRecord.fromDict_eq_some_iff record record).mpr ⟨h, rfl⟩
  simp only [recordFromRow, storedRow, hread]

theorem recordFromRow_ok {previousHash : Text} {record other : LedgerRecord D}
    (h : recordFromRow (storedRow previousHash record) = .ok other) :
    ReadsBack record.tradeDate ∧ other = record := by
  apply (LedgerRecord.fromDict_eq_some_iff record other).mp
  unfold recordFromRow at h
  simp only [storedRow] at h
  split at h
  · cases h
  · rename_i r hread
    cases h
    exact hread

theorem mapM_storedRows {previousHash : Text} {records : List (LedgerRecord D)}
    (h : ∀ record ∈ records, ReadsBack record.tradeDate) :
    (storedRows previousHash records).mapM recordFromRow =
      (.ok records : Except StoreError (List (LedgerRecord D))) := by
  induction records generalizing previousHash with
  | nil => rfl
  | cons record rest ih =>
      have hrest := @ih (rowHash previousHash record) fun r hr => h r (by simp [hr])
      rw [storedRows, List.mapM_cons, recordFromRow_storedRow (h record (by simp)), hrest]
      rfl

theorem readsBack_of_mapM {previousHash : Text} {records result : List (LedgerRecord D)}
    (h : (storedRows previousHash records).mapM recordFromRow = .ok result) :
    ∀ record ∈ records, ReadsBack record.tradeDate := by
  induction records generalizing previousHash result with
  | nil => simp
  | cons record rest ih =>
      rw [storedRows, List.mapM_cons] at h
      cases hrow : (recordFromRow (storedRow previousHash record) :
          Except StoreError (LedgerRecord D)) with
      | error error =>
          rw [hrow] at h
          cases h
      | ok other =>
          rw [hrow] at h
          cases hrest : (storedRows (rowHash previousHash record) rest).mapM
              (recordFromRow : StoredRow → Except StoreError (LedgerRecord D)) with
          | error error =>
              simp only [hrest] at h
              cases h
          | ok others =>
              intro r hr
              rcases List.mem_cons.mp hr with rfl | hr
              · exact (recordFromRow_ok hrow).1
              · exact ih hrest r hr

/-- The file is read back exactly when each record is. -/
theorem loadRecords_fileOf_iff (records : List (LedgerRecord D)) :
    (∃ result, (loadRecords (fileOf records) : Except StoreError (List (LedgerRecord D))) =
      .ok result) ↔ ∀ record ∈ records, record.Readable := by
  by_cases hone : ∀ record ∈ records, record.IsOneLine
  · unfold loadRecords
    rw [validatedRows_fileOf hone]
    constructor
    · rintro ⟨result, h⟩ record hrecord
      exact ⟨hone record hrecord, readsBack_of_mapM h record hrecord⟩
    · intro h
      exact ⟨records, mapM_storedRows fun record hrecord => (h record hrecord).2⟩
  · push Not at hone
    obtain ⟨error, herror⟩ := validatedRows_broken hone
    unfold loadRecords
    rw [herror]
    constructor
    · rintro ⟨result, h⟩
      cases h
    · intro h
      obtain ⟨record, hrecord, hnot⟩ := hone
      exact absurd (h record hrecord).1 hnot

theorem loadRecords_fileOf {records : List (LedgerRecord D)}
    (h : ∀ record ∈ records, record.Readable) :
    loadRecords (fileOf records) = .ok records := by
  unfold loadRecords
  rw [validatedRows_fileOf fun record hrecord => (h record hrecord).1]
  exact mapM_storedRows fun record hrecord => (h record hrecord).2

/-! ### Appending -/

variable [DecidableEq D]

def addRecord (records : List (LedgerRecord D)) (record : LedgerRecord D) :
    List (LedgerRecord D) :=
  if record ∈ records then records else records ++ [record]

/-- The records of a sequence in order of their first occurrence. -/
def firstOccurrences (records : List (LedgerRecord D)) : List (LedgerRecord D) :=
  records.foldl addRecord []

theorem findStored_some {record : LedgerRecord D} {previousHash recordHash : Text}
    {records : List (LedgerRecord D)}
    (h : findStored record (storedRows previousHash records) = .ok (some recordHash)) :
    record ∈ records := by
  induction records generalizing previousHash with
  | nil => cases h
  | cons head rest ih =>
      rw [storedRows, findStored] at h
      split at h
      · cases h
      · rename_i existing hexisting
        obtain ⟨-, rfl⟩ := recordFromRow_ok hexisting
        split at h
        · exact List.mem_cons_of_mem _ (ih h)
        split at h
        · rename_i hequal
          exact hequal ▸ List.mem_cons_self
        · cases h

/-- A record that is not found has an identity of its own. -/
theorem identity_of_findStored_none {record : LedgerRecord D} {previousHash : Text}
    {records : List (LedgerRecord D)}
    (h : findStored record (storedRows previousHash records) = .ok none) :
    ∀ r ∈ records, r.identity ≠ record.identity := by
  induction records generalizing previousHash with
  | nil => exact fun r hr => absurd hr List.not_mem_nil
  | cons head rest ih =>
      rw [storedRows, findStored] at h
      split at h
      · cases h
      · rename_i existing hexisting
        obtain ⟨-, rfl⟩ := recordFromRow_ok hexisting
        split at h
        · rename_i hidentity
          intro r hr
          rcases List.mem_cons.mp hr with rfl | hr
          · exact hidentity
          · exact ih h r hr
        split at h
        · cases h
        · cases h

theorem findStored_none {record : LedgerRecord D} {previousHash : Text}
    {records : List (LedgerRecord D)}
    (h : findStored record (storedRows previousHash records) = .ok none) :
    record ∉ records :=
  fun hmem => identity_of_findStored_none h record hmem rfl

theorem findStored_ok {record : LedgerRecord D} (previousHash : Text)
    {records : List (LedgerRecord D)} (hreadable : ∀ r ∈ records, ReadsBack r.tradeDate)
    (hidentity : ∀ r ∈ records, r.identity = record.identity → r = record) :
    ∃ result, findStored record (storedRows previousHash records) = .ok result := by
  induction records generalizing previousHash with
  | nil => exact ⟨none, rfl⟩
  | cons head rest ih =>
      rw [storedRows, findStored, recordFromRow_storedRow (hreadable head (by simp))]
      dsimp only
      split
      · exact ih _ (fun r hr => hreadable r (by simp [hr]))
          fun r hr => hidentity r (by simp [hr])
      · rename_i hsame
        rw [ne_eq, not_not] at hsame
        rw [if_pos (hidentity head (by simp) hsame)]
        exact ⟨_, rfl⟩

omit [DecidableEq D] in
theorem fileOf_concat (records : List (LedgerRecord D)) (record : LedgerRecord D) :
    fileOf (records ++ [record]) =
      some ((fileOf records).getD [] ++ (recordLine (lastHash [] records) record ++ ['\n'])) := by
  have hbefore : (fileOf records).getD [] = fileText [] records := by
    unfold fileOf
    split
    · rename_i hempty
      rw [hempty]
      rfl
    · rfl
  rw [hbefore, ← fileText_concat, fileOf, if_neg (by simp)]

theorem appendRecord_ok {records : List (LedgerRecord D)} {record : LedgerRecord D}
    {recordHash : Text} {file : Option Text}
    (h : appendRecord (fileOf records) record = .ok (recordHash, file)) :
    file = fileOf (addRecord records record) := by
  have hone : ∀ r ∈ records, r.IsOneLine := by
    by_contra hbroken
    push Not at hbroken
    obtain ⟨error, herror⟩ := validatedRows_broken hbroken
    rw [appendRecord, herror] at h
    cases h
  rw [appendRecord, validatedRows_fileOf hone] at h
  dsimp only at h
  split at h
  · cases h
  · rename_i foundHash hfound
    cases h
    rw [addRecord, if_pos (findStored_some hfound)]
  · rename_i hfound
    cases h
    rw [addRecord, if_neg (findStored_none hfound), fileOf_concat, getLast?_storedRows]

theorem appendRecord_of_readable {records : List (LedgerRecord D)} (record : LedgerRecord D)
    (hreadable : ∀ r ∈ records, r.Readable)
    (hidentity : ∀ r ∈ records, r.identity = record.identity → r = record) :
    ∃ recordHash, appendRecord (fileOf records) record =
      .ok (recordHash, fileOf (addRecord records record)) := by
  obtain ⟨found, hfound⟩ := findStored_ok []
    (fun r hr => (hreadable r hr).2) hidentity
  have hok : ∃ result, appendRecord (fileOf records) record = .ok result := by
    rw [appendRecord, validatedRows_fileOf fun r hr => (hreadable r hr).1]
    simp only [hfound]
    cases found with
    | none => exact ⟨_, rfl⟩
    | some recordHash => exact ⟨_, rfl⟩
  obtain ⟨⟨recordHash, file⟩, hresult⟩ := hok
  exact ⟨recordHash, by rw [hresult, appendRecord_ok hresult]⟩

theorem appendRecords_concat_ok {file file' : Option Text} {records : List (LedgerRecord D)}
    {record : LedgerRecord D} (h : appendRecords file (records ++ [record]) = .ok file') :
    ∃ middle recordHash, appendRecords file records = .ok middle ∧
      appendRecord middle record = .ok (recordHash, file') := by
  unfold appendRecords at h ⊢
  rw [List.foldlM_append] at h
  cases hfront : records.foldlM
      (fun file record => (appendRecord file record).map (·.2)) file with
  | error error =>
      rw [hfront] at h
      cases h
  | ok middle =>
      rw [hfront] at h
      simp only [bind, Except.bind, List.foldlM_cons, List.foldlM_nil, pure, Except.pure] at h
      cases hlast : appendRecord middle record with
      | error error =>
          rw [hlast] at h
          cases h
      | ok result =>
          obtain ⟨recordHash, after⟩ := result
          rw [hlast] at h
          cases h
          exact ⟨middle, recordHash, rfl, hlast⟩

/-- The file after a sequence of accepted appends to a missing file. -/
theorem appendRecords_ok {records : List (LedgerRecord D)} {file : Option Text}
    (h : appendRecords none records = .ok file) : file = fileOf (firstOccurrences records) := by
  induction records using List.reverseRecOn generalizing file with
  | nil =>
      cases h
      rfl
  | append_singleton records record ih =>
      obtain ⟨middle, recordHash, hfront, hlast⟩ := appendRecords_concat_ok h
      rw [ih hfront] at hlast
      rw [appendRecord_ok hlast, firstOccurrences, firstOccurrences, List.foldl_append]
      rfl

omit [TradeDateText D] in
theorem mem_addRecord {records : List (LedgerRecord D)} {record r : LedgerRecord D} :
    r ∈ addRecord records record ↔ r ∈ records ∨ r = record := by
  unfold addRecord
  split
  · rename_i hmem
    constructor
    · exact .inl
    · rintro (h | rfl)
      · exact h
      · exact hmem
  · simp

omit [TradeDateText D] in
theorem mem_firstOccurrences {records : List (LedgerRecord D)} {record : LedgerRecord D} :
    record ∈ firstOccurrences records ↔ record ∈ records := by
  induction records using List.reverseRecOn with
  | nil => simp [firstOccurrences]
  | append_singleton records last ih =>
      rw [firstOccurrences, List.foldl_append, ← firstOccurrences]
      simp [mem_addRecord, ih]

omit [TradeDateText D] in
/-- Records that are all different are their own first occurrences. -/
theorem firstOccurrences_of_nodup {records : List (LedgerRecord D)} (h : records.Nodup) :
    firstOccurrences records = records := by
  induction records using List.reverseRecOn with
  | nil => rfl
  | append_singleton records last ih =>
      have hparts := List.nodup_append.mp h
      have hnew : last ∉ records := fun hmem => hparts.2.2 last hmem last (by simp) rfl
      rw [firstOccurrences, List.foldl_append, ← firstOccurrences, ih hparts.1]
      simp [addRecord, hnew]

theorem readable_iff (record : LedgerRecord TradeDate) :
    record.Readable ↔ record.IsOneLine ∧ ∃ date, record.tradeDate = .date date := by
  rw [LedgerRecord.Readable, TradeDate.readsBack_iff]

/-- After any sequence of accepted appends to a missing file, the file reads back
the accepted records and takes every further record whose identity is free or
its own, exactly when no text of a record holds one of the three line boundaries
and no trade date is a datetime. A record that is appended again adds no row, so
a sequence without repetition is read back as it is. -/
theorem durable_roundTrip_iff (records : List (LedgerRecord TradeDate)) (file : Option Text)
    (haccepted : appendRecords none records = .ok file) :
    ((loadRecords file = .ok (firstOccurrences records) ∧
        ∀ next : LedgerRecord TradeDate,
          (∀ record ∈ records, record.identity = next.identity → record = next) →
            ∃ result, appendRecord file next = .ok result) ↔
      ∀ record ∈ records, record.IsOneLine ∧ ∃ date, record.tradeDate = .date date) ∧
    (records.Nodup → firstOccurrences records = records) := by
  refine ⟨?_, firstOccurrences_of_nodup⟩
  have hfile := appendRecords_ok haccepted
  subst hfile
  constructor
  · rintro ⟨hload, -⟩ record hrecord
    rw [← readable_iff]
    exact (loadRecords_fileOf_iff _).mp ⟨_, hload⟩ record (mem_firstOccurrences.mpr hrecord)
  · intro hreadable
    have hstored : ∀ record ∈ firstOccurrences records, record.Readable := by
      intro record hrecord
      rw [readable_iff]
      exact hreadable record (mem_firstOccurrences.mp hrecord)
    refine ⟨loadRecords_fileOf hstored, ?_⟩
    intro next hidentity
    obtain ⟨recordHash, happend⟩ := appendRecord_of_readable next hstored
      fun record hrecord => hidentity record (mem_firstOccurrences.mp hrecord)
    exact ⟨_, happend⟩

theorem appendRecords_singleton (record : LedgerRecord D) :
    appendRecords none [record] = .ok (fileOf [record]) := by
  have happend : appendRecord none record =
      .ok (rowHash [] record, some ([] ++ (recordLine [] record ++ ['\n']))) := rfl
  have hfile : fileOf [record] = some ([] ++ (recordLine [] record ++ ['\n'])) :=
    fileOf_concat [] record
  rw [appendRecords, List.foldlM_cons, happend, hfile]
  rfl

def sampleRecord (day : TradeDate) : LedgerRecord TradeDate :=
  .fill (sampleFill 'a' .buy 100 100000 day)

theorem sampleRecord_readable (date : Date) :
    ∀ record ∈ [sampleRecord (.date date)],
      record.IsOneLine ∧ ∃ d, record.tradeDate = .date d := by
  intro record hrecord
  obtain rfl := List.mem_singleton.mp hrecord
  have htexts : ∀ t ∈ [['a'], "x".toList, "manual".toList], OneLine t := by
    unfold OneLine
    decide
  exact ⟨htexts, date, rfl⟩

theorem sampleRecord_roundTrip :
    loadRecords (fileOf [sampleRecord (.date (sampleTime 9).date)]) =
      .ok [sampleRecord (.date (sampleTime 9).date)] := by
  have h := durable_roundTrip_iff [sampleRecord (.date (sampleTime 9).date)] _
    (appendRecords_singleton _)
  have hload := (h.1.mpr (sampleRecord_readable _)).1
  rwa [h.2 (List.nodup_singleton _)] at hload

/-- The sample fill under a name with a line separator in it. -/
def separatedRecord : LedgerRecord TradeDate :=
  .fill { sampleFill 'a' .buy 100 100000 (.date (sampleTime 9).date) with
    name := ['x', Char.ofNat 0x2028, 'y']
    name_stripped := by decide }

/-- A name with U+2028 in it, and likewise a datetime as the trade date, is
accepted by the first append and cannot be loaded afterwards. -/
theorem separatedRecord_not_loaded :
    (appendRecords none [separatedRecord] = .ok (fileOf [separatedRecord]) ∧
      ¬ ∃ result, (loadRecords (fileOf [separatedRecord]) :
        Except StoreError (List (LedgerRecord TradeDate))) = .ok result) ∧
    appendRecords none [sampleRecord (.datetime (sampleTime 9) none)] =
        .ok (fileOf [sampleRecord (.datetime (sampleTime 9) none)]) ∧
      ¬ ∃ result, (loadRecords (fileOf [sampleRecord (.datetime (sampleTime 9) none)]) :
        Except StoreError (List (LedgerRecord TradeDate))) = .ok result := by
  refine ⟨⟨appendRecords_singleton _, ?_⟩, appendRecords_singleton _, ?_⟩
  · rw [loadRecords_fileOf_iff]
    intro h
    have hline := (h separatedRecord (by simp)).1 ['x', Char.ofNat 0x2028, 'y']
      (by simp [LedgerRecord.freeTexts, separatedRecord])
    exact hline (Char.ofNat 0x2028) (by simp) (by decide)
  · rw [loadRecords_fileOf_iff]
    intro h
    obtain ⟨date, hdate⟩ := (TradeDate.readsBack_iff _).mp
      (h (sampleRecord (.datetime (sampleTime 9) none)) (by simp)).2
    cases hdate

end QuantWorkbench.Account
