import QuantWorkbench.Account.DurableLedger
import QuantWorkbench.Account.Rebuild

/-!
What `from_records` makes of the records of a ledger. Fills come back as they are; a correction is
made anew, with the time of the rebuilding.
-/

namespace QuantWorkbench.Account

open Lib Data

/-! ### Records that a store holds -/

section

variable {D : Type} [TradeDateText D] [DecidableEq D]

def DistinctIdentities (records : List (LedgerRecord D)) : Prop :=
  ∀ r ∈ records, ∀ s ∈ records, r.identity = s.identity → r = s

theorem DistinctIdentities.addRecord {records : List (LedgerRecord D)} {record : LedgerRecord D}
    {previousHash : Text} {found : Option Text} (h : DistinctIdentities records)
    (hfound : findStored record (storedRows previousHash records) = .ok found) :
    DistinctIdentities (addRecord records record) := by
  cases found with
  | some recordHash =>
      rw [Account.addRecord, if_pos (findStored_some hfound)]
      exact h
  | none =>
      have hnew := identity_of_findStored_none hfound
      intro r hr s hs hsame
      rcases mem_addRecord.mp hr with hold | hlast
      · rcases mem_addRecord.mp hs with hold' | rfl
        · exact h r hold s hold' hsame
        · exact absurd hsame (hnew r hold)
      · rcases mem_addRecord.mp hs with hold' | hlast'
        · rw [hlast] at hsame
          exact absurd hsame.symm (hnew s hold')
        · exact hlast.trans hlast'.symm

theorem findStored_of_appendRecord {records : List (LedgerRecord D)} {record : LedgerRecord D}
    {result : Text × Option Text} (h : appendRecord (fileOf records) record = .ok result) :
    ∃ found, findStored record (storedRows [] records) = .ok found := by
  have hone : ∀ r ∈ records, r.IsOneLine := by
    by_contra hbroken
    push Not at hbroken
    obtain ⟨error, herror⟩ := validatedRows_broken hbroken
    rw [appendRecord, herror] at h
    cases h
  rw [appendRecord, validatedRows_fileOf hone] at h
  dsimp only at h
  split at h
  · cases h
  · rename_i recordHash hfound
    exact ⟨_, hfound⟩
  · rename_i hfound
    exact ⟨_, hfound⟩

theorem distinctIdentities_of_appendRecords {records : List (LedgerRecord D)}
    {file : Option Text} (h : appendRecords none records = .ok file) :
    DistinctIdentities records := by
  have hfirst : DistinctIdentities (firstOccurrences records) := by
    induction records using List.reverseRecOn generalizing file with
    | nil => exact fun r hr => absurd hr List.not_mem_nil
    | append_singleton records record ih =>
        obtain ⟨middle, recordHash, hfront, hlast⟩ := appendRecords_concat_ok h
        rw [appendRecords_ok hfront] at hlast
        obtain ⟨found, hfound⟩ := findStored_of_appendRecord hlast
        rw [firstOccurrences, List.foldl_append]
        exact (ih hfront).addRecord hfound
  intro r hr s hs
  exact hfirst r (mem_firstOccurrences.mpr hr) s (mem_firstOccurrences.mpr hs)

/-- The file of a store to which the records were appended and which reads them back. -/
structure Holds (file : Option Text) (records : List (LedgerRecord D)) : Prop where
  appended : appendRecords none records = .ok file
  loads : loadRecords file = .ok records

/-- A record that the store holds is appended again without effect. -/
theorem Holds.appendRecord {file : Option Text} {records : List (LedgerRecord D)}
    (h : Holds file records) {record : LedgerRecord D} (hrecord : record ∈ records) :
    ∃ recordHash, appendRecord file record = .ok (recordHash, file) := by
  have hfile := appendRecords_ok h.appended
  have hloads := h.loads
  rw [hfile] at hloads
  have hreadable := (loadRecords_fileOf_iff (firstOccurrences records)).mp ⟨_, hloads⟩
  have hmem := mem_firstOccurrences.mpr hrecord
  have hdistinct := distinctIdentities_of_appendRecords h.appended
  obtain ⟨recordHash, hok⟩ := appendRecord_of_readable record hreadable fun r hr hsame =>
    hdistinct r (mem_firstOccurrences.mp hr) record hrecord hsame
  rw [hfile, hok, addRecord, if_pos hmem]
  exact ⟨recordHash, rfl⟩

theorem Holds.appendRecords {file : Option Text} {records again : List (LedgerRecord D)}
    (h : Holds file records) (hagain : ∀ record ∈ again, record ∈ records) :
    appendRecords file again = .ok file := by
  induction again with
  | nil => rfl
  | cons record rest ih =>
      obtain ⟨recordHash, hok⟩ := h.appendRecord (hagain record List.mem_cons_self)
      have hrest := ih fun other hother => hagain other (List.mem_cons_of_mem _ hother)
      rw [Account.appendRecords, List.foldlM_cons, hok]
      exact hrest

end

/-! ### Rebuilding a ledger -/

namespace AccountLedger

variable {D : Type} [LinearOrder D] [TradeDateText D]

/-- The records, events and voided fills of a rebuilt ledger are the same, so is its snapshot at
every date, and a store of the records takes them again without effect. -/
structure RebuiltFrom (ledger rebuilt : AccountLedger D) : Prop where
  records_eq : rebuilt.records = ledger.records
  events_eq : rebuilt.events = ledger.events
  voided_eq : rebuilt.voidedEventIds = ledger.voidedEventIds
  snapshot_eq : ∀ date, rebuilt.snapshot date = ledger.snapshot date
  appended : ∀ file, Holds file ledger.records → appendRecords file rebuilt.records = .ok file

/-- The records, each with the reading of the clock when `from_records` comes to it. -/
def clocked (clock : ℕ → UtcDateTime) (records : List (LedgerRecord D)) :
    List (UtcDateTime × LedgerRecord D) :=
  records.zipIdx.map fun entry => (clock entry.2, entry.1)

omit [LinearOrder D] [TradeDateText D] in
theorem clocked_content (clock : ℕ → UtcDateTime) (records : List (LedgerRecord D)) :
    (clocked clock records).map (fun entry => entry.2.content) =
      records.map LedgerRecord.content := by
  rw [clocked, List.map_map]
  change records.zipIdx.map (LedgerRecord.content ∘ Prod.fst) = _
  rw [← List.map_map, List.zipIdx_map_fst]

/-- A ledger rebuilt from its own records, the clock going on meanwhile, is the same. -/
def ReplaysFaithfully (ledger : AccountLedger D) (clock : ℕ → UtcDateTime) (today : D) : Prop :=
  ∃ rebuilt, replayRecords ledger.config (clocked clock ledger.records) today = .ok rebuilt ∧
    ledger.RebuiltFrom rebuilt

omit [LinearOrder D] [TradeDateText D] in
theorem restamped_eq_iff (now : UtcDateTime) (record : LedgerRecord D) :
    record.restamped now = record ↔ ∀ item, record = .correction item → item.recordedAt = now := by
  cases record with
  | fill event => simp [LedgerRecord.restamped]
  | correction item =>
      obtain ⟨correctionId, originalEventId, replacement, recordedAt, _, _, _, _⟩ := item
      simp only [LedgerRecord.restamped, LedgerRecord.correction.injEq, LedgerCorrection.mk.injEq,
        true_and, forall_eq']
      exact eq_comm

omit [LinearOrder D] [TradeDateText D] in
/-- The records come back as they are when the clock shows the time of each correction. -/
theorem restamped_clocked_iff (clock : ℕ → UtcDateTime) (records : List (LedgerRecord D)) :
    (clocked clock records).map (fun entry => entry.2.restamped entry.1) = records ↔
      ∀ i item, records[i]? = some (.correction item) → item.recordedAt = clock i := by
  have hmap : (clocked clock records).map (fun entry => entry.2.restamped entry.1) =
      records.mapIdx fun i record => record.restamped (clock i) := by
    rw [clocked, List.map_map, List.mapIdx_eq_zipIdx_map]
    rfl
  rw [hmap, List.ext_getElem?_iff]
  apply forall_congr'
  intro i
  rw [List.getElem?_mapIdx]
  cases hrecord : records[i]? with
  | none => simp
  | some record =>
      rw [Option.map_some, Option.some.injEq, restamped_eq_iff]
      simp only [Option.some.injEq]

/-- A recorded ledger is rebuilt with the same events, voided fills and snapshots. It is the same
ledger when the clock shows the time of each of its corrections again. -/
theorem Recorded.replaysFaithfully_iff {config : LedgerConfig D} {ledger : AccountLedger D}
    (h : Recorded config ledger) (clock : ℕ → UtcDateTime) (today : D) :
    ledger.ReplaysFaithfully clock today ↔
      ∀ i item, ledger.records[i]? = some (.correction item) → item.recordedAt = clock i := by
  rw [← restamped_clocked_iff]
  obtain ⟨rebuilt, hrebuilt, hbooks, hrecords⟩ :=
    h.replayRecords (clocked_content clock ledger.records) today
  rw [ReplaysFaithfully, h.config_eq]
  constructor
  · rintro ⟨rebuilt', hrebuilt', hfrom⟩
    obtain rfl : rebuilt = rebuilt' := Except.ok.inj (hrebuilt.symm.trans hrebuilt')
    rw [← hrecords]
    exact hfrom.records_eq
  · intro hsame
    rw [hsame] at hrecords
    refine ⟨rebuilt, hrebuilt, hrecords, hbooks.events_eq.symm, hbooks.voided_eq.symm, ?_, ?_⟩
    · intro date
      exact (hbooks.snapshot date).symm
    · intro file hholds
      rw [hrecords]
      exact hholds.appendRecords fun _ hrecord => hrecord

omit [TradeDateText D] in
theorem recorded_run (config : LedgerConfig D) (ops : List (LedgerOp D)) :
    Recorded config (ops.foldl step (empty config)) := by
  induction ops using List.reverseRecOn with
  | nil => exact .empty
  | append_singleton earlier op ih =>
      rw [List.foldl_append]
      exact ih.step op

/-- After any calls, some of which may have failed, the ledger is rebuilt faithfully exactly when
the clock of the rebuilding shows, at each correction, the time at which it was recorded. -/
theorem run_replaysFaithfully_iff (config : LedgerConfig D) (ops : List (LedgerOp D))
    (clock : ℕ → UtcDateTime) (today : D) :
    (ops.foldl step (empty config)).ReplaysFaithfully clock today ↔
      ∀ i item, (ops.foldl step (empty config)).records[i]? = some (.correction item) →
        item.recordedAt = clock i :=
  (recorded_run config ops).replaysFaithfully_iff clock today

/-- Buy 100 on a day, and correct the purchase to 200 at ten o'clock. -/
def correctedRun : List (LedgerOp Date) :=
  [.recordFill (sampleFill 'a' .buy 100 100000 (sampleDay 0)),
   .appendCorrection ['a'] (sampleFill 'b' .buy 200 100000 (sampleDay 0)) none ['c']
     (sampleTime 10) (sampleDay 0)]

/-- Rebuilt at eleven, the correction is another record. -/
theorem correctedRun_not_replayed :
    ¬ (correctedRun.foldl step (empty (sampleConfigOn fun _ => sampleDay 1))).ReplaysFaithfully
      (fun _ => sampleTime 11) (sampleDay 0) := by
  rw [(recorded_run _ correctedRun).replaysFaithfully_iff]
  intro htimes
  have hrecord : ((correctedRun.foldl step
      (empty (sampleConfigOn fun _ => sampleDay 1))).records[1]?.bind fun record =>
        match record with
        | .fill _ => none
        | .correction item => some item.recordedAt) = some (sampleTime 10) := by
    decide +kernel
  obtain ⟨record, hget, hcorrection⟩ := Option.bind_eq_some_iff.mp hrecord
  cases record with
  | fill event => cases hcorrection
  | correction item =>
      have htime : sampleTime 10 = sampleTime 11 :=
        (Option.some.inj hcorrection).symm.trans (htimes 1 item hget)
      revert htime
      decide

end AccountLedger

end QuantWorkbench.Account
