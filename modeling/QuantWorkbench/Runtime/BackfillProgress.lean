import QuantWorkbench.Runtime.BackfillCoverage

/-!
Progress of repeated runs. A run that meets no fault changes a record exactly when
a visit repairs one, gets rows or skips a leading gap; everything else the provider
has stays out of reach for as long as the same call is repeated.
-/

namespace QuantWorkbench.Runtime

open QuantWorkbench.Lib QuantWorkbench.Lib.Coverage

variable {Cells : Type}

namespace HistoricalBackfillCoordinator

variable (c : HistoricalBackfillCoordinator Cells) (call : BackfillCall)
  {rows : String → HistoryFrame Cells}

/-- The visit repairs the record, or its answers are valid and bring rows or
belong to a leading gap. -/
def Advances (rows : String → HistoryFrame Cells) (symbol : String)
    (missing : List (ℕ × ℕ)) (slot : Slot Cells) : Prop :=
  (c.reconciledSlot symbol slot).record ≠ slot.record ∨
    (∃ pieces, c.fetchPieces symbol missing = .ok pieces) ∧
      ((∃ range ∈ missing, answer rows symbol range ≠ []) ∨
        LeadingGap (c.reconciledSlot symbol slot).record call.startDay missing)

theorem settle_complete_eq {symbol : String} {slot : Slot Cells} {missing : List (ℕ × ℕ)}
    (hmissing : missing ≠ []) (hrequests : c.slotRequests call symbol slot = .ok missing) :
    ∃ result, c.attempt symbol (c.reconciledSlot symbol slot).record
        (c.reconciledSlot symbol slot).active call.startDay missing = .ok result ∧
      c.settle call symbol missing slot .complete =
        c.attemptedSlot (c.reconciledSlot symbol slot) result := by
  obtain ⟨reconciled, hreconcile⟩ := c.reconcile_of_slotRequests call hrequests
  obtain ⟨result, hresult⟩ := c.attempt_ok_of_reconcile hreconcile call.startDay missing
  have hslot := c.reconciledSlot_eq hreconcile
  refine ⟨result, by rw [hslot]; exact hresult, ?_⟩
  change c.pursue call symbol missing (c.reconciledSlot symbol slot) c.attemptedSlot = _
  unfold pursue
  rw [if_neg hmissing, hslot]
  simp only [hresult]

/-- A visit that does not advance leaves its slot as it was. -/
theorem settle_of_not_advances (hexact : c.provider.AnswersExactly rows) {symbol : String}
    {slot : Slot Cells} (hgood : GoodSlot rows symbol slot) {missing : List (ℕ × ℕ)}
    (hasked : missing = [] ∨ c.slotRequests call symbol slot = .ok missing)
    (hstays : ¬ c.Advances call rows symbol missing slot) :
    c.settle call symbol missing slot .complete = slot := by
  have hrecord : (c.reconciledSlot symbol slot).record = slot.record := by
    by_contra hne
    exact hstays (Or.inl hne)
  have hreconciled : c.reconciledSlot symbol slot = slot := by
    ext1
    · exact hrecord
    · exact c.reconciledSlot_active symbol slot
  by_cases hnone : missing = []
  · subst hnone
    exact hreconciled
  · have hrequests := hasked.resolve_left hnone
    obtain ⟨result, hresult, hsettle⟩ := c.settle_complete_eq call hnone hrequests
    have haligned : (c.reconciledSlot symbol slot).record = none →
        (c.reconciledSlot symbol slot).active = none := by
      intro hempty
      rw [c.reconciledSlot_active]
      exact c.reconciledSlot_aligned call hrequests hempty
    rw [hsettle]
    rcases c.attempt_cases hexact (c.good_reconciledSlot hgood) haligned hresult with
      ⟨⟨_, rfl⟩, _⟩ | ⟨_, _, _, hfetch, _, hgap⟩ | ⟨_, _, _, _, hfetch, hsome, _⟩
    · exact hreconciled
    · exact absurd (Or.inr ⟨hfetch, Or.inr hgap⟩) hstays
    · exact absurd (Or.inr ⟨hfetch, Or.inl hsome⟩) hstays

/-- A reconciliation never narrows the bounds of a record. -/
theorem reconciled_bounds {symbol : String} {slot : Slot Cells}
    (hgood : GoodSlot rows symbol slot) {record current : SymbolRecord}
    (hrecord : slot.record = some record)
    (hcurrent : (c.reconciledSlot symbol slot).record = some current) :
    current.startDate ≤ record.startDate ∧ record.endDate ≤ current.endDate := by
  rcases c.reconciledSlot_cases symbol slot with h | ⟨artifact, hactive, _, h⟩
  · rw [h, hrecord] at hcurrent
    cases hcurrent
    exact ⟨le_rfl, le_rfl⟩
  · rw [h] at hcurrent
    cases hcurrent
    obtain ⟨_, _, first, hfirst, last, hlast, hlow, hhigh⟩ := hgood.record record hrecord
    unfold heldRows at hfirst hlast
    rw [hactive] at hfirst hlast
    obtain ⟨low, _, high, _, _, hinside, hends⟩ :=
      frameBounds_of_ne_nil (hgood.frame artifact hactive).nonempty
    rw [(hends artifact).1, (hends artifact).2]
    exact ⟨(hinside first hfirst).1.trans hlow, hhigh.trans (hinside last hlast).2⟩

/-- What is asked for lies outside the record, and a skipped leading gap was not
marked before. -/
theorem requested_outside {record : SymbolRecord} {ranges : List (ℕ × ℕ)}
    (h : c.requestedRanges (some record) call.startDay call.endDay = .ok ranges)
    {range : ℕ × ℕ} (hrange : range ∈ ranges) :
    (range.2 < record.startDate ∧ record.leadingGapSkipped = false) ∨
      (record.endDate < range.1 ∧ range.1 ≤ range.2) := by
  obtain ⟨upTo, hmem, hle, hchunk⟩ := c.mem_requestedRanges h hrange
  unfold missingRanges at hmem
  rcases List.mem_append.mp hmem with hmem | hmem
  · split at hmem
    · rename_i hgap
      have heq := List.mem_singleton.mp hmem
      have hlast : upTo = record.startDate - 1 := congrArg Prod.snd heq
      exact Or.inl ⟨by omega, hgap.2⟩
    · cases hmem
  · split at hmem
    · rename_i hlater
      have heq := List.mem_singleton.mp hmem
      have hfirst : range.1 = record.endDate + 1 := congrArg Prod.fst heq
      have hlast : upTo = call.endDay := congrArg Prod.snd heq
      exact Or.inr ⟨by omega, hchunk (by omega)⟩
    · cases hmem

/-- A merge that brings rows extends the bounds of the record. -/
theorem merged_extends {symbol : String} {slot : Slot Cells}
    (hgood : GoodSlot rows symbol slot) {missing : List (ℕ × ℕ)}
    (hrequests : c.slotRequests call symbol slot = .ok missing)
    (hsome : ∃ range ∈ missing, answer rows symbol range ≠ [])
    {frame : HistoryFrame Cells} (hframe : GoodFrame rows symbol frame)
    (hset : rowSet frame = rowSet (heldRows slot) ∪
      windows HistoryRow.date (rowSet (rows symbol)) missing)
    (artifact : ResearchArtifact Cells) (record : SymbolRecord)
    (hrecord : slot.record = some record) :
    (symbolRecord frame artifact).startDate < record.startDate ∨
      record.endDate < (symbolRecord frame artifact).endDate := by
  have hranges := c.requested_of_slotRequests call hrequests
  obtain ⟨low, _, high, _, _, hinside, hends⟩ := frameBounds_of_ne_nil hframe.nonempty
  rw [(hends artifact).1, (hends artifact).2]
  obtain ⟨range, hrange, hne⟩ := hsome
  obtain ⟨row, hrow⟩ := List.exists_mem_of_ne_nil _ hne
  have hnew : row ∈ frame := by
    change row ∈ rowSet frame
    rw [hset]
    exact Or.inr ⟨range, hrange, mem_answer.mp hrow⟩
  obtain ⟨_, hfrom, hto⟩ := mem_answer.mp hrow
  have hbounds := hinside row hnew
  cases hcurrent : (c.reconciledSlot symbol slot).record with
  | none =>
      rcases c.reconciledSlot_cases symbol slot with h | ⟨_, _, _, h⟩
      · rw [h, hrecord] at hcurrent
        cases hcurrent
      · rw [h] at hcurrent
        cases hcurrent
  | some current =>
      rw [hcurrent] at hranges
      have hwider := c.reconciled_bounds hgood hrecord hcurrent
      rcases c.requested_outside call hranges hrange with ⟨hbefore, _⟩ | ⟨hafter, _⟩
      · left
        omega
      · right
        omega

theorem record_ne_of_advances (hexact : c.provider.AnswersExactly rows) {symbol : String}
    {slot : Slot Cells} (hgood : GoodSlot rows symbol slot) {missing : List (ℕ × ℕ)}
    (hasked : missing = [] ∨ c.slotRequests call symbol slot = .ok missing)
    (hadvances : c.Advances call rows symbol missing slot) :
    (c.settle call symbol missing slot .complete).record ≠ slot.record := by
  by_cases hnone : missing = []
  · subst hnone
    rcases hadvances with hrepaired | ⟨_, ⟨range, hrange, _⟩ | ⟨_, _, range, hrange, _⟩⟩
    · exact hrepaired
    · cases hrange
    · cases hrange
  have hrequests := hasked.resolve_left hnone
  have hranges := c.requested_of_slotRequests call hrequests
  have hgood' := c.good_reconciledSlot hgood
  have haligned : (c.reconciledSlot symbol slot).record = none →
      (c.reconciledSlot symbol slot).active = none := by
    intro hempty
    rw [c.reconciledSlot_active]
    exact c.reconciledSlot_aligned call hrequests hempty
  have hheld : heldRows (c.reconciledSlot symbol slot) = heldRows slot := by
    unfold heldRows
    rw [c.reconciledSlot_active]
  obtain ⟨result, hresult, hsettle⟩ := c.settle_complete_eq call hnone hrequests
  rw [hsettle]
  rcases c.attempt_cases hexact hgood' haligned hresult with
    ⟨⟨reason, rfl⟩, hfailed⟩ | ⟨current, hcurrent, rfl, _, _, hgap⟩ |
    ⟨frame, version, newRows, rfl, _, hsome, hframe, hset⟩
  · rcases hadvances with hrepaired | ⟨⟨pieces, hpieces⟩, hbrings⟩
    · exact hrepaired
    · rcases hfailed with ⟨failure, hfailure⟩ | ⟨hempty, hnogap⟩
      · rw [hpieces] at hfailure
        cases hfailure
      · rcases hbrings with ⟨range, hrange, hne⟩ | hgap
        · exact absurd (hempty range hrange) hne
        · exact absurd hgap hnogap
  · rcases c.reconciledSlot_cases symbol slot with h | ⟨artifact, _, hdiffers, h⟩
    · -- The mark of the gap is new, or the prefix would not have been asked for.
      rw [h] at hcurrent
      obtain ⟨other, hother, range, hrange, hstart, hbefore⟩ := hgap
      rw [h, hcurrent] at hother
      cases hother
      rw [h, hcurrent] at hranges
      have hmem : range ∈ missing := List.mem_of_mem_head? hrange
      have hunmarked : current.leadingGapSkipped = false := by
        rcases c.requested_outside call hranges hmem with ⟨_, hmark⟩ | ⟨hafter, hle⟩
        · exact hmark
        · have hordered := (hgood.record current hcurrent).2.1
          omega
      rw [hcurrent]
      intro heq
      have hmarked := congrArg (Option.map SymbolRecord.leadingGapSkipped) heq
      simp [attemptedSlot, hunmarked] at hmarked
    · rw [h] at hcurrent
      cases hcurrent
      intro heq
      have hsha := hdiffers _ heq.symm
      exact hsha rfl
  · rw [hheld] at hset
    intro heq
    cases hrecord : slot.record with
    | none =>
        rw [hrecord] at heq
        cases heq
    | some record =>
        rw [hrecord] at heq
        have hext := c.merged_extends call hgood hrequests hsome hframe hset
          (c.publication frame version) record hrecord
        cases heq
        simp only [updatedRecord, publication] at hext
        omega

def RecordsUnchanged (before after : Storage Cells) : Prop :=
  ∀ symbol, after.checkpoint.symbols symbol = before.checkpoint.symbols symbol

def WindowHeld (rows : String → HistoryFrame Cells) (instruments : List String)
    (call : BackfillCall) (storage : Storage Cells) : Prop :=
  ∀ symbol ∈ instruments, ∀ row ∈ rows symbol,
    call.startDay ≤ row.date → row.date ≤ call.endDay →
      row ∈ heldRows (storage.slot symbol)

theorem good_runs (hexact : c.provider.AnswersExactly rows) (calls : List BackfillCall)
    {storage : Storage Cells} (hgood : Good rows storage) :
    Good rows (calls.foldl c.runStorage storage) := by
  induction calls generalizing storage with
  | nil => exact hgood
  | cons call rest ih => exact ih (c.good_runStorage call hexact hgood)

theorem slot_of_no_advance (hexact : c.provider.AnswersExactly rows) {storage : Storage Cells}
    (hgood : Good rows storage) (hfree : call.FaultFree)
    (hstays : ∀ symbol missing, (symbol, missing) ∈ c.visits call storage →
      ¬ c.Advances call rows symbol missing (storage.slot symbol)) (symbol : String) :
    (c.runStorage storage call).slot symbol = storage.slot symbol := by
  obtain ⟨hkept, hvisited⟩ := c.runStorage_settled call storage
  by_cases hvisit : ∃ missing, (symbol, missing) ∈ c.visits call storage
  · obtain ⟨missing, hmem⟩ := hvisit
    rw [(hvisited symbol missing hmem).2 hfree]
    exact c.settle_of_not_advances call hexact (hgood symbol)
      (c.slotRequests_of_mem_visits call hmem) (hstays symbol missing hmem)
  · exact hkept symbol fun missing hmem => hvisit ⟨missing, hmem⟩

/-- After any runs: a run without faults that changes no record has everything the
provider offers in its window, exactly if that was held before or some visit of the
run advances. -/
theorem unchanged_run_held_iff (hexact : c.provider.AnswersExactly rows)
    (instruments : List String) (calls : List BackfillCall) (hfree : call.FaultFree) :
    let storage := calls.foldl c.runStorage Storage.empty
    (RecordsUnchanged storage (c.runStorage storage call) →
        WindowHeld rows instruments call (c.runStorage storage call)) ↔
      (WindowHeld rows instruments call storage ∨
        ∃ symbol missing, (symbol, missing) ∈ c.visits call storage ∧
          c.Advances call rows symbol missing (storage.slot symbol)) := by
  intro storage
  have hgood : Good rows storage := c.good_runs hexact calls good_empty
  by_cases hadvances : ∃ symbol missing, (symbol, missing) ∈ c.visits call storage ∧
      c.Advances call rows symbol missing (storage.slot symbol)
  · refine iff_of_true ?_ (Or.inr hadvances)
    obtain ⟨symbol, missing, hmem, hadvance⟩ := hadvances
    intro hunchanged
    have hne := c.record_ne_of_advances call hexact (hgood symbol)
      (c.slotRequests_of_mem_visits call hmem) hadvance
    rw [← ((c.runStorage_settled call storage).2 symbol missing hmem).2 hfree] at hne
    exact absurd (hunchanged symbol) hne
  · have hsame : ∀ symbol, (c.runStorage storage call).slot symbol = storage.slot symbol :=
      c.slot_of_no_advance call hexact hgood hfree fun symbol missing hmem hadvance =>
        hadvances ⟨symbol, missing, hmem, hadvance⟩
    have hheld : WindowHeld rows instruments call (c.runStorage storage call) ↔
        WindowHeld rows instruments call storage := by
      unfold WindowHeld
      simp only [hsame]
    have hunchanged : RecordsUnchanged storage (c.runStorage storage call) :=
      fun symbol => congrArg Slot.record (hsame symbol)
    rw [or_iff_left hadvances, ← hheld]
    exact ⟨fun h => h hunchanged, fun h _ => h⟩

/-- With two days a request, a symbol whose first session is on the third day of the
window is asked for its first two days again and again. -/
theorem lateListing_stuck :
    (sampleCoordinator [3]).provider.AnswersExactly (fun _ => [3].map sampleRow) ∧
      ¬ (RecordsUnchanged Storage.empty
            ((sampleCoordinator [3]).runStorage Storage.empty (sampleCall 1 6)) →
          WindowHeld (fun _ => [3].map sampleRow) ["600001"] (sampleCall 1 6)
            ((sampleCoordinator [3]).runStorage Storage.empty (sampleCall 1 6))) := by
  refine ⟨sampleCoordinator_exact _, ?_⟩
  have hvisits : (sampleCoordinator [3]).visits (sampleCall 1 6) Storage.empty =
      [("600001", [(737060, 737061)])] := by decide +kernel
  have hanswer : answer (fun _ => [3].map sampleRow) "600001" (737060, 737061) = [] := by
    decide +kernel
  have hsame := (sampleCoordinator [3]).slot_of_no_advance (sampleCall 1 6)
    (sampleCoordinator_exact _) good_empty (fun _ => rfl) <| by
      intro symbol missing hmem
      rw [hvisits, List.mem_singleton] at hmem
      cases hmem
      rintro (hrepaired | ⟨_, ⟨range, hrange, hne⟩ | ⟨current, hcurrent, _⟩⟩)
      · exact hrepaired rfl
      · cases List.mem_singleton.mp hrange
        exact hne hanswer
      · cases hcurrent
  intro hheld
  have hmissing := hheld (fun symbol => congrArg Slot.record (hsame symbol)) "600001"
    List.mem_cons_self (sampleRow 3) List.mem_cons_self (Nat.le_add_right 737060 2)
    (Nat.le_add_right 737062 3)
  rw [hsame "600001"] at hmissing
  cases hmissing

/-- With a session on the first day a repeated call has moved on. -/
theorem earlyListing_advances :
    (sampleCoordinator [1, 3]).provider.AnswersExactly (fun _ => [1, 3].map sampleRow) ∧
      (RecordsUnchanged
          ((sampleCoordinator [1, 3]).runStorage Storage.empty (sampleCall 1 2))
          ((sampleCoordinator [1, 3]).runStorage
            ((sampleCoordinator [1, 3]).runStorage Storage.empty (sampleCall 1 2))
            (sampleCall 1 6)) →
        WindowHeld (fun _ => [1, 3].map sampleRow) ["600001"] (sampleCall 1 6)
          ((sampleCoordinator [1, 3]).runStorage
            ((sampleCoordinator [1, 3]).runStorage Storage.empty (sampleCall 1 2))
            (sampleCall 1 6))) := by
  refine ⟨sampleCoordinator_exact _, ?_⟩
  have hvisits : (sampleCoordinator [1, 3]).visits (sampleCall 1 6)
      ((sampleCoordinator [1, 3]).runStorage Storage.empty (sampleCall 1 2)) =
        [("600001", [(737061, 737062)])] := by decide +kernel
  apply (unchanged_run_held_iff (sampleCoordinator [1, 3]) (sampleCall 1 6)
    (sampleCoordinator_exact [1, 3]) ["600001"] [sampleCall 1 2] (fun _ => rfl)).mpr
  right
  refine ⟨"600001", [(737061, 737062)], hvisits ▸ List.mem_cons_self, Or.inr ⟨⟨_, rfl⟩, Or.inl ?_⟩⟩
  exact ⟨_, List.mem_cons_self, List.ne_nil_of_mem (by decide +kernel :
    sampleRow 3 ∈ answer (fun _ => [1, 3].map sampleRow) "600001" (737061, 737062))⟩

end HistoricalBackfillCoordinator

end QuantWorkbench.Runtime
