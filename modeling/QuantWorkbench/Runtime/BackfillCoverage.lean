import QuantWorkbench.Runtime.BackfillFrames
import QuantWorkbench.Lib.Runs

/-!
Coverage of the checkpoint records over whole sequences of runs. A record keeps
only the outer bounds of its artifact, so a bounded request for rows before the
record leaves a hole when it stops short of it.
-/

namespace QuantWorkbench.Runtime

open QuantWorkbench.Lib QuantWorkbench.Lib.Coverage

variable {Cells : Type}

theorem addDays_ok {day days next : ℕ} (h : addDays day days = .ok next) :
    next = day + days := by
  unfold addDays at h
  split at h
  · cases h
    rfl
  · cases h

/-- More fuel than days left changes nothing. -/
theorem boundRange_fuel {span endDay : ℕ} (fuel fuel' cursor : ℕ)
    (h : endDay + 1 - cursor ≤ fuel) (h' : endDay + 1 - cursor ≤ fuel') :
    boundRange span fuel cursor endDay = boundRange span fuel' cursor endDay := by
  induction fuel generalizing fuel' cursor with
  | zero =>
      cases fuel' with
      | zero => rfl
      | succ fuel' =>
          unfold boundRange
          rw [if_neg (by omega)]
  | succ fuel ih =>
      cases fuel' with
      | zero =>
          unfold boundRange
          rw [if_neg (by omega)]
      | succ fuel' =>
          unfold boundRange
          by_cases hle : cursor ≤ endDay
          · rw [if_pos hle, if_pos hle]
            cases hfar : addDays cursor span with
            | error error => rfl
            | ok far =>
                have hfar' := addDays_ok hfar
                simp only [bind, Except.bind]
                cases hnext : addDays (min endDay far) 1 with
                | error error => rfl
                | ok next =>
                    have hnext' := addDays_ok hnext
                    simp only
                    rw [ih fuel' next (by omega) (by omega)]
          · rw [if_neg hle, if_neg hle]

/-- The loop over one range: the number of chunks never exceeds its number of days. -/
theorem boundRange_eq (span cursor endDay : ℕ) :
    boundRange span (endDay + 1 - cursor) cursor endDay =
      if cursor ≤ endDay then do
        let chunkEnd := min endDay (← addDays cursor span)
        let next ← addDays chunkEnd 1
        return (cursor, chunkEnd) :: (← boundRange span (endDay + 1 - next) next endDay)
      else .ok [] := by
  rw [boundRange_fuel (endDay + 1 - cursor) (endDay + 1 - cursor + 1) cursor le_rfl (by omega)]
  rw [boundRange]
  by_cases hle : cursor ≤ endDay
  · rw [if_pos hle, if_pos hle]
    cases hfar : addDays cursor span with
    | error error => rfl
    | ok far =>
        have hfar' := addDays_ok hfar
        simp only [bind, Except.bind]
        cases hnext : addDays (min endDay far) 1 with
        | error error => rfl
        | ok next =>
            have hnext' := addDays_ok hnext
            simp only
            rw [boundRange_fuel (endDay + 1 - cursor) (endDay + 1 - next) next (by omega) le_rfl]
  · rw [if_neg hle, if_neg hle]

theorem boundRange_head {span cursor endDay : ℕ} (hle : cursor ≤ endDay)
    {chunks : List (ℕ × ℕ)}
    (h : boundRange span (endDay + 1 - cursor) cursor endDay = .ok chunks) :
    ∃ rest, chunks = (cursor, min endDay (cursor + span)) :: rest := by
  rw [boundRange_eq, if_pos hle] at h
  cases hfar : addDays cursor span with
  | error error =>
      rw [hfar] at h
      cases h
  | ok far =>
      rw [hfar] at h
      cases hnext : addDays (min endDay far) 1 with
      | error error =>
          simp only [bind, Except.bind, hnext] at h
          cases h
      | ok next =>
          simp only [bind, Except.bind, hnext] at h
          rw [addDays_ok hfar] at h
          split at h
          · cases h
          · cases h
            exact ⟨_, rfl⟩

/-- The first chunk starts where one of the ranges starts and stays inside it. -/
theorem boundRanges_head {span : ℕ} {ranges chunks : List (ℕ × ℕ)}
    (h : boundRanges span ranges = .ok chunks) {chunk : ℕ × ℕ} (hchunk : chunk ∈ chunks.head?) :
    ∃ upTo, (chunk.1, upTo) ∈ ranges ∧ chunk.1 ≤ chunk.2 ∧ chunk.2 ≤ upTo := by
  induction ranges generalizing chunks with
  | nil =>
      cases h
      cases hchunk
  | cons range rest ih =>
      obtain ⟨startDay, endDay⟩ := range
      unfold boundRanges at h
      cases hfirst : boundRange span (endDay + 1 - startDay) startDay endDay with
      | error error =>
          rw [hfirst] at h
          cases h
      | ok first =>
          cases hlater : boundRanges span rest with
          | error error =>
              rw [hfirst, hlater] at h
              cases h
          | ok later =>
              rw [hfirst, hlater] at h
              cases h
              by_cases hle : startDay ≤ endDay
              · obtain ⟨others, rfl⟩ := boundRange_head hle hfirst
                cases hchunk
                exact ⟨endDay, List.mem_cons_self, by simp only; omega, by simp only; omega⟩
              · rw [boundRange_eq, if_neg hle] at hfirst
                cases hfirst
                obtain ⟨upTo, hmem, hbounds⟩ := ih hlater hchunk
                exact ⟨upTo, List.mem_cons_of_mem _ hmem, hbounds⟩

namespace HistoricalBackfillCoordinator

variable (c : HistoricalBackfillCoordinator Cells)

/-- What a run asks for begins where something is missing and goes no further. -/
theorem mem_requestedRanges {record : Option SymbolRecord} {startDay endDay : ℕ}
    {ranges : List (ℕ × ℕ)} (h : c.requestedRanges record startDay endDay = .ok ranges)
    {range : ℕ × ℕ} (hrange : range ∈ ranges) :
    ∃ upTo, (range.1, upTo) ∈ missingRanges record startDay endDay ∧ range.2 ≤ upTo ∧
      (range.1 ≤ upTo → range.1 ≤ range.2) := by
  unfold requestedRanges at h
  split at h
  · cases h
    exact ⟨range.2, hrange, le_rfl, id⟩
  · rename_i days _
    unfold boundMissingRanges at h
    split at h
    · cases h
    · cases hchunks : boundRanges (days - 1) (missingRanges record startDay endDay) with
      | error error =>
          rw [hchunks] at h
          cases h
      | ok chunks =>
          rw [hchunks] at h
          cases h
          have hhead : range ∈ chunks.head? := by
            cases chunks with
            | nil => cases hrange
            | cons first rest =>
                have := List.mem_singleton.mp hrange
                exact this ▸ rfl
          obtain ⟨upTo, hmem, hordered, hle⟩ := boundRanges_head hchunks hhead
          exact ⟨upTo, hmem, hle, fun _ => hordered⟩

variable (call : BackfillCall) {rows : String → HistoryFrame Cells}

/-- What the plan says about a symbol is nothing or its own requests. -/
theorem slotRequests_of_mem_plan {slots : String → Slot Cells} {budget : ℕ}
    {symbols : List String} {symbol : String} {missing : List (ℕ × ℕ)}
    (h : (symbol, missing) ∈ c.plan call slots budget symbols) :
    missing = [] ∨ c.slotRequests call symbol (slots symbol) = .ok missing := by
  induction symbols generalizing budget with
  | nil => cases h
  | cons head rest ih =>
      unfold plan at h
      split at h
      · rw [List.mem_singleton] at h
        cases h
        exact Or.inl rfl
      · rcases List.mem_cons.mp h with h | h
        · cases h
          exact Or.inl rfl
        · exact ih h
      · rw [List.mem_singleton] at h
        cases h
        exact Or.inl rfl
      · rename_i range ranges budget hrequests
        rcases List.mem_cons.mp h with h | h
        · cases h
          exact Or.inr hrequests
        · exact ih h

theorem slotRequests_of_mem_visits {storage : Storage Cells} {symbol : String}
    {missing : List (ℕ × ℕ)} (h : (symbol, missing) ∈ c.visits call storage) :
    missing = [] ∨ c.slotRequests call symbol (storage.slot symbol) = .ok missing := by
  unfold visits at h
  split at h
  · cases h
  · exact c.slotRequests_of_mem_plan call h

/-- A reconciliation keeps the slot or replaces its record by that of its artifact. -/
theorem reconciledSlot_cases (symbol : String) (slot : Slot Cells) :
    c.reconciledSlot symbol slot = slot ∨
      ∃ artifact, slot.active = some artifact ∧
        (∀ current, slot.record = some current → current.artifactSha256 ≠ artifact.sha256) ∧
        c.reconciledSlot symbol slot =
          { slot with record := some (symbolRecord artifact.frame artifact) } := by
  cases hreconcile : c.reconcileSymbol symbol slot.record slot.active with
  | error error =>
      left
      unfold reconciledSlot
      rw [hreconcile]
  | ok reconciled =>
      rw [c.reconciledSlot_eq hreconcile]
      rcases c.reconcileSymbol_cases hreconcile with ⟨hrecord, _, rfl⟩ |
        ⟨current, _, hrecord, _, rfl⟩ | ⟨artifact, hactive, hdiffers, _, rfl⟩
      · left
        ext1
        · exact hrecord.symm
        · rfl
      · left
        ext1
        · exact hrecord.symm
        · rfl
      · exact Or.inr ⟨artifact, hactive, hdiffers, rfl⟩

theorem reconciledSlot_active (symbol : String) (slot : Slot Cells) :
    (c.reconciledSlot symbol slot).active = slot.active := by
  rcases c.reconciledSlot_cases symbol slot with h | ⟨_, _, _, h⟩
  · rw [h]
  · rw [h]

/-- Where requests could be worked out, a slot without a record has no artifact. -/
theorem reconciledSlot_aligned {symbol : String} {slot : Slot Cells}
    {missing : List (ℕ × ℕ)} (h : c.slotRequests call symbol slot = .ok missing)
    (hnone : (c.reconciledSlot symbol slot).record = none) : slot.active = none := by
  cases hreconcile : c.reconcileSymbol symbol slot.record slot.active with
  | error error =>
      unfold slotRequests at h
      rw [hreconcile] at h
      cases h
  | ok reconciled =>
      rw [c.reconciledSlot_eq hreconcile] at hnone
      rcases c.reconcileSymbol_cases hreconcile with ⟨_, hactive, _⟩ | ⟨_, _, _, _, rfl⟩ |
        ⟨_, _, _, _, rfl⟩
      · exact hactive
      · cases hnone
      · cases hnone

theorem spans_symbolRecord {symbol : String} {frame : HistoryFrame Cells}
    (hframe : GoodFrame rows symbol frame) (artifact : ResearchArtifact Cells) :
    (symbolRecord frame artifact).startDate ≤ (symbolRecord frame artifact).endDate ∧
      Spans HistoryRow.date (rowSet frame) (symbolRecord frame artifact).startDate
        (symbolRecord frame artifact).endDate := by
  obtain ⟨first, hfirst, last, hlast, _, hinside, hrecord⟩ :=
    frameBounds_of_ne_nil hframe.nonempty
  rw [(hrecord artifact).1, (hrecord artifact).2]
  exact ⟨(hinside first hfirst).2, first, hfirst, last, hlast, le_rfl, le_rfl⟩

theorem good_reconciledSlot {symbol : String} {slot : Slot Cells}
    (hgood : GoodSlot rows symbol slot) :
    GoodSlot rows symbol (c.reconciledSlot symbol slot) := by
  rcases c.reconciledSlot_cases symbol slot with h | ⟨artifact, hactive, _, h⟩
  · rw [h]
    exact hgood
  · rw [h]
    refine ⟨hgood.frame, ?_⟩
    intro record hrecord
    cases hrecord
    obtain ⟨hordered, hspans⟩ := spans_symbolRecord (hgood.frame artifact hactive) artifact
    refine ⟨by simp [hactive], hordered, ?_⟩
    unfold heldRows
    rw [hactive]
    exact hspans

theorem heldRows_reconciledSlot (symbol : String) (slot : Slot Cells) :
    heldRows (c.reconciledSlot symbol slot) = heldRows slot := by
  rw [heldRows, c.reconciledSlot_active, heldRows]

/-- Everything a visit can leave, whatever the provider answers. -/
theorem settle_forms {symbol : String} {slot : Slot Cells} {missing : List (ℕ × ℕ)}
    (hasked : missing = [] ∨ c.slotRequests call symbol slot = .ok missing) (stage : Stage) :
    let reconciled := c.reconciledSlot symbol slot
    let after := c.settle call symbol missing slot stage
    after = slot ∨ after = reconciled ∨
      (∃ current, reconciled.record = some current ∧
        after = { reconciled with record := some { current with leadingGapSkipped := true } }) ∨
      ∃ pieces version, c.slotRequests call symbol slot = .ok missing ∧
        c.fetchPieces symbol missing = .ok pieces ∧ (∃ piece ∈ pieces, piece ≠ []) ∧
        (∃ first last, validateHistory (mergeFrames (heldRows slot :: pieces)) symbol first last =
          .ok ()) ∧
        let artifact := c.publication (mergeFrames (heldRows slot :: pieces)) version
        (after = { reconciled with active := some artifact } ∨
          after = { record := some (updatedRecord reconciled.record artifact)
                    active := some artifact }) := by
  intro reconciled after
  by_cases hnone : missing = []
  · subst hnone
    cases stage with
    | untouched => exact Or.inl rfl
    | reconciled => exact Or.inr (Or.inl rfl)
    | published => exact Or.inr (Or.inl rfl)
    | complete => exact Or.inr (Or.inl rfl)
  · have hrequests := hasked.resolve_left hnone
    have haligned : reconciled.record = none → reconciled.active = none := by
      intro hrecord
      rw [c.reconciledSlot_active]
      exact c.reconciledSlot_aligned call hrequests hrecord
    have hheld : heldRows reconciled = heldRows slot := c.heldRows_reconciledSlot symbol slot
    cases hattempt : c.attempt symbol reconciled.record reconciled.active call.startDay
        missing with
    | error error =>
        have hpursue : ∀ leave, c.pursue call symbol missing reconciled leave = reconciled := by
          intro leave
          rw [pursue, if_neg hnone, hattempt]
        cases stage with
        | untouched => exact Or.inl rfl
        | reconciled => exact Or.inr (Or.inl rfl)
        | published => exact Or.inr (Or.inl (hpursue _))
        | complete => exact Or.inr (Or.inl (hpursue _))
    | ok result =>
        have hpursue : ∀ leave, c.pursue call symbol missing reconciled leave =
            leave reconciled result := by
          intro leave
          rw [pursue, if_neg hnone, hattempt]
        have hforms := c.attempt_forms haligned hattempt
        rw [hheld] at hforms
        cases stage with
        | untouched => exact Or.inl rfl
        | reconciled => exact Or.inr (Or.inl rfl)
        | published =>
            rcases hforms with ⟨_, rfl⟩ | ⟨_, _, rfl⟩ |
              ⟨pieces, version, _, hfetch, hsome, rfl, hvalid⟩
            · exact Or.inr (Or.inl (hpursue _))
            · exact Or.inr (Or.inl (hpursue _))
            · exact Or.inr (Or.inr (Or.inr ⟨pieces, version, hrequests, hfetch, hsome, hvalid,
                Or.inl (hpursue _)⟩))
        | complete =>
            rcases hforms with ⟨_, rfl⟩ | ⟨current, hcurrent, rfl⟩ |
              ⟨pieces, version, _, hfetch, hsome, rfl, hvalid⟩
            · exact Or.inr (Or.inl (hpursue _))
            · exact Or.inr (Or.inr (Or.inl ⟨current, hcurrent, hpursue _⟩))
            · exact Or.inr (Or.inr (Or.inr ⟨pieces, version, hrequests, hfetch, hsome, hvalid,
                Or.inr (hpursue _)⟩))

/-- Everything a visit can leave of a good slot. -/
theorem settle_cases (hexact : c.provider.AnswersExactly rows) {symbol : String}
    {slot : Slot Cells} (hgood : GoodSlot rows symbol slot) {missing : List (ℕ × ℕ)}
    (hasked : missing = [] ∨ c.slotRequests call symbol slot = .ok missing) (stage : Stage) :
    let reconciled := c.reconciledSlot symbol slot
    let after := c.settle call symbol missing slot stage
    after = slot ∨ after = reconciled ∨
      (∃ current, reconciled.record = some current ∧
        after = { reconciled with record := some { current with leadingGapSkipped := true } }) ∨
      ∃ frame version, c.slotRequests call symbol slot = .ok missing ∧
        (∃ range ∈ missing, answer rows symbol range ≠ []) ∧ GoodFrame rows symbol frame ∧
        rowSet frame = rowSet (heldRows slot) ∪
          windows HistoryRow.date (rowSet (rows symbol)) missing ∧
        (after = { reconciled with active := some (c.publication frame version) } ∨
          after = { record := some (updatedRecord reconciled.record (c.publication frame version))
                    active := some (c.publication frame version) }) := by
  intro reconciled after
  have hgood' : GoodSlot rows symbol reconciled := c.good_reconciledSlot hgood
  rcases c.settle_forms call hasked stage with h | h | h |
    ⟨pieces, version, hrequests, hfetch, hsome, _, h⟩
  · exact Or.inl h
  · exact Or.inr (Or.inl h)
  · exact Or.inr (Or.inr (Or.inl h))
  · obtain ⟨rfl, hvalid⟩ := c.fetchPieces_ok hexact hfetch
    have hanswered : ∃ range ∈ missing, answer rows symbol range ≠ [] := by
      obtain ⟨piece, hpiece, hne⟩ := hsome
      obtain ⟨range, hrange, rfl⟩ := List.mem_map.mp hpiece
      exact ⟨range, hrange, hne⟩
    obtain ⟨hframe, hset⟩ := merge_good hgood hvalid hanswered
    exact Or.inr (Or.inr (Or.inr ⟨_, version, hrequests, hanswered, hframe, hset, h⟩))

theorem good_settle (hexact : c.provider.AnswersExactly rows) {symbol : String}
    {slot : Slot Cells} (hgood : GoodSlot rows symbol slot) {missing : List (ℕ × ℕ)}
    (hasked : missing = [] ∨ c.slotRequests call symbol slot = .ok missing) (stage : Stage) :
    GoodSlot rows symbol (c.settle call symbol missing slot stage) := by
  have hreconciled : GoodSlot rows symbol (c.reconciledSlot symbol slot) :=
    c.good_reconciledSlot hgood
  rcases c.settle_cases call hexact hgood hasked stage with h | h | ⟨current, hcurrent, h⟩ |
    ⟨frame, version, _, _, hframe, hset, h⟩
  · rw [h]
    exact hgood
  · rw [h]
    exact hreconciled
  · rw [h]
    refine ⟨hreconciled.frame, ?_⟩
    intro record hrecord
    cases hrecord
    exact hreconciled.record current hcurrent
  · have hgrown : rowSet (heldRows slot) ⊆ rowSet frame := by
      rw [hset]
      exact Set.subset_union_left
    rcases h with h | h
    · rw [h]
      refine ⟨fun artifact hactive => ?_, fun record hrecord => ?_⟩
      · cases hactive
        exact hframe
      · obtain ⟨_, hordered, hspans⟩ := hreconciled.record record hrecord
        refine ⟨by simp, hordered, hspans.mono ?_⟩
        have hheld : heldRows (c.reconciledSlot symbol slot) = heldRows slot := by
          unfold heldRows
          rw [c.reconciledSlot_active]
        rw [hheld]
        exact hgrown
    · rw [h]
      refine ⟨fun artifact hactive => ?_, fun record hrecord => ?_⟩
      · cases hactive
        exact hframe
      · cases hrecord
        obtain ⟨hordered, hspans⟩ :=
          spans_symbolRecord hframe (c.publication frame version)
        exact ⟨by simp, hordered, hspans⟩

theorem runStorage_slot (storage : Storage Cells) (symbol : String) :
    (c.runStorage storage call).slot symbol = storage.slot symbol ∨
      ∃ missing stage, (symbol, missing) ∈ c.visits call storage ∧
        (c.runStorage storage call).slot symbol =
          c.settle call symbol missing (storage.slot symbol) stage := by
  obtain ⟨hkept, hvisited⟩ := c.runStorage_settled call storage
  by_cases hvisit : ∃ missing, (symbol, missing) ∈ c.visits call storage
  · obtain ⟨missing, hmem⟩ := hvisit
    obtain ⟨⟨stage, hstage⟩, _⟩ := hvisited symbol missing hmem
    exact Or.inr ⟨missing, stage, hmem, hstage⟩
  · exact Or.inl (hkept symbol fun missing hmem => hvisit ⟨missing, hmem⟩)

def Good (rows : String → HistoryFrame Cells) (storage : Storage Cells) : Prop :=
  ∀ symbol, GoodSlot rows symbol (storage.slot symbol)

theorem good_empty : Good rows Storage.empty := by
  intro symbol
  refine ⟨fun artifact hactive => ?_, fun record hrecord => ?_⟩
  · cases hactive
  · cases hrecord

theorem good_runStorage (hexact : c.provider.AnswersExactly rows) {storage : Storage Cells}
    (hgood : Good rows storage) : Good rows (c.runStorage storage call) := by
  intro symbol
  rcases c.runStorage_slot call storage symbol with h | ⟨missing, stage, hmem, h⟩
  · rw [h]
    exact hgood symbol
  · rw [h]
    exact c.good_settle call hexact (hgood symbol)
      (c.slotRequests_of_mem_visits call hmem) stage

/-- The artifact holds every row of the provider between any two of its rows. -/
def Unbroken (rows : String → HistoryFrame Cells) (symbol : String) (slot : Slot Cells) : Prop :=
  NoHoles HistoryRow.date (rowSet (rows symbol)) (rowSet (heldRows slot))

/-- The condition on one run: where a visit brings rows and a requested range ends
before the record of the symbol begins, no row of the provider lies in between
unless the artifact holds it. -/
def JoinsRecords (rows : String → HistoryFrame Cells) (storage : Storage Cells)
    (call : BackfillCall) : Prop :=
  ∀ symbol missing, (symbol, missing) ∈ c.visits call storage →
    ∀ record, (c.reconciledSlot symbol (storage.slot symbol)).record = some record →
      (∃ range ∈ missing, answer rows symbol range ≠ []) →
        ∀ range ∈ missing, ∀ row ∈ rows symbol,
          range.2 < row.date → row.date < record.startDate →
            row ∈ heldRows (storage.slot symbol)

theorem length_requestedRanges_none {startDay endDay : ℕ} {ranges : List (ℕ × ℕ)}
    (h : c.requestedRanges none startDay endDay = .ok ranges) : ranges.length ≤ 1 := by
  unfold requestedRanges at h
  split at h
  · cases h
    exact le_rfl
  · rename_i days _
    cases hchunks : boundMissingRanges days (missingRanges none startDay endDay) with
    | error error =>
        rw [hchunks] at h
        cases h
    | ok chunks =>
        rw [hchunks] at h
        cases h
        exact List.length_take_le 1 chunks

theorem unbroken_first {symbol : String} {ranges : List (ℕ × ℕ)} (hlength : ranges.length ≤ 1) :
    NoHoles HistoryRow.date (rowSet (rows symbol))
      (windows HistoryRow.date (rowSet (rows symbol)) ranges) := by
  cases ranges with
  | nil =>
      rintro first ⟨range, hrange, _⟩
      cases hrange
  | cons range rest =>
      have hrest : rest = [] := by
        simpa using hlength
      subst hrest
      have hone : windows HistoryRow.date (rowSet (rows symbol)) [range] =
          window HistoryRow.date (rowSet (rows symbol)) range.1 range.2 := by
        ext row
        simp [windows]
      rw [hone]
      exact noHoles_window range.1 range.2

/-- What a run asks for never begins after a gap behind the record. -/
theorem requested_after {record : SymbolRecord} (hordered : record.startDate ≤ record.endDate)
    {ranges : List (ℕ × ℕ)}
    (h : c.requestedRanges (some record) call.startDay call.endDay = .ok ranges)
    {range : ℕ × ℕ} (hrange : range ∈ ranges) {day : ℕ} (hafter : record.endDate < day) :
    range.1 ≤ day := by
  obtain ⟨upTo, hmem, _⟩ := c.mem_requestedRanges h hrange
  unfold missingRanges at hmem
  rcases List.mem_append.mp hmem with hmem | hmem
  · split at hmem
    · rename_i hgap
      have heq := List.mem_singleton.mp hmem
      have hstart : range.1 = call.startDay := congrArg Prod.fst heq
      omega
    · cases hmem
  · split at hmem
    · have heq := List.mem_singleton.mp hmem
      have hstart : range.1 = record.endDate + 1 := congrArg Prod.fst heq
      omega
    · cases hmem

/-- A visit that meets the condition leaves an artifact without holes. -/
theorem unbroken_settle (hexact : c.provider.AnswersExactly rows) {symbol : String}
    {slot : Slot Cells} (hgood : GoodSlot rows symbol slot)
    (hunbroken : Unbroken rows symbol slot) {missing : List (ℕ × ℕ)}
    (hasked : missing = [] ∨ c.slotRequests call symbol slot = .ok missing)
    (hjoins : ∀ record, (c.reconciledSlot symbol slot).record = some record →
      (∃ range ∈ missing, answer rows symbol range ≠ []) →
        ∀ range ∈ missing, ∀ row ∈ rows symbol,
          range.2 < row.date → row.date < record.startDate → row ∈ heldRows slot)
    (stage : Stage) :
    Unbroken rows symbol (c.settle call symbol missing slot stage) := by
  have hheld : heldRows (c.reconciledSlot symbol slot) = heldRows slot := by
    unfold heldRows
    rw [c.reconciledSlot_active]
  have hreconciled : Unbroken rows symbol (c.reconciledSlot symbol slot) := by
    unfold Unbroken
    rw [hheld]
    exact hunbroken
  rcases c.settle_cases call hexact hgood hasked stage with h | h | ⟨current, _, h⟩ |
    ⟨frame, version, hrequests, hsome, _, hset, h⟩
  · rw [h]
    exact hunbroken
  · rw [h]
    exact hreconciled
  · rw [h]
    exact hreconciled
  · have hframe : NoHoles HistoryRow.date (rowSet (rows symbol)) (rowSet frame) := by
      rw [hset]
      cases hrecord : (c.reconciledSlot symbol slot).record with
      | none =>
          have hnone : heldRows slot = [] := by
            unfold heldRows
            rw [c.reconciledSlot_aligned call hrequests hrecord]
          have hempty : rowSet (heldRows slot) = ∅ := by
            rw [hnone]
            ext row
            simp [rowSet]
          rw [hempty, Set.empty_union]
          have hranges := c.requested_of_slotRequests call hrequests
          rw [hrecord] at hranges
          exact unbroken_first (c.length_requestedRanges_none hranges)
      | some record =>
          obtain ⟨_, hordered, hspans⟩ :=
            (c.good_reconciledSlot hgood).record record hrecord
          rw [hheld] at hspans
          have hranges := c.requested_of_slotRequests call hrequests
          rw [hrecord] at hranges
          apply hunbroken.extend_all hspans
          · intro range hrange row hrow hafter hbefore
            exact hjoins record hrecord hsome range hrange row hrow hafter hbefore
          · intro range hrange row _ hafter hbefore
            have hfrom := c.requested_after call hordered hranges hrange hafter
            omega
    rcases h with h | h
    · rw [h]
      exact hframe
    · rw [h]
      exact hframe

/-- Each record's artifact holds every provider row inside the bounds of the record. -/
def RecordsCovered (rows : String → HistoryFrame Cells) (storage : Storage Cells) : Prop :=
  ∀ symbol record, storage.checkpoint.symbols symbol = some record →
    ∃ artifact, storage.active symbol = some artifact ∧
      ∀ row ∈ rows symbol, record.startDate ≤ row.date → row.date ≤ record.endDate →
        row ∈ artifact.frame

theorem recordsCovered_of_unbroken {storage : Storage Cells} (hgood : Good rows storage)
    (hunbroken : ∀ symbol, Unbroken rows symbol (storage.slot symbol)) :
    RecordsCovered rows storage := by
  intro symbol record hrecord
  obtain ⟨hactive, _, hspans⟩ := (hgood symbol).record record hrecord
  obtain ⟨artifact, hartifact⟩ := Option.ne_none_iff_exists'.mp hactive
  refine ⟨artifact, hartifact, ?_⟩
  intro row hrow hfrom hto
  have hheld := (hunbroken symbol).window_subset hspans ⟨hrow, hfrom, hto⟩
  unfold heldRows at hheld
  rw [hartifact] at hheld
  exact hheld

/-- Along every sequence of runs whose requests join the records they extend,
the records are covered, also where storage faults stop a run. -/
theorem always_recordsCovered (hexact : c.provider.AnswersExactly rows)
    (calls : List BackfillCall)
    (hjoins : Runs.StepsMeet c.runStorage (c.JoinsRecords rows) Storage.empty calls) :
    Runs.Always c.runStorage (RecordsCovered rows) Storage.empty calls := by
  have hinvariant := Runs.always_of_stepsMeet c.runStorage
    (fun storage => Good rows storage ∧ ∀ symbol, Unbroken rows symbol (storage.slot symbol))
    (fun storage call ⟨hgood, hunbroken⟩ hjoin =>
      ⟨c.good_runStorage call hexact hgood, fun symbol => by
        rcases c.runStorage_slot call storage symbol with h | ⟨missing, stage, hmem, h⟩
        · rw [h]
          exact hunbroken symbol
        · rw [h]
          exact c.unbroken_settle call hexact (hgood symbol) (hunbroken symbol)
            (c.slotRequests_of_mem_visits call hmem) (hjoin symbol missing hmem) stage⟩)
    Storage.empty calls ⟨good_empty, fun symbol first hfirst => by cases hfirst⟩ hjoins
  exact hinvariant.imp c.runStorage fun storage h => recordsCovered_of_unbroken h.1 h.2

end HistoricalBackfillCoordinator

/-- A session on the given day after the last of 2018. -/
def sampleRow (day : ℕ) : HistoryRow Unit where
  symbol := "600001"
  date := 737059 + day
  tradeStatus := some ("1".toList)
  isSt := some ("False".toList)
  tradable := some ("True".toList)
  researchUsable := true
  unusableReason := []
  cells := ()

def sampleCoordinator (days : List ℕ) : HistoricalBackfillCoordinator Unit where
  provider :=
    { listResearchInstruments := fun _ => .ok ["600001"]
      getResearchHistory := fun symbol startDay endDay =>
        .ok (answer (fun _ => days.map sampleRow) symbol (startDay, endDay)) }
  format :=
    { parquetSha256 := fun frame => toString (frameDates frame)
      parquetSize := fun frame => frame.length
      frameDigest := fun frame => toString (frameDates frame) }
  maxRequestDays := some 2
  maxRequestDays_pos := by simp

def sampleCall (first last : ℕ) : BackfillCall where
  startDay := 737059 + first
  endDay := 737059 + last
  limit := 100
  fails := fun _ => false

theorem sampleCoordinator_exact (days : List ℕ) :
    (sampleCoordinator days).provider.AnswersExactly fun _ => days.map sampleRow :=
  fun _ _ _ => rfl

namespace HistoricalBackfillCoordinator

/-- With two days a request, widening the window by four days to the left fetches
the first two of them and joins them to the old rows over a session in between. -/
theorem widenedWindow_leaves_hole :
    (sampleCoordinator [1, 3, 5]).provider.AnswersExactly
        (fun _ => [1, 3, 5].map sampleRow) ∧
      ¬ Runs.Always (sampleCoordinator [1, 3, 5]).runStorage
        (RecordsCovered fun _ => [1, 3, 5].map sampleRow) Storage.empty
        [sampleCall 5 6, sampleCall 1 6] := by
  refine ⟨sampleCoordinator_exact _, ?_⟩
  rintro ⟨_, _, hcovered⟩
  have hbounds : (((sampleCoordinator [1, 3, 5]).runStorage
      ((sampleCoordinator [1, 3, 5]).runStorage Storage.empty (sampleCall 5 6))
        (sampleCall 1 6)).slot "600001").record.map (fun record =>
          (record.startDate, record.endDate)) = some (737060, 737064) := by decide +kernel
  have hdates : (((sampleCoordinator [1, 3, 5]).runStorage
      ((sampleCoordinator [1, 3, 5]).runStorage Storage.empty (sampleCall 5 6))
        (sampleCall 1 6)).slot "600001").active.map (fun artifact =>
          frameDates artifact.frame) = some [737060, 737064] := by decide +kernel
  obtain ⟨record, hrecord, hends⟩ := Option.map_eq_some_iff.mp hbounds
  obtain ⟨artifact, hactive, hheld⟩ := hcovered "600001" record hrecord
  obtain ⟨found, hfound, hlisted⟩ := Option.map_eq_some_iff.mp hdates
  cases hactive.symm.trans hfound
  obtain ⟨hstart, hend⟩ := Prod.mk.inj hends
  have hmissing : (sampleRow 3).date ∈ frameDates artifact.frame := by
    apply List.mem_map_of_mem
    exact hheld (sampleRow 3) (by simp) (by simp [sampleRow, hstart])
      (by simp [sampleRow, hend])
  rw [hlisted] at hmissing
  simp [sampleRow] at hmissing

/-- Runs that only move the end of the window forward join what they extend. -/
theorem forwardWindow_covered :
    Runs.Always (sampleCoordinator [1, 3, 5]).runStorage
      (RecordsCovered fun _ => [1, 3, 5].map sampleRow) Storage.empty
      [sampleCall 1 2, sampleCall 1 6] := by
  apply always_recordsCovered _ (sampleCoordinator_exact [1, 3, 5])
  have hearly : ∀ storage call ranges,
      (sampleCoordinator [1, 3, 5]).visits call storage = [("600001", ranges)] →
      (∀ start ∈ ((sampleCoordinator [1, 3, 5]).reconciledSlot "600001"
        (storage.slot "600001")).record.map (·.startDate), start ≤ 737060) →
      (sampleCoordinator [1, 3, 5]).JoinsRecords (fun _ => [1, 3, 5].map sampleRow)
        storage call := by
    intro storage call ranges hvisits hstart symbol missing hmem record hrecord _ range _ row
      hrow _ hbefore
    rw [hvisits, List.mem_singleton] at hmem
    cases hmem
    have hfrom : record.startDate ≤ 737060 :=
      hstart record.startDate (by rw [hrecord]; exact rfl)
    simp only [List.map_cons, List.map_nil, List.mem_cons, List.not_mem_nil, or_false] at hrow
    have hsession : 737060 ≤ row.date := by
      rcases hrow with rfl | rfl | rfl
      · exact le_rfl
      · exact Nat.le_add_right 737060 2
      · exact Nat.le_add_right 737060 4
    omega
  refine ⟨?_, ?_, trivial⟩
  · exact hearly Storage.empty (sampleCall 1 2) [(737060, 737061)] (by decide +kernel)
      (by decide +kernel)
  · exact hearly _ (sampleCall 1 6) [(737061, 737062)] (by decide +kernel) (by decide +kernel)

end HistoricalBackfillCoordinator

end QuantWorkbench.Runtime
