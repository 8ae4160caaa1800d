import QuantWorkbench.Runtime.HistoricalBackfill

/-!
What one run does to each symbol. A run touches the record and the artifact of a
symbol only when the loop visits it, and the visits and the requests they make are
decided by the disk as it was before the run.
-/

namespace QuantWorkbench.Runtime

variable {Cells : Type}

/-- What the disk holds for one symbol. -/
@[ext]
structure Slot (Cells : Type) where
  record : Option SymbolRecord
  active : Option (ResearchArtifact Cells)

def Storage.slot (storage : Storage Cells) (symbol : String) : Slot Cells :=
  ⟨storage.checkpoint.symbols symbol, storage.active symbol⟩

/-- No disk access of the call fails. -/
def BackfillCall.FaultFree (call : BackfillCall) : Prop := ∀ point, call.fails point = false

/-- How far a visit came before the run went on or was stopped. -/
inductive Stage where
  | untouched
  | reconciled
  | published
  | complete

namespace HistoricalBackfillCoordinator

variable (c : HistoricalBackfillCoordinator Cells) (call : BackfillCall)

def reconciledSlot (symbol : String) (slot : Slot Cells) : Slot Cells :=
  match c.reconcileSymbol symbol slot.record slot.active with
  | .error _ => slot
  | .ok reconciled => { slot with record := reconciled.record }

/-- The ranges the loop would ask for when it comes to a symbol. -/
def slotRequests (symbol : String) (slot : Slot Cells) : Except BackfillError (List (ℕ × ℕ)) :=
  match c.reconcileSymbol symbol slot.record slot.active with
  | .error error => .error error
  | .ok reconciled => c.requestedRanges reconciled.record call.startDay call.endDay

/-- The slot once the frame of an attempt is published and no record written. -/
def publishedSlot (slot : Slot Cells) : Attempt Cells → Slot Cells
  | .merged frame version _ => { slot with active := some (c.publication frame version) }
  | _ => slot

/-- The slot once everything an attempt leads to is written. -/
def attemptedSlot (slot : Slot Cells) : Attempt Cells → Slot Cells
  | .failed _ => slot
  | .gapSkipped record => { slot with record := some record }
  | .merged frame version _ =>
      { record := some (updatedRecord slot.record (c.publication frame version))
        active := some (c.publication frame version) }

/-- A reconciled slot after the ranges are asked for, if there are any. -/
def pursue (symbol : String) (missing : List (ℕ × ℕ)) (slot : Slot Cells)
    (leave : Slot Cells → Attempt Cells → Slot Cells) : Slot Cells :=
  if missing = [] then slot
  else
    match c.attempt symbol slot.record slot.active call.startDay missing with
    | .error _ => slot
    | .ok result => leave slot result

/-- The slot of a visited symbol when the visit came to the stage. -/
def settle (symbol : String) (missing : List (ℕ × ℕ)) (slot : Slot Cells) :
    Stage → Slot Cells
  | .untouched => slot
  | .reconciled => c.reconciledSlot symbol slot
  | .published => c.pursue call symbol missing (c.reconciledSlot symbol slot) c.publishedSlot
  | .complete => c.pursue call symbol missing (c.reconciledSlot symbol slot) c.attemptedSlot

/-- The symbols the loop visits with what it asks for each, as long as the budget
of attempts lasts. The visit that finds the budget spent asks for nothing. -/
def plan (slots : String → Slot Cells) : ℕ → List String → List (String × List (ℕ × ℕ))
  | _, [] => []
  | budget, symbol :: rest =>
      match c.slotRequests call symbol (slots symbol), budget with
      | .error _, _ => [(symbol, [])]
      | .ok [], budget => (symbol, []) :: plan slots budget rest
      | .ok (_ :: _), 0 => [(symbol, [])]
      | .ok (range :: ranges), budget + 1 =>
          (symbol, range :: ranges) :: plan slots budget rest

def visits (storage : Storage Cells) : List (String × List (ℕ × ℕ)) :=
  match c.batch call with
  | .error _ => []
  | .ok symbols => c.plan call storage.slot call.limit symbols

theorem verifiedArtifact_ok_iff {symbol : String} {record : SymbolRecord}
    {active : Option (ResearchArtifact Cells)} {artifact : ResearchArtifact Cells} :
    c.verifiedArtifact symbol record active = .ok artifact ↔
      active = some artifact ∧ artifact.sha256 = record.artifactSha256 ∧
        artifact.dataVersion = record.artifactDataVersion ∧ c.verify artifact = true := by
  unfold verifiedArtifact
  cases active with
  | none => simp
  | some found =>
      simp only
      split
      · rename_i hbad
        simp only [reduceCtorEq, Option.some.injEq, false_iff]
        rintro ⟨rfl, hsha, hversion, hverify⟩
        rcases hbad with h | h | h
        · exact h hsha
        · exact h hversion
        · exact h hverify
      · rename_i hgood
        simp only [not_or, ne_eq, not_not] at hgood
        simp only [Except.ok.injEq, Option.some.injEq]
        constructor
        · rintro rfl
          exact ⟨rfl, hgood⟩
        · exact fun h => h.1

/-- Everything a reconciliation that succeeds can be. -/
theorem reconcileSymbol_cases {symbol : String} {record : Option SymbolRecord}
    {active : Option (ResearchArtifact Cells)} {reconciled : Reconciled}
    (h : c.reconcileSymbol symbol record active = .ok reconciled) :
    (record = none ∧ active = none ∧ reconciled = .kept none) ∨
      (∃ current artifact, record = some current ∧
        c.verifiedArtifact symbol current active = .ok artifact ∧
        reconciled = .kept (some current)) ∨
      (∃ artifact, active = some artifact ∧
        (∀ current, record = some current → current.artifactSha256 ≠ artifact.sha256) ∧
        c.verify artifact = true ∧
        reconciled = .repaired (symbolRecord artifact.frame artifact)) := by
  unfold reconcileSymbol at h
  split at h
  · cases h
    exact Or.inl ⟨rfl, rfl, rfl⟩
  · cases h
  · rename_i artifact
    right
    split at h
    · rename_i current hcurrent
      have hrecord := (Option.filter_eq_some_iff.mp hcurrent).1
      split at h
      · cases h
      · rename_i verified hverified
        cases h
        exact Or.inl ⟨current, verified, hrecord, hverified, rfl⟩
    · rename_i hnone
      right
      refine ⟨artifact, rfl, ?_, ?_⟩
      · intro current hcurrent
        simpa using Option.filter_eq_none_iff.mp hnone current hcurrent
      · split at h
        · cases h
        · rename_i hverify
          split at h
          · cases h
          · split at h
            · cases h
            · split at h
              · cases h
              · cases h
                exact ⟨by simpa using hverify, rfl⟩

/-- Reading a repaired or verified record back never fails. -/
theorem verifiedArtifact_of_reconcile {symbol : String} {record : Option SymbolRecord}
    {active : Option (ResearchArtifact Cells)} {reconciled : Reconciled}
    (h : c.reconcileSymbol symbol record active = .ok reconciled)
    {current : SymbolRecord} (hcurrent : reconciled.record = some current) :
    ∃ artifact, c.verifiedArtifact symbol current active = .ok artifact := by
  rcases c.reconcileSymbol_cases h with ⟨_, _, rfl⟩ | ⟨kept, artifact, _, hverified, rfl⟩ |
    ⟨artifact, hactive, _, hverify, rfl⟩
  · cases hcurrent
  · cases hcurrent
    exact ⟨artifact, hverified⟩
  · cases hcurrent
    exact ⟨artifact, c.verifiedArtifact_ok_iff.mpr ⟨hactive, rfl, rfl, hverify⟩⟩

theorem attempt_ok_of_reconcile {symbol : String} {slot : Slot Cells}
    {reconciled : Reconciled}
    (h : c.reconcileSymbol symbol slot.record slot.active = .ok reconciled)
    (startDay : ℕ) (missing : List (ℕ × ℕ)) :
    ∃ result, c.attempt symbol reconciled.record slot.active startDay missing = .ok result := by
  have hmerge : ∀ pieces, ∃ frame,
      c.mergeWithPrevious symbol reconciled.record slot.active pieces = .ok frame := by
    intro pieces
    unfold mergeWithPrevious
    cases hrecord : reconciled.record with
    | none => exact ⟨_, rfl⟩
    | some current =>
        obtain ⟨artifact, hverified⟩ := c.verifiedArtifact_of_reconcile h hrecord
        simp only [hverified]
        exact ⟨_, rfl⟩
  unfold attempt
  split
  · exact ⟨_, rfl⟩
  · exact ⟨_, rfl⟩
  · rename_i pieces _
    split
    · split
      · split
        · exact ⟨_, rfl⟩
        · exact ⟨_, rfl⟩
      · exact ⟨_, rfl⟩
    · obtain ⟨frame, hframe⟩ := hmerge pieces
      simp only [hframe]
      split
      · exact ⟨_, rfl⟩
      · split
        · exact ⟨_, rfl⟩
        · exact ⟨_, rfl⟩

/-- The memory and the disk agree on the records. -/
def Progress.Synced (p : Progress Cells) : Prop :=
  p.checkpoint.symbols = p.storage.checkpoint.symbols

def OthersKept (symbol : String) (before after : Storage Cells) : Prop :=
  ∀ other, other ≠ symbol → after.slot other = before.slot other

theorem OthersKept.trans {symbol : String} {first second third : Storage Cells}
    (h : OthersKept symbol first second) (h' : OthersKept symbol second third) :
    OthersKept symbol first third :=
  fun other hother => (h' other hother).trans (h other hother)

def Visited (symbol : String) (missing : List (ℕ × ℕ)) (before after : Storage Cells) : Prop :=
  OthersKept symbol before after ∧
    (∃ stage, after.slot symbol = c.settle call symbol missing (before.slot symbol) stage) ∧
    (call.FaultFree →
      after.slot symbol = c.settle call symbol missing (before.slot symbol) .complete)

theorem writeCheckpoint_cases (symbol : String) (p : Progress Cells) :
    (call.fails (.checkpoint symbol) = true ∧
        writeCheckpoint call symbol p = .error ⟨p.storage, .storage⟩) ∨
      writeCheckpoint call symbol p =
        .ok { p with storage := { p.storage with checkpoint := p.checkpoint } } := by
  unfold writeCheckpoint
  split
  · rename_i hfails
    exact Or.inl ⟨hfails, rfl⟩
  · exact Or.inr rfl

theorem othersKept_setRecord {symbol : String} {record : SymbolRecord} {p : Progress Cells}
    (hsync : p.Synced) :
    OthersKept symbol p.storage
      { p.storage with checkpoint := (p.setRecord symbol record).checkpoint } := by
  intro other hother
  ext1
  · change Function.update p.checkpoint.symbols symbol (some record) other = _
    rw [Function.update_of_ne hother]
    exact congrFun hsync other
  · rfl

theorem othersKept_publish {symbol : String} {artifact : ResearchArtifact Cells}
    {p : Progress Cells} : OthersKept symbol p.storage (p.publish symbol artifact).storage := by
  intro other hother
  ext1
  · rfl
  · exact Function.update_of_ne hother _ _

/-- A reconciled record is written before anything is asked for. -/
theorem keepReconciled_spec {symbol : String} {p : Progress Cells} (hsync : p.Synced)
    {reconciled : Reconciled}
    (hreconcile : c.reconcileSymbol symbol (p.storage.slot symbol).record
      (p.storage.slot symbol).active = .ok reconciled) :
    (¬ call.FaultFree ∧
        keepReconciled call symbol p reconciled = .error ⟨p.storage, .storage⟩) ∨
      ∃ next, keepReconciled call symbol p reconciled = .ok next ∧ next.Synced ∧
        next.attempted = p.attempted ∧ OthersKept symbol p.storage next.storage ∧
        next.storage.slot symbol = c.reconciledSlot symbol (p.storage.slot symbol) := by
  have hslot : c.reconciledSlot symbol (p.storage.slot symbol) =
      { p.storage.slot symbol with record := reconciled.record } := by
    unfold reconciledSlot
    rw [hreconcile]
  cases reconciled with
  | kept record =>
      right
      refine ⟨p, rfl, hsync, rfl, fun _ _ => rfl, ?_⟩
      rw [hslot]
      have hrecord : (p.storage.slot symbol).record = record := by
        rcases c.reconcileSymbol_cases hreconcile with ⟨h, _, hkept⟩ | ⟨_, _, h, _, hkept⟩ |
          ⟨_, _, _, _, hrepaired⟩
        · rw [h]
          cases hkept
          rfl
        · rw [h]
          cases hkept
          rfl
        · cases hrepaired
      rw [← hrecord]
      rfl
  | repaired record =>
      rcases writeCheckpoint_cases call symbol (p.setRecord symbol record) with
        ⟨hfails, hwrite⟩ | hwrite
      · left
        refine ⟨fun hfree => ?_, hwrite⟩
        rw [hfree] at hfails
        cases hfails
      · right
        refine ⟨_, hwrite, rfl, rfl, othersKept_setRecord hsync, ?_⟩
        rw [hslot]
        ext1
        · simp [Storage.slot, Progress.setRecord, Reconciled.record]
        · rfl

/-- An attempt that a fault stops leaves the slot as it was or as published, one
that goes on leaves it as attempted. -/
theorem attemptSymbol_spec (symbol : String) (p : Progress Cells) (hsync : p.Synced)
    {slot : Slot Cells} (hslot : p.storage.slot symbol = slot)
    {missing : List (ℕ × ℕ)} {result : Attempt Cells}
    (hattempt : c.attempt symbol slot.record slot.active call.startDay missing = .ok result) :
    (∃ interrupted, c.attemptSymbol call symbol slot.record missing p = .error interrupted ∧
        ¬ call.FaultFree ∧ OthersKept symbol p.storage interrupted.storage ∧
        (interrupted.storage.slot symbol = slot ∨
          interrupted.storage.slot symbol = c.publishedSlot slot result)) ∨
      ∃ next, c.attemptSymbol call symbol slot.record missing p = .ok next ∧
        next.Synced ∧ next.attempted = p.attempted ∧ OthersKept symbol p.storage next.storage ∧
        next.storage.slot symbol = c.attemptedSlot slot result := by
  subst hslot
  have hfaulty : ∀ point, call.fails point = true → ¬ call.FaultFree := by
    intro point hfails hfree
    rw [hfree point] at hfails
    cases hfails
  change c.attempt symbol _ (p.storage.active symbol) call.startDay missing = _ at hattempt
  unfold attemptSymbol
  by_cases hrequest : call.fails (.request symbol) = true
  · left
    rw [if_pos hrequest]
    exact ⟨_, rfl, hfaulty _ hrequest, fun _ _ => rfl, Or.inl rfl⟩
  · rw [if_neg hrequest]
    simp only [hattempt]
    cases result with
    | failed reason =>
        rcases writeCheckpoint_cases call symbol (p.setFailure symbol reason) with
          ⟨hfails, hwrite⟩ | hwrite
        · exact Or.inl ⟨_, hwrite, hfaulty _ hfails, fun _ _ => rfl, Or.inl rfl⟩
        · refine Or.inr ⟨_, hwrite, rfl, rfl, ?_, ?_⟩
          · intro other _
            ext1
            · exact congrFun hsync other
            · rfl
          · ext1
            · exact congrFun hsync symbol
            · rfl
    | gapSkipped record =>
        rcases writeCheckpoint_cases call symbol (p.setRecord symbol record) with
          ⟨hfails, hwrite⟩ | hwrite
        · exact Or.inl ⟨_, hwrite, hfaulty _ hfails, fun _ _ => rfl, Or.inl rfl⟩
        · refine Or.inr ⟨_, hwrite, rfl, rfl, othersKept_setRecord hsync, ?_⟩
          ext1
          · simp [Storage.slot, Progress.setRecord, attemptedSlot]
          · rfl
    | merged frame version newRows =>
        by_cases hpublish : call.fails (.publish symbol) = true
        · simp only [hpublish, if_true]
          exact Or.inl ⟨_, rfl, hfaulty _ hpublish, fun _ _ => rfl, Or.inl rfl⟩
        · simp only [hpublish, Bool.false_eq_true, if_false]
          have hpublished :
              (p.publish symbol (c.publication frame version)).storage.slot symbol =
                c.publishedSlot (p.storage.slot symbol) (.merged frame version newRows) := by
            ext1
            · rfl
            · exact Function.update_self ..
          rcases writeCheckpoint_cases call symbol
            { (p.publish symbol (c.publication frame version)).setRecord symbol
                (updatedRecord (p.storage.slot symbol).record (c.publication frame version)) with
              symbolsUpdated := p.symbolsUpdated + 1
              rowsWritten := p.rowsWritten + newRows } with ⟨hfails, hwrite⟩ | hwrite
          · exact Or.inl ⟨_, hwrite, hfaulty _ hfails, othersKept_publish, Or.inr hpublished⟩
          · refine Or.inr ⟨_, hwrite, rfl, rfl, ?_, ?_⟩
            · have hsynced : (p.publish symbol (c.publication frame version)).Synced := hsync
              exact othersKept_publish.trans (othersKept_setRecord hsynced)
            · ext1
              · exact Function.update_self ..
              · exact Function.update_self ..

/-- The result of a visit that meets the description unless a fault stops it. -/
def Leaves {α : Type} (symbol : String) (missing : List (ℕ × ℕ)) (before : Storage Cells)
    (result : Except (Interrupted Cells) α) (goesOn : α → Prop) (storage : α → Storage Cells) :
    Prop :=
  (∃ interrupted, result = .error interrupted ∧ ¬ call.FaultFree ∧
      c.Visited call symbol missing before interrupted.storage) ∨
    ∃ next, result = .ok next ∧ goesOn next ∧ c.Visited call symbol missing before (storage next)

theorem reconciledSlot_eq {symbol : String} {slot : Slot Cells} {reconciled : Reconciled}
    (h : c.reconcileSymbol symbol slot.record slot.active = .ok reconciled) :
    c.reconciledSlot symbol slot = { slot with record := reconciled.record } := by
  unfold reconciledSlot
  rw [h]

theorem slotRequests_eq {symbol : String} {slot : Slot Cells} {reconciled : Reconciled}
    (h : c.reconcileSymbol symbol slot.record slot.active = .ok reconciled) :
    c.slotRequests call symbol slot =
      c.requestedRanges reconciled.record call.startDay call.endDay := by
  unfold slotRequests
  rw [h]

theorem reconcile_of_slotRequests {symbol : String} {slot : Slot Cells}
    {missing : List (ℕ × ℕ)} (h : c.slotRequests call symbol slot = .ok missing) :
    ∃ reconciled, c.reconcileSymbol symbol slot.record slot.active = .ok reconciled := by
  unfold slotRequests at h
  split at h
  · cases h
  · rename_i reconciled hreconcile
    exact ⟨reconciled, hreconcile⟩

theorem requested_of_slotRequests {symbol : String} {slot : Slot Cells}
    {missing : List (ℕ × ℕ)} (h : c.slotRequests call symbol slot = .ok missing) :
    c.requestedRanges (c.reconciledSlot symbol slot).record call.startDay call.endDay =
      .ok missing := by
  obtain ⟨reconciled, hreconcile⟩ := c.reconcile_of_slotRequests call h
  rw [c.slotRequests_eq call hreconcile] at h
  rw [c.reconciledSlot_eq hreconcile]
  exact h

theorem visited_of_untouched {symbol : String} {missing : List (ℕ × ℕ)}
    {before : Storage Cells} (hfault : ¬ call.FaultFree) :
    c.Visited call symbol missing before before :=
  ⟨fun _ _ => rfl, ⟨.untouched, rfl⟩, fun hfree => absurd hfree hfault⟩

/-- A visit to a symbol whose requests cannot be worked out ends the run. -/
theorem visitSymbol_of_error {symbol : String} {p : Progress Cells} (hsync : p.Synced)
    {error : BackfillError}
    (hrequests : c.slotRequests call symbol (p.storage.slot symbol) = .error error) :
    ∃ interrupted, c.visitSymbol call symbol p = .error interrupted ∧
      c.Visited call symbol [] p.storage interrupted.storage := by
  have hrecord : p.checkpoint.symbols symbol = (p.storage.slot symbol).record :=
    congrFun hsync symbol
  have hactive : p.storage.active symbol = (p.storage.slot symbol).active := rfl
  unfold visitSymbol
  rw [hrecord, hactive]
  cases hreconcile : c.reconcileSymbol symbol (p.storage.slot symbol).record
      (p.storage.slot symbol).active with
  | error e =>
      have hslot : c.reconciledSlot symbol (p.storage.slot symbol) = p.storage.slot symbol := by
        unfold reconciledSlot
        rw [hreconcile]
      exact ⟨_, rfl, fun _ _ => rfl, ⟨.untouched, rfl⟩, fun _ => hslot.symm⟩
  | ok reconciled =>
      rw [c.slotRequests_eq call hreconcile] at hrequests
      rcases c.keepReconciled_spec call hsync hreconcile with ⟨hfault, hkeep⟩ |
        ⟨next, hkeep, _, _, hothers, hslot⟩
      · simp only [hkeep]
        exact ⟨_, rfl, c.visited_of_untouched call hfault⟩
      · simp only [hkeep, hrequests]
        exact ⟨_, rfl, hothers, ⟨.reconciled, hslot⟩, fun _ => hslot⟩

/-- A visit that asks for nothing, either because nothing is missing or because
the budget is spent. -/
theorem visitSymbol_of_idle {symbol : String} {p : Progress Cells} (hsync : p.Synced)
    {missing : List (ℕ × ℕ)}
    (hrequests : c.slotRequests call symbol (p.storage.slot symbol) = .ok missing)
    (hidle : missing = [] ∨ call.limit ≤ p.attempted) :
    c.Leaves call symbol [] p.storage (c.visitSymbol call symbol p)
      (fun next => next.1.Synced ∧ next.1.attempted = p.attempted ∧
        next.2 = decide (missing = [])) (·.1.storage) := by
  have hrecord : p.checkpoint.symbols symbol = (p.storage.slot symbol).record :=
    congrFun hsync symbol
  have hactive : p.storage.active symbol = (p.storage.slot symbol).active := rfl
  unfold visitSymbol
  rw [hrecord, hactive]
  cases hreconcile : c.reconcileSymbol symbol (p.storage.slot symbol).record
      (p.storage.slot symbol).active with
  | error e =>
      unfold slotRequests at hrequests
      rw [hreconcile] at hrequests
      cases hrequests
  | ok reconciled =>
      rw [c.slotRequests_eq call hreconcile] at hrequests
      rcases c.keepReconciled_spec call hsync hreconcile with ⟨hfault, hkeep⟩ |
        ⟨next, hkeep, hsynced, hattempted, hothers, hslot⟩
      · simp only [hkeep]
        exact Or.inl ⟨_, rfl, hfault, c.visited_of_untouched call hfault⟩
      · simp only [hkeep, hrequests]
        have hvisited : c.Visited call symbol [] p.storage next.storage :=
          ⟨hothers, ⟨.reconciled, hslot⟩, fun _ => hslot⟩
        right
        by_cases hnone : missing = []
        · rw [if_pos hnone]
          exact ⟨_, rfl, ⟨hsynced, hattempted, by simp [hnone]⟩, hvisited⟩
        · rw [if_neg hnone, if_pos (by rw [hattempted]; exact hidle.resolve_left hnone)]
          exact ⟨_, rfl, ⟨hsynced, hattempted, by simp [hnone]⟩, hvisited⟩

theorem visitSymbol_of_request {symbol : String} {p : Progress Cells} (hsync : p.Synced)
    {missing : List (ℕ × ℕ)}
    (hrequests : c.slotRequests call symbol (p.storage.slot symbol) = .ok missing)
    (hmissing : missing ≠ []) (hbudget : p.attempted < call.limit) :
    c.Leaves call symbol missing p.storage (c.visitSymbol call symbol p)
      (fun next => next.1.Synced ∧ next.1.attempted = p.attempted + 1 ∧ next.2 = true)
      (·.1.storage) := by
  have hrecord : p.checkpoint.symbols symbol = (p.storage.slot symbol).record :=
    congrFun hsync symbol
  have hactive : p.storage.active symbol = (p.storage.slot symbol).active := rfl
  unfold visitSymbol
  rw [hrecord, hactive]
  cases hreconcile : c.reconcileSymbol symbol (p.storage.slot symbol).record
      (p.storage.slot symbol).active with
  | error e =>
      unfold slotRequests at hrequests
      rw [hreconcile] at hrequests
      cases hrequests
  | ok reconciled =>
      rw [c.slotRequests_eq call hreconcile] at hrequests
      rcases c.keepReconciled_spec call hsync hreconcile with ⟨hfault, hkeep⟩ |
        ⟨next, hkeep, hsynced, hattempted, hothers, hslot⟩
      · simp only [hkeep]
        exact Or.inl ⟨_, rfl, hfault, c.visited_of_untouched call hfault⟩
      · simp only [hkeep, hrequests]
        rw [if_neg hmissing, if_neg (by omega)]
        obtain ⟨result, hresult⟩ :=
          c.attempt_ok_of_reconcile hreconcile call.startDay missing
        have hpursue : ∀ leave, c.pursue call symbol missing
            (c.reconciledSlot symbol (p.storage.slot symbol)) leave =
              leave (c.reconciledSlot symbol (p.storage.slot symbol)) result := by
          intro leave
          unfold pursue
          rw [if_neg hmissing, c.reconciledSlot_eq hreconcile]
          simp only [hresult]
        have hrecord' : reconciled.record =
            (c.reconciledSlot symbol (p.storage.slot symbol)).record := by
          rw [c.reconciledSlot_eq hreconcile]
        rw [c.reconciledSlot_eq hreconcile] at hslot
        rcases c.attemptSymbol_spec call symbol { next with attempted := next.attempted + 1 }
            hsynced hslot hresult with
          ⟨interrupted, hraised, hfault, hkept, hends⟩ |
          ⟨last, hdone, hlast, hcount, hkept, hends⟩
        · simp only [hraised]
          refine Or.inl ⟨_, rfl, hfault, hothers.trans hkept, ?_, fun hfree => absurd hfree hfault⟩
          rcases hends with hends | hends
          · exact ⟨.reconciled, hends.trans (c.reconciledSlot_eq hreconcile).symm⟩
          · refine ⟨.published, hends.trans ?_⟩
            change _ = c.pursue call symbol missing _ c.publishedSlot
            rw [hpursue, c.reconciledSlot_eq hreconcile]
        · simp only [hdone]
          have hcomplete : last.storage.slot symbol =
              c.settle call symbol missing (p.storage.slot symbol) .complete := by
            change _ = c.pursue call symbol missing _ c.attemptedSlot
            rw [hpursue, c.reconciledSlot_eq hreconcile]
            exact hends
          exact Or.inr ⟨_, rfl, ⟨hlast, by rw [hcount]; simp [hattempted], rfl⟩,
            hothers.trans hkept, ⟨.complete, hcomplete⟩, fun _ => hcomplete⟩

theorem plan_congr {slots slots' : String → Slot Cells} {budget : ℕ} {symbols : List String}
    (h : ∀ symbol ∈ symbols, slots symbol = slots' symbol) :
    c.plan call slots budget symbols = c.plan call slots' budget symbols := by
  induction symbols generalizing budget with
  | nil => rfl
  | cons symbol rest ih =>
      have hrest : ∀ b, c.plan call slots b rest = c.plan call slots' b rest :=
        fun b => ih fun other hother => h other (List.mem_cons_of_mem _ hother)
      simp only [plan, h symbol List.mem_cons_self, hrest]

theorem mem_of_mem_plan {slots : String → Slot Cells} {budget : ℕ} {symbols : List String}
    {symbol : String} {missing : List (ℕ × ℕ)}
    (h : (symbol, missing) ∈ c.plan call slots budget symbols) : symbol ∈ symbols := by
  induction symbols generalizing budget with
  | nil => cases h
  | cons head rest ih =>
      have hhead : ∀ ranges, (symbol, missing) ∈ [(head, ranges)] → symbol ∈ head :: rest := by
        intro ranges hmem
        rw [List.mem_singleton] at hmem
        cases hmem
        exact List.mem_cons_self
      have hlater : ∀ ranges b, (symbol, missing) ∈ (head, ranges) :: c.plan call slots b rest →
          symbol ∈ head :: rest := by
        intro ranges b hmem
        rcases List.mem_cons.mp hmem with hmem | hmem
        · cases hmem
          exact List.mem_cons_self
        · exact List.mem_cons_of_mem _ (ih hmem)
      unfold plan at h
      split at h
      · exact hhead _ h
      · exact hlater _ _ h
      · exact hhead _ h
      · exact hlater _ _ h

/-- Each visited symbol has a slot its visit can leave, the others what they had. -/
def Settled (visits : List (String × List (ℕ × ℕ))) (before after : Storage Cells) : Prop :=
  (∀ symbol, (∀ missing, (symbol, missing) ∉ visits) →
      after.slot symbol = before.slot symbol) ∧
    ∀ symbol missing, (symbol, missing) ∈ visits →
      (∃ stage, after.slot symbol =
        c.settle call symbol missing (before.slot symbol) stage) ∧
      (call.FaultFree → after.slot symbol =
        c.settle call symbol missing (before.slot symbol) .complete)

theorem settled_nil (storage : Storage Cells) : c.Settled call [] storage storage :=
  ⟨fun _ _ => rfl, fun _ _ h => absurd h List.not_mem_nil⟩

theorem settled_of_fault (hfault : ¬ call.FaultFree) (visits : List (String × List (ℕ × ℕ)))
    (storage : Storage Cells) : c.Settled call visits storage storage :=
  ⟨fun _ _ => rfl, fun _ _ _ => ⟨⟨.untouched, rfl⟩, fun hfree => absurd hfree hfault⟩⟩

theorem Visited.cons_settled {symbol : String} {missing : List (ℕ × ℕ)}
    {visits : List (String × List (ℕ × ℕ))} {before middle after : Storage Cells}
    (hvisited : c.Visited call symbol missing before middle)
    (hfresh : ∀ ranges, (symbol, ranges) ∉ visits)
    (hsettled : c.Settled call visits middle after) :
    c.Settled call ((symbol, missing) :: visits) before after := by
  obtain ⟨hothers, hstage, hcomplete⟩ := hvisited
  have hhead : after.slot symbol = middle.slot symbol := hsettled.1 symbol hfresh
  constructor
  · intro other hother
    have hne : other ≠ symbol := by
      rintro rfl
      exact hother missing List.mem_cons_self
    rw [hsettled.1 other fun ranges hmem => hother ranges (List.mem_cons_of_mem _ hmem)]
    exact hothers other hne
  · intro other ranges hmem
    rcases List.mem_cons.mp hmem with heq | hlater
    · cases heq
      rw [hhead]
      exact ⟨hstage, hcomplete⟩
    · have hne : other ≠ symbol := by
        rintro rfl
        exact hfresh ranges hlater
      rw [← hothers other hne]
      exact hsettled.2 other ranges hlater

def diskAfter : Except (Interrupted Cells) (Progress Cells) → Storage Cells
  | .error interrupted => interrupted.storage
  | .ok p => p.storage

theorem visitSymbols_settled {symbols : List String} (hnodup : symbols.Nodup)
    (p : Progress Cells) (hsync : p.Synced) :
    c.Settled call (c.plan call p.storage.slot (call.limit - p.attempted) symbols) p.storage
      (diskAfter (c.visitSymbols call symbols p)) := by
  induction symbols generalizing p with
  | nil => exact c.settled_nil call p.storage
  | cons symbol rest ih =>
      obtain ⟨hfresh, hrest⟩ := List.nodup_cons.mp hnodup
      have hunplanned : ∀ slots budget ranges,
          (symbol, ranges) ∉ c.plan call slots budget rest :=
        fun slots budget ranges hmem => hfresh (c.mem_of_mem_plan call hmem)
      -- The plan for the later symbols does not depend on the visit to this one.
      have hlater : ∀ (missing : List (ℕ × ℕ)) (next : Progress Cells),
          c.Visited call symbol missing p.storage next.storage → next.Synced →
          c.Settled call (c.plan call p.storage.slot (call.limit - next.attempted) rest)
            next.storage (diskAfter (c.visitSymbols call rest next)) := by
        intro missing next hvisited hsynced
        have hcongr : c.plan call next.storage.slot (call.limit - next.attempted) rest =
            c.plan call p.storage.slot (call.limit - next.attempted) rest :=
          c.plan_congr call fun other hother =>
            hvisited.1 other fun heq => hfresh (heq ▸ hother)
        rw [← hcongr]
        exact ih hrest next hsynced
      unfold visitSymbols
      cases hrequests : c.slotRequests call symbol (p.storage.slot symbol) with
      | error error =>
          obtain ⟨interrupted, hraised, hvisited⟩ :=
            c.visitSymbol_of_error call hsync hrequests
          simp only [plan, hrequests, hraised]
          exact hvisited.cons_settled c call (fun _ => List.not_mem_nil)
            (c.settled_nil call interrupted.storage)
      | ok missing =>
          cases missing with
          | nil =>
              simp only [plan, hrequests]
              rcases c.visitSymbol_of_idle call hsync hrequests (Or.inl rfl) with
                ⟨interrupted, hraised, hfault, hvisited⟩ |
                ⟨next, hdone, ⟨hsynced, hcount, hgoes⟩, hvisited⟩
              · simp only [hraised]
                exact hvisited.cons_settled c call (hunplanned _ _)
                  (c.settled_of_fault call hfault _ interrupted.storage)
              · obtain ⟨next, goesOn⟩ := next
                cases hgoes
                simp only [hdone]
                rw [← hcount]
                exact hvisited.cons_settled c call (hunplanned _ _)
                  (hlater [] next hvisited hsynced)
          | cons range ranges =>
              cases hbudget : call.limit - p.attempted with
              | zero =>
                  simp only [plan, hrequests]
                  rcases c.visitSymbol_of_idle call hsync hrequests (Or.inr (by omega)) with
                    ⟨interrupted, hraised, hfault, hvisited⟩ |
                    ⟨next, hdone, ⟨hsynced, hcount, hgoes⟩, hvisited⟩
                  · simp only [hraised]
                    exact hvisited.cons_settled c call (fun _ => List.not_mem_nil)
                      (c.settled_nil call interrupted.storage)
                  · obtain ⟨next, goesOn⟩ := next
                    cases hgoes
                    simp only [hdone]
                    exact hvisited.cons_settled c call (fun _ => List.not_mem_nil)
                      (c.settled_nil call next.storage)
              | succ budget =>
                  simp only [plan, hrequests]
                  rcases c.visitSymbol_of_request call hsync hrequests (by simp)
                      (by omega) with
                    ⟨interrupted, hraised, hfault, hvisited⟩ |
                    ⟨next, hdone, ⟨hsynced, hcount, hgoes⟩, hvisited⟩
                  · simp only [hraised]
                    exact hvisited.cons_settled c call (hunplanned _ _)
                      (c.settled_of_fault call hfault _ interrupted.storage)
                  · obtain ⟨next, goesOn⟩ := next
                    cases hgoes
                    simp only [hdone]
                    have hleft : budget = call.limit - next.attempted := by
                      rw [hcount]
                      omega
                    rw [hleft]
                    exact hvisited.cons_settled c call (hunplanned _ _)
                      (hlater _ next hvisited hsynced)

theorem nodup_of_validateInstruments {instruments symbols : List String}
    (h : validateInstruments instruments = .ok symbols) :
    symbols.Nodup ∧ ∀ symbol, symbol ∈ symbols ↔ symbol ∈ instruments := by
  unfold validateInstruments at h
  split at h
  · rename_i hnodup
    cases h
    refine ⟨?_, ?_⟩
    · exact (List.perm_insertionSort _ instruments).nodup_iff.mpr hnodup
    · intro symbol
      exact List.mem_insertionSort _
  · cases h

theorem nodup_of_batch {symbols : List String} (h : c.batch call = .ok symbols) :
    symbols.Nodup := by
  unfold batch at h
  split at h
  · cases h
  · split at h
    · cases h
    · split at h
      · cases h
      · split at h
        · cases h
        · split at h
          · cases h
          · rename_i listed hvalid
            cases h
            exact (nodup_of_validateInstruments hvalid).1

theorem runStorage_of_batch {symbols : List String} (h : c.batch call = .ok symbols)
    (storage : Storage Cells) :
    c.runStorage storage call =
      diskAfter (c.visitSymbols call symbols (initialProgress call storage)) := by
  unfold runStorage run
  rw [h]
  simp only
  cases c.visitSymbols call symbols (initialProgress call storage) <;> rfl

theorem runStorage_of_batch_error {error : BackfillError} (h : c.batch call = .error error)
    (storage : Storage Cells) : c.runStorage storage call = storage := by
  unfold runStorage run
  rw [h]

/-- One run changes the slots of the visited symbols only, each to one its visit
can leave. -/
theorem runStorage_settled (storage : Storage Cells) :
    c.Settled call (c.visits call storage) storage (c.runStorage storage call) := by
  unfold visits
  cases hbatch : c.batch call with
  | error error =>
      rw [c.runStorage_of_batch_error call hbatch]
      exact c.settled_nil call storage
  | ok symbols =>
      rw [c.runStorage_of_batch call hbatch]
      exact c.visitSymbols_settled call (c.nodup_of_batch call hbatch)
        (initialProgress call storage) rfl

end HistoricalBackfillCoordinator

end QuantWorkbench.Runtime
