import QuantWorkbench.Runtime.EodCoordinator

/-!
Everything one step of the coordinator can do. Each effect names the state it is
taken from and the state it leads to, so an invariant is checked once for each.
-/

namespace QuantWorkbench.Runtime

open QuantWorkbench.Lib

/-- A rejected checkpoint has stopped the coordinator for good. -/
def EodMemory.Dead (m : EodMemory) : Prop :=
  m.stopped = true ∧ m.errorCode = some "CHECKPOINT_REJECTED"

namespace EodSettings

variable (c : EodSettings)

def savedEvents (w : EodWorld) : List EodEvent :=
  if c.hasCheckpoint then [.persisted w.memory.completed] else []

@[simp] theorem saved_memory (w : EodWorld) : (c.saved w).memory = w.memory := by
  unfold saved
  split <;> rfl

@[simp] theorem saved_run (w : EodWorld) : (c.saved w).run = w.run := by
  unfold saved
  split <;> rfl

theorem saved_log (w : EodWorld) : (c.saved w).log = c.savedEvents w ++ w.log := by
  unfold saved savedEvents
  split <;> rfl

theorem mem_savedEvents {w : EodWorld} {event : EodEvent} (h : event ∈ c.savedEvents w) :
    event = .persisted w.memory.completed := by
  unfold savedEvents at h
  split at h
  · exact List.mem_singleton.mp h
  · cases h

theorem saved_disk (w : EodWorld) :
    (c.saved w).disk = if c.hasCheckpoint then some w.memory.checkpoint else w.disk := by
  unfold saved
  split <;> rfl

theorem persist_cases (write : Bool) (w : EodWorld) :
    c.persist write w = some (c.saved w) ∨
      (c.hasCheckpoint = true ∧ c.persist write w = none) := by
  unfold persist
  split
  · rename_i h
    exact Or.inr ⟨h.1, rfl⟩
  · exact Or.inl rfl

/-- A run finds no calendar for the day and saves that it is blocked. -/
def RecordsCalendarFailure (w : EodWorld) : EodInput → Prop
  | .runDue current write => w.memory.stopped = false ∧ c.dueTarget w.memory current = none ∧
      ¬ (c.hasCheckpoint = true ∧ write = false)
  | .runInitial current write => w.memory.stopped = false ∧
      c.latestCompletedSession current = none ∧ ¬ (c.hasCheckpoint = true ∧ write = false)
  | _ => False

theorem RecordsCalendarFailure.running {w : EodWorld} {input : EodInput}
    (h : c.RecordsCalendarFailure w input) : w.memory.stopped = false := by
  cases input with
  | runDue current write => exact h.1
  | runInitial current write => exact h.1
  | _ => exact h.elim

/-- What a step can do to the world, apart from a recorded calendar failure and a
restart. A write may be lost only where there is a checkpoint file. -/
inductive Effect (w : EodWorld) : EodWorld → Prop where
  | idle : Effect w w
  | calendarLost (hrunning : w.memory.stopped = false) (hfile : c.hasCheckpoint = true) :
      Effect w { w with memory :=
        { w.memory.calendarFailed with errorCode := some "CHECKPOINT_WRITE_FAILED" } }
  | begun (target : Date) (current : Instant) (hfree : w.run = none)
      (hallowed : ¬ w.memory.Refused target)
      (hready : ¬ c.Waiting (retarget target w).memory current) :
      Effect w
        (({ c.saved { retarget target w with
              memory := (retarget target w).memory.intended target current } with
            run := some ⟨target, (retarget target w).memory.requestRevision,
              (retarget target w).memory.attempts + 1, .calling⟩ }).record
          (.started target current))
  | intentLost (target : Date) (current : Instant) (hfree : w.run = none)
      (hallowed : ¬ w.memory.Refused target) (hfile : c.hasCheckpoint = true) :
      Effect w (writeFailure target { retarget target w with
        memory := (retarget target w).memory.intended target current })
  | returned (run : EodRun) (outcome : RefreshOutcome) (summary : Option Text)
      (hrun : w.run = some run) (hphase : run.phase = .calling) :
      Effect w
        (({ w with
            memory := { w.memory with inputSummary := summary }
            run := some { run with phase := .returned outcome } }).record
          (.returned run.target outcome.succeeded))
  | interrupted (run : EodRun) (hrun : w.run = some run) : Effect w { w with run := none }
  | noted (run : EodRun) (byResult : Bool) (errorCode : String) (noticeZh : Text)
      (hrun : w.run = some run) (hphase : run.phase ≠ .calling) :
      Effect w (noteFailure run byResult errorCode noticeZh w)
  | denied (run : EodRun) (hrun : w.run = some run) (hphase : run.phase ≠ .calling) :
      Effect w { c.saved (({ w with memory := w.memory.denied run.target }).record
        (.denied run.target)) with run := none }
  | deniedLost (run : EodRun) (hrun : w.run = some run) (hphase : run.phase ≠ .calling)
      (hfile : c.hasCheckpoint = true) :
      Effect w (writeFailure run.target
        (({ w with memory := w.memory.denied run.target }).record (.denied run.target)))
  | completed (run : EodRun) (outcome : RefreshOutcome) (current : Instant) (noticeZh : Text)
      (hrun : w.run = some run) (hphase : run.phase = .returned outcome)
      (hsucceeded : outcome.succeeded = true)
      (hcurrent : run.revision = w.memory.requestRevision) :
      Effect w
        (({ c.saved { w with memory := w.memory.succeeded run current noticeZh } with
            run := none }).record (.completed run.target))
  | outdated (run : EodRun) (current : Instant) (noticeZh : Text) (hrun : w.run = some run)
      (hphase : run.phase ≠ .calling) (hcurrent : run.revision ≠ w.memory.requestRevision) :
      Effect w { c.saved { w with memory := w.memory.succeeded run current noticeZh } with
        run := none }
  | successLost (run : EodRun) (current : Instant) (noticeZh : Text) (hrun : w.run = some run)
      (hphase : run.phase ≠ .calling) (hfile : c.hasCheckpoint = true) :
      Effect w (writeFailure run.target
        { w with memory := w.memory.succeeded run current noticeZh })
  | dropped (run : EodRun) (hrun : w.run = some run) (hphase : run.phase ≠ .calling)
      (hcurrent : run.revision ≠ w.memory.requestRevision) :
      Effect w { c.saved { w with memory := { w.memory with status := .pending } } with
        run := none }
  | overflowed (run : EodRun) (byResult : Bool) (hrun : w.run = some run)
      (hphase : run.phase ≠ .calling) : Effect w (c.overflow byResult w)
  | failed (run : EodRun) (current : Instant) (hrun : w.run = some run)
      (hphase : run.phase ≠ .calling) (hcurrent : run.revision = w.memory.requestRevision) :
      Effect w
        (({ c.saved { w with memory := c.failedMemory run current w.memory } with
            run := none }).record (.failureRecorded run.attemptNumber current))
  | failureLost (run : EodRun) (m : EodMemory) (hrun : w.run = some run)
      (hphase : run.phase ≠ .calling) (hfile : c.hasCheckpoint = true)
      (hm : m = { w.memory with status := m.status, nextRetry := m.nextRetry }) :
      Effect w (writeFailure run.target { w with memory := m })
  | requested (target : Date) (haccepted : w.memory.errorCode ≠ some "CHECKPOINT_REJECTED") :
      Effect w ((c.saved { w with memory := w.memory.requested target }).record
        (.requested target w.memory.Paused true))
  | requestLost (target : Date) (haccepted : w.memory.errorCode ≠ some "CHECKPOINT_REJECTED")
      (hfile : c.hasCheckpoint = true) :
      Effect w (({ w with memory := w.memory.requested target } : EodWorld).record
        (.requested target w.memory.Paused false))
  | reviewed (haccepted : w.memory.errorCode ≠ some "CHECKPOINT_REJECTED")
      (hrunning : w.memory.stopped = false) (hfree : w.run = none) :
      Effect w (({ w with memory := w.memory.reviewed } : EodWorld).record .reviewed)
  | stopped : Effect w (stop w)
  | started : Effect w (start w)

theorem calendarFailure_cases {w : EodWorld} (write : Bool)
    (hrunning : w.memory.stopped = false) :
    c.Effect w (c.calendarFailure write w) ∨
      (¬ (c.hasCheckpoint = true ∧ write = false) ∧
        c.calendarFailure write w = c.saved { w with memory := w.memory.calendarFailed }) := by
  unfold calendarFailure persist
  split
  · rename_i saved hsaved
    split at hsaved
    · cases hsaved
    · rename_i hwritten
      cases hsaved
      exact Or.inr ⟨hwritten, rfl⟩
  · rename_i hlost
    split at hlost
    · rename_i hwrite
      exact Or.inl (.calendarLost hrunning hwrite.1)
    · cases hlost

/-- A day that has just become the target is not waited for. -/
theorem not_waiting_of_retarget {target : Date} {w : EodWorld} {current : Instant}
    (h : w.memory.pendingTarget ≠ some target) :
    ¬ c.Waiting (retarget target w).memory current := by
  have hpos := c.maximumAttempts_pos
  unfold retarget
  rw [if_neg h]
  rintro (hspent | ⟨due, hdue, _⟩)
  · change c.maximumAttempts ≤ 0 at hspent
    omega
  · cases hdue

theorem runTarget_effect (target : Date) (current : Instant) (write : Bool) (w : EodWorld) :
    c.Effect w (c.runTarget target current write w) := by
  unfold runTarget
  split
  · exact .idle
  · rename_i hfree
    have hnone : w.run = none := by simpa using hfree
    split
    · exact .idle
    · rename_i hallowed
      split
      · rename_i hwaiting
        by_cases hsame : w.memory.pendingTarget = some target
        · unfold retarget
          rw [if_pos hsame]
          exact .idle
        · exact absurd hwaiting (c.not_waiting_of_retarget hsame)
      · rename_i hready
        unfold beginRun
        rcases c.persist_cases write { retarget target w with
          memory := (retarget target w).memory.intended target current } with h | ⟨hfile, h⟩
        · simp only [h]
          exact .begun target current hnone hallowed hready
        · simp only [h]
          exact .intentLost target current hnone hallowed hfile

theorem conclude_effect (current : Instant) (write : Bool) (w : EodWorld) :
    c.Effect w (c.conclude current write w) := by
  have hsucceed : ∀ run outcome noticeZh, w.run = some run → run.phase = .returned outcome →
      outcome.succeeded = true → c.Effect w (c.succeed run current noticeZh write w) := by
    intro run outcome noticeZh hrun hphase hsucceeded
    have hout : run.phase ≠ .calling := by
      rw [hphase]
      simp
    unfold succeed
    rcases c.persist_cases write
      { w with memory := w.memory.succeeded run current noticeZh } with h | ⟨hfile, h⟩
    · simp only [h]
      split
      · rename_i hcurrent
        exact .completed run outcome current noticeZh hrun hphase hsucceeded hcurrent
      · rename_i hcurrent
        exact .outdated run current noticeZh hrun hout hcurrent
    · simp only [h]
      exact .successLost run current noticeZh hrun hout hfile
  unfold conclude
  split
  · rename_i run hrun
    split
    · exact .interrupted run hrun
    · rename_i hphase
      have hout : run.phase ≠ .calling := by
        rw [hphase]
        simp
      unfold permissionDenied
      rcases c.persist_cases write
        (({ w with memory := w.memory.denied run.target }).record (.denied run.target)) with
        h | ⟨hfile, h⟩
      · simp only [h]
        exact .denied run hrun hout
      · simp only [h]
        exact .deniedLost run hrun hout hfile
    · rename_i name hphase
      exact .noted run false _ _ hrun (by rw [hphase]; simp)
    · rename_i hphase
      exact hsucceed run .finished _ hrun hphase rfl
    · rename_i answer hphase
      split
      · rename_i hsuccess
        exact hsucceed run (.result answer) _ hrun hphase hsuccess
      · exact .noted run true _ _ hrun (by rw [hphase]; simp)
    · exact .idle
  · exact .idle

theorem recordFailure_effect (current : Instant) (write : Bool) (w : EodWorld) :
    c.Effect w (c.recordFailure current write w) := by
  unfold recordFailure
  split
  · rename_i run hrun
    split
    · rename_i byResult hphase
      have hout : run.phase ≠ .calling := by
        rw [hphase]
        simp
      split
      · rename_i hcurrent
        unfold dropFailure
        rcases c.persist_cases write
          { w with memory := { w.memory with status := .pending } } with h | ⟨hfile, h⟩
        · simp only [h]
          exact .dropped run hrun hout hcurrent
        · simp only [h]
          exact .failureLost run _ hrun hout hfile rfl
      · rename_i hcurrent
        split
        · exact .overflowed run byResult hrun hout
        · unfold keepFailure
          rcases c.persist_cases write
            { w with memory := c.failedMemory run current w.memory } with h | ⟨hfile, h⟩
          · simp only [h]
            exact .failed run current hrun hout (not_not.mp hcurrent)
          · simp only [h]
            exact .failureLost run _ hrun hout hfile rfl
    · exact .idle
  · exact .idle

theorem requestRefresh_effect (current : Instant) (write : Bool) (w : EodWorld) :
    c.Effect w (c.requestRefresh current write w) := by
  unfold requestRefresh
  split
  · exact .idle
  · rename_i target _
    split
    · exact .idle
    · rename_i haccepted
      unfold requestTarget
      rcases c.persist_cases write { w with memory := w.memory.requested target } with
        h | ⟨hfile, h⟩
      · simp only [h]
        exact .requested target haccepted
      · simp only [h]
        exact .requestLost target haccepted hfile

/-- Every step is one effect, an operator's review followed by a request, a recorded
calendar failure or a restart. -/
theorem step_cases (w : EodWorld) (input : EodInput) :
    (∃ middle, c.Effect w middle ∧ c.Effect middle (c.step w input)) ∨
      (c.RecordsCalendarFailure w input ∧
        c.step w input = c.saved { w with memory := w.memory.calendarFailed }) ∨
      ∃ current valid, input = .restart current valid := by
  have hone : ∀ {after}, c.Effect w after →
      (∃ middle, c.Effect w middle ∧ c.Effect middle after) := fun h => ⟨w, .idle, h⟩
  cases input with
  | runDue current write =>
      change _ ∨ (_ ∧ c.runDue current write w = _) ∨ _
      simp only [step]
      unfold runDue
      split
      · exact Or.inl (hone .idle)
      · rename_i hstopped
        have hrunning : w.memory.stopped = false := by simpa using hstopped
        split
        · rename_i hraised
          rcases c.calendarFailure_cases write hrunning with h | ⟨hwritten, h⟩
          · exact Or.inl (hone h)
          · exact Or.inr (Or.inl ⟨⟨hrunning, hraised, hwritten⟩, h⟩)
        · exact Or.inl (hone .idle)
        · exact Or.inl (hone (c.runTarget_effect _ current write w))
  | runInitial current write =>
      change _ ∨ (_ ∧ c.runInitial current write w = _) ∨ _
      simp only [step]
      unfold runInitial
      split
      · exact Or.inl (hone .idle)
      · rename_i hstopped
        have hrunning : w.memory.stopped = false := by simpa using hstopped
        split
        · rename_i hraised
          rcases c.calendarFailure_cases write hrunning with h | ⟨hwritten, h⟩
          · exact Or.inl (hone h)
          · exact Or.inr (Or.inl ⟨⟨hrunning, hraised, hwritten⟩, h⟩)
        · exact Or.inl (hone (c.runTarget_effect _ current write w))
  | runTarget target current write =>
      exact Or.inl (hone (c.runTarget_effect target current write w))
  | refreshReturned outcome =>
      left
      apply hone
      change c.Effect w (refreshReturned outcome w)
      unfold refreshReturned
      split
      · rename_i run hrun
        split
        · rename_i hphase
          cases outcome with
          | result answer => exact .returned run _ answer.inputSummary hrun hphase
          | finished => exact .returned run _ w.memory.inputSummary hrun hphase
          | permissionError => exact .returned run _ w.memory.inputSummary hrun hphase
          | otherError name => exact .returned run _ w.memory.inputSummary hrun hphase
          | interrupted => exact .returned run _ w.memory.inputSummary hrun hphase
        · exact .idle
      · exact .idle
  | conclude current write => exact Or.inl (hone (c.conclude_effect current write w))
  | recordFailure current write => exact Or.inl (hone (c.recordFailure_effect current write w))
  | requestRefresh current write =>
      exact Or.inl (hone (c.requestRefresh_effect current write w))
  | retryAfterReview current write =>
      left
      change ∃ middle, c.Effect w middle ∧ c.Effect middle (c.retryAfterReview current write w)
      unfold retryAfterReview
      split
      · exact hone .idle
      · rename_i haccepted
        split
        · exact hone .idle
        · rename_i hstopped
          split
          · exact hone .idle
          · rename_i hfree
            exact ⟨_, .reviewed haccepted (by simpa using hstopped) (by simpa using hfree),
              c.requestRefresh_effect current write _⟩
  | stop => exact Or.inl (hone .stopped)
  | start => exact Or.inl (hone .started)
  | restart current valid => exact Or.inr (Or.inr ⟨current, valid, rfl⟩)

/-- The coordinator was stopped by a rejected checkpoint and nothing runs. -/
structure Halted (w : EodWorld) : Prop where
  dead : w.memory.Dead
  idle : w.run = none

/-- A halted coordinator stays halted and writes nothing. -/
theorem Halted.effect {w after : EodWorld} (h : Halted w) (heffect : c.Effect w after) :
    Halted after ∧ after.log = w.log ∧ after.disk = w.disk := by
  have hrefused : ∀ target, w.memory.Refused target := fun _ => Or.inr (Or.inr (Or.inr h.dead.1))
  have hnorun : ∀ {run}, w.run ≠ some run := by
    intro run hrun
    rw [h.idle] at hrun
    cases hrun
  cases heffect with
  | idle => exact ⟨h, rfl, rfl⟩
  | calendarLost hrunning hfile => exact absurd (h.dead.1.symm.trans hrunning) (by simp)
  | begun target current hfree hallowed hready => exact absurd (hrefused target) hallowed
  | intentLost target current hfree hallowed hfile => exact absurd (hrefused target) hallowed
  | requested target haccepted => exact absurd h.dead.2 haccepted
  | requestLost target haccepted hfile => exact absurd h.dead.2 haccepted
  | reviewed haccepted hrunning hfree => exact absurd h.dead.2 haccepted
  | stopped => exact ⟨⟨⟨rfl, h.dead.2⟩, h.idle⟩, rfl, rfl⟩
  | started => exact ⟨⟨⟨by simp [start, h.dead.2], h.dead.2⟩, h.idle⟩, rfl, rfl⟩
  | returned run outcome summary hrun hphase => exact absurd hrun hnorun
  | interrupted run hrun => exact absurd hrun hnorun
  | noted run byResult errorCode noticeZh hrun hphase => exact absurd hrun hnorun
  | denied run hrun hphase => exact absurd hrun hnorun
  | deniedLost run hrun hphase hfile => exact absurd hrun hnorun
  | completed run outcome current noticeZh hrun hphase hsucceeded hcurrent =>
      exact absurd hrun hnorun
  | outdated run current noticeZh hrun hphase hcurrent => exact absurd hrun hnorun
  | successLost run current noticeZh hrun hphase hfile => exact absurd hrun hnorun
  | dropped run hrun hphase hcurrent => exact absurd hrun hnorun
  | overflowed run byResult hrun hphase => exact absurd hrun hnorun
  | failed run current hrun hphase hcurrent => exact absurd hrun hnorun
  | failureLost run m hrun hphase hfile hm => exact absurd hrun hnorun

end EodSettings

end QuantWorkbench.Runtime
