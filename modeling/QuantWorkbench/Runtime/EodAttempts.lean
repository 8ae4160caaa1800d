import QuantWorkbench.Runtime.EodSteps
import QuantWorkbench.Lib.EventLog
import QuantWorkbench.Lib.Runs

/-!
How often a refresh is started and how long it waits after a failure. The counter
and the time of the next retry are written before they matter, so the checkpoint
never allows more than the memory.
-/

namespace QuantWorkbench.Runtime

open QuantWorkbench.Lib QuantWorkbench.Lib.EventLog

/-- The attempts are counted from here again. -/
def EodEvent.resets : EodEvent → Bool
  | .requested _ paused _ => !paused
  | .reviewed => true
  | .retargeted _ => true
  | _ => false

def EodEvent.starts (target : Date) : EodEvent → Bool
  | .started day _ => day = target
  | _ => false

/-- The wait for a retry is over: it has begun, or something else was asked for. -/
def EodEvent.endsWait : EodEvent → Bool
  | .started _ _ => true
  | .requested _ _ _ => true
  | .reviewed => true
  | .retargeted _ => true
  | _ => false

def startsSinceReset : List EodEvent → ℕ
  | [] => 0
  | .started _ _ :: older => startsSinceReset older + 1
  | event :: older => if event.resets then 0 else startsSinceReset older

/-- A failure was recorded and its retry is still waited for. -/
def FailedSince (attemptNumber : ℕ) (failed : Instant) (log : List EodEvent) : Prop :=
  Since (fun past => ∃ older, past = .failureRecorded attemptNumber failed :: older)
    (fun event => event.endsWait = false) log

theorem startsSinceReset_cons_le {event : EodEvent} {log : List EodEvent}
    (hstart : ∀ target current, event ≠ .started target current) :
    startsSinceReset (event :: log) ≤ startsSinceReset log := by
  cases event with
  | started target current => exact absurd rfl (hstart target current)
  | _ =>
      simp only [startsSinceReset]
      split <;> omega

theorem startsSinceReset_of_resets {event : EodEvent} {log : List EodEvent}
    (hresets : event.resets = true) : startsSinceReset (event :: log) = 0 := by
  cases event with
  | started target current => cases hresets
  | _ => simp only [startsSinceReset, hresets, if_true]

theorem FailedSince.of_cons {event : EodEvent} {log : List EodEvent} {attemptNumber : ℕ}
    {failed : Instant} (h : FailedSince attemptNumber failed (event :: log))
    (hfailure : event ≠ .failureRecorded attemptNumber failed) :
    event.endsWait = false ∧ FailedSince attemptNumber failed log := by
  rcases since_cons_iff.mp h with ⟨older, heq⟩ | hrest
  · exact absurd (List.cons.inj heq).1 hfailure
  · exact hrest

namespace EodSettings

variable (c : EodSettings)

/-- Between two resets a target is started at most as often as allowed. -/
def AttemptsBounded (w : EodWorld) : Prop :=
  ∀ newer window older, w.log = newer ++ (window ++ older) →
    (∀ event ∈ window, event.resets = false) →
      ∀ target, window.countP (·.starts target) ≤ c.maximumAttempts

/-- A refresh is started while the delay after a recorded failure has not passed. -/
def TooEarly (event : EodEvent) (past : List EodEvent) : Prop :=
  ∃ target current attemptNumber failed, event = .started target current ∧
    FailedSince attemptNumber failed past ∧ current < failed + c.retryDelay attemptNumber

def RetriesSpaced (w : EodWorld) : Prop := Never c.TooEarly w.log

/-- The counter and the next retry account for everything in the log. -/
structure Covers (attempts : ℕ) (nextRetry : Option Instant) (log : List EodEvent) : Prop where
  counted : startsSinceReset log ≤ attempts
  waiting : ∀ attemptNumber failed, FailedSince attemptNumber failed log →
    c.maximumAttempts ≤ attempts ∨ nextRetry = some (failed + c.retryDelay attemptNumber)

/-- What a new coordinator would find in the file. -/
def DiskCovers (disk : Option EodCheckpoint) (log : List EodEvent) : Prop :=
  match disk with
  | some body => c.Covers body.attempts body.nextRetryAt log
  | none => c.Covers 0 none log

structure Lawful (log : List EodEvent) : Prop where
  bounded : ∀ older, older <:+ log → startsSinceReset older ≤ c.maximumAttempts
  spaced : Never c.TooEarly log

/-- While a run is in progress no failure is waited for. -/
structure AttemptsKept (w : EodWorld) : Prop where
  lawful : c.Lawful w.log
  quiet : w.run ≠ none → ∀ attemptNumber failed, ¬ FailedSince attemptNumber failed w.log
  memory : c.Covers w.memory.attempts w.memory.nextRetry w.log
  disk : c.DiskCovers w.disk w.log

variable {c} {w : EodWorld} {attempts : ℕ} {nextRetry : Option Instant} {log : List EodEvent}

theorem Covers.record (h : c.Covers attempts nextRetry log) {event : EodEvent}
    (hstart : ∀ target current, event ≠ .started target current)
    (hfailure : ∀ attemptNumber failed, event ≠ .failureRecorded attemptNumber failed) :
    c.Covers attempts nextRetry (event :: log) where
  counted := (startsSinceReset_cons_le hstart).trans h.counted
  waiting := by
    intro attemptNumber failed hsince
    exact h.waiting attemptNumber failed (hsince.of_cons (hfailure attemptNumber failed)).2

theorem DiskCovers.record {disk : Option EodCheckpoint} (h : c.DiskCovers disk log)
    {event : EodEvent} (hstart : ∀ target current, event ≠ .started target current)
    (hfailure : ∀ attemptNumber failed, event ≠ .failureRecorded attemptNumber failed) :
    c.DiskCovers disk (event :: log) := by
  cases disk with
  | none => exact Covers.record h hstart hfailure
  | some body => exact Covers.record h hstart hfailure

theorem Covers.forget (h : c.Covers attempts nextRetry log) {event : EodEvent}
    (hends : event.endsWait = true) (hstart : ∀ target current, event ≠ .started target current)
    (other : Option Instant) : c.Covers attempts other (event :: log) where
  counted := (startsSinceReset_cons_le hstart).trans h.counted
  waiting := by
    intro attemptNumber failed hsince
    have hends' := (hsince.of_cons (by rintro rfl; cases hends)).1
    exact absurd (hends.symm.trans hends') (by simp)

theorem covers_of_resets {event : EodEvent} (hresets : event.resets = true)
    (hends : event.endsWait = true) : c.Covers attempts nextRetry (event :: log) where
  counted := (startsSinceReset_of_resets hresets).le.trans (Nat.zero_le _)
  waiting := by
    intro attemptNumber failed hsince
    have hends' := (hsince.of_cons (by rintro rfl; cases hends)).1
    exact absurd (hends.symm.trans hends') (by simp)

theorem Lawful.record (h : c.Lawful log) {event : EodEvent}
    (hstart : ∀ target current, event ≠ .started target current) : c.Lawful (event :: log) where
  bounded := by
    intro older holder
    rcases List.suffix_cons_iff.mp holder with rfl | holder
    · exact (startsSinceReset_cons_le hstart).trans (h.bounded log (List.suffix_refl log))
    · exact h.bounded older holder
  spaced := by
    refine never_cons_iff.mpr ⟨?_, h.spaced⟩
    rintro ⟨target, current, _, _, rfl, _⟩
    exact hstart target current rfl

theorem AttemptsKept.record (h : c.AttemptsKept w) {event : EodEvent}
    (hstart : ∀ target current, event ≠ .started target current)
    (hfailure : ∀ attemptNumber failed, event ≠ .failureRecorded attemptNumber failed) :
    c.AttemptsKept (w.record event) where
  lawful := h.lawful.record hstart
  quiet := by
    intro hrun attemptNumber failed hsince
    exact h.quiet hrun attemptNumber failed (hsince.of_cons (hfailure _ _)).2
  memory := h.memory.record hstart hfailure
  disk := h.disk.record hstart hfailure

theorem AttemptsKept.update (h : c.AttemptsKept w) {m : EodMemory}
    (hattempts : w.memory.attempts ≤ m.attempts)
    (hretry : m.nextRetry = w.memory.nextRetry ∨ w.run ≠ none) :
    c.AttemptsKept { w with memory := m } where
  lawful := h.lawful
  quiet := h.quiet
  memory := by
    refine ⟨h.memory.counted.trans hattempts, fun attemptNumber failed hsince => ?_⟩
    rcases hretry with hsame | hrun
    · change c.maximumAttempts ≤ m.attempts ∨ m.nextRetry = _
      rw [hsame]
      rcases h.memory.waiting attemptNumber failed hsince with hspent | hdue
      · exact Or.inl (hspent.trans hattempts)
      · exact Or.inr hdue
    · exact absurd hsince (h.quiet hrun attemptNumber failed)
  disk := h.disk

theorem AttemptsKept.finish (h : c.AttemptsKept w) : c.AttemptsKept { w with run := none } where
  lawful := h.lawful
  quiet := fun hrun => absurd rfl hrun
  memory := h.memory
  disk := h.disk

/-- The run in progress enters another phase. -/
theorem AttemptsKept.proceed (h : c.AttemptsKept w) (hrun : w.run ≠ none) (run : EodRun) :
    c.AttemptsKept { w with run := some run } where
  lawful := h.lawful
  quiet := fun _ => h.quiet hrun
  memory := h.memory
  disk := h.disk

theorem saved_log_of_checkpoint (hfile : c.hasCheckpoint = true) (w : EodWorld) :
    (c.saved w).log = .persisted w.memory.completed :: w.log := by
  rw [saved_log]
  unfold savedEvents
  rw [if_pos hfile]
  rfl

theorem AttemptsKept.saved (h : c.AttemptsKept w) (hfile : c.hasCheckpoint = true) :
    c.AttemptsKept (c.saved w) := by
  have hrecorded : c.AttemptsKept (w.record (.persisted w.memory.completed)) :=
    h.record (by simp) (by simp)
  have hlog := saved_log_of_checkpoint hfile w
  constructor
  · rw [hlog]
    exact hrecorded.lawful
  · rw [hlog, saved_run]
    exact hrecorded.quiet
  · rw [hlog, saved_memory]
    exact hrecorded.memory
  · rw [hlog, saved_disk, if_pos hfile]
    exact hrecorded.memory

theorem AttemptsKept.retarget (h : c.AttemptsKept w) (hrun : w.run = none) (target : Date) :
    c.AttemptsKept (EodSettings.retarget target w) := by
  unfold EodSettings.retarget
  split
  · exact h
  · constructor
    · exact h.lawful.record (by simp)
    · exact fun hne => absurd hrun hne
    · exact covers_of_resets rfl rfl
    · exact h.disk.record (by simp) (by simp)

theorem AttemptsKept.writeFailure (h : c.AttemptsKept w) (target : Date) :
    c.AttemptsKept (EodSettings.writeFailure target w) := by
  have hupdated : c.AttemptsKept { w with memory := w.memory.writeFailed target } :=
    h.update le_rfl (Or.inl rfl)
  exact hupdated.finish

/-- The counter goes up with the start of the refresh, in memory and in the file. -/
theorem covers_started (h : c.Covers attempts nextRetry log) (target : Date) (current : Instant) :
    c.Covers (attempts + 1) nextRetry (.started target current :: log) where
  counted := Nat.succ_le_succ h.counted
  waiting := by
    intro attemptNumber failed hsince
    have hends := (hsince.of_cons (by simp)).1
    cases hends

theorem AttemptsKept.begin (h : c.AttemptsKept w) (hfile : c.hasCheckpoint = true)
    {current : Instant} (hready : ¬ c.Waiting w.memory current) (target : Date) (run : EodRun) :
    c.AttemptsKept
      (({ c.saved { w with memory := w.memory.intended target current } with
          run := some run }).record (.started target current)) := by
  have hallowed : w.memory.attempts < c.maximumAttempts := by
    by_contra hspent
    exact hready (Or.inl (Nat.le_of_not_lt hspent))
  have hlog := saved_log_of_checkpoint hfile
    { w with memory := w.memory.intended target current }
  have hcovers : c.Covers w.memory.attempts w.memory.nextRetry
      (.persisted w.memory.completed :: w.log) := h.memory.record (by simp) (by simp)
  have hlawful : c.Lawful (.persisted w.memory.completed :: w.log) := h.lawful.record (by simp)
  have hstarted := covers_started hcovers target current
  have hdisk : (c.saved { w with memory := w.memory.intended target current }).disk =
      some (w.memory.intended target current).checkpoint := by
    rw [saved_disk, if_pos hfile]
  constructor
  · change c.Lawful (_ :: (c.saved _).log)
    rw [hlog]
    refine ⟨?_, never_cons_iff.mpr ⟨?_, hlawful.spaced⟩⟩
    · intro older holder
      rcases List.suffix_cons_iff.mp holder with rfl | holder
      · exact hstarted.counted.trans hallowed
      · exact hlawful.bounded older holder
    · rintro ⟨_, _, attemptNumber, failed, ⟨⟩, hsince, hearly⟩
      rcases hcovers.waiting attemptNumber failed hsince with hspent | hdue
      · omega
      · exact hready (Or.inr ⟨_, hdue, hearly⟩)
  · intro _ attemptNumber failed hsince
    have hends := (hsince.of_cons (by simp)).1
    cases hends
  · change c.Covers (c.saved _).memory.attempts (c.saved _).memory.nextRetry (_ :: (c.saved _).log)
    rw [hlog, saved_memory]
    exact hstarted
  · change c.DiskCovers (c.saved _).disk (_ :: (c.saved _).log)
    rw [hlog, hdisk]
    exact hstarted

/-- A failure is recorded with the time of its retry, in memory and in the file. -/
theorem AttemptsKept.failed (h : c.AttemptsKept w) (hfile : c.hasCheckpoint = true) {run : EodRun}
    (hrun : w.run = some run) (current : Instant) :
    c.AttemptsKept
      (({ c.saved { w with memory := c.failedMemory run current w.memory } with
          run := none }).record (.failureRecorded run.attemptNumber current)) := by
  have hbusy : w.run ≠ none := by
    rw [hrun]
    simp
  have hfailed : c.AttemptsKept { w with memory := c.failedMemory run current w.memory } :=
    h.update le_rfl (Or.inr hbusy)
  have hsaved := hfailed.saved hfile
  have hlog := saved_log_of_checkpoint hfile
    { w with memory := c.failedMemory run current w.memory }
  have hcovers : c.Covers w.memory.attempts (c.failedMemory run current w.memory).nextRetry
      (.failureRecorded run.attemptNumber current :: .persisted w.memory.completed :: w.log) := by
    refine ⟨?_, fun attemptNumber failed hsince => ?_⟩
    · have hcounted : startsSinceReset (.persisted w.memory.completed :: w.log) ≤ _ :=
        (startsSinceReset_cons_le (by simp)).trans h.memory.counted
      exact (startsSinceReset_cons_le (by simp)).trans hcounted
    · by_cases hspent : c.maximumAttempts ≤ w.memory.attempts
      · exact Or.inl hspent
      · right
        change (if _ then _ else _) = _
        rw [if_neg hspent]
        rcases since_cons_iff.mp hsince with ⟨older, heq⟩ | ⟨_, hrest⟩
        · cases (List.cons.inj heq).1
          rfl
        · have hold := (FailedSince.of_cons hrest (by simp)).2
          exact absurd hold (h.quiet hbusy attemptNumber failed)
  have hdisk : (c.saved { w with memory := c.failedMemory run current w.memory }).disk =
      some (c.failedMemory run current w.memory).checkpoint := by
    rw [saved_disk, if_pos hfile]
  constructor
  · exact hsaved.lawful.record (by simp)
  · exact fun hne => absurd rfl hne
  · change c.Covers (c.saved _).memory.attempts (c.saved _).memory.nextRetry (_ :: (c.saved _).log)
    rw [hlog, saved_memory]
    exact hcovers
  · change c.DiskCovers (c.saved _).disk (_ :: (c.saved _).log)
    rw [hlog, hdisk]
    exact hcovers

/-- A request counts the attempts again unless the coordinator is paused. -/
theorem covers_requested (h : c.Covers w.memory.attempts nextRetry log) (target : Date)
    (saved : Bool) :
    c.Covers (w.memory.requested target).attempts (w.memory.requested target).nextRetry
      (.requested target w.memory.Paused saved :: log) := by
  by_cases hpaused : w.memory.Paused
  · have hkept : (w.memory.requested target).attempts = w.memory.attempts := if_pos hpaused
    rw [hkept]
    exact h.forget rfl (by simp) _
  · exact covers_of_resets (by simp [EodEvent.resets, hpaused]) rfl


theorem AttemptsKept.requested (h : c.AttemptsKept w) (hfile : c.hasCheckpoint = true)
    (target : Date) :
    c.AttemptsKept ((c.saved { w with memory := w.memory.requested target }).record
      (.requested target w.memory.Paused true)) := by
  have hlog := saved_log_of_checkpoint hfile { w with memory := w.memory.requested target }
  have hcovers : c.Covers w.memory.attempts w.memory.nextRetry
      (.persisted (w.memory.requested target).completed :: w.log) :=
    h.memory.record (by simp) (by simp)
  have hlawful : c.Lawful (.persisted (w.memory.requested target).completed :: w.log) :=
    h.lawful.record (by simp)
  have hdisk : (c.saved { w with memory := w.memory.requested target }).disk =
      some (w.memory.requested target).checkpoint := by
    rw [saved_disk, if_pos hfile]
  constructor
  · change c.Lawful (_ :: (c.saved _).log)
    rw [hlog]
    exact hlawful.record (by simp)
  · intro _ attemptNumber failed hsince
    have hends := (hsince.of_cons (by simp)).1
    cases hends
  · change c.Covers (c.saved _).memory.attempts (c.saved _).memory.nextRetry (_ :: (c.saved _).log)
    rw [hlog, saved_memory]
    exact covers_requested hcovers target true
  · change c.DiskCovers (c.saved _).disk (_ :: (c.saved _).log)
    rw [hlog, hdisk]
    exact covers_requested hcovers target true

theorem AttemptsKept.requestLost (h : c.AttemptsKept w) (target : Date) :
    c.AttemptsKept (({ w with memory := w.memory.requested target } : EodWorld).record
      (.requested target w.memory.Paused false)) where
  lawful := h.lawful.record (by simp)
  quiet := by
    intro _ attemptNumber failed hsince
    have hends := (hsince.of_cons (by simp)).1
    cases hends
  memory := covers_requested h.memory target false
  disk := h.disk.record (by simp) (by simp)

theorem AttemptsKept.effect {after : EodWorld} (h : c.AttemptsKept w)
    (hfile : c.hasCheckpoint = true) (heffect : c.Effect w after) : c.AttemptsKept after := by
  have hbusy : ∀ {run}, w.run = some run → w.run ≠ none := by
    intro run hrun
    rw [hrun]
    simp
  have hsame : ∀ {m : EodMemory}, m.attempts = w.memory.attempts →
      m.nextRetry = w.memory.nextRetry → c.AttemptsKept { w with memory := m } :=
    fun hattempts hretry => h.update hattempts.ge (Or.inl hretry)
  have hrunning : ∀ {run} (m : EodMemory), w.run = some run →
      m.attempts = w.memory.attempts → c.AttemptsKept { w with memory := m } :=
    fun m hrun hattempts => h.update hattempts.ge (Or.inr (hbusy hrun))
  cases heffect with
  | idle => exact h
  | calendarLost hrunning hfile => exact hsame rfl rfl
  | begun target current hfree hallowed hready =>
      exact (h.retarget hfree target).begin hfile hready target _
  | intentLost target current hfree hallowed hfile =>
      have hintended : c.AttemptsKept { EodSettings.retarget target w with
          memory := (EodSettings.retarget target w).memory.intended target current } :=
        (h.retarget hfree target).update (Nat.le_succ _) (Or.inl rfl)
      exact hintended.writeFailure target
  | returned run outcome summary hrun hphase =>
      have hkept := (hrunning { w.memory with inputSummary := summary } hrun rfl).proceed
        (hbusy hrun) { run with phase := .returned outcome }
      exact hkept.record (by simp) (by simp)
  | interrupted run hrun => exact h.finish
  | noted run byResult errorCode noticeZh hrun hphase =>
      have hnoted := hrunning (w.memory.noted errorCode noticeZh) hrun rfl
      exact hnoted.proceed (hbusy hrun) { run with phase := .failed byResult }
  | denied run hrun hphase =>
      exact (((hrunning (w.memory.denied run.target) hrun rfl).record (by simp)
        (by simp)).saved hfile).finish
  | deniedLost run hrun hphase hfile =>
      exact ((hrunning (w.memory.denied run.target) hrun rfl).record (by simp)
        (by simp)).writeFailure run.target
  | completed run outcome current noticeZh hrun hphase hsucceeded hcurrent =>
      have hsaved := (hrunning (w.memory.succeeded run current noticeZh) hrun rfl).saved hfile
      exact hsaved.finish.record (by simp) (by simp)
  | outdated run current noticeZh hrun hphase hcurrent =>
      exact ((hrunning (w.memory.succeeded run current noticeZh) hrun rfl).saved hfile).finish
  | successLost run current noticeZh hrun hphase hfile =>
      exact (hrunning (w.memory.succeeded run current noticeZh) hrun rfl).writeFailure run.target
  | dropped run hrun hphase hcurrent =>
      exact ((hrunning { w.memory with status := .pending } hrun rfl).saved hfile).finish
  | overflowed run byResult hrun hphase =>
      have hupdated : c.AttemptsKept { w with memory := (c.overflow byResult w).memory } := by
        apply hrunning _ hrun
        cases byResult with
        | false => rfl
        | true => rfl
      exact hupdated.finish
  | failed run current hrun hphase hcurrent => exact h.failed hfile hrun current
  | failureLost run m hrun hphase hfile hm =>
      have hfailed : c.AttemptsKept { w with memory := m } := by
        apply hrunning m hrun
        rw [hm]
      exact hfailed.writeFailure run.target
  | requested target haccepted => exact h.requested hfile target
  | requestLost target haccepted hfile => exact h.requestLost target
  | reviewed haccepted hrunning hfree =>
      have hreviewed : c.AttemptsKept { w with memory := w.memory.reviewed } := hsame rfl rfl
      exact hreviewed.record (by simp) (by simp)
  | stopped => exact hsame rfl rfl
  | started => exact hsame rfl rfl

variable (c)

/-- Either the attempts are accounted for or a rejected checkpoint has stopped the
coordinator. -/
def AttemptsSafe (w : EodWorld) : Prop :=
  c.AttemptsKept w ∨ (Halted w ∧ c.Lawful w.log ∧ c.DiskCovers w.disk w.log)

variable {c}

theorem AttemptsSafe.lawful (h : c.AttemptsSafe w) : c.Lawful w.log := by
  rcases h with hkept | ⟨_, hlawful, _⟩
  · exact hkept.lawful
  · exact hlawful

theorem AttemptsSafe.disk (h : c.AttemptsSafe w) : c.DiskCovers w.disk w.log := by
  rcases h with hkept | ⟨_, _, hdisk⟩
  · exact hkept.disk
  · exact hdisk

theorem AttemptsSafe.effect {after : EodWorld} (h : c.AttemptsSafe w)
    (hfile : c.hasCheckpoint = true) (heffect : c.Effect w after) : c.AttemptsSafe after := by
  rcases h with hkept | ⟨hhalted, hlawful, hdisk⟩
  · exact Or.inl (hkept.effect hfile heffect)
  · obtain ⟨hafter, hlog, hsame⟩ := hhalted.effect c heffect
    right
    rw [hlog, hsame]
    exact ⟨hafter, hlawful, hdisk⟩

/-- A new coordinator takes the counter and the next retry from the checkpoint, or is
stopped for good. -/
theorem loaded_cases (current : Instant) (valid : Date → Bool) {disk : Option EodCheckpoint}
    (hfile : c.hasCheckpoint = true) (h : c.DiskCovers disk log) :
    c.Covers (c.loaded current valid disk).attempts (c.loaded current valid disk).nextRetry log ∨
      (c.loaded current valid disk).Dead := by
  cases disk with
  | none => exact Or.inl h
  | some body =>
      simp only [loaded, hfile, if_true]
      unfold restore
      split
      · exact Or.inr ⟨rfl, rfl⟩
      · split
        · exact Or.inr ⟨rfl, rfl⟩
        · exact Or.inl h

theorem attemptsSafe_step (hfile : c.hasCheckpoint = true) (w : EodWorld) (input : EodInput)
    (h : c.AttemptsSafe w) : c.AttemptsSafe (c.step w input) := by
  rcases c.step_cases w input with ⟨middle, hfirst, hsecond⟩ | ⟨hcalendar, hstep⟩ |
    ⟨current, valid, rfl⟩
  · exact (h.effect hfile hfirst).effect hfile hsecond
  · rw [hstep]
    rcases h with hkept | ⟨hhalted, _, _⟩
    · have hfailed : c.AttemptsKept { w with memory := w.memory.calendarFailed } :=
        hkept.update le_rfl (Or.inl rfl)
      exact Or.inl (hfailed.saved hfile)
    · exact absurd (hhalted.dead.1.symm.trans (hcalendar.running c)) (by simp)
  · have hlawful : c.Lawful (.restarted :: w.log) := h.lawful.record (by simp)
    have hdisk : c.DiskCovers w.disk (.restarted :: w.log) := h.disk.record (by simp) (by simp)
    rcases loaded_cases current valid hfile hdisk with hcovers | hdead
    · exact Or.inl ⟨hlawful, fun hne => absurd rfl hne, hcovers, hdisk⟩
    · exact Or.inr ⟨⟨hdead, rfl⟩, hlawful, hdisk⟩

/-- A window without a reset starts nothing that has not been counted. -/
theorem countP_starts_le (target : Date) (older : List EodEvent) :
    ∀ window : List EodEvent, (∀ event ∈ window, event.resets = false) →
      window.countP (·.starts target) ≤ startsSinceReset (window ++ older)
  | [], _ => Nat.zero_le _
  | event :: rest, hwindow => by
      have hrest := countP_starts_le target older rest fun other hother =>
        hwindow other (List.mem_cons_of_mem _ hother)
      have hevent := hwindow event List.mem_cons_self
      rw [List.countP_cons]
      cases event with
      | started day current =>
          simp only [List.cons_append, startsSinceReset]
          split <;> omega
      | _ =>
          simp only [List.cons_append, startsSinceReset, hevent]
          simpa [EodEvent.starts] using hrest

end EodSettings

/-- The attempts of a day are counted again only when something else comes between. -/
def EodEvent.resetsFor (target : Date) : EodEvent → Bool
  | .retargeted day => day ≠ target
  | event => event.resets

def EodSettings.BoundedForDay (c : EodSettings) (w : EodWorld) : Prop :=
  ∀ target newer window older, w.log = newer ++ (window ++ older) →
    (∀ event ∈ window, event.resetsFor target = false) →
      window.countP (·.starts target) ≤ c.maximumAttempts

/-- A failure was recorded and since then nothing was started or counted again. -/
def FailedSinceReset (attemptNumber : ℕ) (failed : Instant) (log : List EodEvent) : Prop :=
  Since (fun past => ∃ older, past = .failureRecorded attemptNumber failed :: older)
    (fun event => event.resets = false ∧ ∀ target, event.starts target = false) log

/-- The delay is kept to the fraction of a microsecond, whatever a paused coordinator
was asked for. -/
def EodSettings.SpacedExactly (c : EodSettings) (w : EodWorld) : Prop :=
  Never (fun event past => ∃ target, ∃ current failed : Instant, ∃ attemptNumber,
    event = .started target current ∧ FailedSinceReset attemptNumber failed past ∧
      (current : ℚ) < failed +
        min c.retryMaxSeconds (c.retryBaseSeconds * 2 ^ (attemptNumber - 1)) * 1000000) w.log

/-- Two attempts with less than half a microsecond between them. -/
def hastySettings : EodSettings where
  isSession := sampleSettings.isSession
  previousSession := sampleSettings.previousSession
  localDate := sampleSettings.localDate
  localTime := sampleSettings.localTime
  closeTime := sampleSettings.closeTime
  retryBaseSeconds := 4 / 10000000
  retryBaseIsInt := false
  retryMaxSeconds := 4 / 10000000
  maximumAttempts := 2
  hasCheckpoint := true
  retryBase_nonneg := by norm_num
  retryBase_le_max := by norm_num
  maximumAttempts_pos := by norm_num

/-- A failure, a success at the same instant, and a restart after which the completed
day no longer passes its validation. -/
def retakenDay : List EodInput :=
  [.runDue 0 true, .refreshReturned (.otherError "TimeoutError"), .conclude 0 true,
    .recordFailure 0 true, .runDue 0 true, .refreshReturned .finished, .conclude 0 true,
    .restart 0 fun _ => false, .runDue 0 true]

theorem retakenDay_log :
    (retakenDay.foldl hastySettings.step EodWorld.initial).log =
      [.started (sampleDate 0) 0, .persisted [], .retargeted (sampleDate 0), .restarted,
        .completed (sampleDate 0), .persisted [sampleDate 0], .returned (sampleDate 0) true,
        .started (sampleDate 0) 0, .persisted [], .failureRecorded 1 0, .persisted [],
        .returned (sampleDate 0) false, .started (sampleDate 0) 0, .persisted [],
        .retargeted (sampleDate 0)] := by
  decide +kernel

/-- The calendar fails and the failure cannot be saved, which pauses the coordinator; a
request in the pause drops the retry time and a later calendar failure ends the pause. -/
def requestInPause : List EodInput :=
  [.runDue 0 true, .refreshReturned (.otherError "TimeoutError"), .conclude 0 true,
    .recordFailure 0 true, .runDue 1 false, .requestRefresh 31 true, .runDue 32 true,
    .runDue 62 true]

theorem requestInPause_log :
    (requestInPause.foldl sampleSettings.step EodWorld.initial).log =
      [.started (sampleDate 0) 62, .persisted [], .persisted [],
        .requested (sampleDate 0) true true, .persisted [], .failureRecorded 1 0,
        .persisted [], .returned (sampleDate 0) false, .started (sampleDate 0) 0,
        .persisted [], .retargeted (sampleDate 0)] := by
  decide +kernel

theorem requestInPause_hurries :
    ¬ sampleSettings.SpacedExactly (requestInPause.foldl sampleSettings.step .initial) := by
  intro h
  unfold EodSettings.SpacedExactly at h
  rw [requestInPause_log] at h
  refine h [] _ _ rfl ⟨_, _, 0, 1, rfl, ?_, ?_⟩
  · refine ⟨[.persisted [], .persisted [], .requested (sampleDate 0) true true,
      .persisted []], _, rfl, ⟨_, rfl⟩, ?_⟩
    simp [EodEvent.resets, EodEvent.starts]
  · norm_num [sampleSettings]

end QuantWorkbench.Runtime
