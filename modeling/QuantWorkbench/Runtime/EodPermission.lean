import QuantWorkbench.Runtime.EodSteps
import QuantWorkbench.Lib.EventLog
import QuantWorkbench.Lib.Runs

/-!
The pause after a denied permission. It is kept in the status and the error code,
which a later calendar failure overwrites; where no such failure is recorded and no
restart misses the pause, nothing is refreshed before the operator's review.
-/

namespace QuantWorkbench.Runtime

open QuantWorkbench.Lib QuantWorkbench.Lib.EventLog

/-- A refresh was denied and the operator has not reviewed it since. -/
def Denied (log : List EodEvent) : Prop :=
  Since (fun past => ∃ target older, past = .denied target :: older) (· ≠ .reviewed) log

/-- No refresh was started while one was denied and not reviewed. -/
def PauseRespected (w : EodWorld) : Prop :=
  Never (fun event past => ∃ target current, event = .started target current ∧ Denied past) w.log

theorem denied_cons_iff {event : EodEvent} {log : List EodEvent} :
    Denied (event :: log) ↔
      (∃ target, event = .denied target) ∨ (event ≠ .reviewed ∧ Denied log) := by
  unfold Denied
  rw [since_cons_iff]
  simp only [List.cons.injEq, exists_and_left, exists_eq', and_true]

namespace EodSettings

variable (c : EodSettings)

/-- The condition on one step: while a denied refresh waits for its review, no
calendar failure is recorded and every restart finds the pause in the checkpoint. -/
def KeepsPause (w : EodWorld) (input : EodInput) : Prop :=
  Denied w.log →
    ¬ c.RecordsCalendarFailure w input ∧
      ∀ current valid, input = .restart current valid →
        c.hasCheckpoint = true ∧ ∃ body, w.disk = some body ∧ body.status = .blocked ∧
          (body.errorCode = some "PERMISSION_DENIED" ∨
            body.errorCode = some "CHECKPOINT_WRITE_FAILED")

instance (w : EodWorld) : (input : EodInput) → Decidable (c.RecordsCalendarFailure w input)
  | .runDue _ _ => inferInstanceAs (Decidable (_ ∧ _))
  | .runInitial _ _ => inferInstanceAs (Decidable (_ ∧ _))
  | .runTarget _ _ _ => .isFalse id
  | .refreshReturned _ => .isFalse id
  | .conclude _ _ => .isFalse id
  | .recordFailure _ _ => .isFalse id
  | .requestRefresh _ _ => .isFalse id
  | .retryAfterReview _ _ => .isFalse id
  | .stop => .isFalse id
  | .start => .isFalse id
  | .restart _ _ => .isFalse id

/-- While a denied refresh waits for its review nothing runs and nothing may start. -/
structure PauseKept (w : EodWorld) : Prop where
  respected : PauseRespected w
  held : Denied w.log → w.run = none ∧ (w.memory.Paused ∨ w.memory.Dead)

theorem denied_saved_iff {w : EodWorld} : Denied (c.saved w).log ↔ Denied w.log := by
  rw [saved_log]
  unfold savedEvents
  split
  · rw [List.singleton_append, denied_cons_iff]
    simp
  · exact Iff.rfl

theorem denied_saved_with_iff {w : EodWorld} (m : EodMemory) :
    Denied (c.saved { w with memory := m }).log ↔ Denied w.log :=
  c.denied_saved_iff

theorem respected_saved {w : EodWorld} (h : PauseRespected w) : PauseRespected (c.saved w) := by
  unfold PauseRespected
  rw [saved_log]
  apply Never.append h
  intro event hevent past
  rw [c.mem_savedEvents hevent]
  simp

theorem respected_cons {w : EodWorld} {event : EodEvent} (h : PauseRespected w)
    (hevent : ∀ target current, event ≠ .started target current) :
    PauseRespected (w.record event) := by
  refine never_cons_iff.mpr ⟨?_, h⟩
  rintro ⟨target, current, heq, _⟩
  exact hevent target current heq

theorem retarget_respected {w : EodWorld} (target : Date) (h : PauseRespected w) :
    PauseRespected (retarget target w) := by
  unfold retarget
  split
  · exact h
  · exact respected_cons h (by simp)

theorem denied_retarget_iff {w : EodWorld} {target : Date} :
    Denied (retarget target w).log ↔ Denied w.log := by
  unfold retarget
  split
  · exact Iff.rfl
  · change Denied (_ :: w.log) ↔ _
    rw [denied_cons_iff]
    simp

theorem refused_of_kept {w : EodWorld} (h : PauseKept w) (hdenied : Denied w.log)
    (target : Date) : w.memory.Refused target := by
  rcases (h.held hdenied).2 with hpaused | hdead
  · exact Or.inr (Or.inr (Or.inl hpaused))
  · exact Or.inr (Or.inr (Or.inr hdead.1))

/-- A request keeps the pause it finds. -/
theorem paused_requested {m : EodMemory} (h : m.Paused) (target : Date) :
    (m.requested target).Paused := by
  refine ⟨?_, h.2⟩
  change (if m.Paused then m.status else EodStatus.pending) = .blocked
  rw [if_pos h]
  exact h.1

theorem pauseKept_effect {w after : EodWorld} (heffect : c.Effect w after)
    (h : PauseKept w) : PauseKept after := by
  have hidle : ∀ {run}, w.run = some run → ¬ Denied w.log := by
    intro run hrun hdenied
    rw [(h.held hdenied).1] at hrun
    cases hrun
  have hallow : ∀ {target}, ¬ w.memory.Refused target → ¬ Denied w.log :=
    fun hallowed hdenied => hallowed (refused_of_kept h hdenied _)
  cases heffect with
  | idle => exact h
  | calendarLost hrunning hfile =>
      exact ⟨h.respected, fun hdenied => ⟨(h.held hdenied).1, Or.inl ⟨rfl, Or.inr rfl⟩⟩⟩
  | begun target current hfree hallowed hready =>
      have hnot := hallow hallowed
      have hlog : ∀ m, Denied (c.saved { retarget target w with memory := m }).log ↔
          Denied w.log := fun m => c.denied_saved_iff.trans denied_retarget_iff
      constructor
      · refine never_cons_iff.mpr ⟨?_, c.respected_saved (retarget_respected target h.respected)⟩
        rintro ⟨_, _, _, hdenied⟩
        exact hnot ((hlog _).mp hdenied)
      · intro hdenied
        rcases denied_cons_iff.mp hdenied with ⟨_, heq⟩ | ⟨_, hdenied⟩
        · cases heq
        · exact absurd ((hlog _).mp hdenied) hnot
  | intentLost target current hfree hallowed hfile =>
      refine ⟨retarget_respected target h.respected, fun hdenied => ?_⟩
      exact absurd (denied_retarget_iff.mp hdenied) (hallow hallowed)
  | returned run outcome summary hrun hphase =>
      refine ⟨respected_cons h.respected (by simp), fun hdenied => ?_⟩
      rcases denied_cons_iff.mp hdenied with ⟨_, heq⟩ | ⟨_, hdenied⟩
      · cases heq
      · exact absurd hdenied (hidle hrun)
  | interrupted run hrun =>
      exact ⟨h.respected, fun hdenied => absurd hdenied (hidle hrun)⟩
  | noted run byResult errorCode noticeZh hrun hphase =>
      exact ⟨h.respected, fun hdenied => absurd hdenied (hidle hrun)⟩
  | denied run hrun hphase =>
      refine ⟨c.respected_saved (respected_cons h.respected (by simp)), fun _ => ⟨rfl, ?_⟩⟩
      rw [show ({ c.saved _ with run := none } : EodWorld).memory = _ from c.saved_memory _]
      exact Or.inl ⟨rfl, Or.inl rfl⟩
  | deniedLost run hrun hphase hfile =>
      exact ⟨respected_cons h.respected (by simp), fun _ => ⟨rfl, Or.inl ⟨rfl, Or.inr rfl⟩⟩⟩
  | completed run outcome current noticeZh hrun hphase hsucceeded hcurrent =>
      refine ⟨respected_cons (c.respected_saved h.respected) (by simp), fun hdenied => ?_⟩
      rcases denied_cons_iff.mp hdenied with ⟨_, heq⟩ | ⟨_, hdenied⟩
      · cases heq
      · exact absurd ((c.denied_saved_with_iff _).mp hdenied) (hidle hrun)
  | outdated run current noticeZh hrun hphase hcurrent =>
      exact ⟨c.respected_saved h.respected, fun hdenied =>
        absurd ((c.denied_saved_with_iff _).mp hdenied) (hidle hrun)⟩
  | successLost run current noticeZh hrun hphase hfile =>
      exact ⟨h.respected, fun hdenied => absurd hdenied (hidle hrun)⟩
  | dropped run hrun hphase hcurrent =>
      exact ⟨c.respected_saved h.respected, fun hdenied =>
        absurd ((c.denied_saved_with_iff _).mp hdenied) (hidle hrun)⟩
  | overflowed run byResult hrun hphase =>
      exact ⟨h.respected, fun hdenied => absurd hdenied (hidle hrun)⟩
  | failed run current hrun hphase hcurrent =>
      refine ⟨respected_cons (c.respected_saved h.respected) (by simp), fun hdenied => ?_⟩
      rcases denied_cons_iff.mp hdenied with ⟨_, heq⟩ | ⟨_, hdenied⟩
      · cases heq
      · exact absurd ((c.denied_saved_with_iff _).mp hdenied) (hidle hrun)
  | failureLost run m hrun hphase hfile hm =>
      exact ⟨h.respected, fun hdenied => absurd hdenied (hidle hrun)⟩
  | requested target haccepted =>
      refine ⟨respected_cons (c.respected_saved h.respected) (by simp), fun hdenied => ?_⟩
      rcases denied_cons_iff.mp hdenied with ⟨_, heq⟩ | ⟨_, hdenied⟩
      · cases heq
      · have hbefore : Denied w.log := (c.denied_saved_with_iff _).mp hdenied
        obtain ⟨hrun, hheld⟩ := h.held hbefore
        refine ⟨(c.saved_run _).trans hrun, ?_⟩
        change (c.saved { w with memory := w.memory.requested target }).memory.Paused ∨ _
        rw [saved_memory]
        rcases hheld with hpaused | hdead
        · exact Or.inl (paused_requested hpaused target)
        · exact absurd hdead.2 haccepted
  | requestLost target haccepted hfile =>
      refine ⟨respected_cons h.respected (by simp), fun hdenied => ?_⟩
      rcases denied_cons_iff.mp hdenied with ⟨_, heq⟩ | ⟨_, hdenied⟩
      · cases heq
      · obtain ⟨hrun, hheld⟩ := h.held hdenied
        refine ⟨hrun, ?_⟩
        rcases hheld with hpaused | hdead
        · exact Or.inl (paused_requested hpaused target)
        · exact absurd hdead.2 haccepted
  | reviewed haccepted hrunning hfree =>
      refine ⟨respected_cons h.respected (by simp), fun hdenied => ?_⟩
      rcases denied_cons_iff.mp hdenied with ⟨_, heq⟩ | ⟨hne, _⟩
      · cases heq
      · exact absurd rfl hne
  | stopped =>
      refine ⟨h.respected, fun hdenied => ⟨(h.held hdenied).1, ?_⟩⟩
      rcases (h.held hdenied).2 with hpaused | hdead
      · exact Or.inl hpaused
      · exact Or.inr ⟨rfl, hdead.2⟩
  | started =>
      refine ⟨h.respected, fun hdenied => ⟨(h.held hdenied).1, ?_⟩⟩
      rcases (h.held hdenied).2 with hpaused | hdead
      · exact Or.inl hpaused
      · exact Or.inr ⟨by simp [start, hdead.2], hdead.2⟩

theorem paused_loaded {current : Instant} {valid : Date → Bool} {body : EodCheckpoint}
    (hfile : c.hasCheckpoint = true) (hstatus : body.status = .blocked)
    (hcode : body.errorCode = some "PERMISSION_DENIED" ∨
      body.errorCode = some "CHECKPOINT_WRITE_FAILED") :
    (c.loaded current valid (some body)).Paused ∨ (c.loaded current valid (some body)).Dead := by
  simp only [loaded, hfile, if_true]
  unfold restore
  split
  · exact Or.inr ⟨rfl, rfl⟩
  · split
    · exact Or.inr ⟨rfl, rfl⟩
    · left
      refine ⟨?_, hcode⟩
      simp only
      rw [if_neg (by rw [hstatus]; simp)]
      exact hstatus

theorem pauseKept_step {w : EodWorld} {input : EodInput} (h : PauseKept w)
    (hkeeps : c.KeepsPause w input) : PauseKept (c.step w input) := by
  rcases c.step_cases w input with ⟨middle, hfirst, hsecond⟩ | ⟨hcalendar, hstep⟩ |
    ⟨current, valid, rfl⟩
  · exact c.pauseKept_effect hsecond (c.pauseKept_effect hfirst h)
  · rw [hstep]
    refine ⟨c.respected_saved h.respected, fun hdenied => ?_⟩
    exact absurd hcalendar (hkeeps ((c.denied_saved_with_iff _).mp hdenied)).1
  · refine ⟨respected_cons h.respected (by simp), fun hdenied => ⟨rfl, ?_⟩⟩
    rcases denied_cons_iff.mp hdenied with ⟨_, heq⟩ | ⟨_, hdenied⟩
    · cases heq
    · obtain ⟨hfile, body, hdisk, hstatus, hcode⟩ := (hkeeps hdenied).2 current valid rfl
      change (c.loaded current valid w.disk).Paused ∨ (c.loaded current valid w.disk).Dead
      rw [hdisk]
      exact c.paused_loaded hfile hstatus hcode

end EodSettings

/-- The second day has no calendar, so the coordinator forgets that the first was
denied and refreshes the third. -/
def deniedThenNoCalendar : List EodInput :=
  [.runDue 0 true, .refreshReturned .permissionError, .conclude 0 true, .runDue 1 true,
    .runDue 2 true]

theorem deniedThenNoCalendar_log :
    (deniedThenNoCalendar.foldl sampleSettings.step EodWorld.initial).log =
      [.started (sampleDate 2) 2, .persisted [], .retargeted (sampleDate 2), .persisted [],
        .persisted [], .denied (sampleDate 0), .returned (sampleDate 0) false,
        .started (sampleDate 0) 0, .persisted [], .retargeted (sampleDate 0)] := by
  decide +kernel

/-- A denied refresh, a restart two days later and the review. -/
def deniedThenRestarted : List EodInput :=
  [.runDue 0 true, .refreshReturned .permissionError, .conclude 0 true,
    .restart 2 fun _ => true, .runDue 2 true, .retryAfterReview 2 true, .runDue 2 true]

end QuantWorkbench.Runtime
