import QuantWorkbench.Runtime.EodSteps
import QuantWorkbench.Lib.EventLog
import QuantWorkbench.Lib.Runs

/-!
What stands behind a completed day. The revision counter tells a run whether
anything was requested since it began, and the checkpoint holds only days that were
completed when it was written.
-/

namespace QuantWorkbench.Runtime

open QuantWorkbench.Lib QuantWorkbench.Lib.EventLog

def EodEvent.Quiet (event : EodEvent) : Prop :=
  (∀ target paused saved, event ≠ .requested target paused saved) ∧ event ≠ .restarted ∧
    ∀ target current, event ≠ .started target current

/-- A refresh of the target is in progress and nothing was requested since it began. -/
def Begun (target : Date) (log : List EodEvent) : Prop :=
  Since (fun past => ∃ current older, past = .started target current :: older) EodEvent.Quiet log

/-- The refresh has returned and still nothing was requested since it began. -/
def Answered (target : Date) (success : Bool) (log : List EodEvent) : Prop :=
  Since (fun past => ∃ older, past = .returned target success :: older ∧ Begun target older)
    EodEvent.Quiet log

/-- The day was completed by a refresh that returned success, with no request between
its start and its completion, and no saved request took the day back since. -/
def Backed (day : Date) (log : List EodEvent) : Prop :=
  Since (fun past => ∃ older, past = .completed day :: older ∧ Answered day true older)
    (fun event => ∀ paused, event ≠ .requested day paused true) log

/-- The completed days when the checkpoint was last written. -/
def lastPersisted : List EodEvent → List Date
  | [] => []
  | .persisted completed :: _ => completed
  | _ :: older => lastPersisted older

/-- What the log says about the run in progress. -/
def EodRun.Genuine (run : EodRun) (log : List EodEvent) : Prop :=
  match run.phase with
  | .calling => Begun run.target log
  | .returned outcome => Answered run.target outcome.succeeded log
  | .failed _ => True

theorem EodRun.Genuine.record {run : EodRun} {log : List EodEvent} {event : EodEvent}
    (h : run.Genuine log) (hevent : event.Quiet) : run.Genuine (event :: log) := by
  unfold EodRun.Genuine at h ⊢
  cases hphase : run.phase with
  | calling =>
      rw [hphase] at h
      exact Since.record h hevent
  | returned outcome =>
      rw [hphase] at h
      exact Since.record h hevent
  | failed byResult => trivial

theorem quiet_persisted (completed : List Date) : EodEvent.Quiet (.persisted completed) :=
  ⟨by simp, by simp, by simp⟩

theorem mem_succeeded {m : EodMemory} {run : EodRun} {current : Instant}
    {noticeZh : Text} {day : Date} (h : day ∈ (m.succeeded run current noticeZh).completed) :
    day = run.target ∧ run.revision = m.requestRevision ∨ day ∈ m.completed := by
  change day ∈ (if run.revision = m.requestRevision then m.completed.insert run.target
    else m.completed) at h
  split at h
  · rename_i hcurrent
    rcases List.mem_insert_iff.mp h with rfl | h
    · exact Or.inl ⟨rfl, hcurrent⟩
    · exact Or.inr h
  · exact Or.inr h

namespace EodSettings

variable (c : EodSettings)

/-- Every completed day, in memory or in the checkpoint, is backed, the checkpoint
has no day that was not completed when it was written, and a run whose revision is
current has seen no request. -/
structure CompletionKept (w : EodWorld) : Prop where
  memory : ∀ day ∈ w.memory.completed, Backed day w.log
  disk : c.hasCheckpoint = true → ∀ body ∈ w.disk, ∀ day ∈ body.completed,
    Backed day w.log ∧ day ∈ lastPersisted w.log
  run : ∀ run ∈ w.run, run.revision ≤ w.memory.requestRevision ∧
    (run.revision = w.memory.requestRevision → run.Genuine w.log)

variable {c} {w : EodWorld}

theorem CompletionKept.update (h : c.CompletionKept w) {m : EodMemory}
    (hcompleted : ∀ day ∈ m.completed, day ∈ w.memory.completed)
    (hrevision : m.requestRevision = w.memory.requestRevision) :
    c.CompletionKept { w with memory := m } where
  memory := fun day hday => h.memory day (hcompleted day hday)
  disk := h.disk
  run := by
    intro run hrun
    rw [show (_ : EodWorld).memory.requestRevision = _ from hrevision]
    exact h.run run hrun

theorem CompletionKept.finish (h : c.CompletionKept w) :
    c.CompletionKept { w with run := none } where
  memory := h.memory
  disk := h.disk
  run := fun _ hrun => nomatch hrun

/-- An event that is neither a saved request nor a write keeps the completed days. -/
theorem CompletionKept.record_days (h : c.CompletionKept w) (event : EodEvent)
    (hrequest : ∀ day paused, event ≠ .requested day paused true)
    (hwrite : ∀ completed, event ≠ .persisted completed) :
    (∀ day ∈ w.memory.completed, Backed day (event :: w.log)) ∧
      (c.hasCheckpoint = true → ∀ body ∈ w.disk, ∀ day ∈ body.completed,
        Backed day (event :: w.log) ∧ day ∈ lastPersisted (event :: w.log)) := by
  refine ⟨fun day hday => Since.record (h.memory day hday) (hrequest day), ?_⟩
  intro hfile body hbody day hday
  obtain ⟨hbacked, hlast⟩ := h.disk hfile body hbody day hday
  refine ⟨Since.record hbacked (hrequest day), ?_⟩
  cases event with
  | persisted completed => exact absurd rfl (hwrite completed)
  | _ => exact hlast

theorem CompletionKept.record (h : c.CompletionKept w) {event : EodEvent}
    (hquiet : event.Quiet) (hwrite : ∀ completed, event ≠ .persisted completed) :
    c.CompletionKept (w.record event) := by
  obtain ⟨hmemory, hdisk⟩ := h.record_days event (fun day paused => hquiet.1 day paused true) hwrite
  refine ⟨hmemory, hdisk, fun run hrun => ?_⟩
  obtain ⟨hrevision, hgenuine⟩ := h.run run hrun
  exact ⟨hrevision, fun hcurrent => (hgenuine hcurrent).record hquiet⟩

theorem CompletionKept.begin (h : c.CompletionKept w) (current : Instant) {run : EodRun}
    (hphase : run.phase = .calling) (hrevision : run.revision = w.memory.requestRevision) :
    c.CompletionKept (({ w with run := some run } : EodWorld).record
      (.started run.target current)) := by
  obtain ⟨hmemory, hdisk⟩ := h.record_days (.started run.target current)
    (by simp) (by simp)
  refine ⟨hmemory, hdisk, ?_⟩
  rintro _ ⟨⟩
  refine ⟨le_of_eq hrevision, fun _ => ?_⟩
  unfold EodRun.Genuine
  rw [hphase]
  exact .now ⟨current, w.log, rfl⟩

theorem CompletionKept.note (h : c.CompletionKept w) {run : EodRun} (hrun : w.run = some run)
    (byResult : Bool) :
    c.CompletionKept { w with run := some { run with phase := .failed byResult } } where
  memory := h.memory
  disk := h.disk
  run := by
    rintro _ ⟨⟩
    exact ⟨(h.run run hrun).1, fun _ => trivial⟩

theorem mem_recentDays {day : Date} {completed : List Date} (h : day ∈ recentDays completed) :
    day ∈ completed := by
  have hsorted := List.mem_of_mem_drop h
  exact (List.mem_insertionSort (· ≤ ·)).mp hsorted

theorem backed_saved {day : Date} (h : Backed day w.log) : Backed day (c.saved w).log := by
  rw [saved_log]
  apply Since.append h
  intro event hevent paused
  rw [c.mem_savedEvents hevent]
  simp

theorem mem_disk_saved (hfile : c.hasCheckpoint = true) :
    ∀ body ∈ (c.saved w).disk, ∀ day ∈ body.completed,
      day ∈ w.memory.completed ∧ day ∈ lastPersisted (c.saved w).log := by
  intro body hbody day hday
  rw [saved_disk, if_pos hfile] at hbody
  cases hbody
  have hcompleted := mem_recentDays hday
  refine ⟨hcompleted, ?_⟩
  rw [saved_log]
  unfold savedEvents
  rw [if_pos hfile]
  exact hcompleted

theorem CompletionKept.saved (h : c.CompletionKept w) : c.CompletionKept (c.saved w) where
  memory := by
    intro day hday
    rw [saved_memory] at hday
    exact backed_saved (h.memory day hday)
  disk := by
    intro hfile body hbody day hday
    obtain ⟨hcompleted, hlast⟩ := mem_disk_saved hfile body hbody day hday
    exact ⟨backed_saved (h.memory day hcompleted), hlast⟩
  run := by
    intro run hrun
    rw [saved_run] at hrun
    rw [saved_memory, saved_log]
    refine ⟨(h.run run hrun).1, fun hcurrent => ?_⟩
    have hgenuine := (h.run run hrun).2 hcurrent
    unfold savedEvents
    split
    · exact hgenuine.record (quiet_persisted _)
    · exact hgenuine

theorem CompletionKept.retarget (h : c.CompletionKept w) (target : Date) :
    c.CompletionKept (EodSettings.retarget target w) := by
  unfold EodSettings.retarget
  split
  · exact h
  · have hupdated : c.CompletionKept { w with memory := w.memory.retargeted target } :=
      h.update (fun _ hday => hday) rfl
    exact hupdated.record ⟨by simp, by simp, by simp⟩ (by simp)

theorem CompletionKept.writeFailure (h : c.CompletionKept w) (target : Date) :
    c.CompletionKept (EodSettings.writeFailure target w) := by
  have hupdated : c.CompletionKept { w with memory := w.memory.writeFailed target } :=
    h.update (fun _ hday => List.mem_of_mem_filter hday) rfl
  exact hupdated.finish

theorem completionKept_of_answered {target : Date} (hanswered : Answered target true w.log)
    (hmemory : ∀ day ∈ w.memory.completed, day = target ∨ Backed day w.log)
    (hdisk : c.hasCheckpoint = true → ∀ body ∈ w.disk, ∀ day ∈ body.completed,
      day ∈ w.memory.completed ∧ day ∈ lastPersisted w.log) :
    c.CompletionKept (({ w with run := none } : EodWorld).record (.completed target)) := by
  have hbacked : ∀ day ∈ w.memory.completed, Backed day (.completed target :: w.log) := by
    intro day hday
    rcases hmemory day hday with rfl | hold
    · exact .now ⟨w.log, rfl, hanswered⟩
    · exact Since.record hold (by simp)
  refine ⟨hbacked, ?_, fun _ hnone => nomatch hnone⟩
  intro hfile body hbody day hday
  obtain ⟨hcompleted, hlast⟩ := hdisk hfile body hbody day hday
  exact ⟨hbacked day hcompleted, hlast⟩

theorem CompletionKept.completed (h : c.CompletionKept w) {run : EodRun}
    {outcome : RefreshOutcome} (current : Instant) (noticeZh : Text) (hrun : w.run = some run)
    (hphase : run.phase = .returned outcome) (hsucceeded : outcome.succeeded = true)
    (hcurrent : run.revision = w.memory.requestRevision) :
    c.CompletionKept
      (({ c.saved { w with memory := w.memory.succeeded run current noticeZh } with
          run := none }).record (.completed run.target)) := by
  have hgenuine := (h.run run hrun).2 hcurrent
  unfold EodRun.Genuine at hgenuine
  rw [hphase] at hgenuine
  change Answered run.target outcome.succeeded w.log at hgenuine
  rw [hsucceeded] at hgenuine
  apply completionKept_of_answered
  · rw [saved_log]
    apply Since.append hgenuine
    intro event hevent
    rw [c.mem_savedEvents hevent]
    exact quiet_persisted _
  · intro day hday
    rw [saved_memory] at hday
    rcases mem_succeeded hday with ⟨hday, _⟩ | hold
    · exact Or.inl hday
    · exact Or.inr (backed_saved (h.memory day hold))
  · intro hfile body hbody day hday
    rw [saved_memory]
    exact mem_disk_saved hfile body hbody day hday

/-- A saved request leaves its target uncompleted and every run in progress behind. -/
theorem completionKept_of_requested {target : Date} {paused saved : Bool}
    (hmemory : ∀ day ∈ w.memory.completed, (saved = true → day ≠ target) ∧ Backed day w.log)
    (hdisk : c.hasCheckpoint = true → ∀ body ∈ w.disk, ∀ day ∈ body.completed,
      (saved = true → day ≠ target) ∧ Backed day w.log ∧ day ∈ lastPersisted w.log)
    (hrun : ∀ run ∈ w.run, run.revision < w.memory.requestRevision) :
    c.CompletionKept (w.record (.requested target paused saved)) := by
  have hother : ∀ {day : Date}, (saved = true → day ≠ target) → ∀ other,
      EodEvent.requested target paused saved ≠ .requested day other true := by
    rintro day hne other ⟨⟩
    exact hne rfl rfl
  constructor
  · intro day hday
    obtain ⟨hne, hbacked⟩ := hmemory day hday
    exact Since.record hbacked (hother hne)
  · intro hfile body hbody day hday
    obtain ⟨hne, hbacked, hlast⟩ := hdisk hfile body hbody day hday
    exact ⟨Since.record hbacked (hother hne), hlast⟩
  · intro run hmem
    have hlt : run.revision < w.memory.requestRevision := hrun run hmem
    exact ⟨le_of_lt hlt, fun hcurrent => absurd hcurrent (ne_of_lt hlt)⟩

theorem CompletionKept.requested (h : c.CompletionKept w) (target : Date) :
    c.CompletionKept ((c.saved { w with memory := w.memory.requested target }).record
      (.requested target w.memory.Paused true)) := by
  have hdays : ∀ day ∈ (w.memory.requested target).completed,
      day ≠ target ∧ Backed day w.log := by
    intro day hday
    obtain ⟨hold, hne⟩ := List.mem_filter.mp hday
    exact ⟨of_decide_eq_true hne, h.memory day hold⟩
  apply completionKept_of_requested
  · intro day hday
    rw [saved_memory] at hday
    obtain ⟨hne, hbacked⟩ := hdays day hday
    exact ⟨fun _ => hne, backed_saved hbacked⟩
  · intro hfile body hbody day hday
    obtain ⟨hcompleted, hlast⟩ := mem_disk_saved hfile body hbody day hday
    obtain ⟨hne, hbacked⟩ := hdays day hcompleted
    exact ⟨fun _ => hne, backed_saved hbacked, hlast⟩
  · intro run hrun
    rw [saved_run] at hrun
    rw [saved_memory]
    exact Nat.lt_succ_of_le (h.run run hrun).1

theorem CompletionKept.requestLost (h : c.CompletionKept w) (target : Date) :
    c.CompletionKept (({ w with memory := w.memory.requested target } : EodWorld).record
      (.requested target w.memory.Paused false)) := by
  apply completionKept_of_requested
  · intro day hday
    exact ⟨by simp, h.memory day (List.mem_of_mem_filter hday)⟩
  · intro hfile body hbody day hday
    exact ⟨by simp, h.disk hfile body hbody day hday⟩
  · intro run hrun
    exact Nat.lt_succ_of_le (h.run run hrun).1

/-- The callback returns to a run that is in progress. -/
theorem CompletionKept.returned (h : c.CompletionKept w) {run : EodRun}
    (outcome : RefreshOutcome) (summary : Option Text) (hrun : w.run = some run)
    (hphase : run.phase = .calling) :
    c.CompletionKept (({ w with
      memory := { w.memory with inputSummary := summary }
      run := some { run with phase := .returned outcome } } : EodWorld).record
        (.returned run.target outcome.succeeded)) := by
  obtain ⟨hmemory, hdisk⟩ := h.record_days (.returned run.target outcome.succeeded)
    (by simp) (by simp)
  refine ⟨hmemory, hdisk, ?_⟩
  rintro _ ⟨⟩
  obtain ⟨hrevision, hgenuine⟩ := h.run run hrun
  refine ⟨hrevision, fun hcurrent => ?_⟩
  have hbegun := hgenuine hcurrent
  unfold EodRun.Genuine at hbegun
  rw [hphase] at hbegun
  exact .now ⟨w.log, rfl, hbegun⟩

theorem CompletionKept.effect {after : EodWorld} (h : c.CompletionKept w)
    (heffect : c.Effect w after) : c.CompletionKept after := by
  have hquiet : ∀ {m : EodMemory}, m.completed = w.memory.completed →
      m.requestRevision = w.memory.requestRevision → c.CompletionKept { w with memory := m } := by
    intro m hcompleted hrevision
    exact h.update (fun day hday => hcompleted ▸ hday) hrevision
  cases heffect with
  | idle => exact h
  | calendarLost hrunning hfile => exact hquiet rfl rfl
  | begun target current hfree hallowed hready =>
      have hretargeted := h.retarget target
      have hintended : c.CompletionKept { EodSettings.retarget target w with
          memory := (EodSettings.retarget target w).memory.intended target current } :=
        hretargeted.update (fun _ hday => hday) rfl
      have hrevision : (EodSettings.retarget target w).memory.requestRevision = (c.saved
          { EodSettings.retarget target w with memory :=
            (EodSettings.retarget target w).memory.intended target current
          }).memory.requestRevision := by
        rw [saved_memory]
        rfl
      exact hintended.saved.begin current rfl hrevision
  | intentLost target current hfree hallowed hfile =>
      have hintended : c.CompletionKept { EodSettings.retarget target w with
          memory := (EodSettings.retarget target w).memory.intended target current } :=
        (h.retarget target).update (fun _ hday => hday) rfl
      exact hintended.writeFailure target
  | returned run outcome summary hrun hphase =>
      exact h.returned outcome summary hrun hphase
  | interrupted run hrun => exact h.finish
  | noted run byResult errorCode noticeZh hrun hphase =>
      have hnoted : c.CompletionKept { w with memory := w.memory.noted errorCode noticeZh } :=
        hquiet rfl rfl
      exact hnoted.note hrun byResult
  | denied run hrun hphase =>
      have hdenied : c.CompletionKept { w with memory := w.memory.denied run.target } :=
        hquiet rfl rfl
      exact (hdenied.record ⟨by simp, by simp, by simp⟩ (by simp)).saved.finish
  | deniedLost run hrun hphase hfile =>
      have hdenied : c.CompletionKept { w with memory := w.memory.denied run.target } :=
        hquiet rfl rfl
      exact (hdenied.record ⟨by simp, by simp, by simp⟩ (by simp)).writeFailure run.target
  | completed run outcome current noticeZh hrun hphase hsucceeded hcurrent =>
      exact h.completed current noticeZh hrun hphase hsucceeded hcurrent
  | outdated run current noticeZh hrun hphase hcurrent =>
      have hsucceeded : c.CompletionKept { w with
          memory := w.memory.succeeded run current noticeZh } := by
        apply h.update
        · intro day hday
          rcases mem_succeeded hday with ⟨_, hsame⟩ | hold
          · exact absurd hsame hcurrent
          · exact hold
        · rfl
      exact hsucceeded.saved.finish
  | successLost run current noticeZh hrun hphase hfile =>
      have hlost : c.CompletionKept { w with
          memory := (w.memory.succeeded run current noticeZh).writeFailed run.target } := by
        apply h.update
        · intro day hday
          obtain ⟨hsucceeded, hne⟩ := List.mem_filter.mp hday
          rcases mem_succeeded hsucceeded with ⟨rfl, _⟩ | hold
          · simp at hne
          · exact hold
        · rfl
      exact hlost.finish
  | dropped run hrun hphase hcurrent =>
      have hpending : c.CompletionKept { w with
          memory := { w.memory with status := .pending } } := hquiet rfl rfl
      exact hpending.saved.finish
  | overflowed run byResult hrun hphase =>
      have hupdated : c.CompletionKept { w with memory := (c.overflow byResult w).memory } := by
        cases byResult with
        | false => exact hquiet rfl rfl
        | true => exact hquiet rfl rfl
      exact hupdated.finish
  | failed run current hrun hphase hcurrent =>
      have hfailed : c.CompletionKept { w with memory := c.failedMemory run current w.memory } :=
        hquiet rfl rfl
      exact hfailed.saved.finish.record ⟨by simp, by simp, by simp⟩ (by simp)
  | failureLost run m hrun hphase hfile hm =>
      have hfailed : c.CompletionKept { w with memory := m } := by
        rw [hm]
        exact hquiet rfl rfl
      exact hfailed.writeFailure run.target
  | requested target haccepted => exact h.requested target
  | requestLost target haccepted hfile => exact h.requestLost target
  | reviewed haccepted hrunning hfree =>
      have hreviewed : c.CompletionKept { w with memory := w.memory.reviewed } := hquiet rfl rfl
      exact hreviewed.record ⟨by simp, by simp, by simp⟩ (by simp)
  | stopped => exact hquiet rfl rfl
  | started => exact hquiet rfl rfl

variable (c)

/-- A new coordinator takes its completed days from the checkpoint. -/
theorem mem_loaded {current : Instant} {valid : Date → Bool} {disk : Option EodCheckpoint}
    {day : Date} (h : day ∈ (c.loaded current valid disk).completed) :
    c.hasCheckpoint = true ∧ ∃ body ∈ disk, day ∈ body.completed := by
  unfold loaded at h
  split at h
  · rename_i body
    split at h
    · rename_i hfile
      refine ⟨hfile, body, rfl, ?_⟩
      unfold restore at h
      split at h
      · exact absurd h List.not_mem_nil
      · split at h
        · exact List.mem_of_mem_filter h
        · exact List.mem_of_mem_filter h
    · exact absurd h List.not_mem_nil
  · exact absurd h List.not_mem_nil

theorem completionKept_step (w : EodWorld) (input : EodInput) (h : c.CompletionKept w) :
    c.CompletionKept (c.step w input) := by
  rcases c.step_cases w input with ⟨middle, hfirst, hsecond⟩ | ⟨_, hstep⟩ | ⟨current, valid, rfl⟩
  · exact (h.effect hfirst).effect hsecond
  · rw [hstep]
    have hfailed : c.CompletionKept { w with memory := w.memory.calendarFailed } :=
      h.update (fun _ hday => hday) rfl
    exact hfailed.saved
  · obtain ⟨_, hdisk⟩ := h.record_days .restarted (by simp) (by simp)
    refine ⟨?_, hdisk, fun _ hnone => nomatch hnone⟩
    intro day hday
    obtain ⟨hfile, body, hbody, hcompleted⟩ := c.mem_loaded hday
    exact (hdisk hfile body hbody day hcompleted).1

/-- What a restart would read back was completed when the checkpoint was last
written. -/
def RestoresOnlyPersisted (w : EodWorld) : Prop :=
  ∀ current valid, ∀ day ∈ (c.restart current valid w).memory.completed,
    day ∈ lastPersisted w.log

end EodSettings

end QuantWorkbench.Runtime
