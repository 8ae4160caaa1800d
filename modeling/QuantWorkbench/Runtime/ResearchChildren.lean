import QuantWorkbench.Runtime.ResearchCycles
import QuantWorkbench.Lib.EventLog

/-!
Which children run at one time. The supervisor takes the class of a running child from
the record of its job, so the exclusion depends on what may be done to that record.
-/

namespace QuantWorkbench.Runtime

open QuantWorkbench.Lib QuantWorkbench.Lib.EventLog ResearchSupervisor

/-- At most one child of a class runs, by the command it was launched with. -/
def OneRunning (s : ResearchSupervisor) : Prop :=
  ∀ child ∈ s.children.values, ∀ other ∈ s.children.values,
    child.running = true → other.running = true →
      child.command.resourceClass = other.command.resourceClass → child = other

def ChildrenRecorded (s : ResearchSupervisor) : Prop :=
  ∀ child ∈ s.children.values, child.jobId ∈ s.jobs.keys

structure ChildrenKept (s : ResearchSupervisor) : Prop where
  recorded : ChildrenRecorded s
  one : OneRunning s

/-- What collecting the finished children leaves of the others and of their records. -/
structure CollectedFrom (before after : ResearchSupervisor) : Prop where
  children : ∀ child ∈ after.children.values, child ∈ before.children.values
  records : ∀ child ∈ after.children.values, ∀ job ∈ after.jobs.values,
    job.jobId = child.jobId → job ∈ before.jobs.values
  recorded : ChildrenRecorded before → ChildrenRecorded after
  accepting : after.accepting = before.accepting

theorem CollectedFrom.refl (s : ResearchSupervisor) : CollectedFrom s s :=
  ⟨fun _ hchild => hchild, fun _ _ _ hjob _ => hjob, id, rfl⟩

theorem CollectedFrom.trans {first second third : ResearchSupervisor}
    (h : CollectedFrom first second) (h' : CollectedFrom second third) :
    CollectedFrom first third where
  children := fun child hchild => h.children child (h'.children child hchild)
  records := by
    intro child hchild job hjob hid
    exact h.records child (h'.children child hchild) job (h'.records child hchild job hjob hid) hid
  recorded := h'.recorded ∘ h.recorded
  accepting := h'.accepting.trans h.accepting

variable {s : ResearchSupervisor}

theorem collectedFrom_collectChild (reports : Text → Option ChildStatus)
    (s : ResearchSupervisor) (child : ResearchChild) :
    CollectedFrom s (collectChild reports s child) := by
  unfold collectChild
  split
  · exact .refl s
  · split
    · exact .refl s
    · rename_i job hjob
      have hid : job.jobId = child.jobId := (Keyed.get?_eq_some_iff.mp hjob).2
      constructor
      · intro other hother
        exact (Keyed.mem_values_remove.mp hother).1
      · intro other hother record hrecord hsame
        obtain ⟨_, hne⟩ := Keyed.mem_values_remove.mp hother
        rcases Keyed.mem_values_put.mp hrecord with rfl | ⟨hrecord, _⟩
        · exact absurd (hsame.symm.trans hid) hne
        · exact hrecord
      · intro hrecorded other hother
        have hold := hrecorded other (Keyed.mem_values_remove.mp hother).1
        exact Keyed.mem_keys_put.mpr (Or.inr hold)
      · rfl

theorem collectedFrom_pruneTerminalHistory (s : ResearchSupervisor) :
    CollectedFrom s s.pruneTerminalHistory where
  children := fun _ hchild => hchild
  records := fun _ _ _ hjob _ => (Keyed.mem_values_filter.mp hjob).1
  recorded := by
    intro hrecorded child hchild
    obtain ⟨job, hjob, hid⟩ := Keyed.mem_keys.mp (hrecorded child hchild)
    have hkept : job.jobId ∉ s.removable := by
      intro hremovable
      have hhistory := List.mem_of_mem_take hremovable
      have hnone := (List.mem_filter.mp hhistory).2
      rw [decide_eq_true_eq] at hnone
      exact hnone.2 (hid ▸ Keyed.mem_keys.mpr ⟨child, hchild, rfl⟩)
    apply Keyed.mem_keys.mpr
    exact ⟨job, Keyed.mem_values_filter.mpr ⟨hjob, by simpa using hkept⟩, hid⟩
  accepting := rfl

theorem collectedFrom_collectFinishedChildren (reports : Text → Option ChildStatus)
    (s : ResearchSupervisor) : CollectedFrom s (s.collectFinishedChildren reports) := by
  unfold collectFinishedChildren
  refine CollectedFrom.trans ?_ (collectedFrom_pruneTerminalHistory _)
  generalize s.children.values = children
  induction children generalizing s with
  | nil => exact .refl s
  | cons child rest ih => exact (collectedFrom_collectChild reports s child).trans (ih _)

theorem CollectedFrom.kept {before after : ResearchSupervisor} (h : CollectedFrom before after)
    (hkept : ChildrenKept before) : ChildrenKept after where
  recorded := h.recorded hkept.recorded
  one := by
    intro child hchild other hother
    exact hkept.one child (h.children child hchild) other (h.children other hother)

theorem ResearchChild.running_of_exits {exits : Exits} {child : ResearchChild}
    (h : (child.exits exits).running = true) :
    child.running = true ∧ exits child.jobId = none := by
  unfold ResearchChild.running ResearchChild.exits at h
  cases hcode : child.exitCode with
  | none =>
      rw [hcode, Option.none_or, Option.isNone_iff_eq_none] at h
      exact ⟨by rw [ResearchChild.running, hcode]; rfl, h⟩
  | some code =>
      rw [hcode, Option.some_or] at h
      cases h

theorem ChildrenKept.childrenExit (h : ChildrenKept s) (exits : Exits) :
    ChildrenKept (s.childrenExit exits) where
  recorded := by
    intro child hchild
    obtain ⟨old, hold, rfl⟩ := mem_childrenExit.mp hchild
    exact h.recorded old hold
  one := by
    intro child hchild other hother hrunning hrunning' hclass
    obtain ⟨old, hold, rfl⟩ := mem_childrenExit.mp hchild
    obtain ⟨old', hold', rfl⟩ := mem_childrenExit.mp hother
    rw [h.one old hold old' hold' (ResearchChild.running_of_exits hrunning).1
      (ResearchChild.running_of_exits hrunning').1 hclass]

/-! ### Launching -/

/-- What the loop of `start_due_jobs` keeps when the classes it starts from are right. -/
structure LaunchSafe (pending : List ResearchJob) (state : Launching) : Prop where
  kept : ChildrenKept state.supervisor
  active : ∀ child ∈ state.supervisor.children.values, child.running = true →
    child.command.resourceClass ∈ state.active
  pending : ∀ job ∈ pending, job.jobId ∈ state.supervisor.jobs.keys

theorem LaunchSafe.startJob {pending : List ResearchJob} {state : Launching}
    {job : ResearchJob} (h : LaunchSafe (job :: pending) state) (networkEnabled : Bool)
    (current : UtcDateTime) (launchFails : Text → Bool) :
    LaunchSafe pending (startJob networkEnabled current launchFails state job) := by
  have hpending : ∀ other ∈ pending, other.jobId ∈ state.supervisor.jobs.keys :=
    fun other hother => h.pending other (List.mem_cons_of_mem _ hother)
  unfold ResearchSupervisor.startJob
  split
  · rename_i heligible
    obtain ⟨_, _, hchild, _, _, _, hclass⟩ := heligible
    split
    · refine ⟨⟨?_, h.kept.one⟩, h.active, ?_⟩
      · intro child hmem
        exact Keyed.mem_keys_put.mpr (Or.inr (h.kept.recorded child hmem))
      · intro other hother
        exact Keyed.mem_keys_put.mpr (Or.inr (hpending other hother))
    · refine ⟨⟨?_, ?_⟩, ?_, hpending⟩
      · intro child hmem
        rcases Keyed.mem_values_put.mp hmem with rfl | ⟨hmem, _⟩
        · exact h.pending job List.mem_cons_self
        · exact h.kept.recorded child hmem
      · intro child hmem other hother hrunning hrunning' hsame
        rcases Keyed.mem_values_put.mp hmem with rfl | ⟨hmem, _⟩
        · rcases Keyed.mem_values_put.mp hother with rfl | ⟨hother, _⟩
          · rfl
          · have hactive := h.active other hother hrunning'
            rw [← hsame] at hactive
            exact absurd hactive hclass
        · rcases Keyed.mem_values_put.mp hother with rfl | ⟨hother, _⟩
          · have hactive := h.active child hmem hrunning
            rw [hsame] at hactive
            exact absurd hactive hclass
          · exact h.kept.one child hmem other hother hrunning hrunning' hsame
      · intro child hmem hrunning
        rcases Keyed.mem_values_put.mp hmem with rfl | ⟨hmem, _⟩
        · exact List.mem_cons_self
        · exact List.mem_cons_of_mem _ (h.active child hmem hrunning)
  · exact ⟨h.kept, h.active, hpending⟩

def ClassesRecorded (s : ResearchSupervisor) : Prop :=
  ∀ child ∈ s.children.values, child.running = true →
    ∀ job ∈ s.jobs.values, job.jobId = child.jobId →
      job.resourceClass = child.command.resourceClass

theorem ChildrenKept.launchDue (h : ChildrenKept s) (hclasses : ClassesRecorded s)
    (networkEnabled : Bool) (current : UtcDateTime) (launchFails : Text → Bool) :
    ChildrenKept (s.launchDue networkEnabled current launchFails).supervisor := by
  have hloop : ∀ (pending : List ResearchJob) (state : Launching), LaunchSafe pending state →
      LaunchSafe [] (pending.foldl (ResearchSupervisor.startJob networkEnabled current
        launchFails) state) := by
    intro pending
    induction pending with
    | nil => exact fun _ hstate => hstate
    | cons job rest ih => exact fun _ hstate => ih _ (hstate.startJob networkEnabled current _)
  refine (hloop s.jobs.values ⟨s, s.activeClasses, []⟩ ⟨h, ?_, ?_⟩).kept
  · intro child hchild hrunning
    obtain ⟨job, hjob, hid⟩ := Keyed.mem_keys.mp (h.recorded child hchild)
    apply List.mem_filterMap.mpr
    refine ⟨child, List.mem_filter.mpr ⟨hchild, hrunning⟩, ?_⟩
    rw [Keyed.get?_eq_some_iff.mpr ⟨hjob, hid⟩, Option.map_some,
      hclasses child hchild hrunning job hjob hid]
  · intro job hjob
    exact Keyed.mem_keys.mpr ⟨job, hjob, rfl⟩

theorem launchDue_started (networkEnabled : Bool) (current : UtcDateTime)
    (launchFails : Text → Bool) (s : ResearchSupervisor) :
    ∀ job ∈ (s.launchDue networkEnabled current launchFails).started,
      job.resourceClass = .network → networkEnabled = true := by
  have hloop : ∀ (pending : List ResearchJob) (state : Launching),
      (∀ job ∈ state.started, job.resourceClass = .network → networkEnabled = true) →
      ∀ job ∈ (pending.foldl (ResearchSupervisor.startJob networkEnabled current launchFails)
        state).started, job.resourceClass = .network → networkEnabled = true := by
    intro pending
    induction pending with
    | nil => exact fun _ hstate => hstate
    | cons job rest ih =>
        intro state hstate
        apply ih
        unfold ResearchSupervisor.startJob
        split
        · rename_i heligible
          split
          · exact hstate
          · intro other hother
            rcases List.mem_cons.mp hother with rfl | hother
            · exact heligible.2.2.2.2.2.1
            · exact hstate other hother
        · exact hstate
  exact hloop _ _ fun _ hjob => absurd hjob List.not_mem_nil

/-! ### Registration -/

/-- What registering jobs keeps. -/
structure RegisteredFrom (before after : ResearchSupervisor) : Prop where
  children : after.children = before.children
  keys : ∀ jobId ∈ before.jobs.keys, jobId ∈ after.jobs.keys
  accepting : after.accepting = before.accepting

theorem RegisteredFrom.refl (s : ResearchSupervisor) : RegisteredFrom s s :=
  ⟨rfl, fun _ hmem => hmem, rfl⟩

theorem RegisteredFrom.trans {first second third : ResearchSupervisor}
    (h : RegisteredFrom first second) (h' : RegisteredFrom second third) :
    RegisteredFrom first third :=
  ⟨h'.children.trans h.children, fun jobId hmem => h'.keys jobId (h.keys jobId hmem),
    h'.accepting.trans h.accepting⟩

theorem registeredFrom_put (s : ResearchSupervisor) (job : ResearchJob) (jobId : Text) :
    RegisteredFrom s { s with
      jobs := s.jobs.put job
      terminalJobIds := s.terminalJobIds.erase jobId } :=
  ⟨rfl, fun _ hmem => Keyed.mem_keys_put.mpr (Or.inr hmem), rfl⟩

theorem RegisteredFrom.kept {before after : ResearchSupervisor} (h : RegisteredFrom before after)
    (hkept : ChildrenKept before) : ChildrenKept after := by
  constructor
  · intro child hchild
    rw [h.children] at hchild
    exact h.keys _ (hkept.recorded child hchild)
  · unfold OneRunning
    rw [h.children]
    exact hkept.one

theorem registeredFrom_registerCycles (current : UtcDateTime) (fingerprint : Option Text) :
    ∀ (cycles : List (Except String DueCycle)) (s : ResearchSupervisor),
      RegisteredFrom s (registerCycles current fingerprint cycles s).1
  | [], s => .refl s
  | .error _ :: _, s => .refl s
  | .ok cycle :: rest, s => by
      rw [ResearchSupervisor.registerCycles]
      split
      · exact .refl s
      · rename_i after registered hrun
        have hrest := registeredFrom_registerCycles current fingerprint rest after
        rcases registerCycle_cases hrun with rfl | ⟨_, rfl⟩
        · exact hrest
        · exact (registeredFrom_put s _ _).trans hrest

/-- A tick registers jobs and then prunes the map, unless it raises. -/
theorem registerDefaultJobs_cases (networkEnabled sessionCompleted dataRefreshed : Bool)
    (now : ClockTime) (dataFingerprint : Option Text) (outcomeCutoff : Option ClockTime)
    (s : ResearchSupervisor) : ∃ registered, RegisteredFrom s registered ∧
      CollectedFrom registered (s.registerDefaultJobs networkEnabled now sessionCompleted
        dataFingerprint dataRefreshed outcomeCutoff).1 := by
  unfold ResearchSupervisor.registerDefaultJobs
  split
  · exact ⟨s, .refl s, .refl s⟩
  · exact ⟨s, .refl s, .refl s⟩
  · rename_i current fingerprint _ _
    have hregistered := registeredFrom_registerCycles current fingerprint (dueCycles networkEnabled
      current sessionCompleted fingerprint dataRefreshed outcomeCutoff) s
    split
    · rename_i hrun
      rw [hrun] at hregistered
      exact ⟨_, hregistered, .refl _⟩
    · rename_i hrun
      rw [hrun] at hregistered
      exact ⟨_, hregistered, collectedFrom_pruneTerminalHistory _⟩

theorem registeredFrom_registerJob {jobId : Text} {command : List Text} {dueAt : ClockTime}
    {inputFingerprint stage artifactDigest completedArtifactDigest : Option Text}
    {nextEligibleAt nextEligible : Option ClockTime} {after : ResearchSupervisor}
    (h : s.registerJob jobId command dueAt inputFingerprint stage artifactDigest
      completedArtifactDigest nextEligibleAt nextEligible = .ok after) :
    RegisteredFrom s after := by
  unfold registerJob at h
  obtain ⟨_, _, h⟩ := bind_eq_ok_iff.mp h
  obtain ⟨normalized, _, h⟩ := bind_eq_ok_iff.mp h
  obtain ⟨due, _, h⟩ := bind_eq_ok_iff.mp h
  obtain ⟨_, _, h⟩ := bind_eq_ok_iff.mp h
  obtain ⟨fingerprint, _, h⟩ := bind_eq_ok_iff.mp h
  obtain ⟨_, _, h⟩ := bind_eq_ok_iff.mp h
  obtain ⟨digest, _, h⟩ := bind_eq_ok_iff.mp h
  obtain ⟨_, _, h⟩ := bind_eq_ok_iff.mp h
  obtain ⟨eligible, _, h⟩ := bind_eq_ok_iff.mp h
  cases h
  exact registeredFrom_put s _ _

/-! ### Runs -/

def Forbidden (networkEnabled : Bool) (event : ResearchEvent) (past : List ResearchEvent) : Prop :=
  ∃ jobId cycleKey command, event = .launched jobId cycleKey command ∧
    (.shutdown ∈ past ∨ (command.resourceClass = .network ∧ networkEnabled = false))

structure LaunchesKept (networkEnabled : Bool) (w : ResearchWorld) : Prop where
  closed : .shutdown ∈ w.log → w.supervisor.accepting = false
  allowed : Never (Forbidden networkEnabled) w.log

theorem shutdown_mem_started {started : List ResearchJob} {log : List ResearchEvent} :
    .shutdown ∈ started.map ResearchJob.launched ++ log ↔ .shutdown ∈ log := by
  rw [List.mem_append]
  refine ⟨fun h => h.elim ?_ id, Or.inr⟩
  intro hmem
  obtain ⟨job, _, hjob⟩ := List.mem_map.mp hmem
  cases hjob

theorem never_started {networkEnabled : Bool} {log : List ResearchEvent}
    (h : Never (Forbidden networkEnabled) log) (hopen : .shutdown ∉ log) :
    ∀ started : List ResearchJob,
      (∀ job ∈ started, job.resourceClass = .network → networkEnabled = true) →
      Never (Forbidden networkEnabled) (started.map ResearchJob.launched ++ log)
  | [], _ => h
  | job :: rest, hclass => by
      have hrest := never_started h hopen rest fun other hother =>
        hclass other (List.mem_cons_of_mem _ hother)
      refine never_cons_iff.mpr ⟨?_, hrest⟩
      rintro ⟨jobId, cycleKey, command, hevent, hforbidden⟩
      cases hevent
      rcases hforbidden with hshutdown | ⟨hnetwork, hdisabled⟩
      · exact hopen (shutdown_mem_started.mp hshutdown)
      · rw [hclass job List.mem_cons_self hnetwork] at hdisabled
        cases hdisabled

theorem launchesKept_step (networkEnabled : Bool) (w : ResearchWorld) (input : SupervisorInput)
    (h : LaunchesKept networkEnabled w) : LaunchesKept networkEnabled (w.step networkEnabled input) := by
  cases input with
  | lifecycle input =>
      cases input with
      | registerDefaultJobs now sessionCompleted dataFingerprint dataRefreshed outcomeCutoff =>
          obtain ⟨registered, hregistered, hpruned⟩ := registerDefaultJobs_cases networkEnabled
            sessionCompleted dataRefreshed now dataFingerprint outcomeCutoff w.supervisor
          refine ⟨fun hshutdown => ?_, h.allowed⟩
          exact (hpruned.accepting.trans hregistered.accepting).trans (h.closed hshutdown)
      | startDueJobs now reports saved lateExits launchFails =>
          simp only [ResearchWorld.step, ResearchWorld.lifecycle, ResearchWorld.startDueJobs]
          split
          · rename_i haccepting
            have hopen : .shutdown ∉ w.log := by
              intro hshutdown
              rw [h.closed hshutdown] at haccepting
              cases haccepting
            split
            · exact h
            · refine ⟨fun hshutdown => ?_, ?_⟩
              · exact absurd (shutdown_mem_started.mp hshutdown) hopen
              · exact never_started h.allowed hopen _ (launchDue_started _ _ _ _)
          · exact h
      | childrenExit exits => exact ⟨h.closed, h.allowed⟩
      | shutdown reports saved stops =>
          refine ⟨fun _ => ?_, ?_⟩
          · have hcollected := collectedFrom_collectFinishedChildren reports
              { w.supervisor with accepting := false }
            exact hcollected.accepting
          · refine never_cons_iff.mpr ⟨?_, h.allowed⟩
            rintro ⟨_, _, _, hevent, _⟩
            cases hevent
      | restart readable verified =>
          exact ⟨fun hshutdown => absurd hshutdown List.not_mem_nil, never_nil _⟩
  | registerJob jobId command dueAt inputFingerprint stage artifactDigest completedArtifactDigest
      nextEligibleAt nextEligible =>
      simp only [ResearchWorld.step]
      split
      · rename_i supervisor hregistered
        refine ⟨fun hshutdown => ?_, h.allowed⟩
        exact (registeredFrom_registerJob hregistered).accepting.trans (h.closed hshutdown)
      · exact h

/-- A start finds the records of the children that still run with commands of the classes
they were launched with. -/
def FindsClasses (w : ResearchWorld) : SupervisorInput → Prop
  | .lifecycle (.startDueJobs (.aware _) _ _ lateExits _) => w.supervisor.accepting = true →
      ∀ child ∈ w.supervisor.children.values, child.running = true →
        lateExits child.jobId = none → ∀ job ∈ w.supervisor.jobs.values,
          job.jobId = child.jobId → job.resourceClass = child.command.resourceClass
  | _ => True

theorem childrenKept_step (networkEnabled : Bool) (w : ResearchWorld) (input : SupervisorInput)
    (h : ChildrenKept w.supervisor) (hclasses : FindsClasses w input) :
    ChildrenKept (w.step networkEnabled input).supervisor := by
  cases input with
  | lifecycle input =>
      cases input with
      | registerDefaultJobs now sessionCompleted dataFingerprint dataRefreshed outcomeCutoff =>
          obtain ⟨registered, hregistered, hpruned⟩ := registerDefaultJobs_cases networkEnabled
            sessionCompleted dataRefreshed now dataFingerprint outcomeCutoff w.supervisor
          exact hpruned.kept (hregistered.kept h)
      | startDueJobs now reports saved lateExits launchFails =>
          simp only [ResearchWorld.step, ResearchWorld.lifecycle, ResearchWorld.startDueJobs]
          split
          · rename_i haccepting
            cases now with
            | naive => exact h
            | aware current =>
                have hcollected := collectedFrom_collectFinishedChildren reports w.supervisor
                apply ((hcollected.kept h).childrenExit lateExits).launchDue
                intro child hchild hrunning job hjob hid
                obtain ⟨old, hold, rfl⟩ := mem_childrenExit.mp hchild
                obtain ⟨hstill, hlate⟩ := ResearchChild.running_of_exits hrunning
                exact hclasses haccepting old (hcollected.children old hold) hstill hlate job
                  (hcollected.records old hold job hjob hid) hid
          · exact h
      | childrenExit exits => exact h.childrenExit exits
      | shutdown reports saved stops =>
          have hclosed : ChildrenKept { w.supervisor with accepting := false } :=
            ⟨h.recorded, h.one⟩
          have hcollected := collectedFrom_collectFinishedChildren reports
            { w.supervisor with accepting := false }
          exact (hcollected.kept hclosed).childrenExit stops
      | restart readable verified =>
          have hnone : (w.restart readable verified).supervisor.children = .empty := by
            unfold ResearchWorld.restart
            simp only
            split
            · split
              · rfl
              · rfl
            · rfl
          constructor
          · intro child hchild
            rw [ResearchWorld.step, ResearchWorld.lifecycle, hnone] at hchild
            cases hchild
          · intro child hchild
            rw [ResearchWorld.step, ResearchWorld.lifecycle, hnone] at hchild
            cases hchild
  | registerJob jobId command dueAt inputFingerprint stage artifactDigest completedArtifactDigest
      nextEligibleAt nextEligible =>
      simp only [ResearchWorld.step]
      split
      · rename_i supervisor hregistered
        exact (registeredFrom_registerJob hregistered).kept h
      · exact h

/-- No child is launched after the shutdown or without the network it needs, in any run;
and in every run whose starts find the running children's records with the classes they
were launched with, at most one child of a class runs at any time. -/
theorem always_oneRunning (networkEnabled : Bool) (inputs : List SupervisorInput) :
    Runs.Always (ResearchWorld.step networkEnabled)
        (fun w => Never (Forbidden networkEnabled) w.log) .initial inputs ∧
      (Runs.StepsMeet (ResearchWorld.step networkEnabled) FindsClasses .initial inputs →
        Runs.Always (ResearchWorld.step networkEnabled) (fun w => OneRunning w.supervisor)
          .initial inputs) := by
  constructor
  · have hinitial : LaunchesKept networkEnabled .initial :=
      ⟨fun hshutdown => absurd hshutdown List.not_mem_nil, never_nil _⟩
    have hkept := Runs.always_of_invariant (ResearchWorld.step networkEnabled)
      (LaunchesKept networkEnabled) (launchesKept_step networkEnabled) _ inputs hinitial
    apply hkept.imp
    exact fun w hw => hw.allowed
  · intro hmeet
    have hinitial : ChildrenKept ResearchWorld.initial.supervisor :=
      ⟨fun _ hchild => absurd hchild List.not_mem_nil, fun _ hchild =>
        absurd hchild List.not_mem_nil⟩
    have hkept := Runs.always_of_stepsMeet (ResearchWorld.step networkEnabled)
      (fun w => ChildrenKept w.supervisor)
      (fun w input hw hinput => childrenKept_step networkEnabled w input hw hinput) _ inputs
      hinitial hmeet
    apply hkept.imp
    exact fun w hw => hw.one

/-- A job that is due at once. -/
def registerNow (jobId verb : Text) : SupervisorInput :=
  .registerJob jobId ["research".toList, verb] (.aware sampleNoon) none none none none none none

def startNow : SupervisorInput :=
  .lifecycle (.startDueJobs (.aware sampleNoon) succeeded true (fun _ => none) fun _ => false)

def networkJobs : List SupervisorInput :=
  [registerNow "x".toList "history".toList, registerNow "y".toList "history".toList, startNow]

theorem networkJobs_oneRunning :
    Runs.Always (ResearchWorld.step true) (fun w => OneRunning w.supervisor) .initial
      networkJobs := by
  have hnone : (((ResearchWorld.initial.step true (registerNow "x".toList "history".toList)).step
      true (registerNow "y".toList "history".toList)).supervisor.children.values) = [] := by
    decide +kernel
  apply (always_oneRunning true networkJobs).2
  refine ⟨trivial, trivial, ?_, trivial⟩
  intro _ child hchild
  rw [hnone] at hchild
  cases hchild

/-- A network job is started, gets another command, and a second network job is started. -/
def rewrittenJob : List SupervisorInput :=
  [registerNow "x".toList "history".toList, startNow, registerNow "x".toList "screen".toList,
    registerNow "y".toList "history".toList, startNow]

theorem rewrittenJob_two_running :
    ¬ Runs.Always (ResearchWorld.step true) (fun w => OneRunning w.supervisor) .initial
      rewrittenJob := by
  intro halways
  have hchildren : (rewrittenJob.foldl (ResearchWorld.step true)
      .initial).supervisor.children.values =
        [⟨"x".toList, .history, none⟩, ⟨"y".toList, .history, none⟩] := by decide +kernel
  have hlast : OneRunning (rewrittenJob.foldl (ResearchWorld.step true) .initial).supervisor :=
    halways.last
  have hsame : (⟨"x".toList, .history, none⟩ : ResearchChild) = ⟨"y".toList, .history, none⟩ := by
    apply hlast
    · rw [hchildren]
      exact List.mem_cons_self
    · rw [hchildren]
      exact List.mem_cons_of_mem _ List.mem_cons_self
    · rfl
    · rfl
    · rfl
  revert hsame
  decide

end QuantWorkbench.Runtime
