import QuantWorkbench.Runtime.ResearchJobs
import QuantWorkbench.Lib.Runs

/-!
How often the child of a cycle is launched. A cycle that was launched stays blocked as
long as the job map remembers its job.
-/

namespace QuantWorkbench.Runtime

open QuantWorkbench.Lib

/-! ### Cycle keys -/

/-- The key begins with the verb of the command and a colon. -/
def CycleOf (command : ResearchCommand) (cycleKey : Text) : Prop :=
  command.verb ++ [':'] <+: cycleKey

theorem CycleOf.command_eq {command other : ResearchCommand} {cycleKey : Text}
    (h : CycleOf command cycleKey) (h' : CycleOf other cycleKey) : command = other := by
  have hprefix := List.prefix_or_prefix_of_prefix h h'
  revert hprefix
  cases command <;> cases other <;> decide

theorem CycleOf.ne_nil {command : ResearchCommand} {cycleKey : Text}
    (h : CycleOf command cycleKey) : cycleKey ≠ [] := by
  rintro rfl
  have hnil := List.prefix_nil.mp h
  simp at hnil

theorem rdropWhile_append_of_neg {p : Char → Bool} {c : Char} (hc : p c = false)
    (front rest : Text) :
    (front ++ [c] ++ rest).rdropWhile p = front ++ [c] ++ rest.rdropWhile p := by
  induction rest using List.reverseRecOn with
  | nil =>
      rw [List.append_nil, List.rdropWhile_concat_neg _ _ _ (by simp [hc])]
      simp
  | append_singleton rest last ih =>
      rw [← List.append_assoc]
      by_cases hlast : p last = true
      · rw [List.rdropWhile_concat_pos _ _ _ hlast, List.rdropWhile_concat_pos _ _ _ hlast, ih]
      · rw [List.rdropWhile_concat_neg _ _ _ hlast, List.rdropWhile_concat_neg _ _ _ hlast,
          List.append_assoc]

/-- Stripping does not reach the verb. -/
theorem CycleOf.strip {command : ResearchCommand} {cycleKey : Text}
    (h : CycleOf command cycleKey) : CycleOf command cycleKey.strip := by
  obtain ⟨rest, rfl⟩ := h
  have hleft : (command.verb ++ [':'] ++ rest).dropWhile Text.isSpace =
      command.verb ++ [':'] ++ rest := by
    cases command <;> rfl
  unfold CycleOf Text.strip
  rw [hleft, rdropWhile_append_of_neg (by decide)]
  exact List.prefix_append _ _

theorem dueCycles_cycleOf {networkEnabled sessionCompleted dataRefreshed : Bool}
    {current : UtcDateTime} {fingerprint : Option Text} {outcomeCutoff : Option ClockTime}
    {cycle : ResearchSupervisor.DueCycle}
    (h : .ok cycle ∈ ResearchSupervisor.dueCycles networkEnabled current sessionCompleted
      fingerprint dataRefreshed outcomeCutoff) :
    CycleOf cycle.command cycle.cycleKey := by
  have hcycle : ∀ (command : ResearchCommand) (start rest : Text),
      start = command.verb ++ [':'] → CycleOf command (start ++ rest) := by
    rintro command _ rest rfl
    exact List.prefix_append _ _
  unfold ResearchSupervisor.dueCycles at h
  simp only [List.mem_append] at h
  rcases h with ((h | h) | h) | h
  · split at h
    · rw [List.mem_singleton, Except.ok.injEq] at h
      subst h
      exact hcycle .history _ _ rfl
    · cases h
  · split at h
    · rw [List.mem_singleton, Except.ok.injEq] at h
      subst h
      exact hcycle .screen _ _ rfl
    · cases h
  · split at h
    · split at h
      · rw [List.mem_singleton, Except.ok.injEq] at h
        subst h
        exact hcycle .predict "predict:".toList _ rfl
      · cases h
    · rw [List.mem_singleton] at h
      cases h
    · cases h
  · split at h
    · rw [List.mem_singleton, Except.ok.injEq] at h
      subst h
      exact hcycle .settle "settle:".toList _ rfl
    · cases h

/-! ### What the supervisor remembers -/

def launchedKeys (log : List ResearchEvent) : List Text :=
  log.filterMap fun event =>
    match event with
    | .launched _ cycleKey _ => some cycleKey
    | .shutdown => none

def ResearchJob.OfCycle (job : ResearchJob) : Prop :=
  job.jobId = cycleJobId job.command job.cycleKey ∧ CycleOf job.command job.cycleKey

def Settled (log : List ResearchEvent) (s : ResearchSupervisor) (job : ResearchJob) : Prop :=
  job.cycleKey ∈ launchedKeys log →
    job.jobId ∈ s.children.keys ∨ job.jobId ∈ s.terminalJobIds

/-- Every remembered job, and every one of the others, belongs to a cycle and is settled. -/
def CyclesKept (log : List ResearchEvent) (others : List ResearchJob)
    (s : ResearchSupervisor) : Prop :=
  ∀ job, job ∈ s.jobs.values ∨ job ∈ others → job.OfCycle ∧ Settled log s job

open ResearchSupervisor

theorem ResearchJob.OfCycle.jobId_eq {job other : ResearchJob} (h : job.OfCycle)
    (h' : other.OfCycle) (hkey : job.cycleKey = other.cycleKey) : job.jobId = other.jobId := by
  have hcommand : job.command = other.command := h.2.command_eq (hkey ▸ h'.2)
  rw [h.1, h'.1, hcommand, hkey]

variable {log : List ResearchEvent} {others : List ResearchJob} {s : ResearchSupervisor}

theorem CyclesKept.collectChild (h : CyclesKept log [] s) (reports : Text → Option ChildStatus)
    (child : ResearchChild) : CyclesKept log [] (collectChild reports s child) := by
  unfold ResearchSupervisor.collectChild
  split
  · exact h
  · split
    · exact h
    · rename_i job hjob
      obtain ⟨hmem, hid⟩ := Keyed.get?_eq_some_iff.mp hjob
      have hold := h job (Or.inl hmem)
      rintro other (hother | hother)
      · rcases Keyed.mem_values_put.mp hother with rfl | ⟨hother, hne⟩
        · refine ⟨hold.1, fun _ => Or.inr ?_⟩
          exact Finset.mem_insert.mpr (Or.inl hid)
        · obtain ⟨hcycle, hsettled⟩ := h other (Or.inl hother)
          refine ⟨hcycle, fun hlaunched => ?_⟩
          rcases hsettled hlaunched with hchild | hterminal
          · left
            obtain ⟨found, hfound, hkey⟩ := Keyed.mem_keys.mp hchild
            apply Keyed.mem_keys.mpr
            refine ⟨found, Keyed.mem_values_remove.mpr ⟨hfound, ?_⟩, hkey⟩
            intro heq
            exact hne ((hkey.symm.trans heq).trans hid.symm)
          · exact Or.inr (Finset.mem_insert_of_mem hterminal)
      · cases hother

theorem CyclesKept.pruneTerminalHistory (h : CyclesKept log [] s) :
    CyclesKept log [] s.pruneTerminalHistory := by
  rintro job (hjob | hjob)
  · obtain ⟨hmem, hkept⟩ := Keyed.mem_values_filter.mp hjob
    obtain ⟨hcycle, hsettled⟩ := h job (Or.inl hmem)
    refine ⟨hcycle, fun hlaunched => ?_⟩
    rcases hsettled hlaunched with hchild | hterminal
    · exact Or.inl hchild
    · exact Or.inr (Finset.mem_filter.mpr ⟨hterminal, by simpa using hkept⟩)
  · cases hjob

theorem CyclesKept.collectFinishedChildren (h : CyclesKept log [] s)
    (reports : Text → Option ChildStatus) :
    CyclesKept log [] (s.collectFinishedChildren reports) := by
  unfold ResearchSupervisor.collectFinishedChildren
  apply CyclesKept.pruneTerminalHistory
  generalize s.children.values = children
  induction children generalizing s with
  | nil => exact h
  | cons child rest ih => exact ih (h.collectChild reports child)

theorem CyclesKept.childrenExit (h : CyclesKept log others s) (exits : Exits) :
    CyclesKept log others (s.childrenExit exits) := by
  intro job hjob
  obtain ⟨hcycle, hsettled⟩ := h job hjob
  refine ⟨hcycle, fun hlaunched => ?_⟩
  rw [keys_childrenExit]
  exact hsettled hlaunched

/-! ### Registration -/

theorem safeMetadata_some {text : Text} {field : String} {value : Option Text}
    (h : safeMetadata (some text) field = .ok value) : value = some text.strip := by
  unfold safeMetadata at h
  simp only at h
  split at h
  · cases h
  · cases h
    rfl

theorem registerCycle_cases {command : ResearchCommand} {dueAt : UtcDateTime}
    {fingerprint : Option Text} {cycleKey : Text} {after : ResearchSupervisor}
    {registered : Option Text}
    (h : registerCycle command dueAt fingerprint cycleKey s = .ok (after, registered)) :
    after = s ∨
      (cycleJobId command cycleKey.strip ∉ s.jobs.keys ∧
        after = { s with
          jobs := s.jobs.put (cycleJob command dueAt fingerprint cycleKey.strip)
          terminalJobIds := s.terminalJobIds.erase (cycleJobId command cycleKey.strip) }) := by
  unfold registerCycle at h
  obtain ⟨value, hsafe, h⟩ := bind_eq_ok_iff.mp h
  obtain ⟨normalizedCycle, hsome, h⟩ := bind_eq_ok_iff.mp h
  rw [safeMetadata_some hsafe, orRaise_eq_ok_iff, Option.some.injEq] at hsome
  subst hsome
  split at h
  · obtain ⟨_, _, h⟩ := bind_eq_ok_iff.mp h
    cases h
    exact Or.inl rfl
  · rename_i hfound
    cases h
    exact Or.inr ⟨Keyed.get?_eq_none_iff.mp hfound, rfl⟩

/-- The cycle was not launched, or its job is still known. -/
def NotForgotten (log : List ResearchEvent) (s : ResearchSupervisor) (cycle : DueCycle) : Prop :=
  cycle.cycleKey.strip ∈ launchedKeys log →
    cycleJobId cycle.command cycle.cycleKey.strip ∈ s.jobs.keys

theorem CyclesKept.registerCycle (h : CyclesKept log [] s) {cycle : DueCycle}
    (hcycle : CycleOf cycle.command cycle.cycleKey) (hnew : NotForgotten log s cycle)
    {dueAt : UtcDateTime} {fingerprint : Option Text} {after : ResearchSupervisor}
    {registered : Option Text}
    (hrun : registerCycle cycle.command dueAt fingerprint cycle.cycleKey s =
      .ok (after, registered)) :
    CyclesKept log [] after ∧ ∀ jobId ∈ s.jobs.keys, jobId ∈ after.jobs.keys := by
  rcases registerCycle_cases hrun with rfl | ⟨hunknown, rfl⟩
  · exact ⟨h, fun _ hjobId => hjobId⟩
  · refine ⟨?_, fun jobId hjobId => Keyed.mem_keys_put.mpr (Or.inr hjobId)⟩
    rintro job (hjob | hjob)
    · rcases Keyed.mem_values_put.mp hjob with rfl | ⟨hjob, hne⟩
      · exact ⟨⟨rfl, hcycle.strip⟩, fun hlaunched => absurd (hnew hlaunched) hunknown⟩
      · obtain ⟨hof, hsettled⟩ := h job (Or.inl hjob)
        refine ⟨hof, fun hlaunched => ?_⟩
        rcases hsettled hlaunched with hchild | hterminal
        · exact Or.inl hchild
        · exact Or.inr (Finset.mem_erase.mpr ⟨hne, hterminal⟩)
    · cases hjob

theorem CyclesKept.registerCycles (current : UtcDateTime) (fingerprint : Option Text) :
    ∀ (cycles : List (Except String DueCycle)) (s : ResearchSupervisor),
      CyclesKept log [] s →
      (∀ cycle, .ok cycle ∈ cycles → CycleOf cycle.command cycle.cycleKey ∧
        NotForgotten log s cycle) →
      CyclesKept log [] (registerCycles current fingerprint cycles s).1
  | [], _, h, _ => h
  | .error _ :: _, _, h, _ => h
  | .ok cycle :: rest, s, h, hcycles => by
      rw [ResearchSupervisor.registerCycles]
      split
      · exact h
      · rename_i after registered hrun
        obtain ⟨hcycle, hnew⟩ := hcycles cycle List.mem_cons_self
        obtain ⟨hafter, hgrown⟩ := h.registerCycle hcycle hnew hrun
        apply CyclesKept.registerCycles current fingerprint rest after hafter
        intro other hother
        obtain ⟨hof, hknown⟩ := hcycles other (List.mem_cons_of_mem _ hother)
        exact ⟨hof, fun hlaunched => hgrown _ (hknown hlaunched)⟩

/-! ### Launching -/

def ResearchSupervisor.Launching.history (log : List ResearchEvent) (state : Launching) :
    List ResearchEvent :=
  state.started.map ResearchJob.launched ++ log

theorem launchedKeys_cons (job : ResearchJob) (log : List ResearchEvent) :
    launchedKeys (job.launched :: log) = job.cycleKey :: launchedKeys log := rfl

/-- What the loop keeps: the jobs it has not come to are settled as well. -/
structure LoopKept (log : List ResearchEvent) (pending : List ResearchJob) (state : Launching) :
    Prop where
  kept : CyclesKept (state.history log) pending state.supervisor
  once : (launchedKeys (state.history log)).Nodup

theorem LoopKept.startJob {pending : List ResearchJob} {state : Launching} {job : ResearchJob}
    (h : LoopKept log (job :: pending) state) (networkEnabled : Bool) (current : UtcDateTime)
    (launchFails : Text → Bool) :
    LoopKept log pending (startJob networkEnabled current launchFails state job) := by
  have hrest : ∀ other, other ∈ state.supervisor.jobs.values ∨ other ∈ pending →
      other.OfCycle ∧ Settled (state.history log) state.supervisor other := by
    rintro other (hother | hother)
    · exact h.kept other (Or.inl hother)
    · exact h.kept other (Or.inr (List.mem_cons_of_mem _ hother))
  obtain ⟨hcycle, hsettled⟩ := h.kept job (Or.inr List.mem_cons_self)
  unfold ResearchSupervisor.startJob
  split
  · rename_i heligible
    obtain ⟨_, hterminal, hchild, _⟩ := heligible
    have hfresh : job.cycleKey ∉ launchedKeys (state.history log) := by
      intro hlaunched
      rcases hsettled hlaunched with hmem | hmem
      · exact hchild hmem
      · exact hterminal hmem
    split
    · refine ⟨?_, h.once⟩
      have hover : ∀ other, other.OfCycle ∧ Settled (state.history log) state.supervisor other →
          Settled (state.history log) { state.supervisor with
            jobs := state.supervisor.jobs.put (launchFailed job)
            terminalJobIds := insert job.jobId state.supervisor.terminalJobIds } other := by
        intro other hother hlaunched
        rcases hother.2 hlaunched with hmem | hmem
        · exact Or.inl hmem
        · exact Or.inr (Finset.mem_insert_of_mem hmem)
      rintro other (hother | hother)
      · rcases Keyed.mem_values_put.mp hother with rfl | ⟨hother, _⟩
        · exact ⟨hcycle, fun hlaunched => absurd hlaunched hfresh⟩
        · exact ⟨(hrest other (Or.inl hother)).1, hover other (hrest other (Or.inl hother))⟩
      · exact ⟨(hrest other (Or.inr hother)).1, hover other (hrest other (Or.inr hother))⟩
    · refine ⟨?_, ?_⟩
      · intro other hother
        obtain ⟨hof, hbefore⟩ := hrest other hother
        refine ⟨hof, fun hlaunched => ?_⟩
        rcases List.mem_cons.mp hlaunched with hkey | hlaunched
        · exact Or.inl (Keyed.mem_keys_put.mpr (Or.inl (hof.jobId_eq hcycle hkey)))
        · rcases hbefore hlaunched with hmem | hmem
          · exact Or.inl (Keyed.mem_keys_put.mpr (Or.inr hmem))
          · exact Or.inr hmem
      · exact List.nodup_cons.mpr ⟨hfresh, h.once⟩
  · exact ⟨hrest, h.once⟩

theorem LoopKept.launchDue (h : CyclesKept log [] s) (honce : (launchedKeys log).Nodup)
    (networkEnabled : Bool) (current : UtcDateTime) (launchFails : Text → Bool) :
    LoopKept log [] (s.launchDue networkEnabled current launchFails) := by
  have hloop : ∀ (pending : List ResearchJob) (state : Launching), LoopKept log pending state →
      LoopKept log [] (pending.foldl (ResearchSupervisor.startJob networkEnabled current
        launchFails) state) := by
    intro pending
    induction pending with
    | nil => exact fun _ hstate => hstate
    | cons job rest ih => exact fun _ hstate => ih _ (hstate.startJob networkEnabled current _)
  apply hloop
  refine ⟨?_, honce⟩
  intro job hjob
  exact h job (Or.inl (hjob.elim id id))

/-! ### Runs -/

/-- What holds in every run that forgets no launched cycle. -/
structure CycleRunKept (w : ResearchWorld) : Prop where
  kept : CyclesKept w.log [] w.supervisor
  saved : ∀ saved ∈ w.checkpoint, ∀ job ∈ saved.values, job.OfCycle
  once : (launchedKeys w.log).Nodup

/-- A tick asks for no cycle whose child was launched and whose job was forgotten. -/
def ForgetsNoLaunched (networkEnabled : Bool) (w : ResearchWorld) : LifecycleInput → Prop
  | .registerDefaultJobs now sessionCompleted dataFingerprint dataRefreshed outcomeCutoff =>
      ∀ current fingerprint, now.toUtc = .ok current →
        safeMetadata dataFingerprint "input_fingerprint" = .ok fingerprint →
        ∀ cycle, .ok cycle ∈ dueCycles networkEnabled current sessionCompleted fingerprint
          dataRefreshed outcomeCutoff → NotForgotten w.log w.supervisor cycle
  | _ => True

theorem CycleRunKept.writeCheckpoint {w : ResearchWorld} (h : CycleRunKept w) (saved : Bool) :
    CycleRunKept (w.writeCheckpoint saved) := by
  refine ⟨h.kept, ?_, h.once⟩
  intro jobs hjobs
  unfold ResearchWorld.writeCheckpoint at hjobs
  split at hjobs
  · cases hjobs
    exact fun job hjob => (h.kept job (Or.inl hjob)).1
  · exact h.saved jobs hjobs

theorem CycleRunKept.collect {w : ResearchWorld} (h : CycleRunKept w)
    (reports : Text → Option ChildStatus) (saved : Bool) :
    CycleRunKept (w.collect reports saved) := by
  apply CycleRunKept.writeCheckpoint
  exact ⟨h.kept.collectFinishedChildren reports, h.saved, h.once⟩

theorem CyclesKept.restore {saved : Keyed ResearchJob.jobId}
    (h : ∀ job ∈ saved.values, job.OfCycle) (verified : Text → Bool) :
    CyclesKept [] [] (restore verified saved) := by
  rintro job (hjob | hjob)
  · refine ⟨?_, fun hlaunched => nomatch hlaunched⟩
    unfold ResearchSupervisor.restore at hjob
    simp only at hjob
    split at hjob
    · obtain ⟨old, hold, rfl⟩ := (Keyed.mem_values_map _).mp hjob
      have hof := h old hold
      have hkey : (restoredJob verified old).cycleKey = old.cycleKey :=
        if_neg hof.2.ne_nil
      unfold ResearchJob.OfCycle
      rw [hkey]
      exact hof
    · cases hjob
  · cases hjob

theorem cyclesKept_fresh : CyclesKept [] [] ResearchSupervisor.fresh := by
  rintro job (hjob | hjob) <;> cases hjob

theorem CycleRunKept.registerDefaultJobs {w : ResearchWorld} (h : CycleRunKept w)
    {networkEnabled sessionCompleted dataRefreshed : Bool} {now : ClockTime}
    {dataFingerprint : Option Text} {outcomeCutoff : Option ClockTime}
    (hnew : ForgetsNoLaunched networkEnabled w (.registerDefaultJobs now sessionCompleted
      dataFingerprint dataRefreshed outcomeCutoff)) :
    CyclesKept w.log [] (w.supervisor.registerDefaultJobs networkEnabled now sessionCompleted
      dataFingerprint dataRefreshed outcomeCutoff).1 := by
  unfold ResearchSupervisor.registerDefaultJobs
  split
  · exact h.kept
  · exact h.kept
  · rename_i current fingerprint hnow hfingerprint
    have hregistered := CyclesKept.registerCycles current fingerprint (dueCycles networkEnabled
      current sessionCompleted fingerprint dataRefreshed outcomeCutoff) w.supervisor h.kept
      fun cycle hcycle =>
        ⟨dueCycles_cycleOf hcycle, hnew current fingerprint hnow hfingerprint cycle hcycle⟩
    split
    · rename_i hrun
      rw [hrun] at hregistered
      exact hregistered
    · rename_i hrun
      rw [hrun] at hregistered
      exact hregistered.pruneTerminalHistory

theorem cycleRunKept_step (networkEnabled : Bool) (w : ResearchWorld) (input : LifecycleInput)
    (h : CycleRunKept w) (hnew : ForgetsNoLaunched networkEnabled w input) :
    CycleRunKept (w.lifecycle networkEnabled input) := by
  cases input with
  | registerDefaultJobs now sessionCompleted dataFingerprint dataRefreshed outcomeCutoff =>
      exact ⟨h.registerDefaultJobs hnew, h.saved, h.once⟩
  | startDueJobs now reports saved lateExits launchFails =>
      simp only [ResearchWorld.lifecycle, ResearchWorld.startDueJobs]
      split
      · split
        · exact h
        · rename_i current hnow
          have hcollected := h.collect reports saved
          have hloop := LoopKept.launchDue (hcollected.kept.childrenExit lateExits)
            hcollected.once networkEnabled current launchFails
          exact ⟨hloop.kept, hcollected.saved, hloop.once⟩
      · exact h
  | childrenExit exits => exact ⟨h.kept.childrenExit exits, h.saved, h.once⟩
  | shutdown reports saved stops =>
      have hclosed : CycleRunKept
          { w with supervisor := { w.supervisor with accepting := false } } :=
        ⟨h.kept, h.saved, h.once⟩
      have hwritten := (hclosed.collect reports saved).writeCheckpoint saved
      exact ⟨hwritten.kept.childrenExit stops, hwritten.saved, hwritten.once⟩
  | restart readable verified =>
      refine ⟨?_, h.saved, List.nodup_nil⟩
      simp only [ResearchWorld.lifecycle, ResearchWorld.restart]
      split
      · rename_i saved hsaved
        split
        · exact CyclesKept.restore (h.saved saved hsaved) verified
        · exact cyclesKept_fresh
      · exact cyclesKept_fresh

/-- In every run whose ticks ask for no launched cycle that was forgotten, each cycle's
child is launched at most once. -/
theorem always_launchedOnce (networkEnabled : Bool) (inputs : List LifecycleInput)
    (h : Runs.StepsMeet (ResearchWorld.lifecycle networkEnabled)
      (ForgetsNoLaunched networkEnabled) .initial inputs) :
    Runs.Always (ResearchWorld.lifecycle networkEnabled)
      (fun w => (launchedKeys w.log).Nodup) .initial inputs := by
  have hinitial : CycleRunKept .initial :=
    ⟨cyclesKept_fresh, (fun _ hsaved => nomatch hsaved), List.nodup_nil⟩
  have hkept := Runs.always_of_stepsMeet (ResearchWorld.lifecycle networkEnabled) CycleRunKept
    (fun w input hw hinput => cycleRunKept_step networkEnabled w input hw hinput) _ inputs
    hinitial h
  apply hkept.imp
  exact fun w hw => hw.once

def sampleNoon : UtcDateTime :=
  ⟨.of 2026 8 3, 12, 0, 0, 0⟩

def succeeded : Text → Option ChildStatus :=
  fun _ => some ⟨"SUCCESS".toList, some (List.replicate 64 '0'), none, true⟩

/-- A day on which history, screen and settlement are due, and the first children of it. -/
def sampleCycleTick : List LifecycleInput :=
  [.registerDefaultJobs (.aware sampleNoon) true (some "1".toList) true none,
    .startDueJobs (.aware sampleNoon) succeeded true (fun _ => none) (fun _ => false),
    .childrenExit fun _ => some 0]

theorem sampleCycleTick_launchedOnce :
    Runs.Always (ResearchWorld.lifecycle true) (fun w => (launchedKeys w.log).Nodup) .initial
      sampleCycleTick := by
  apply always_launchedOnce true
  refine ⟨?_, trivial, trivial, trivial⟩
  intro current fingerprint _ _ cycle _ hlaunched
  exact absurd hlaunched List.not_mem_nil

end QuantWorkbench.Runtime
