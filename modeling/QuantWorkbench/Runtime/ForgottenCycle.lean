import QuantWorkbench.Runtime.ResearchCycles
import QuantWorkbench.Lib.Sha256Eval

/-!
How a cycle is forgotten. A screen whose data comes back after sixty-five other screens
is registered and launched again.
-/

namespace QuantWorkbench.Runtime

open QuantWorkbench.Lib ResearchSupervisor

theorem filter_not_mem_take {l : List Text} (h : l.Nodup) (n : ℕ) :
    l.filter (fun a => a ∉ l.take n) = l.drop n := by
  have hsplit := List.take_append_drop n l
  have hdisjoint : ∀ a ∈ l.drop n, a ∉ l.take n := by
    rw [← hsplit, List.nodup_append] at h
    intro a hdrop htake
    exact h.2.2 a htake a hdrop rfl
  calc l.filter (fun a => a ∉ l.take n)
      = (l.take n ++ l.drop n).filter (fun a => a ∉ l.take n) := by rw [hsplit]
    _ = l.drop n := by
        rw [List.filter_append, List.filter_eq_nil_iff.mpr (by simp),
          List.filter_eq_self.mpr (by simpa using hdisjoint), List.nil_append]

/-- Every job is over or has a child that has exited, and there is at most one child. -/
structure Exited (ids : List Text) (s : ResearchSupervisor) : Prop where
  keys : s.jobs.keys = ids
  terminal : ∀ jobId ∈ ids, jobId ∈ s.terminalJobIds ∨ jobId ∈ s.children.keys
  children : s.children.values = [] ∨
    ∃ child, s.children.values = [child] ∧ child.running = false ∧ child.jobId ∈ ids
  bounded : s.terminalHistory.length ≤ maximumRetainedTerminalJobs
  accepting : s.accepting = true

/-- Every job but the last one, which is new, is over, and there is no child. -/
structure Ready (ids : List Text) (job : ResearchJob) (s : ResearchSupervisor) : Prop where
  keys : s.jobs.keys = ids ++ [job.jobId]
  known : job ∈ s.jobs.values
  terminal : ∀ jobId ∈ ids, jobId ∈ s.terminalJobIds
  new : job.jobId ∉ s.terminalJobIds
  children : s.children = .empty
  accepting : s.accepting = true

def ResearchSupervisor.withNewJob (s : ResearchSupervisor) (job : ResearchJob) :
    ResearchSupervisor :=
  { s with
    jobs := s.jobs.put job
    terminalJobIds := s.terminalJobIds.erase job.jobId }

variable {ids : List Text} {s : ResearchSupervisor}

theorem Ready.terminalHistory {job : ResearchJob} (h : Ready ids job s) :
    s.terminalHistory = ids := by
  have hold : ∀ jobId ∈ ids, decide (jobId ∈ s.terminalJobIds ∧ jobId ∉ s.children.keys) = true := by
    intro jobId hmem
    simp [h.terminal jobId hmem, h.children, Keyed.keys]
  unfold ResearchSupervisor.terminalHistory
  rw [h.keys, List.filter_append, List.filter_eq_self.mpr hold,
    List.filter_eq_nil_iff.mpr (by simp [h.new]), List.append_nil]

/-- Pruning keeps the last jobs that are over. -/
theorem Ready.prune {job : ResearchJob} (h : Ready ids job s) :
    Ready (ids.drop (ids.length - maximumRetainedTerminalJobs)) job s.pruneTerminalHistory := by
  have hnodup : (ids ++ [job.jobId]).Nodup := h.keys ▸ s.jobs.nodup
  obtain ⟨hids, _, hdisjoint⟩ := List.nodup_append.mp hnodup
  have hremovable : s.removable = ids.take (ids.length - maximumRetainedTerminalJobs) := by
    rw [removable, h.terminalHistory]
  have hnew : job.jobId ∉ s.removable := by
    rw [hremovable]
    intro hmem
    exact hdisjoint _ (List.mem_of_mem_take hmem) _ (List.mem_singleton_self _) rfl
  refine ⟨?_, ?_, ?_, ?_, h.children, h.accepting⟩
  · have hkeys : s.pruneTerminalHistory.jobs.keys = s.jobs.keys.filter (· ∉ s.removable) := by
      simp only [Keyed.keys, pruneTerminalHistory, Keyed.filter, List.filter_map]
      rfl
    rw [hkeys, h.keys, List.filter_append, hremovable, filter_not_mem_take hids,
      List.filter_eq_self.mpr]
    intro jobId hmem
    rw [List.mem_singleton.mp hmem, ← hremovable]
    simpa using hnew
  · exact Keyed.mem_values_filter.mpr ⟨h.known, by simpa using hnew⟩
  · intro jobId hmem
    apply Finset.mem_filter.mpr
    refine ⟨h.terminal jobId (List.mem_of_mem_drop hmem), ?_⟩
    rw [hremovable]
    rw [← filter_not_mem_take hids] at hmem
    simpa using (List.mem_filter.mp hmem).2
  · intro hmem
    exact h.new (Finset.mem_filter.mp hmem).1

theorem Exited.keys_withNewJob (h : Exited ids s) {job : ResearchJob} (hnew : job.jobId ∉ ids) :
    (s.withNewJob job).jobs.keys = ids ++ [job.jobId] := by
  have hvalues : (s.jobs.put job).values = s.jobs.values ++ [job] :=
    Keyed.values_put_new (h.keys ▸ hnew)
  rw [← h.keys, withNewJob, Keyed.keys, hvalues, List.map_append]
  rfl

theorem Exited.collect (h : Exited ids s) {job : ResearchJob} (hnew : job.jobId ∉ ids)
    (reports : Text → Option ChildStatus) :
    Ready ids job (s.children.values.foldl (collectChild reports) (s.withNewJob job)) := by
  have hkeys := h.keys_withNewJob hnew
  have hjob : job ∈ (s.withNewJob job).jobs.values := Keyed.mem_values_put.mpr (Or.inl rfl)
  have hkept : ∀ jobId ∈ ids, jobId ∈ s.terminalJobIds →
      jobId ∈ (s.withNewJob job).terminalJobIds := by
    intro jobId hmem hover
    exact Finset.mem_erase.mpr ⟨fun heq => hnew (heq ▸ hmem), hover⟩
  have hfresh : job.jobId ∉ (s.withNewJob job).terminalJobIds := Finset.notMem_erase _ _
  rcases h.children with hnone | ⟨child, hone, hexited, hchild⟩
  · have hempty : s.children = .empty := Keyed.ext hnone
    rw [hnone]
    refine ⟨hkeys, hjob, ?_, hfresh, hempty, h.accepting⟩
    intro jobId hmem
    rcases h.terminal jobId hmem with hover | hrunning
    · exact hkept jobId hmem hover
    · simp [Keyed.keys, hnone] at hrunning
  · have hne : child.jobId ≠ job.jobId := fun heq => hnew (heq ▸ hchild)
    obtain ⟨old, hold⟩ : ∃ old, (s.withNewJob job).jobs.get? child.jobId = some old := by
      rw [← Option.isSome_iff_exists, Keyed.get?_isSome_iff, hkeys]
      exact List.mem_append_left _ hchild
    have holdId : old.jobId = child.jobId := (Keyed.get?_eq_some_iff.mp hold).2
    rw [hone, List.foldl_cons, List.foldl_nil, collectChild, hexited, hold]
    refine ⟨?_, ?_, ?_, ?_, ?_, h.accepting⟩
    · rw [← hkeys]
      apply Keyed.keys_put_old
      rw [hkeys]
      exact List.mem_append_left _ (show old.jobId ∈ ids from holdId ▸ hchild)
    · apply Keyed.mem_values_put.mpr
      right
      refine ⟨hjob, ?_⟩
      intro heq
      exact hne (holdId.symm.trans heq.symm)
    · intro jobId hmem
      rcases h.terminal jobId hmem with hover | hrunning
      · exact Finset.mem_insert_of_mem (hkept jobId hmem hover)
      · simp only [Keyed.keys, hone, List.map_singleton, List.mem_singleton] at hrunning
        exact Finset.mem_insert.mpr (Or.inl hrunning)
    · intro hmem
      rcases Finset.mem_insert.mp hmem with heq | hmem
      · exact hne heq.symm
      · exact hfresh hmem
    · apply Keyed.ext
      simp [Keyed.remove, Keyed.filter, withNewJob, hone]

theorem Ready.launchDue {job : ResearchJob} (h : Ready ids job s) (networkEnabled : Bool)
    {current : UtcDateTime} {launchFails : Text → Bool} (hcompleted : job.completed = false)
    (hdue : job.dueAt ≤ current) (heligible : job.nextEligibleAt.getD job.dueAt ≤ current)
    (hclass : job.resourceClass = .cpu) (hlaunch : launchFails job.jobId = false) :
    s.launchDue networkEnabled current launchFails =
      ⟨{ s with children := s.children.put ⟨job.jobId, job.command, none⟩ }, [.cpu], [job]⟩ := by
  obtain ⟨olds, news, hvalues, holds, hnews⟩ := List.map_eq_append_iff.mp h.keys
  obtain ⟨other, rfl, hother⟩ := List.map_eq_singleton_iff.mp hnews
  have hsame : other = job := by
    apply Keyed.eq_of_key_eq (d := s.jobs) _ h.known hother
    rw [hvalues]
    exact List.mem_append_right _ (List.mem_singleton_self _)
  subst hsame
  have hskip : ∀ (pending : List ResearchJob) (state : Launching),
      (∀ old ∈ pending, old.jobId ∈ state.supervisor.terminalJobIds) →
      pending.foldl (startJob networkEnabled current launchFails) state = state := by
    intro pending state hover
    induction pending with
    | nil => rfl
    | cons old rest ih =>
        have hold : ¬ Eligible networkEnabled current state old := fun heligible =>
          heligible.2.1 (hover old List.mem_cons_self)
        rw [List.foldl_cons, startJob, if_neg hold]
        exact ih fun other hother => hover other (List.mem_cons_of_mem _ hother)
  have hactive : s.activeClasses = [] := by simp [activeClasses, h.children]
  have hready : Eligible networkEnabled current ⟨s, [], []⟩ other := by
    refine ⟨hcompleted, h.new, ?_, hdue, heligible, ?_, List.not_mem_nil⟩
    · simp [h.children, Keyed.keys]
    · rw [hclass]
      intro hnetwork
      cases hnetwork
  rw [ResearchSupervisor.launchDue, hvalues, List.foldl_append, hactive, hskip olds _ ?_]
  · rw [List.foldl_cons, List.foldl_nil, startJob, if_pos hready, if_neg (by simp [hlaunch]), hclass]
  · intro old hold
    apply h.terminal
    rw [← holds]
    exact List.mem_map_of_mem hold

theorem pruneTerminalHistory_self (h : s.terminalHistory.length ≤ maximumRetainedTerminalJobs) :
    s.pruneTerminalHistory = s := by
  have hremovable : s.removable = [] := by
    rw [removable, Nat.sub_eq_zero_of_le h, List.take_zero]
  unfold ResearchSupervisor.pruneTerminalHistory
  have hjobs : (s.jobs.filter fun job => job.jobId ∉ s.removable) = s.jobs := by
    apply Keyed.ext
    simp [Keyed.filter, hremovable]
  have hterminal : s.terminalJobIds.filter (fun jobId => jobId ∉ s.removable) =
      s.terminalJobIds := by
    simp [hremovable]
  rw [hjobs, hterminal]

/-! ### One screen after the other -/

/-- A fingerprint that is taken as it is. -/
structure PlainFingerprint (fingerprint : Text) : Prop where
  metadata : safeMetadata (some fingerprint) "input_fingerprint" = .ok (some fingerprint)
  cycle : safeMetadata (some ("screen:".toList ++ fingerprint)) "cycle_key" =
    .ok (some ("screen:".toList ++ fingerprint))

def screenJob (now : UtcDateTime) (fingerprint : Text) : ResearchJob :=
  cycleJob .screen now (some fingerprint) ("screen:".toList ++ fingerprint)

section Screens

variable (networkEnabled : Bool) (now : UtcDateTime) (reports : Text → Option ChildStatus)
  (saved : Bool) (code : ℤ)

/-- A tick that registers and starts the screen of some data, and the exit of its child. -/
def screenCycle (fingerprint : Text) : List LifecycleInput :=
  [.registerDefaultJobs (.aware now) false (some fingerprint) false none,
    .startDueJobs (.aware now) reports saved (fun _ => none) (fun _ => false),
    .childrenExit fun _ => some code]

variable {now code}

theorem Exited.terminalHistory_withNewJob (h : Exited ids s) {job : ResearchJob}
    (hnew : job.jobId ∉ ids) : (s.withNewJob job).terminalHistory = s.terminalHistory := by
  have hlast : ∀ jobId ∈ [job.jobId], ¬ decide (jobId ∈ (s.withNewJob job).terminalJobIds ∧
      jobId ∉ (s.withNewJob job).children.keys) = true := by
    simp [withNewJob]
  rw [terminalHistory, h.keys_withNewJob hnew, List.filter_append,
    List.filter_eq_nil_iff.mpr hlast, List.append_nil, terminalHistory, h.keys]
  apply List.filter_congr
  intro jobId hmem
  have hne : jobId ≠ job.jobId := fun heq => hnew (heq ▸ hmem)
  simp [withNewJob, hne]

theorem Exited.register (h : Exited ids s) {fingerprint : Text}
    (hplain : PlainFingerprint fingerprint) (hnew : (screenJob now fingerprint).jobId ∉ ids) :
    (s.registerDefaultJobs networkEnabled (.aware now) false (some fingerprint) false none).1 =
      s.withNewJob (screenJob now fingerprint) := by
  have hunknown : s.jobs.get? (cycleJobId .screen ("screen:".toList ++ fingerprint)) = none := by
    rw [Keyed.get?_eq_none_iff, h.keys]
    exact hnew
  have hregister : registerCycle .screen now (some fingerprint) ("screen:".toList ++ fingerprint) s =
      .ok (s.withNewJob (screenJob now fingerprint),
        some (screenJob now fingerprint).jobId) := by
    unfold registerCycle
    rw [hplain.cycle]
    simp only [bind, Except.bind, pure, Except.pure, orRaise, hunknown]
    rfl
  unfold ResearchSupervisor.registerDefaultJobs
  rw [hplain.metadata]
  simp only [ClockTime.toUtc, dueCycles, Option.map_none, Bool.false_eq_true, and_false, if_false,
    List.nil_append, List.append_nil, registerCycles, hregister, Except.map]
  apply pruneTerminalHistory_self
  rw [h.terminalHistory_withNewJob hnew]
  exact h.bounded

theorem Exited.start (h : Exited ids s) {fingerprint : Text} {job : ResearchJob}
    (hjob : job = screenJob now fingerprint) (hnew : job.jobId ∉ ids) {w : ResearchWorld}
    (hw : w.supervisor = s.withNewJob job) :
    ∃ t, Ready (ids.drop (ids.length - maximumRetainedTerminalJobs)) job t ∧
      (w.startDueJobs networkEnabled (.aware now) reports saved (fun _ => none)
        fun _ => false).supervisor =
          { t with children := t.children.put ⟨job.jobId, job.command, none⟩ } ∧
      (w.startDueJobs networkEnabled (.aware now) reports saved (fun _ => none)
        fun _ => false).log = job.launched :: w.log := by
  have hready := (h.collect hnew reports).prune
  have hcollected : (w.collect reports saved).supervisor =
      (s.children.values.foldl (collectChild reports) (s.withNewJob job)).pruneTerminalHistory := by
    simp only [ResearchWorld.collect, ResearchWorld.writeCheckpoint, collectFinishedChildren, hw]
    rfl
  generalize (s.children.values.foldl (collectChild reports)
    (s.withNewJob job)).pruneTerminalHistory = t at hready hcollected
  have hsame : t.childrenExit (fun _ => none) = t := by
    have hnone : t.children.map (ResearchChild.exits fun _ => none)
        (ResearchChild.exits_jobId _) = t.children := by
      apply Keyed.ext
      simp [Keyed.map, hready.children]
    unfold ResearchSupervisor.childrenExit
    rw [hnone]
  have hdue : job.dueAt ≤ now := by rw [hjob]; exact le_refl _
  have heligible : job.nextEligibleAt.getD job.dueAt ≤ now := by rw [hjob]; exact le_refl _
  have hlaunch : t.launchDue networkEnabled now (fun _ => false) = _ :=
    hready.launchDue networkEnabled (by rw [hjob]; rfl) hdue heligible (by rw [hjob]; rfl) rfl
  have haccepting : w.supervisor.accepting = true := by
    rw [hw]
    exact h.accepting
  refine ⟨t, hready, ?_, ?_⟩
  · simp only [ResearchWorld.startDueJobs, if_pos haccepting, ClockTime.toUtc, hcollected, hsame,
      hlaunch]
  · simp only [ResearchWorld.startDueJobs, if_pos haccepting, ClockTime.toUtc, hcollected, hsame,
      hlaunch]
    rfl

variable (code) in
theorem Exited.screenCycle {w : ResearchWorld} (h : Exited ids w.supervisor) {fingerprint : Text}
    (hplain : PlainFingerprint fingerprint) (hnew : (screenJob now fingerprint).jobId ∉ ids) :
    Exited (ids.drop (ids.length - maximumRetainedTerminalJobs) ++
        [(screenJob now fingerprint).jobId])
      ((screenCycle now reports saved code fingerprint).foldl
        (ResearchWorld.lifecycle networkEnabled) w).supervisor ∧
    ((screenCycle now reports saved code fingerprint).foldl
      (ResearchWorld.lifecycle networkEnabled) w).log =
        (screenJob now fingerprint).launched :: w.log := by
  have hregister := h.register networkEnabled hplain hnew
  obtain ⟨t, hready, hsupervisor, hlog⟩ := h.start networkEnabled reports saved rfl hnew
    (w := w.lifecycle networkEnabled
      (.registerDefaultJobs (.aware now) false (some fingerprint) false none)) hregister
  simp only [Runtime.screenCycle, List.foldl_cons, List.foldl_nil]
  refine ⟨?_, hlog⟩
  generalize hjob : screenJob now fingerprint = job at hready hsupervisor hnew ⊢
  have hchildren : (t.children.put ⟨job.jobId, job.command, none⟩).values =
      [⟨job.jobId, job.command, none⟩] := by
    rw [hready.children]
    rfl
  have hkeys : (t.children.put ⟨job.jobId, job.command, none⟩).keys = [job.jobId] := by
    rw [Keyed.keys, hchildren]
    rfl
  simp only [ResearchWorld.lifecycle] at hsupervisor ⊢
  rw [hsupervisor]
  refine ⟨hready.keys, ?_, Or.inr ⟨⟨job.jobId, job.command, some code⟩, ?_, rfl, ?_⟩, ?_,
    hready.accepting⟩
  · intro jobId hmem
    rcases List.mem_append.mp hmem with hmem | hmem
    · exact Or.inl (hready.terminal jobId hmem)
    · right
      rw [keys_childrenExit, hkeys]
      exact hmem
  · simp [childrenExit, Keyed.map, hchildren, ResearchChild.exits]
  · simp
  · unfold ResearchSupervisor.terminalHistory
    rw [keys_childrenExit, hkeys]
    have hlast : ∀ jobId ∈ [job.jobId], ¬ decide (jobId ∈ t.terminalJobIds ∧
        jobId ∉ [job.jobId]) = true := by
      simp
    have hfilter : (t.jobs.keys.filter fun jobId => decide (jobId ∈ t.terminalJobIds ∧
        jobId ∉ [job.jobId])).length ≤ maximumRetainedTerminalJobs := by
      rw [hready.keys, List.filter_append, List.filter_eq_nil_iff.mpr hlast, List.append_nil]
      refine (List.length_filter_le _ _).trans ?_
      rw [List.length_drop]
      omega
    exact hfilter

theorem exited_initial : Exited [] ResearchWorld.initial.supervisor where
  keys := rfl
  terminal := fun _ hmem => nomatch hmem
  children := Or.inl rfl
  bounded := Nat.zero_le _
  accepting := rfl

/-- Keeping the last ones of the last ones, one less, makes room for one more. -/
theorem rtake_concat {α : Type*} (l : List α) (a : α) (n : ℕ) :
    (l.rtake (n + 1)).drop ((l.rtake (n + 1)).length - n) ++ [a] = (l ++ [a]).rtake (n + 1) := by
  unfold List.rtake
  rw [List.drop_drop, List.length_drop, List.length_append, List.length_singleton,
    List.drop_append_of_le_length (by omega)]
  congr 2
  omega

variable (now code) in
/-- After screens of different data the jobs of the last ones are known. -/
theorem exited_screenCycles (fingerprints : List Text)
    (hplain : ∀ fingerprint ∈ fingerprints, PlainFingerprint fingerprint)
    (hnodup : (fingerprints.map fun fingerprint => (screenJob now fingerprint).jobId).Nodup) :
    Exited ((fingerprints.map fun fingerprint => (screenJob now fingerprint).jobId).rtake
        (maximumRetainedTerminalJobs + 1))
      ((fingerprints.flatMap (screenCycle now reports saved code)).foldl
        (ResearchWorld.lifecycle networkEnabled) .initial).supervisor ∧
    ((fingerprints.flatMap (screenCycle now reports saved code)).foldl
      (ResearchWorld.lifecycle networkEnabled) .initial).log =
        (fingerprints.map fun fingerprint => (screenJob now fingerprint).launched).reverse := by
  induction fingerprints using List.reverseRecOn with
  | nil => exact ⟨exited_initial, rfl⟩
  | append_singleton fingerprints last ih =>
      rw [List.map_append, List.map_singleton, List.nodup_append] at hnodup
      obtain ⟨hbefore, _, hdifferent⟩ := hnodup
      obtain ⟨hexited, hlog⟩ := ih
        (fun fingerprint hmem => hplain fingerprint (List.mem_append_left _ hmem)) hbefore
      have hnew : (screenJob now last).jobId ∉ (fingerprints.map fun fingerprint =>
          (screenJob now fingerprint).jobId).rtake (maximumRetainedTerminalJobs + 1) := by
        intro hmem
        exact hdifferent _ (List.mem_of_mem_drop hmem) _ (List.mem_singleton_self _) rfl
      have hcycle := hexited.screenCycle networkEnabled reports saved code
        (hplain last (List.mem_append_right _ (List.mem_singleton_self _))) hnew
      rw [rtake_concat] at hcycle
      rw [List.flatMap_append, List.flatMap_singleton, List.foldl_append]
      simp only [List.map_append, List.map_singleton, List.reverse_append,
        List.reverse_singleton, ← hlog]
      exact hcycle

variable (now code) in
/-- A screen whose data comes back after enough other screens is launched twice. -/
theorem launched_again {first : Text} {others : List Text}
    (hlength : maximumRetainedTerminalJobs < others.length)
    (hplain : ∀ fingerprint ∈ first :: others, PlainFingerprint fingerprint)
    (hnodup : ((first :: others).map fun fingerprint =>
      (screenJob now fingerprint).jobId).Nodup) :
    ¬ (launchedKeys (((first :: others ++ [first]).flatMap
      (screenCycle now reports saved code)).foldl
        (ResearchWorld.lifecycle networkEnabled) .initial).log).Nodup := by
  obtain ⟨hexited, hlog⟩ := exited_screenCycles networkEnabled now reports saved code
    (first :: others) hplain hnodup
  have hforgotten : (screenJob now first).jobId ∉ ((first :: others).map fun fingerprint =>
      (screenJob now fingerprint).jobId).rtake (maximumRetainedTerminalJobs + 1) := by
    obtain ⟨hfirst, _⟩ := List.nodup_cons.mp hnodup
    intro hmem
    apply hfirst
    rw [List.rtake, List.map_cons, List.length_cons, List.length_map,
      Nat.sub_add_comm (by omega : maximumRetainedTerminalJobs + 1 ≤ others.length),
      List.drop_succ_cons] at hmem
    exact List.mem_of_mem_drop hmem
  have hcycle := hexited.screenCycle networkEnabled reports saved code (hplain first List.mem_cons_self) hforgotten
  rw [List.flatMap_append, List.flatMap_singleton, List.foldl_append, hcycle.2, hlog]
  intro hagain
  rw [launchedKeys_cons, List.nodup_cons] at hagain
  apply hagain.1
  apply List.mem_filterMap.mpr
  exact ⟨(screenJob now first).launched, by simp, rfl⟩

end Screens

/-! ### A run that launches a cycle twice -/

theorem cyclePayload_sorted (command : ResearchCommand) (cycleKey : Text) :
    (cyclePayload command cycleKey).sorted = cyclePayload command cycleKey := by
  cases command <;> rfl

/-- What stands before the cycle key of a screen, without the first brace. -/
def screenStart : Text :=
  Json.quote "command".toList ++ ':' :: '[' :: (Json.quote "research".toList ++ ',' ::
    (Json.quote "screen".toList ++ ']' :: ',' :: (Json.quote "cycle_key".toList ++ [':', '"'])))

theorem dumps_cyclePayload (cycleKey : Text) :
    Json.dumps (cyclePayload .screen cycleKey) =
      '\x7b' :: (screenStart ++ (cycleKey.flatMap Json.escapeChar ++ ['"', '\x7d'])) := by
  have hverb : ResearchCommand.verb .screen = "screen".toList := rfl
  rw [Json.dumps, cyclePayload_sorted]
  simp only [cyclePayload, ResearchCommand.parts, hverb, Json.encode,
    Json.encodeMembers, List.map_cons, List.map_nil, Json.encodeItems, Json.quote, screenStart,
    List.append_assoc, List.cons_append, List.nil_append]

def screenBytes : List UInt8 :=
  [123, 34, 99, 111, 109, 109, 97, 110, 100, 34, 58, 91, 34, 114, 101, 115, 101, 97, 114, 99,
    104, 34, 44, 34, 115, 99, 114, 101, 101, 110, 34, 93, 44, 34, 99, 121, 99, 108, 101, 95, 107,
    101, 121, 34, 58, 34, 115, 99, 114, 101, 101, 110, 58]

def dayFingerprint (n : ℕ) : Text := [Nat.digitChar (n / 10), Nat.digitChar (n % 10)]

theorem utf8_asciiOnly_append (a b : Text) :
    Text.utf8 (asciiOnly (a ++ b)) = Text.utf8 (asciiOnly a) ++ Text.utf8 (asciiOnly b) := by
  rw [asciiOnly, asciiOnly, asciiOnly, List.flatMap_append, Text.utf8, Text.utf8, Text.utf8,
    List.flatMap_append]

theorem dayFingerprint_bytes {n : ℕ} (hn : n < 100) :
    Text.utf8 (asciiOnly (Json.dumps (cyclePayload .screen
      ("screen:".toList ++ dayFingerprint n)))) =
      screenBytes ++ [48 + UInt8.ofNat (n / 10), 48 + UInt8.ofNat (n % 10), 34, 125] := by
  have hdigit : ∀ d < 10, Text.utf8 (asciiOnly (Json.escapeChar (Nat.digitChar d))) =
      [48 + UInt8.ofNat d] := by decide
  have hstart : Text.utf8 (asciiOnly ('\x7b' :: (screenStart ++
      "screen:".toList.flatMap Json.escapeChar))) = screenBytes := by decide +kernel
  have hday : (dayFingerprint n).flatMap Json.escapeChar =
      Json.escapeChar (Nat.digitChar (n / 10)) ++ Json.escapeChar (Nat.digitChar (n % 10)) := by
    rw [dayFingerprint, List.flatMap_cons, List.flatMap_singleton]
  rw [dumps_cyclePayload, List.flatMap_append, List.append_assoc, ← List.append_assoc screenStart,
    ← List.cons_append, utf8_asciiOnly_append, hstart, hday, utf8_asciiOnly_append,
    utf8_asciiOnly_append, hdigit _ (by omega), hdigit _ (by omega)]
  rfl

/-- Sixty-six screens have different jobs. -/
theorem dayJobs_nodup (now : UtcDateTime) :
    (((List.range 66).map dayFingerprint).map fun fingerprint =>
      (screenJob now fingerprint).jobId).Nodup := by
  have hcomputed : Sha256.computedNodup (fun n => (Sha256.hashNat (screenBytes ++
      [48 + UInt8.ofNat (n / 10), 48 + UInt8.ofNat (n % 10), 34, 125])).a) [] (List.range 66) =
      true := by decide +kernel
  have hwords := (Sha256.nodup_of_computedNodup hcomputed).1
  rw [List.map_map]
  apply List.Nodup.map_on _ List.nodup_range
  intro n hn m hm hsame
  have hn' := List.mem_range.mp hn
  have hm' := List.mem_range.mp hm
  have htaken := List.append_cancel_left hsame
  rw [List.cons.injEq] at htaken
  have hfirst := Sha256.first_eq_of_take (by omega) htaken.2
  rw [dayFingerprint_bytes (by omega), dayFingerprint_bytes (by omega)] at hfirst
  exact List.inj_on_of_nodup_map hwords hn hm hfirst

theorem dayFingerprint_plain {n : ℕ} (hn : n < 66) : PlainFingerprint (dayFingerprint n) := by
  have hmetadata : ∀ n < 66, (safeMetadata (some (dayFingerprint n)) "input_fingerprint").toOption =
      some (some (dayFingerprint n)) := by decide +kernel
  have hcycle : ∀ n < 66, (safeMetadata (some ("screen:".toList ++ dayFingerprint n))
      "cycle_key").toOption = some (some ("screen:".toList ++ dayFingerprint n)) := by decide +kernel
  have hok : ∀ {answer : Except String (Option Text)} {value : Option Text},
      answer.toOption = some value → answer = .ok value := by
    intro answer value h
    cases answer with
    | ok found => exact congrArg _ (Option.some.inj h)
    | error message => cases h
  exact ⟨hok (hmetadata n hn), hok (hcycle n hn)⟩

/-- Sixty-six screens of different data, and then the first one again. -/
def repeatedScreen : List LifecycleInput :=
  (dayFingerprint 0 :: (List.range 65).map (fun n => dayFingerprint (n + 1)) ++
    [dayFingerprint 0]).flatMap (screenCycle sampleNoon succeeded true 0)

theorem repeatedScreen_launched_twice :
    ¬ Runs.Always (ResearchWorld.lifecycle true) (fun w => (launchedKeys w.log).Nodup) .initial
      repeatedScreen := by
  intro halways
  have hfingerprints : dayFingerprint 0 :: (List.range 65).map (fun n => dayFingerprint (n + 1)) =
      (List.range 66).map dayFingerprint := by
    rw [List.range_succ_eq_map, List.map_cons, List.map_map]
    rfl
  refine launched_again true sampleNoon succeeded true 0 ?_ ?_ ?_ halways.last
  · rw [List.length_map, List.length_range]
    decide
  · rw [hfingerprints]
    intro fingerprint hmem
    obtain ⟨n, hn, rfl⟩ := List.mem_map.mp hmem
    exact dayFingerprint_plain (List.mem_range.mp hn)
  · rw [hfingerprints]
    exact dayJobs_nodup sampleNoon

end QuantWorkbench.Runtime
