import QuantWorkbench.Research.Evolution
import QuantWorkbench.Lib.EventLog
import QuantWorkbench.Lib.Runs

/-!
What the champion, the audit log and the tokens say about each other. All of it
survives a failed write except that a change which could not be saved is not undone.
-/

namespace QuantWorkbench.Research

open QuantWorkbench.Lib QuantWorkbench.Lib.EventLog

/-- The champion is the first one, the candidate of a report that passed every check, or
one that a record of the audit log replaced. -/
def Explained (startedWith : Option Text) (made : List EvolutionReport)
    (audit : List PromotionRecord) (champion : Option Text) : Prop :=
  champion = startedWith ∨
    (∃ report ∈ made, report.checks.all (·.2) = true ∧ champion = some report.candidateId) ∨
    ∃ record ∈ audit, champion = record.previousChampionId

/-- Each record replaces the champion of the one before it, and the last record made the
champion. -/
def AuditChained (champion : Option Text) (audit : List PromotionRecord) : Prop :=
  audit.IsChain (fun earlier later => later.previousChampionId = earlier.championId) ∧
    ∀ last ∈ audit.getLast?, champion = last.championId

def Unspent (subjectId digest : Text) (log : List EvolutionEvent) : Prop :=
  Since (fun past => ∃ token older, past = .issued subjectId token :: older ∧
      tokenDigest token = digest)
    (fun event => ∀ token, event ≠ .changed subjectId token) log

/-- Every change was authorised by a token that no earlier change had used. -/
def TokensSpentOnce (w : EvolutionWorld) : Prop :=
  Never (fun event past => ∃ subjectId token, event = .changed subjectId token ∧
    ¬ Unspent subjectId (tokenDigest token) past) w.log

def Genuine (made : List EvolutionReport) (reports : AList fun _ : Text => EvolutionReport) :
    Prop :=
  ∀ reportId report, reports.lookup reportId = some report → report ∈ made ∧
    (report.status = .awaitingManualApproval → report.checks.all (·.2) = true)

structure Sound (startedWith : Option Text) (made : List EvolutionReport) (s : SavedEvolution) :
    Prop where
  explained : Explained startedWith made s.audit s.championId
  chained : AuditChained s.championId s.audit
  genuine : Genuine made s.reports

/-- What holds of the registry and of its state file in every run. -/
structure EvolutionKept (statePath : Bool) (w : EvolutionWorld) : Prop where
  memory : Sound w.startedWith w.made w.registry.saved
  stored : w.disk.isSome = statePath
  disk : ∀ saved ∈ w.disk, Sound w.startedWith w.made saved
  tokens : ∀ subjectId digest, w.registry.tokens.lookup subjectId = some digest →
    Unspent subjectId digest w.log
  spent : TokensSpentOnce w

theorem sound_fresh (championId : Option Text) (made : List EvolutionReport) :
    Sound championId made (EvolutionRegistry.fresh championId).saved where
  explained := Or.inl rfl
  chained := ⟨List.IsChain.nil, fun _ hlast => nomatch hlast⟩
  genuine := fun _ _ hreport => nomatch hreport

theorem Sound.made {startedWith : Option Text} {made : List EvolutionReport}
    {s : SavedEvolution} (h : Sound startedWith made s) (report : EvolutionReport) :
    Sound startedWith (report :: made) s where
  explained := by
    rcases h.explained with hfirst | ⟨passed, hpassed, hchampion⟩ | hreplaced
    · exact Or.inl hfirst
    · exact Or.inr (Or.inl ⟨passed, List.mem_cons_of_mem _ hpassed, hchampion⟩)
    · exact Or.inr (Or.inr hreplaced)
  chained := h.chained
  genuine := by
    intro reportId found hfound
    obtain ⟨hmade, hpassed⟩ := h.genuine reportId found hfound
    exact ⟨List.mem_cons_of_mem _ hmade, hpassed⟩

variable {statePath : Bool} {w : EvolutionWorld}

theorem EvolutionKept.persist (h : EvolutionKept statePath w) (write : Bool) :
    EvolutionKept statePath (w.persist statePath write).1 := by
  unfold EvolutionWorld.persist
  split
  · exact h
  · rename_i hpath
    split
    · refine ⟨h.memory, ?_, ?_, h.tokens, h.spent⟩
      · simpa using hpath
      · rintro _ ⟨⟩
        exact h.memory
    · exact h

/-- A new registry takes over what the file says, or starts with nothing. -/
theorem EvolutionKept.construct (h : EvolutionKept statePath w) (championId : Option Text) :
    EvolutionKept statePath (w.construct statePath championId) := by
  have hnothing : ∀ subjectId digest,
      (∅ : AList fun _ : Text => Text).lookup subjectId = some digest →
        Unspent subjectId digest w.log := fun _ _ hnone => nomatch hnone
  unfold EvolutionWorld.construct
  split
  · rename_i saved hsaved
    have hpath : statePath = true := by
      rw [← h.stored, hsaved]
      rfl
    rw [if_pos hpath]
    exact ⟨h.disk saved hsaved, h.stored, h.disk, hnothing, h.spent⟩
  · rename_i hnone
    have hfresh : EvolutionKept statePath
        { w with registry := .fresh championId, startedWith := championId } := by
      refine ⟨sound_fresh championId w.made, h.stored, ?_, hnothing, h.spent⟩
      intro saved hsaved
      rw [show (_ : EvolutionWorld).disk = _ from hnone] at hsaved
      cases hsaved
    exact hfresh.persist true

theorem evolutionKept_initial (statePath : Bool) (championId : Option Text) :
    EvolutionKept statePath (EvolutionWorld.initial statePath championId) := by
  unfold EvolutionWorld.initial EvolutionWorld.construct EvolutionWorld.persist
  have hempty : ∀ disk, disk.isSome = statePath →
      (∀ saved ∈ disk, saved = (EvolutionRegistry.fresh championId).saved) →
        EvolutionKept statePath ⟨.fresh championId, disk, championId, [], []⟩ := by
    intro disk hstored hdisk
    refine ⟨sound_fresh _ _, hstored, ?_, (fun _ _ hnone => nomatch hnone), never_nil _⟩
    intro saved hsaved
    rw [hdisk saved hsaved]
    exact sound_fresh _ _
  cases statePath with
  | false => exact hempty none rfl (fun _ hnone => nomatch hnone)
  | true => exact hempty (some _) rfl (by rintro _ ⟨⟩; rfl)

theorem lookup_erase_some {α : Type} {all : AList fun _ : Text => α} {key other : Text}
    {value : α} (h : (all.erase key).lookup other = some value) :
    other ≠ key ∧ all.lookup other = some value := by
  by_cases heq : other = key
  · subst heq
    rw [AList.lookup_erase] at h
    cases h
  · rw [AList.lookup_erase_ne heq] at h
    exact ⟨heq, h⟩

/-- Tokens may be dropped. -/
theorem EvolutionKept.erase (h : EvolutionKept statePath w) (subjectId : Text) :
    EvolutionKept statePath { w with registry :=
      { w.registry with tokens := w.registry.tokens.erase subjectId } } where
  memory := h.memory
  stored := h.stored
  disk := h.disk
  tokens := fun other digest hfound => h.tokens other digest (lookup_erase_some hfound).2
  spent := h.spent

theorem Unspent.record {subjectId digest : Text} {log : List EvolutionEvent}
    (h : Unspent subjectId digest log) {event : EvolutionEvent}
    (hother : ∀ token, event ≠ .changed subjectId token) :
    Unspent subjectId digest (event :: log) :=
  Since.record h hother

theorem EvolutionKept.issue (h : EvolutionKept statePath w) (subjectId token : Text) :
    EvolutionKept statePath (({ w with registry := { w.registry with
      tokens := w.registry.tokens.insert subjectId (tokenDigest token) } } :
        EvolutionWorld).record (.issued subjectId token)) where
  memory := h.memory
  stored := h.stored
  disk := h.disk
  tokens := by
    intro other digest hfound
    by_cases heq : other = subjectId
    · subst heq
      rw [show (_ : EvolutionWorld).registry.tokens.lookup other = some (tokenDigest token) from
        AList.lookup_insert _] at hfound
      cases hfound
      exact .now ⟨token, w.log, rfl, rfl⟩
    · have hold : w.registry.tokens.lookup other = some digest := by
        rw [← hfound]
        exact (AList.lookup_insert_ne heq).symm
      exact (h.tokens other digest hold).record (by simp)
  spent := by
    refine never_cons_iff.mpr ⟨?_, h.spent⟩
    rintro ⟨_, _, heq, _⟩
    cases heq

theorem EvolutionKept.register (h : EvolutionKept statePath w) (report : EvolutionReport)
    (hreport : report.status = .awaitingManualApproval → report.checks.all (·.2) = true) :
    EvolutionKept statePath { w with
      registry := { w.registry with reports := w.registry.reports.insert report.reportId report }
      made := report :: w.made } where
  memory := by
    have hold := h.memory.made report
    refine ⟨hold.explained, hold.chained, ?_⟩
    intro reportId found hfound
    by_cases heq : reportId = report.reportId
    · subst heq
      rw [show (_ : SavedEvolution).reports.lookup report.reportId = some report from
        AList.lookup_insert _] at hfound
      cases hfound
      exact ⟨List.mem_cons_self, hreport⟩
    · apply hold.genuine reportId found
      rw [← hfound]
      exact (AList.lookup_insert_ne heq).symm
  stored := h.stored
  disk := fun saved hsaved => (h.disk saved hsaved).made report
  tokens := h.tokens
  spent := h.spent

/-- The world after a change of the champion, before it is written. -/
def changed (subjectId token : Text) (entry : Option Text → PromotionRecord)
    (w : EvolutionWorld) : EvolutionWorld :=
  ({ w with registry := {
      w.registry with
      championId := (entry w.registry.championId).championId
      tokens := w.registry.tokens.erase subjectId
      audit := w.registry.audit ++ [entry w.registry.championId] } } :
    EvolutionWorld).record (.changed subjectId token)

theorem EvolutionKept.changed (h : EvolutionKept statePath w) {subjectId token : Text}
    {entry : Option Text → PromotionRecord}
    (htoken : w.registry.tokens.lookup subjectId = some (tokenDigest token))
    (hprevious : ∀ previous, (entry previous).previousChampionId = previous)
    (hexplained : ∀ previous, Explained w.startedWith w.made w.registry.audit
      (entry previous).championId) :
    EvolutionKept statePath (Research.changed subjectId token entry w) where
  memory := by
    refine ⟨?_, ⟨?_, ?_⟩, h.memory.genuine⟩
    · rcases hexplained w.registry.championId with hfirst | hreport | ⟨record, hrecord, hold⟩
      · exact Or.inl hfirst
      · exact Or.inr (Or.inl hreport)
      · exact Or.inr (Or.inr ⟨record, List.mem_append_left _ hrecord, hold⟩)
    · apply h.memory.chained.1.append (List.isChain_singleton _)
      rintro last hlast _ ⟨⟩
      rw [hprevious]
      exact h.memory.chained.2 last hlast
    · intro last hlast
      change last ∈ (w.registry.audit ++ [entry w.registry.championId]).getLast? at hlast
      rw [List.getLast?_concat] at hlast
      cases hlast
      rfl
  stored := h.stored
  disk := h.disk
  tokens := by
    intro other digest hfound
    obtain ⟨hne, hold⟩ := lookup_erase_some hfound
    apply (h.tokens other digest hold).record
    rintro _ ⟨⟩
    exact hne rfl
  spent := by
    refine never_cons_iff.mpr ⟨?_, h.spent⟩
    rintro ⟨_, _, ⟨⟩, hspent⟩
    exact hspent (h.tokens subjectId _ htoken)

theorem changeChampion_refused {subjectId token : Text} {entry : Option Text → PromotionRecord}
    {write : Bool} (htoken : w.registry.tokens.lookup subjectId ≠ some (tokenDigest token)) :
    w.changeChampion statePath write subjectId token entry =
      ({ w with registry := { w.registry with tokens := w.registry.tokens.erase subjectId } },
        .error "confirmation token is invalid or already used") := by
  unfold EvolutionWorld.changeChampion EvolutionRegistry.consumeToken
  rw [decide_eq_false htoken]

theorem changeChampion_accepted {subjectId token : Text}
    {entry : Option Text → PromotionRecord} {write : Bool}
    (htoken : w.registry.tokens.lookup subjectId = some (tokenDigest token)) :
    w.changeChampion statePath write subjectId token entry =
      (((changed subjectId token entry w).persist statePath write).1,
        if ((changed subjectId token entry w).persist statePath write).2 then
          .ok (entry w.registry.championId)
        else .error "OSError") := by
  unfold EvolutionWorld.changeChampion EvolutionRegistry.consumeToken
  rw [decide_eq_true htoken]
  generalize hresult : (changed subjectId token entry w).persist statePath write = result
  obtain ⟨after, ok⟩ := result
  unfold changed at hresult
  simp only [hresult]
  cases ok with
  | true => rfl
  | false => rfl

theorem EvolutionKept.changeChampion (h : EvolutionKept statePath w) {subjectId token : Text}
    {entry : Option Text → PromotionRecord} (write : Bool)
    (hprevious : ∀ previous, (entry previous).previousChampionId = previous)
    (hexplained : ∀ previous, Explained w.startedWith w.made w.registry.audit
      (entry previous).championId) :
    EvolutionKept statePath (w.changeChampion statePath write subjectId token entry).1 := by
  by_cases htoken : w.registry.tokens.lookup subjectId = some (tokenDigest token)
  · rw [changeChampion_accepted htoken]
    exact (h.changed htoken hprevious hexplained).persist write
  · rw [changeChampion_refused htoken]
    exact h.erase subjectId

theorem evolutionKept_step (statePath : Bool) (w : EvolutionWorld) (input : EvolutionInput)
    (h : EvolutionKept statePath w) : EvolutionKept statePath (w.step statePath input) := by
  cases input with
  | evaluate metrics hex now write =>
      simp only [EvolutionWorld.step, EvolutionWorld.evaluate, EvolutionWorld.registerReport]
      have hregistered := h.register {
          reportId := "evolution-".toList ++ hex
          candidateId := metrics.candidateId.strip
          status := if metrics.checks.all (·.2) then .awaitingManualApproval else .blocked
          checks := metrics.checks
          createdAt := now } (by
        intro hawaiting
        by_contra hfailed
        rw [if_neg hfailed] at hawaiting
        cases hawaiting)
      have hpersisted := hregistered.persist write
      generalize EvolutionWorld.persist statePath write _ = result at hpersisted ⊢
      obtain ⟨after, ok⟩ := result
      cases ok with
      | true => exact hpersisted
      | false => exact hpersisted
  | issueConfirmationToken subjectId token =>
      simp only [EvolutionWorld.step, EvolutionWorld.issueConfirmationToken]
      split
      · exact h
      · split
        · exact h
        · exact h.issue subjectId token
  | approve reportId token hex now write =>
      simp only [EvolutionWorld.step, EvolutionWorld.approve]
      split
      · rename_i report hreport
        split
        · rename_i hawaiting
          obtain ⟨hmade, hpassed⟩ := h.memory.genuine reportId report hreport
          exact h.changeChampion write (fun _ => rfl) fun _ =>
            Or.inr (Or.inl ⟨report, hmade, hpassed hawaiting, rfl⟩)
        · exact h
      · exact h
  | rollback recordId token hex now write =>
      simp only [EvolutionWorld.step, EvolutionWorld.rollback]
      split
      · rename_i original horiginal
        exact h.changeChampion write (fun _ => rfl) fun _ =>
          Or.inr (Or.inr ⟨original, List.mem_of_find?_eq_some horiginal, rfl⟩)
      · exact h
  | invalidateConfirmationToken subjectId => exact h.erase subjectId
  | restart championId => exact h.construct championId

/-- The state file, if there is one, holds the champion and the audit log of memory. -/
def OnDisk (statePath : Bool) (w : EvolutionWorld) : Prop :=
  statePath = true → ∃ saved ∈ w.disk,
    saved.championId = w.registry.championId ∧ saved.audit = w.registry.audit

/-- The champion and the audit log are unchanged and on disk. -/
structure Untouched (statePath : Bool) (w after : EvolutionWorld) : Prop where
  championId : after.registry.championId = w.registry.championId
  audit : after.registry.audit = w.registry.audit
  onDisk : OnDisk statePath after

/-- An approval or a rollback that raises leaves everything as it was. -/
def ErrorsAtomic (statePath : Bool) (w : EvolutionWorld) : EvolutionInput → Prop
  | .approve reportId token hex now write =>
      (∃ name, (w.approve statePath write reportId token hex now).2 = .error name) →
        Untouched statePath w (w.approve statePath write reportId token hex now).1
  | .rollback recordId token hex now write =>
      (∃ name, (w.rollback statePath write recordId token hex now).2 = .error name) →
        Untouched statePath w (w.rollback statePath write recordId token hex now).1
  | _ => True

/-- An approval or a rollback that passes its checks can write the state file. -/
def SavesChanges (statePath : Bool) (w : EvolutionWorld) : EvolutionInput → Prop
  | .approve reportId token _ _ write => statePath = true →
      (∃ report ∈ w.registry.reports.lookup reportId,
        report.status = .awaitingManualApproval) →
          w.registry.tokens.lookup reportId = some (tokenDigest token) → write = true
  | .rollback recordId token _ _ write => statePath = true →
      (∃ found ∈ w.registry.audit, found.recordId = recordId) →
        w.registry.tokens.lookup recordId = some (tokenDigest token) → write = true
  | _ => True

theorem onDisk_persist (write : Bool) (h : OnDisk statePath w) :
    OnDisk statePath (w.persist statePath write).1 := by
  unfold EvolutionWorld.persist
  split
  · exact h
  · split
    · exact fun _ => ⟨_, rfl, rfl, rfl⟩
    · exact h

/-- A change that is written is on disk. -/
theorem onDisk_changed {subjectId token : Text} {entry : Option Text → PromotionRecord}
    {write : Bool} (hwrite : statePath = true → write = true) :
    OnDisk statePath ((changed subjectId token entry w).persist statePath write).1 := by
  intro hpath
  unfold EvolutionWorld.persist
  rw [if_neg (by simp [hpath]), if_pos (hwrite hpath)]
  exact ⟨_, rfl, rfl, rfl⟩

theorem persist_registry (write : Bool) :
    (w.persist statePath write).1.registry = w.registry := by
  unfold EvolutionWorld.persist
  cases statePath <;> cases write <;> rfl

theorem persist_ok_iff {write : Bool} :
    (w.persist statePath write).2 = true ↔ (statePath = true → write = true) := by
  unfold EvolutionWorld.persist
  cases statePath <;> cases write <;> simp

/-- A change that raises leaves everything as it was exactly if its token was refused. -/
theorem changeChampion_atomic_iff (h : OnDisk statePath w) {subjectId token : Text}
    {entry : Option Text → PromotionRecord} {write : Bool} :
    ((∃ name, (w.changeChampion statePath write subjectId token entry).2 = .error name) →
        Untouched statePath w (w.changeChampion statePath write subjectId token entry).1) ↔
      (statePath = true → w.registry.tokens.lookup subjectId = some (tokenDigest token) →
        write = true) := by
  by_cases htoken : w.registry.tokens.lookup subjectId = some (tokenDigest token)
  · rw [changeChampion_accepted htoken]
    constructor
    · intro hatomic hpath _
      by_contra hwrite
      have hfailed : ¬ ((changed subjectId token entry w).persist statePath write).2 = true := by
        rw [persist_ok_iff]
        exact fun himp => hwrite (himp hpath)
      have hsame := (hatomic ⟨"OSError", if_neg hfailed⟩).audit
      rw [persist_registry] at hsame
      simp [changed, EvolutionWorld.record] at hsame
    · rintro hwrite ⟨name, hraised⟩
      have hok : ((changed subjectId token entry w).persist statePath write).2 = true :=
        persist_ok_iff.mpr fun hpath => hwrite hpath htoken
      rw [if_pos hok] at hraised
      cases hraised
  · rw [changeChampion_refused htoken]
    exact ⟨fun _ _ hfound => absurd hfound htoken, fun _ _ => ⟨rfl, rfl, h⟩⟩

theorem onDisk_changeChampion (h : OnDisk statePath w) {subjectId token : Text}
    {entry : Option Text → PromotionRecord} {write : Bool}
    (hwrite : statePath = true →
      w.registry.tokens.lookup subjectId = some (tokenDigest token) → write = true) :
    OnDisk statePath (w.changeChampion statePath write subjectId token entry).1 := by
  by_cases htoken : w.registry.tokens.lookup subjectId = some (tokenDigest token)
  · rw [changeChampion_accepted htoken]
    exact onDisk_changed fun hpath => hwrite hpath htoken
  · rw [changeChampion_refused htoken]
    exact h

theorem errorsAtomic_iff (h : OnDisk statePath w) (input : EvolutionInput) :
    ErrorsAtomic statePath w input ↔ SavesChanges statePath w input := by
  cases input with
  | approve reportId token hex now write =>
      simp only [ErrorsAtomic, SavesChanges, EvolutionWorld.approve]
      cases hreport : w.registry.reports.lookup reportId with
      | none =>
          simp only [Option.mem_def, reduceCtorEq, false_and, exists_false, false_imp_iff,
            implies_true, iff_true]
          exact fun _ => ⟨rfl, rfl, h⟩
      | some report =>
          by_cases hawaiting : report.status = .awaitingManualApproval
          · simp only [if_pos hawaiting]
            rw [changeChampion_atomic_iff h]
            simp [hawaiting]
          · simp only [if_neg hawaiting]
            simp only [Option.mem_def, Option.some.injEq, exists_eq_left', hawaiting,
              false_imp_iff, implies_true, iff_true]
            exact fun _ => ⟨rfl, rfl, h⟩
  | rollback recordId token hex now write =>
      simp only [ErrorsAtomic, SavesChanges, EvolutionWorld.rollback]
      cases hfound : w.registry.audit.find? fun found => found.recordId = recordId with
      | none =>
          have hunknown : ¬ ∃ found ∈ w.registry.audit, found.recordId = recordId := by
            simpa using hfound
          simp only [hunknown, false_imp_iff, implies_true, iff_true]
          exact fun _ => ⟨rfl, rfl, h⟩
      | some original =>
          have hknown : ∃ found ∈ w.registry.audit, found.recordId = recordId := by
            refine ⟨original, List.mem_of_find?_eq_some hfound, ?_⟩
            simpa using List.find?_some hfound
          simp only [hknown, true_imp_iff]
          exact changeChampion_atomic_iff h
  | _ => exact Iff.rfl

theorem onDisk_step (statePath : Bool) (w : EvolutionWorld) (input : EvolutionInput)
    (h : OnDisk statePath w) (hsaves : SavesChanges statePath w input) :
    OnDisk statePath (w.step statePath input) := by
  cases input with
  | evaluate metrics hex now write =>
      simp only [EvolutionWorld.step, EvolutionWorld.evaluate, EvolutionWorld.registerReport]
      have hpersisted : ∀ report : EvolutionReport, OnDisk statePath (EvolutionWorld.persist
          statePath write { w with
            registry := { w.registry with
              reports := w.registry.reports.insert report.reportId report }
            made := report :: w.made }).1 := fun report => onDisk_persist write h
      have hreport := hpersisted {
        reportId := "evolution-".toList ++ hex
        candidateId := metrics.candidateId.strip
        status := if metrics.checks.all (·.2) then .awaitingManualApproval else .blocked
        checks := metrics.checks
        createdAt := now }
      generalize EvolutionWorld.persist statePath write _ = result at hreport ⊢
      obtain ⟨after, ok⟩ := result
      cases ok with
      | true => exact hreport
      | false => exact hreport
  | issueConfirmationToken subjectId token =>
      simp only [EvolutionWorld.step, EvolutionWorld.issueConfirmationToken]
      split
      · exact h
      · split
        · exact h
        · exact h
  | approve reportId token hex now write =>
      simp only [EvolutionWorld.step, EvolutionWorld.approve]
      split
      · rename_i report hreport
        split
        · rename_i hawaiting
          exact onDisk_changeChampion h fun hpath htoken =>
            hsaves hpath ⟨report, hreport, hawaiting⟩ htoken
        · exact h
      · exact h
  | rollback recordId token hex now write =>
      simp only [EvolutionWorld.step, EvolutionWorld.rollback]
      split
      · rename_i original horiginal
        have hknown : ∃ found ∈ w.registry.audit, found.recordId = recordId := by
          refine ⟨original, List.mem_of_find?_eq_some horiginal, ?_⟩
          simpa using List.find?_some horiginal
        exact onDisk_changeChampion h fun hpath htoken => hsaves hpath hknown htoken
      · exact h
  | invalidateConfirmationToken subjectId => exact h
  | restart championId =>
      simp only [EvolutionWorld.step, EvolutionWorld.construct]
      split
      · rename_i saved hsaved
        split
        · exact fun _ => ⟨saved, hsaved, rfl, rfl⟩
        · rename_i hpath
          exact fun hstored => absurd hstored hpath
      · intro hpath
        unfold EvolutionWorld.persist
        rw [if_neg (by simp [hpath]), if_pos rfl]
        exact ⟨_, rfl, rfl, rfl⟩

/-- In every run the champion is explained by a report or the audit log, the audit log
chains up to the champion and each token authorises one change; and approvals and
rollbacks that raise leave everything as it was exactly if none of them passes its checks
and then fails to write. -/
theorem evolution_run (statePath : Bool) (championId : Option Text)
    (inputs : List EvolutionInput) :
    Runs.Always (EvolutionWorld.step statePath)
      (fun w => Explained w.startedWith w.made w.registry.audit w.registry.championId ∧
        AuditChained w.registry.championId w.registry.audit ∧ TokensSpentOnce w)
      (.initial statePath championId) inputs ∧
    (Runs.StepsMeet (EvolutionWorld.step statePath) (ErrorsAtomic statePath)
        (.initial statePath championId) inputs ↔
      Runs.StepsMeet (EvolutionWorld.step statePath) (SavesChanges statePath)
        (.initial statePath championId) inputs) := by
  constructor
  · have hkept := Runs.always_of_invariant (EvolutionWorld.step statePath)
      (EvolutionKept statePath) (evolutionKept_step statePath) (.initial statePath championId)
      inputs (evolutionKept_initial statePath championId)
    apply hkept.imp
    exact fun w h => ⟨h.memory.explained, h.memory.chained, h.spent⟩
  · have hinitial : OnDisk statePath (.initial statePath championId) := by
      intro hpath
      unfold EvolutionWorld.initial EvolutionWorld.construct EvolutionWorld.persist
      simp only [if_neg (show ¬ statePath = false by simp [hpath]), if_true]
      exact ⟨_, rfl, rfl, rfl⟩
    exact Runs.stepsMeet_congr _ (OnDisk statePath) (onDisk_step statePath)
      (fun w input h => errorsAtomic_iff h input) _ inputs hinitial

def sampleMetrics : EvolutionMetrics where
  candidateId := "challenger".toList
  shadowDays := 60
  maturedSamples := 1000
  oosWindows := 3
  improvedHorizons := 2
  brierNotWorse := true
  eceNotWorse := true
  netPerformanceBetter := true
  drawdownOk := true
  capacityOk := true
  deflatedSharpePass := true
  pboPass := true
  regimesPass := true
  reproducible := true
  leakageDetected := false

/-- A report that passed and its token; the approval cannot be written. -/
def unsavedApproval : List EvolutionInput :=
  [.evaluate sampleMetrics "1".toList 0 true,
    .issueConfirmationToken "evolution-1".toList "token".toList,
    .approve "evolution-1".toList "token".toList "2".toList 0 false]

theorem unsavedApproval_changes :
    ¬ Runs.StepsMeet (EvolutionWorld.step true) (ErrorsAtomic true)
      (.initial true (some "champion-v1".toList)) unsavedApproval := by
  rintro ⟨_, _, hatomic, _⟩
  have hwritten := (errorsAtomic_iff (fun _ => ⟨_, rfl, rfl, rfl⟩) _).mp hatomic rfl
    ⟨_, rfl, rfl⟩ rfl
  cases hwritten

end QuantWorkbench.Research
