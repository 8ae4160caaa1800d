import QuantWorkbench.Storage.PublicRisk

/-!
Adverse evidence of public risks is sticky and durable in every run of calls and restarts whose
snapshots fit the reader and leave room for an adverse event. The reader takes at most eight
events of an assessment, and a first snapshot is not cut down to them.
-/

namespace QuantWorkbench.Storage

open Lib Data Intelligence

section

variable [CaseTable] [UrlTable]

/-! ### What is claimed of a run -/

def HasAdverse (assessment : PublicRiskAssessment) : Prop :=
  ∃ event ∈ assessment.events, event.level.IsAdverse

/-- The evidence of an assessment, and more. -/
structure Covers (old new : PublicRiskAssessment) : Prop where
  symbol : new.symbol = old.symbol
  severity : old.level.severity ≤ new.level.severity
  reasons : ∀ code ∈ old.reasonCodes.codes, code ∈ new.reasonCodes.codes
  events : HasAdverse old → HasAdverse new

def KeepsEvidence (before after : Option PublicRiskSnapshot) : Prop :=
  ∀ earlier ∈ before, ∀ old ∈ earlier.assessments, old.level.IsAdverse →
    ∃ later ∈ after, ∃ new ∈ later.assessments, Covers old new

/-- A store that is opened now has the snapshot of this one. -/
def RiskProcess.Durable (process : RiskProcess) : Prop := openRiskStore process.file = process.store

/-- An adverse event is among the eight latest: it has less than eight events before it that are
announced when it is or later, or after it that are announced later. -/
def AdverseAmongLatest (events : List PublicRiskEvent) : Prop :=
  ∃ before event after, events = before ++ event :: after ∧ event.level.IsAdverse ∧
    (before.filter fun other => event.announcedAt ≤ other.announcedAt).length +
      (after.filter fun other => event.announcedAt < other.announcedAt).length < 8

/-- The snapshot fits the reader, and newer events leave an adverse one. -/
structure Fits (held : Option PublicRiskSnapshot) (incoming : PublicRiskSnapshot) : Prop where
  windowStart : incoming.windowStart.isDate = true
  windowEnd : incoming.windowEnd.isDate = true
  assessments : held = none → incoming.assessments.length ≤ 1000
  events : ∀ new ∈ incoming.assessments,
    (∀ previous ∈ held, ∀ old ∈ previous.assessments, old.symbol = new.symbol →
      ¬ old.level.IsAdverse) → new.events.length ≤ 8
  adverse : ∀ previous ∈ held, ∀ old ∈ previous.assessments, ∀ new ∈ incoming.assessments,
    new.symbol = old.symbol → old.level.IsAdverse → HasAdverse old ∨ new.level.IsAdverse ∧
      HasAdverse new →
    AdverseAmongLatest (mergedEvents old.events new.events)

/-- What a call has to meet: a snapshot that is not older than the one in memory fits. -/
def FitsReader (process : RiskProcess) : RiskCall → Prop
  | .save incoming fault =>
      fault = none → (∀ previous ∈ process.latest, previous.fetchedAt ≤ incoming.fetchedAt) →
        Fits process.latest incoming
  | .restart => True

/-! ### The merged assessments -/

omit [CaseTable] [UrlTable] in
theorem isAdverse_iff {level : EventRiskLevel} :
    level.IsAdverse ↔ level = .blocked ∨ level = .review := by
  cases level <;> decide

theorem retainSymbol_of_not_adverse {merged : BySymbol} {old : PublicRiskAssessment}
    (h : ¬ old.level.IsAdverse) : retainSymbol merged old = merged := by
  rw [isAdverse_iff] at h
  exact if_neg h

theorem retainSymbol_none {merged : BySymbol} {old : PublicRiskAssessment}
    (h : old.level.IsAdverse) (hfound : merged.get? old.symbol = none) :
    retainSymbol merged old = merged.put old := by
  rw [isAdverse_iff] at h
  rw [retainSymbol, if_pos h]
  split
  · rfl
  · rename_i new hnew
    rw [hfound] at hnew
    cases hnew

theorem retainSymbol_some {merged : BySymbol} {old new : PublicRiskAssessment}
    (h : old.level.IsAdverse) (hfound : merged.get? old.symbol = some new) :
    ∃ hsymbol : new.symbol = old.symbol,
      retainSymbol merged old = merged.put (mergeAssessment old new hsymbol) := by
  rw [isAdverse_iff] at h
  refine ⟨(Keyed.get?_eq_some_iff.mp hfound).2, ?_⟩
  rw [retainSymbol, if_pos h]
  split
  · rename_i hnone
    rw [hfound] at hnone
    cases hnone
  · rename_i other hother
    cases hfound.symm.trans hother
    rfl

/-- What is merged for one symbol, from what was found for it. -/
inductive Retained (old : PublicRiskAssessment) :
    Option PublicRiskAssessment → PublicRiskAssessment → Prop
  | missing : Retained old none old
  | merged {new : PublicRiskAssessment} (hsymbol : new.symbol = old.symbol) :
      Retained old (some new) (mergeAssessment old new hsymbol)

theorem Retained.symbol {old result : PublicRiskAssessment} {found : Option PublicRiskAssessment}
    (h : Retained old found result) : result.symbol = old.symbol := by
  cases h with
  | missing => rfl
  | merged hsymbol => exact hsymbol

theorem Retained.events_le {old result : PublicRiskAssessment} {found : Option PublicRiskAssessment}
    (h : Retained old found result) (hold : old.events.length ≤ 8) : result.events.length ≤ 8 := by
  cases h with
  | missing => exact hold
  | merged hsymbol => exact List.length_take_le 8 _

theorem retainSymbol_adverse {merged : BySymbol} {old : PublicRiskAssessment}
    (h : old.level.IsAdverse) :
    ∃ result, Retained old (merged.get? old.symbol) result ∧
      retainSymbol merged old = merged.put result := by
  cases hfound : merged.get? old.symbol with
  | none => exact ⟨old, .missing, retainSymbol_none h hfound⟩
  | some new =>
      obtain ⟨hsymbol, hretain⟩ := retainSymbol_some h hfound
      exact ⟨_, .merged hsymbol, hretain⟩

theorem get?_retainSymbol_of_ne {merged : BySymbol} {old : PublicRiskAssessment} {symbol : Symbol}
    (h : symbol ≠ old.symbol) : (retainSymbol merged old).get? symbol = merged.get? symbol := by
  by_cases hadverse : old.level.IsAdverse
  · obtain ⟨result, hretained, hput⟩ := retainSymbol_adverse hadverse
    rw [hput]
    refine merged.get?_put_of_ne ?_
    rw [hretained.symbol]
    exact h
  · rw [retainSymbol_of_not_adverse hadverse]

/-- What is found for a symbol without adverse evidence stays. -/
theorem get?_retain_of_not_adverse {olds : List PublicRiskAssessment} {merged : BySymbol}
    {symbol : Symbol} (h : ∀ old ∈ olds, old.symbol = symbol → ¬ old.level.IsAdverse) :
    (olds.foldl retainSymbol merged).get? symbol = merged.get? symbol := by
  induction olds generalizing merged with
  | nil => rfl
  | cons old rest ih =>
      obtain ⟨hfirst, hrest⟩ := List.forall_mem_cons.mp h
      rw [List.foldl_cons, ih hrest]
      by_cases hsymbol : old.symbol = symbol
      · rw [retainSymbol_of_not_adverse (hfirst hsymbol)]
      · exact get?_retainSymbol_of_ne (Ne.symm hsymbol)

theorem get?_retain_of_mem {olds : List PublicRiskAssessment} {merged : BySymbol}
    {old : PublicRiskAssessment} (hdistinct : (olds.map fun a => a.symbol).Nodup)
    (hold : old ∈ olds)
    (h : old.level.IsAdverse) :
    ∃ result, Retained old (merged.get? old.symbol) result ∧
      (olds.foldl retainSymbol merged).get? old.symbol = some result := by
  induction olds generalizing merged with
  | nil => cases hold
  | cons first rest ih =>
      rw [List.map_cons, List.nodup_cons] at hdistinct
      rw [List.foldl_cons]
      rcases List.mem_cons.mp hold with rfl | hrest
      · obtain ⟨result, hretained, hput⟩ := retainSymbol_adverse h
        refine ⟨result, hretained, ?_⟩
        have hother : ∀ other ∈ rest, other.symbol = old.symbol → ¬ other.level.IsAdverse :=
          fun other hother hsame => absurd (List.mem_map.mpr ⟨other, hother, hsame⟩) hdistinct.1
        rw [get?_retain_of_not_adverse hother, hput, ← hretained.symbol, Keyed.get?_put]
      · have hne : old.symbol ≠ first.symbol :=
          fun hsame => hdistinct.1 (List.mem_map.mpr ⟨old, hrest, hsame⟩)
        obtain ⟨result, hretained, hfound⟩ := ih hdistinct.2 hrest
        rw [get?_retainSymbol_of_ne hne] at hretained
        exact ⟨result, hretained, hfound⟩

/-- Where what is merged comes from. -/
theorem mem_retain {olds : List PublicRiskAssessment} {merged : BySymbol}
    (hdistinct : (olds.map fun a => a.symbol).Nodup) {result : PublicRiskAssessment}
    (h : result ∈ (olds.foldl retainSymbol merged).values) :
    (∃ old ∈ olds, Retained old (merged.get? old.symbol) result) ∨
      result ∈ merged.values ∧ ∀ old ∈ olds, old.symbol = result.symbol → ¬ old.level.IsAdverse
        := by
  have hfound : (olds.foldl retainSymbol merged).get? result.symbol = some result :=
    Keyed.get?_eq_some_iff.mpr ⟨h, rfl⟩
  by_cases hadverse : ∃ old ∈ olds, old.symbol = result.symbol ∧ old.level.IsAdverse
  · obtain ⟨old, hold, hsymbol, hlevel⟩ := hadverse
    obtain ⟨other, hretained, hother⟩ := get?_retain_of_mem hdistinct hold hlevel
    rw [hsymbol, hfound] at hother
    cases hother
    exact Or.inl ⟨old, hold, hretained⟩
  · right
    have hnone : ∀ old ∈ olds, old.symbol = result.symbol → ¬ old.level.IsAdverse :=
      fun old hold hsymbol hlevel => hadverse ⟨old, hold, hsymbol, hlevel⟩
    rw [get?_retain_of_not_adverse hnone] at hfound
    exact ⟨(Keyed.get?_eq_some_iff.mp hfound).1, hnone⟩

/-! ### Evidence is kept -/

theorem Covers.refl (assessment : PublicRiskAssessment) : Covers assessment assessment :=
  ⟨rfl, Nat.le_refl _, fun _ h => h, id⟩

theorem Covers.trans {first second third : PublicRiskAssessment} (h : Covers first second)
    (h' : Covers second third) : Covers first third where
  symbol := h'.symbol.trans h.symbol
  severity := h.severity.trans h'.severity
  reasons code hcode := h'.reasons code (h.reasons code hcode)
  events hevents := h'.events (h.events hevents)

theorem KeepsEvidence.refl (held : Option PublicRiskSnapshot) : KeepsEvidence held held :=
  fun earlier hearlier old hold _ => ⟨earlier, hearlier, old, hold, .refl old⟩

theorem KeepsEvidence.trans {first second third : Option PublicRiskSnapshot}
    (h : KeepsEvidence first second) (h' : KeepsEvidence second third) :
    KeepsEvidence first third := by
  intro earlier hearlier old hold hadverse
  obtain ⟨middle, hmiddle, mid, hmid, hcovers⟩ := h earlier hearlier old hold hadverse
  have hmidAdverse : mid.level.IsAdverse := Nat.lt_of_lt_of_le hadverse hcovers.severity
  obtain ⟨later, hlater, new, hnew, hcovers'⟩ := h' middle hmiddle mid hmid hmidAdverse
  exact ⟨later, hlater, new, hnew, hcovers.trans hcovers'⟩

theorem adverse_kept {events : List PublicRiskEvent} (h : AdverseAmongLatest events) :
    ∃ event ∈ (latestFirst events).take 8, event.level.IsAdverse := by
  obtain ⟨before, event, after, rfl, hadverse, hcount⟩ := h
  refine ⟨event, ?_, hadverse⟩
  apply mem_take_insertionSort announcedLater
  have hbefore : (before.filter fun other => announcedLater other event) =
      before.filter fun other => event.announcedAt ≤ other.announcedAt :=
    List.filter_congr fun other _ => decide_eq_decide.mpr Iff.rfl
  have hafter : (after.filter fun other => ¬ announcedLater event other) =
      after.filter fun other => event.announcedAt < other.announcedAt :=
    List.filter_congr fun other _ => decide_eq_decide.mpr not_le
  rwa [hbefore, hafter]

/-- The level of a merged assessment is the graver one of the two. -/
theorem severity_mergeAssessment {old new : PublicRiskAssessment}
    (hsymbol : new.symbol = old.symbol)
    (hadverse : old.level.IsAdverse) :
    (mergeAssessment old new hsymbol).level.severity = max old.level.severity new.level.severity
    := by
  have hlevel : (mergeAssessment old new hsymbol).level =
      if old.level = .blocked ∨ new.level = .blocked then .blocked else .review := rfl
  rw [hlevel]
  cases hold : old.level with
  | clear => rw [hold] at hadverse; exact absurd hadverse (Nat.lt_irrefl 0)
  | unknown => rw [hold] at hadverse; exact absurd hadverse (Nat.lt_irrefl 0)
  | review => cases new.level <;> rfl
  | blocked => cases new.level <;> rfl

theorem mergeAssessment_covers_old {old new : PublicRiskAssessment}
    (hsymbol : new.symbol = old.symbol)
    (hadverse : old.level.IsAdverse)
    (hevents : HasAdverse old → AdverseAmongLatest (mergedEvents old.events new.events)) :
    Covers old (mergeAssessment old new hsymbol) where
  symbol := hsymbol
  severity := (severity_mergeAssessment hsymbol hadverse).symm ▸ le_max_left _ _
  reasons code hcode := by simp [mergeAssessment, hcode]
  events h := adverse_kept (hevents h)

theorem mergeAssessment_covers_new {old new : PublicRiskAssessment}
    (hsymbol : new.symbol = old.symbol)
    (hadverse : old.level.IsAdverse)
    (hevents : HasAdverse new → AdverseAmongLatest (mergedEvents old.events new.events)) :
    Covers new (mergeAssessment old new hsymbol) where
  symbol := rfl
  severity := (severity_mergeAssessment hsymbol hadverse).symm ▸ le_max_right _ _
  reasons code hcode := by simp [mergeAssessment, hcode]
  events h := adverse_kept (hevents h)

/-- The evidence of the snapshot before is kept. -/
theorem retain_keepsPrevious {previous incoming : PublicRiskSnapshot}
    (hfits : Fits (some previous) incoming) :
    KeepsEvidence (some previous) (some (incoming.withAssessments
      (previous.assessments.foldl retainSymbol incoming.bySymbol))) := by
  rintro _ ⟨⟩ old hold hadverse
  obtain ⟨result, hretained, hfound⟩ :=
    get?_retain_of_mem previous.bySymbol.nodup hold hadverse
  have hmem := (Keyed.get?_eq_some_iff.mp hfound).1
  refine ⟨_, rfl, result, (List.mem_insertionSort _).mpr hmem, ?_⟩
  generalize hincoming : incoming.bySymbol.get? old.symbol = found at hretained
  cases hretained with
  | missing => exact .refl old
  | merged hsymbol =>
      have hnew := (Keyed.get?_eq_some_iff.mp hincoming).1
      exact mergeAssessment_covers_old hsymbol hadverse fun h =>
        hfits.adverse previous rfl old hold _ hnew hsymbol hadverse (Or.inl h)

/-- The evidence of the accepted snapshot itself is kept. -/
theorem retain_keepsIncoming {previous incoming : PublicRiskSnapshot}
    (hfits : Fits (some previous) incoming) :
    KeepsEvidence (some incoming) (some (incoming.withAssessments
      (previous.assessments.foldl retainSymbol incoming.bySymbol))) := by
  rintro _ ⟨⟩ new hnew hnewAdverse
  have hincoming : incoming.bySymbol.get? new.symbol = some new :=
    Keyed.get?_eq_some_iff.mpr ⟨hnew, rfl⟩
  by_cases hadverse : ∃ old ∈ previous.assessments, old.symbol = new.symbol ∧ old.level.IsAdverse
  · obtain ⟨old, hold, hsymbol, hlevel⟩ := hadverse
    obtain ⟨result, hretained, hfound⟩ :=
      get?_retain_of_mem previous.bySymbol.nodup hold hlevel
    have hmem := (Keyed.get?_eq_some_iff.mp hfound).1
    refine ⟨_, rfl, result, (List.mem_insertionSort _).mpr hmem, ?_⟩
    rw [hsymbol, hincoming] at hretained
    cases hretained with
    | merged hsame =>
        exact mergeAssessment_covers_new hsame hlevel fun h =>
          hfits.adverse previous rfl old hold new hnew hsame hlevel (Or.inr ⟨hnewAdverse, h⟩)
  · have hnone : ∀ old ∈ previous.assessments, old.symbol = new.symbol → ¬ old.level.IsAdverse :=
      fun old hold hsymbol hlevel => hadverse ⟨old, hold, hsymbol, hlevel⟩
    have hfound : (previous.assessments.foldl retainSymbol incoming.bySymbol).get? new.symbol =
        some new := (get?_retain_of_not_adverse hnone).trans hincoming
    have hmem := (Keyed.get?_eq_some_iff.mp hfound).1
    exact ⟨_, rfl, new, (List.mem_insertionSort _).mpr hmem, .refl new⟩

theorem retain_withinBounds {previous incoming : PublicRiskSnapshot}
    (hprevious : WithinBounds previous)
    (hfits : Fits (some previous) incoming)
    (hlength : (previous.assessments.foldl retainSymbol incoming.bySymbol).values.length ≤ 1000) :
    WithinBounds (incoming.withAssessments
      (previous.assessments.foldl retainSymbol incoming.bySymbol)) where
  windowStart := hfits.windowStart
  windowEnd := hfits.windowEnd
  assessments := (List.length_insertionSort _ _).trans_le hlength
  events := by
    intro result hresult
    rcases mem_retain previous.bySymbol.nodup ((List.mem_insertionSort _).mp hresult) with
      ⟨old, hold, hretained⟩ | ⟨hincoming, hclear⟩
    · exact hretained.events_le (hprevious.events old hold)
    · refine hfits.events result hincoming ?_
      rintro _ ⟨⟩ old hold hsymbol
      exact hclear old hold hsymbol

/-! ### Durable stores -/

theorem RiskProcess.Durable.withinBounds {process : RiskProcess} (h : process.Durable)
    {snapshot : PublicRiskSnapshot} (hstore : process.store = .ok (some snapshot)) :
    WithinBounds snapshot := by
  unfold RiskProcess.Durable at h
  rw [hstore] at h
  cases hfile : process.file with
  | none =>
      rw [hfile] at h
      cases h
  | some text =>
      rw [hfile, openRiskStore] at h
      cases hload : loadRiskArtifact text with
      | error e =>
          rw [hload] at h
          cases h
      | ok loaded =>
          rw [hload] at h
          cases h
          exact loadRiskArtifact_withinBounds hload

theorem openRiskStore_written {snapshot : PublicRiskSnapshot} (h : WithinBounds snapshot)
    (hsize : (riskArtifactText snapshot).utf8.length ≤ riskArtifactLimit) :
    openRiskStore (some (riskArtifactText snapshot)) = .ok (some snapshot) := by
  rw [openRiskStore, (loadRiskArtifact_text_iff hsize).mpr h]
  rfl

/-! ### One call -/

def RiskProcess.accepted (process : RiskProcess) : RiskCall → Option PublicRiskSnapshot
  | .save incoming fault =>
      match process.store with
      | .error _ => none
      | .ok held => if (saveSnapshot held incoming fault).isOk then some incoming else none
  | .restart => none

/-- What a call that fits keeps. -/
structure KeepsAll (process : RiskProcess) (call : RiskCall) : Prop where
  durable : (process.step call).Durable
  previous : KeepsEvidence process.latest (process.step call).latest
  incoming : KeepsEvidence (process.accepted call) (process.step call).latest

theorem KeepsAll.of_rejected {process : RiskProcess} {call : RiskCall} (hdurable : process.Durable)
    (hstep : process.step call = process) (haccepted : process.accepted call = none) :
    KeepsAll process call where
  durable := by rwa [hstep]
  previous := by
    rw [hstep]
    exact .refl _
  incoming := by
    rw [haccepted]
    rintro _ ⟨⟩

theorem save_keepsAll {process : RiskProcess} {held : Option PublicRiskSnapshot}
    {incoming : PublicRiskSnapshot} {fault : Option String} (hdurable : process.Durable)
    (hstore : process.store = .ok held) (hmeets : FitsReader process (.save incoming fault)) :
    KeepsAll process (.save incoming fault) := by
  have hlatest : process.latest = held := by rw [RiskProcess.latest, hstore]
  cases hsave : saveSnapshot held incoming fault with
  | error e =>
      have hstep : process.step (.save incoming fault) = process := by
        simp only [RiskProcess.step, hstore, hsave]
      have haccepted : process.accepted (.save incoming fault) = none := by
        simp [RiskProcess.accepted, hstore, hsave, Except.isOk, Except.toBool]
      exact .of_rejected hdurable hstep haccepted
  | ok saved =>
      obtain ⟨text, snapshot⟩ := saved
      have hstep : process.step (.save incoming fault) = ⟨some text, .ok (some snapshot)⟩ := by
        simp only [RiskProcess.step, hstore, hsave]
      have haccepted : process.accepted (.save incoming fault) = some incoming := by
        simp [RiskProcess.accepted, hstore, hsave, Except.isOk, Except.toBool]
      obtain ⟨hfault, rfl, hsize, hsnapshot⟩ := saveSnapshot_eq_ok hsave
      rcases hsnapshot with ⟨rfl, rfl⟩ | ⟨previous, rfl, hfetched, hlength, rfl⟩
      · have hfits : Fits none snapshot := by
          have := hmeets hfault (by rw [hlatest]; rintro _ ⟨⟩)
          rwa [hlatest] at this
        have hbounds : WithinBounds snapshot :=
          ⟨hfits.windowStart, hfits.windowEnd, hfits.assessments rfl,
            fun new hnew => hfits.events new hnew (by rintro _ ⟨⟩)⟩
        refine ⟨?_, ?_, ?_⟩
        · rw [hstep]
          exact openRiskStore_written hbounds hsize
        · rw [hlatest]
          rintro _ ⟨⟩
        · rw [haccepted, hstep]
          exact .refl _
      · have hfits : Fits (some previous) incoming := by
          have := hmeets hfault (by rw [hlatest]; rintro _ ⟨⟩; exact hfetched)
          rwa [hlatest] at this
        have hbounds := retain_withinBounds (hdurable.withinBounds hstore) hfits hlength
        refine ⟨?_, ?_, ?_⟩
        · rw [hstep]
          exact openRiskStore_written hbounds hsize
        · rw [hlatest, hstep]
          exact retain_keepsPrevious hfits
        · rw [haccepted, hstep]
          exact retain_keepsIncoming hfits

theorem step_keepsAll {process : RiskProcess} {call : RiskCall} (hdurable : process.Durable)
    (hmeets : FitsReader process call) : KeepsAll process call := by
  cases call with
  | restart =>
      have hstep : process.step .restart = process := by
        rw [RiskProcess.step, hdurable]
      exact .of_rejected hdurable hstep rfl
  | save incoming fault =>
      cases hstore : process.store with
      | ok held => exact save_keepsAll hdurable hstore hmeets
      | error e =>
          have hstep : process.step (.save incoming fault) = process := by
            simp only [RiskProcess.step, hstore]
          have haccepted : process.accepted (.save incoming fault) = none := by
            simp only [RiskProcess.accepted, hstore]
          exact .of_rejected hdurable hstep haccepted

/-! ### Runs -/

/-- The program after some calls. -/
abbrev RiskProcess.run (process : RiskProcess) (calls : List RiskCall) : RiskProcess :=
  calls.foldl RiskProcess.step process

theorem run_keepsEvidence {process : RiskProcess} {calls : List RiskCall}
    (hdurable : process.Durable)
    (hmeets : Runs.StepsMeet RiskProcess.step FitsReader process calls) :
    KeepsEvidence process.latest (process.run calls).latest := by
  induction calls generalizing process with
  | nil => exact .refl _
  | cons call rest ih =>
      have hstep := step_keepsAll hdurable hmeets.1
      exact hstep.previous.trans (ih hstep.durable hmeets.2)

/-- Adverse evidence is sticky and durable: what a store that starts on a file has at one time, and
what it accepts, is covered by what it has at any later time, and it is always what the file has. -/
structure StickyAndDurable (process : RiskProcess) (calls : List RiskCall) : Prop where
  durable : Runs.Always RiskProcess.step RiskProcess.Durable process calls
  kept : ∀ earlier later, calls = earlier ++ later →
    KeepsEvidence (process.run earlier).latest (process.run calls).latest
  accepted : ∀ earlier call later, calls = earlier ++ call :: later →
    KeepsEvidence ((process.run earlier).accepted call) (process.run calls).latest

theorem durable_start (file : Option Text) : (RiskProcess.start file).Durable := rfl

theorem run_append (process : RiskProcess) (earlier later : List RiskCall) :
    process.run (earlier ++ later) = (process.run earlier).run later :=
  List.foldl_append

/-- In every run whose snapshots fit, adverse evidence is sticky and durable. -/
theorem stickyAndDurable_of_fits (file : Option Text) (calls : List RiskCall)
    (h : Runs.StepsMeet RiskProcess.step FitsReader (RiskProcess.start file) calls) :
    StickyAndDurable (RiskProcess.start file) calls := by
  have halways := Runs.always_of_stepsMeet RiskProcess.step RiskProcess.Durable
    (fun _ _ hdurable hmeets => (step_keepsAll hdurable hmeets).durable)
  refine ⟨halways _ _ (durable_start file) h, ?_, ?_⟩
  · rintro earlier later rfl
    obtain ⟨hearlier, hlater⟩ := (Runs.stepsMeet_append RiskProcess.step).mp h
    have hdurable := (halways _ _ (durable_start file) hearlier).last
    rw [run_append]
    exact run_keepsEvidence hdurable hlater
  · rintro earlier call later rfl
    obtain ⟨hearlier, hcall, hlater⟩ := (Runs.stepsMeet_append RiskProcess.step).mp h
    have hdurable := (halways _ _ (durable_start file) hearlier).last
    have hstep := step_keepsAll hdurable hcall
    rw [run_append]
    exact hstep.incoming.trans (run_keepsEvidence hstep.durable hlater)

end

section Sample

/-- The address of the sample events. -/
def sampleUrl : Text := "https://static.cninfo.com.cn/finalpage/1.PDF".toList

/-- What `urlsplit` finds in that address. -/
@[reducible] def sampleUrlTable : UrlTable :=
  ⟨fun url => if url = sampleUrl then
    some ⟨"https".toList, "static.cninfo.com.cn".toList, [], []⟩ else none⟩

attribute [local instance] CaseTable.caseless sampleUrlTable

def sampleDay : Date := .of 2026 1 5

def sampleTime : UtcDateTime := ⟨sampleDay, 0, 0, 0, 0⟩

def sampleSymbol : Symbol := ⟨"600000".toList, Eq.refl true⟩

def sampleName : RequiredText := .of "CNINFO".toList

def sampleReasons : ReasonCodes := ⟨[], List.nodup_nil⟩

def sampleEvent (digit : Fin 9) : PublicRiskEvent where
  eventId := ⟨⟨[Char.ofNat (49 + digit)], by revert digit; decide, by simp⟩, by simp⟩
  symbol := sampleSymbol
  name := ⟨sampleName, by decide⟩
  title := ⟨sampleName, by decide⟩
  announcedAt := sampleTime
  source := ⟨sampleName, by decide⟩
  sourceUrl := ⟨⟨sampleUrl, by decide, by decide⟩, by decide⟩
  level := .review
  reasonCodes := sampleReasons
  urlAccepted := by decide

def sampleAssessment (digits : List (Fin 9)) : PublicRiskAssessment where
  symbol := sampleSymbol
  name := sampleName
  level := .review
  reasonCodes := sampleReasons
  events := digits.map sampleEvent
  checkedAt := sampleTime
  ownEvents := by simp [sampleEvent]
  ordered := by
    rw [List.pairwise_map]
    exact List.pairwise_of_forall fun _ _ => le_rfl

def sampleSnapshot (digits : List (Fin 9)) : PublicRiskSnapshot where
  source := sampleName
  fetchedAt := sampleTime
  windowStart := .date sampleDay
  windowEnd := .date sampleDay
  status := .fresh
  noticeZh := sampleName
  assessments := [sampleAssessment digits]
  window := by decide
  ordered := List.pairwise_singleton _ _

theorem sample_accepted :
    saveSnapshot none (sampleSnapshot (List.finRange 9)) none =
      .ok (riskArtifactText (sampleSnapshot (List.finRange 9)), sampleSnapshot (List.finRange 9))
        := by
  have hsize : (riskArtifactText (sampleSnapshot (List.finRange 9))).utf8.length ≤
    riskArtifactLimit := by
    decide +kernel
  apply bind_eq_ok_iff.mpr
  refine ⟨_, rfl, bind_eq_ok_iff.mpr ⟨_, ?_, rfl⟩⟩
  exact bind_eq_ok_iff.mpr ⟨(), require_eq_ok_iff.mpr hsize, rfl⟩

/-- Nine events are accepted and written, and the file cannot be opened again. -/
theorem nineEvents_not_durable :
    ¬ StickyAndDurable (RiskProcess.start none) [.save (sampleSnapshot (List.finRange 9)) none]
    := by
  intro h
  obtain ⟨_, hdurable⟩ := h.durable
  have hstep : (RiskProcess.start none).step (.save (sampleSnapshot (List.finRange 9)) none) =
      ⟨some (riskArtifactText (sampleSnapshot (List.finRange 9))),
        .ok (some (sampleSnapshot (List.finRange 9)))⟩ := by
    simp only [RiskProcess.step, RiskProcess.start, openRiskStore, sample_accepted]
  rw [hstep] at hdurable
  have hbounds := RiskProcess.Durable.withinBounds hdurable rfl
  have hevents := hbounds.events (sampleAssessment (List.finRange 9)) List.mem_cons_self
  exact absurd hevents (by decide)

/-- One event is there after a restart. -/
theorem oneEvent_durable :
    StickyAndDurable (RiskProcess.start none) [.save (sampleSnapshot [0]) none, .restart] := by
  refine stickyAndDurable_of_fits none _ ⟨fun _ _ => ?_, trivial, trivial⟩
  refine ⟨rfl, rfl, fun _ => ?_, ?_, ?_⟩
  · decide
  · intro new hnew _
    cases List.mem_singleton.mp hnew
    decide
  · rintro _ ⟨⟩

end Sample

end QuantWorkbench.Storage
