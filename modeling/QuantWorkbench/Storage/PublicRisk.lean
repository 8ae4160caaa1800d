import QuantWorkbench.Intelligence.Contracts
import QuantWorkbench.Lib.Runs
import QuantWorkbench.Lib.StableSort

/-!
The cache of public risk snapshots: one file that is replaced by each accepted snapshot, and
that is read back when the program starts again. A snapshot takes over the adverse evidence
of the one before it.
-/

namespace QuantWorkbench.Storage

open Lib Data Intelligence

section

variable [CaseTable] [UrlTable]

/-! ### Reading -/


def decodeEvent (payload : Json) : Option PublicRiskEvent := do
  guard (payload.hasKeys eventFields = true)
  let eventId ← payload.text? "event_id"
  let symbol ← payload.text? "symbol"
  let name ← payload.text? "name"
  let title ← payload.text? "title"
  let announcedAt ← (payload.text? "announced_at").bind UtcDateTime.fromisoformat
  let source ← payload.text? "source"
  let sourceUrl ← payload.text? "source_url"
  let level ← (payload.text? "level").bind EventRiskLevel.ofValue?
  let reasonCodes ← payload.field "reason_codes" Json.asTexts
  (PublicRiskEvent.create eventId symbol name title announcedAt source sourceUrl level
    reasonCodes).toOption

def decodeAssessment (payload : Json) : Option PublicRiskAssessment := do
  guard (payload.hasKeys assessmentFields = true)
  let symbol ← payload.text? "symbol"
  let name ← payload.text? "name"
  let level ← (payload.text? "level").bind EventRiskLevel.ofValue?
  let reasonCodes ← payload.field "reason_codes" Json.asTexts
  let events ← payload.field "events" (Json.asList decodeEvent)
  let checkedAt ← (payload.text? "checked_at").bind UtcDateTime.fromisoformat
  guard (events.length ≤ 8)
  (PublicRiskAssessment.create symbol name level reasonCodes events checkedAt).toOption

def decodeSnapshot (payload : Json) : Option PublicRiskSnapshot := do
  guard (payload.hasKeys snapshotFields = true)
  let assessments ← payload.field "assessments" (Json.asList decodeAssessment)
  guard (assessments.length ≤ 1000)
  let source ← payload.text? "source"
  let fetchedAt ← (payload.text? "fetched_at").bind UtcDateTime.fromisoformat
  let windowStart ← (payload.text? "window_start").bind Day.fromisoformat
  let windowEnd ← (payload.text? "window_end").bind Day.fromisoformat
  let status ← payload.text? "status"
  let noticeZh ← payload.text? "notice_zh"
  (PublicRiskSnapshot.create source fetchedAt windowStart windowEnd status noticeZh
    assessments).toOption

def riskArtifactLimit : ℕ := 4 * 1024 * 1024

def riskArtifactFields : List Text := ["format_version".toList, "snapshot".toList]

def loadRiskArtifact (text : Text) : Except String PublicRiskSnapshot :=
  orRaise (do
      guard (text ≠ [] ∧ text.utf8.length ≤ riskArtifactLimit)
      let payload ← Json.loads text
      guard (payload.hasKeys riskArtifactFields = true)
      guard (payload.count? "format_version" = some 1)
      payload.field "snapshot" decodeSnapshot)
    "public risk artifact is invalid"

/-! ### What is written is read back -/

theorem decodeEvent_toDict (event : PublicRiskEvent) : decodeEvent event.toDict = some event := by
  have hkeys : event.toDict.hasKeys eventFields = true := Json.hasKeys_obj eventFields rfl
  have hid : event.toDict.text? "event_id" = some event.eventId.text := rfl
  have hsymbol : event.toDict.text? "symbol" = some event.symbol.text := rfl
  have hname : event.toDict.text? "name" = some event.name.text := rfl
  have htitle : event.toDict.text? "title" = some event.title.text := rfl
  have hannounced : event.toDict.text? "announced_at" = some event.announcedAt.isoformat := rfl
  have hsource : event.toDict.text? "source" = some event.source.text := rfl
  have hurl : event.toDict.text? "source_url" = some event.sourceUrl.text := rfl
  have hlevel : event.toDict.text? "level" = some event.level.value := rfl
  have hreasons : event.toDict.field "reason_codes" Json.asTexts = some event.reasonCodes.texts :=
    Json.asTexts_map event.reasonCodes.texts
  rw [decodeEvent, hkeys, hid, hsymbol, hname, htitle, hannounced, hsource, hurl, hlevel, hreasons]
  simp only [guard, if_true, Option.bind_eq_bind, Option.bind_some, Option.pure_def,
    UtcDateTime.fromisoformat_isoformat, EventRiskLevel.ofValue?_value, event.create_self]
  rfl

/-- An assessment is read back unless it has too many events. -/
theorem decodeAssessment_toDict (assessment : PublicRiskAssessment) :
    decodeAssessment assessment.toDict =
      if assessment.events.length ≤ 8 then some assessment else none := by
  have hkeys : assessment.toDict.hasKeys assessmentFields = true :=
    Json.hasKeys_obj assessmentFields rfl
  have hsymbol : assessment.toDict.text? "symbol" = some assessment.symbol.text := rfl
  have hname : assessment.toDict.text? "name" = some assessment.name.text := rfl
  have hlevel : assessment.toDict.text? "level" = some assessment.level.value := rfl
  have hreasons : assessment.toDict.field "reason_codes" Json.asTexts = some assessment.reasonCodes.texts :=
    Json.asTexts_map assessment.reasonCodes.texts
  have hevents : assessment.toDict.field "events" (Json.asList decodeEvent) =
      some assessment.events :=
    Json.asList_map decodeEvent_toDict assessment.events
  have hchecked : assessment.toDict.text? "checked_at" = some assessment.checkedAt.isoformat := rfl
  rw [decodeAssessment, hkeys, hsymbol, hname, hlevel, hreasons, hevents, hchecked]
  simp only [guard, if_true, Option.bind_eq_bind, Option.bind_some, Option.pure_def,
    UtcDateTime.fromisoformat_isoformat, EventRiskLevel.ofValue?_value, assessment.create_self]
  split <;> rfl

/-- What the reader asks of a snapshot that the contract does not. -/
structure WithinBounds (snapshot : PublicRiskSnapshot) : Prop where
  windowStart : snapshot.windowStart.isDate = true
  windowEnd : snapshot.windowEnd.isDate = true
  assessments : snapshot.assessments.length ≤ 1000
  events : ∀ assessment ∈ snapshot.assessments, assessment.events.length ≤ 8

theorem mapM_decodeAssessment (assessments : List PublicRiskAssessment) :
    (assessments.map PublicRiskAssessment.toDict).mapM decodeAssessment =
      if ∀ assessment ∈ assessments, assessment.events.length ≤ 8 then some assessments else none
        := by
  induction assessments with
  | nil => rfl
  | cons assessment rest ih =>
      rw [List.map_cons, List.mapM_cons, decodeAssessment_toDict, ih]
      simp only [List.forall_mem_cons]
      by_cases hfirst : assessment.events.length ≤ 8
      · by_cases hrest : ∀ other ∈ rest, other.events.length ≤ 8
        · rw [if_pos hfirst, if_pos hrest, if_pos ⟨hfirst, hrest⟩]
          rfl
        · simp [hrest]
      · simp [hfirst]

/-- A snapshot is read back exactly if it is within the bounds of the reader. -/
theorem decodeSnapshot_toDict_iff {snapshot : PublicRiskSnapshot} :
    decodeSnapshot snapshot.toDict = some snapshot ↔ WithinBounds snapshot := by
  have hkeys : snapshot.toDict.hasKeys snapshotFields = true := Json.hasKeys_obj snapshotFields rfl
  have hassessments : snapshot.toDict.field "assessments" (Json.asList decodeAssessment) =
      (snapshot.assessments.map PublicRiskAssessment.toDict).mapM decodeAssessment := rfl
  have hsource : snapshot.toDict.text? "source" = some snapshot.source.text := rfl
  have hfetched : snapshot.toDict.text? "fetched_at" = some snapshot.fetchedAt.isoformat := rfl
  have hstart : snapshot.toDict.text? "window_start" = some snapshot.windowStart.isoformat := rfl
  have hend : snapshot.toDict.text? "window_end" = some snapshot.windowEnd.isoformat := rfl
  have hstatus : snapshot.toDict.text? "status" = some snapshot.status.value := rfl
  have hnotice : snapshot.toDict.text? "notice_zh" = some snapshot.noticeZh.text := rfl
  rw [decodeSnapshot, hkeys, hassessments, hsource, hfetched, hstart, hend, hstatus, hnotice,
    mapM_decodeAssessment]
  simp only [guard, if_true, Option.bind_eq_bind, Option.bind_some, Option.pure_def,
    UtcDateTime.fromisoformat_isoformat, Day.fromisoformat_isoformat]
  by_cases hevents : ∀ assessment ∈ snapshot.assessments, assessment.events.length ≤ 8
  · by_cases hlength : snapshot.assessments.length ≤ 1000
    · by_cases hwindow : snapshot.windowStart.isDate = true ∧ snapshot.windowEnd.isDate = true
      · rw [if_pos hevents, if_pos hwindow.1, if_pos hwindow.2]
        simp only [Option.bind_some, if_pos hlength, snapshot.create_self]
        exact ⟨fun _ => ⟨hwindow.1, hwindow.2, hlength, hevents⟩, fun _ => rfl⟩
      · refine ⟨fun h => absurd h ?_, fun h => absurd ⟨h.windowStart, h.windowEnd⟩ hwindow⟩
        rw [if_pos hevents]
        simp only [Option.bind_some, if_pos hlength]
        rcases not_and_or.mp hwindow with hstart | hend
        · simp [hstart]
        · rw [if_neg hend]
          split
          · simp
          · simp
    · refine ⟨fun h => absurd h ?_, fun h => absurd h.assessments hlength⟩
      rw [if_pos hevents]
      simp [hlength]
  · refine ⟨fun h => absurd h ?_, fun h => absurd h.events hevents⟩
    simp [hevents]

/-- What `_persist` writes. -/
def riskArtifactText (snapshot : PublicRiskSnapshot) : Text :=
  Json.dumps (.obj [("format_version".toList, .int 1), ("snapshot".toList, snapshot.toDict)]) ++
    ['\n']

/-- A file that is not too large is read back exactly if its snapshot is within the bounds. -/
theorem loadRiskArtifact_text_iff {snapshot : PublicRiskSnapshot}
    (hsize : (riskArtifactText snapshot).utf8.length ≤ riskArtifactLimit) :
    loadRiskArtifact (riskArtifactText snapshot) = .ok snapshot ↔ WithinBounds snapshot := by
  have hcanonical : Json.Canonical
      (.obj [("format_version".toList, .int 1), ("snapshot".toList, snapshot.toDict)]) := by
    refine Json.Canonical.obj riskArtifactFields rfl (by decide) ?_
    simp [Json.Canonical.int, snapshot.toDict_canonical]
  have hnonempty : riskArtifactText snapshot ≠ [] := List.append_ne_nil_of_right_ne_nil _ (by simp)
  have hfields : Json.hasKeys riskArtifactFields
      (.obj [("format_version".toList, .int 1), ("snapshot".toList, snapshot.toDict)]) = true :=
    Json.hasKeys_obj riskArtifactFields rfl
  have hversion : Json.count? "format_version"
      (.obj [("format_version".toList, .int 1), ("snapshot".toList, snapshot.toDict)]) = some 1
        := rfl
  have hsnapshot : Json.field
      (.obj [("format_version".toList, .int 1), ("snapshot".toList, snapshot.toDict)]) "snapshot"
      decodeSnapshot = decodeSnapshot snapshot.toDict := rfl
  rw [← decodeSnapshot_toDict_iff, loadRiskArtifact, orRaise_eq_ok_iff]
  simp only [guard, if_pos (And.intro hnonempty hsize), Option.bind_eq_bind, Option.bind_some,
    Option.pure_def]
  rw [riskArtifactText, hcanonical.loads_dumps_newline]
  simp only [Option.bind_some, hfields, hversion, if_true, hsnapshot]

/-! ### What is read is within the bounds -/

theorem decodeAssessment_events {payload : Json} {assessment : PublicRiskAssessment}
    (h : decodeAssessment payload = some assessment) : assessment.events.length ≤ 8 := by
  simp only [decodeAssessment, Option.bind_eq_bind, Option.bind_eq_some_iff] at h
  obtain ⟨_, _, _, _, _, _, _, _, _, _, events, _, _, _, _, hlength, hcreate⟩ := h
  rw [(PublicRiskAssessment.create_events (toOption_eq_some_iff.mp hcreate)).1, latestFirst,
    List.length_insertionSort]
  exact guard_eq_some_iff.mp hlength

theorem decodeSnapshot_withinBounds {payload : Json} {snapshot : PublicRiskSnapshot}
    (h : decodeSnapshot payload = some snapshot) : WithinBounds snapshot := by
  simp only [decodeSnapshot, Option.bind_eq_bind, Option.bind_eq_some_iff] at h
  obtain ⟨_, _, assessments, hassessments, _, hlength, _, _, _, _, _, ⟨_, _, hstart⟩, _,
    ⟨_, _, hend⟩, _, _, _, _, hcreate⟩ := h
  obtain ⟨hwindowStart, hwindowEnd, hsorted, _⟩ :=
    PublicRiskSnapshot.create_eq_ok (toOption_eq_some_iff.mp hcreate)
  refine ⟨hwindowStart ▸ Day.isDate_of_fromisoformat hstart,
    hwindowEnd ▸ Day.isDate_of_fromisoformat hend, ?_, ?_⟩
  · rw [hsorted, bySymbolOrder, List.length_insertionSort]
    exact guard_eq_some_iff.mp hlength
  · intro assessment hmem
    rw [hsorted, bySymbolOrder, List.mem_insertionSort] at hmem
    obtain ⟨_, hdecode⟩ := Json.mem_of_field_asList hassessments hmem
    exact decodeAssessment_events hdecode

theorem loadRiskArtifact_withinBounds {text : Text} {snapshot : PublicRiskSnapshot}
    (h : loadRiskArtifact text = .ok snapshot) : WithinBounds snapshot := by
  have hread := orRaise_eq_ok_iff.mp h
  simp only [Option.bind_eq_bind, Option.bind_eq_some_iff] at hread
  obtain ⟨_, _, _, _, _, _, _, _, hsnapshot⟩ := hread
  obtain ⟨_, _, hdecode⟩ := Option.bind_eq_some_iff.mp hsnapshot
  exact decodeSnapshot_withinBounds hdecode

/-! ### Retained evidence -/

/-- The events of both; of two with one identity the later one, at the place of the earlier. -/
def mergedEvents (old new : List PublicRiskEvent) : List PublicRiskEvent :=
  ((old ++ new).foldl Keyed.put (.empty : Keyed PublicRiskEvent.eventId)).values

def clearanceRequired : Code where
  text := "PUBLIC_RISK_CLEARANCE_REQUIRED".toList
  stripped := by decide
  nonempty := by decide
  upper := CaseTable.upper_of_capitals _ (by decide)

theorem mem_mergedEvents {old new : List PublicRiskEvent} {event : PublicRiskEvent}
    (h : event ∈ mergedEvents old new) : event ∈ old ∨ event ∈ new := by
  rcases Keyed.mem_foldl_put h with hmem | hnil
  · exact List.mem_append.mp hmem
  · cases hnil

/-- The new assessment with the evidence of the old one; the values that `replace` checks again
are checked ones. -/
def mergeAssessment (old new : PublicRiskAssessment) (h : new.symbol = old.symbol) :
    PublicRiskAssessment where
  symbol := new.symbol
  name := new.name
  level := if old.level = .blocked ∨ new.level = .blocked then .blocked else .review
  reasonCodes :=
    ⟨fromKeys (old.reasonCodes.codes ++ new.reasonCodes.codes ++ [clearanceRequired]),
      nodup_fromKeys _⟩
  events := (latestFirst (mergedEvents old.events new.events)).take 8
  checkedAt := old.checkedAt
  ownEvents := by
    intro event hevent
    have hmerged := mem_latestFirst.mp (List.mem_of_mem_take hevent)
    rcases mem_mergedEvents hmerged with hold | hnew
    · exact (old.ownEvents event hold).trans h.symm
    · exact new.ownEvents event hnew
  ordered := (latestFirst_ordered _).sublist (List.take_sublist 8 _)

/-- One turn of the loop of `_retain_adverse_evidence`. -/
def retainSymbol (merged : BySymbol) (old : PublicRiskAssessment) : BySymbol :=
  if old.level = .blocked ∨ old.level = .review then
    match hfound : merged.get? old.symbol with
    | none => merged.put old
    | some new => merged.put (mergeAssessment old new (Keyed.get?_eq_some_iff.mp hfound).2)
  else merged

def retainAdverseEvidence (previous incoming : PublicRiskSnapshot) :
    Except String PublicRiskSnapshot := do
  let merged := previous.assessments.foldl retainSymbol incoming.bySymbol
  require (merged.values.length ≤ 1000) "retained public risk evidence exceeds bounded capacity"
  return incoming.withAssessments merged

/-! ### Saving -/

/-- What `_persist` leaves in the file, unless writing raises. -/
def persistRiskArtifact (snapshot : PublicRiskSnapshot) (fault : Option String) :
    Except String Text := do
  if let some error := fault then
    .error error
  require ((riskArtifactText snapshot).utf8.length ≤ riskArtifactLimit)
    "public risk artifact is too large"
  return riskArtifactText snapshot

/-- What `save` makes of a snapshot before it is written. -/
def acceptSnapshot (incoming : PublicRiskSnapshot) :
    Option PublicRiskSnapshot → Except String PublicRiskSnapshot
  | none => return incoming
  | some previous => do
      require (¬ incoming.fetchedAt < previous.fetchedAt)
        "older public risk snapshot cannot replace newer evidence"
      retainAdverseEvidence previous incoming

/-- `save`: the new file and the new snapshot. -/
def saveSnapshot (held : Option PublicRiskSnapshot) (incoming : PublicRiskSnapshot)
    (fault : Option String) : Except String (Text × PublicRiskSnapshot) := do
  let snapshot ← acceptSnapshot incoming held
  let text ← persistRiskArtifact snapshot fault
  return (text, snapshot)

/-- A program with the cache: the file, and the snapshot in memory or why the file could not be
opened. -/
structure RiskProcess where
  file : Option Text
  store : Except String (Option PublicRiskSnapshot)

def openRiskStore : Option Text → Except String (Option PublicRiskSnapshot)
  | none => .ok none
  | some text => (loadRiskArtifact text).map some

inductive RiskCall where
  | save (incoming : PublicRiskSnapshot) (fault : Option String)
  | restart

def RiskProcess.step (process : RiskProcess) : RiskCall → RiskProcess
  | .save incoming fault =>
      match process.store with
      | .error _ => process
      | .ok held =>
          match saveSnapshot held incoming fault with
          | .error _ => process
          | .ok (text, snapshot) => ⟨some text, .ok (some snapshot)⟩
  | .restart => { process with store := openRiskStore process.file }

/-- A program that has just opened the file. -/
def RiskProcess.start (file : Option Text) : RiskProcess := ⟨file, openRiskStore file⟩

def RiskProcess.latest (process : RiskProcess) : Option PublicRiskSnapshot :=
  match process.store with
  | .ok held => held
  | .error _ => none

/-! ### What an accepted snapshot leaves -/

theorem persistRiskArtifact_eq_ok {snapshot : PublicRiskSnapshot} {fault : Option String}
    {text : Text}
    (h : persistRiskArtifact snapshot fault = .ok text) :
    fault = none ∧ text = riskArtifactText snapshot ∧
      (riskArtifactText snapshot).utf8.length ≤ riskArtifactLimit := by
  unfold persistRiskArtifact at h
  cases fault with
  | some error => cases h
  | none =>
      obtain ⟨_, hsize, htext⟩ := bind_eq_ok_iff.mp h
      cases htext
      exact ⟨rfl, rfl, require_eq_ok_iff.mp hsize⟩

/-- What an accepted snapshot leaves in memory and in the file. -/
theorem saveSnapshot_eq_ok {held : Option PublicRiskSnapshot}
    {incoming snapshot : PublicRiskSnapshot}
    {fault : Option String} {text : Text}
      (h : saveSnapshot held incoming fault = .ok (text, snapshot)) :
    fault = none ∧ text = riskArtifactText snapshot ∧ text.utf8.length ≤ riskArtifactLimit ∧
      (held = none ∧ snapshot = incoming ∨
        ∃ previous, held = some previous ∧ previous.fetchedAt ≤ incoming.fetchedAt ∧
          (previous.assessments.foldl retainSymbol incoming.bySymbol).values.length ≤ 1000 ∧
          snapshot = incoming.withAssessments
            (previous.assessments.foldl retainSymbol incoming.bySymbol)) := by
  obtain ⟨merged, hmerged, h⟩ := bind_eq_ok_iff.mp h
  obtain ⟨written, hwritten, h⟩ := bind_eq_ok_iff.mp h
  cases h
  obtain ⟨hfault, rfl, hsize⟩ := persistRiskArtifact_eq_ok hwritten
  refine ⟨hfault, rfl, hsize, ?_⟩
  cases held with
  | none =>
      cases hmerged
      exact Or.inl ⟨rfl, rfl⟩
  | some previous =>
      obtain ⟨_, hfetched, hretained⟩ := bind_eq_ok_iff.mp hmerged
      obtain ⟨_, hlength, hsnapshot⟩ := bind_eq_ok_iff.mp hretained
      cases hsnapshot
      exact Or.inr ⟨previous, rfl, not_lt.mp (require_eq_ok_iff.mp hfetched),
        require_eq_ok_iff.mp hlength, rfl⟩

end

end QuantWorkbench.Storage
