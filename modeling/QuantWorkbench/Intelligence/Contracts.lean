import QuantWorkbench.Data.Normalization
import QuantWorkbench.Lib.Fields
import QuantWorkbench.Lib.JsonRecords
import QuantWorkbench.Lib.Keyed

/-!
The contracts of public risk evidence: events, the assessment of one symbol with its events,
and the snapshot of a window with an assessment for each symbol.
-/

namespace QuantWorkbench.Intelligence

open Lib Data

inductive EventRiskLevel where
  | clear
  | review
  | blocked
  | unknown
  deriving DecidableEq

namespace EventRiskLevel

def value : EventRiskLevel → Text
  | clear => "CLEAR".toList
  | review => "REVIEW".toList
  | blocked => "BLOCKED".toList
  | unknown => "UNKNOWN".toList

def ofValue? (text : Text) : Option EventRiskLevel :=
  [clear, review, blocked, unknown].find? fun level => level.value = text

@[simp] theorem ofValue?_value (level : EventRiskLevel) : ofValue? level.value = some level := by
  cases level <;> decide

/-- The levels of adverse evidence in their order. -/
def severity : EventRiskLevel → ℕ
  | clear => 0
  | unknown => 0
  | review => 1
  | blocked => 2

def IsAdverse (level : EventRiskLevel) : Prop := 0 < level.severity

instance : DecidablePred IsAdverse := fun level => inferInstanceAs (Decidable (0 < level.severity))

end EventRiskLevel

/-! ### Events -/

/-- What `urlsplit` finds in an address; what is missing is empty. -/
structure SplitUrl where
  scheme : Text
  hostname : Text
  username : Text
  password : Text

/-- `urllib.parse.urlsplit`, which has no value where it raises. -/
class UrlTable where
  urlsplit : Text → Option SplitUrl

variable [CaseTable] [UrlTable]

/-- The checks of the address of an event. -/
def checkSourceUrl (source sourceUrl : Text) : Except String Unit := do
  let url ← orRaise (UrlTable.urlsplit sourceUrl) "Invalid URL"
  require (url.scheme = "https".toList ∧ url.hostname ≠ [] ∧ url.username = [] ∧ url.password = [])
    "source_url must be an HTTPS URL without credentials"
  require (CaseTable.upper source = "CNINFO".toList →
      url.hostname = "static.cninfo.com.cn".toList)
    "CNINFO event URL must use the official static host"

/-- The reason codes of an event or an assessment. -/
structure ReasonCodes where
  codes : List Code
  distinct : codes.Nodup
  deriving DecidableEq

def ReasonCodes.check (raw : List Text) : Except String ReasonCodes := do
  let codes ← orRaise (raw.mapM Code.ofText?) "reason codes must be non-empty"
  return ⟨fromKeys codes, nodup_fromKeys codes⟩

def ReasonCodes.texts (reasons : ReasonCodes) : List Text := reasons.codes.map fun code => code.text

structure PublicRiskEvent where
  eventId : BoundedText 128
  symbol : Symbol
  name : BoundedText 128
  title : BoundedText 500
  announcedAt : UtcDateTime
  source : BoundedText 40
  sourceUrl : BoundedText 2048
  level : EventRiskLevel
  reasonCodes : ReasonCodes
  urlAccepted : checkSourceUrl source.text sourceUrl.text = .ok ()
  deriving DecidableEq

def PublicRiskEvent.create (eventId symbol name title : Text) (announcedAt : UtcDateTime)
    (source sourceUrl : Text) (level : EventRiskLevel) (reasonCodes : List Text) :
    Except String PublicRiskEvent := do
  let eventId ← BoundedText.check "event_id" 128 eventId
  let symbol ← checkSymbol symbol
  let name ← BoundedText.check "name" 128 name
  let title ← BoundedText.check "title" 500 title
  let source ← BoundedText.check "source" 40 source
  let sourceUrl ← BoundedText.check "source_url" 2048 sourceUrl
  match urlAccepted : checkSourceUrl source.text sourceUrl.text with
  | .error error => .error error
  | .ok () =>
      let reasonCodes ← ReasonCodes.check reasonCodes
      return { eventId, symbol, name, title, announcedAt, source, sourceUrl, level, reasonCodes,
               urlAccepted }

/-! ### Assessments -/

/-- The order in which the events of an assessment are kept. -/
def announcedLater (event other : PublicRiskEvent) : Prop := other.announcedAt ≤ event.announcedAt

instance : DecidableRel announcedLater :=
  fun event other => inferInstanceAs (Decidable (other.announcedAt ≤ event.announcedAt))

instance : Std.Total announcedLater :=
  ⟨fun event other => le_total other.announcedAt event.announcedAt⟩

instance : IsTrans PublicRiskEvent announcedLater :=
  ⟨fun _ _ _ h h' => le_trans h' h⟩

/-- `sorted(events, key=lambda item: item.announced_at, reverse=True)`. -/
def latestFirst (events : List PublicRiskEvent) : List PublicRiskEvent :=
  events.insertionSort announcedLater

theorem latestFirst_ordered (events : List PublicRiskEvent) :
    (latestFirst events).Pairwise announcedLater :=
  List.pairwise_insertionSort announcedLater events

@[simp] theorem mem_latestFirst {events : List PublicRiskEvent} {event : PublicRiskEvent} :
    event ∈ latestFirst events ↔ event ∈ events := List.mem_insertionSort announcedLater

structure PublicRiskAssessment where
  symbol : Symbol
  name : RequiredText
  level : EventRiskLevel
  reasonCodes : ReasonCodes
  events : List PublicRiskEvent
  checkedAt : UtcDateTime
  ownEvents : ∀ event ∈ events, event.symbol = symbol
  ordered : events.Pairwise announcedLater
  deriving DecidableEq

def assessmentName (symbol : Symbol) (name : Text) : RequiredText :=
  if h : Text.strip name = [] then ⟨symbol.text, symbol.strip_text, symbol.text_ne_nil⟩
  else ⟨Text.strip name, Text.strip_strip name, h⟩

def PublicRiskAssessment.create (symbol name : Text) (level : EventRiskLevel)
    (reasonCodes : List Text) (events : List PublicRiskEvent) (checkedAt : UtcDateTime) :
    Except String PublicRiskAssessment := do
  let symbol ← checkSymbol symbol
  let reasonCodes ← ReasonCodes.check reasonCodes
  if ownEvents : ∀ event ∈ events, event.symbol = symbol then
    return {
      symbol
      name := assessmentName symbol name
      level
      reasonCodes
      events := latestFirst events
      checkedAt
      ownEvents := fun event hevent => ownEvents event (mem_latestFirst.mp hevent)
      ordered := latestFirst_ordered events }
  else .error "assessment events must match the assessment symbol"

/-! ### Snapshots -/

inductive SnapshotStatus where
  | fresh
  | partialWindow
  deriving DecidableEq

namespace SnapshotStatus

def value : SnapshotStatus → Text
  | fresh => "FRESH".toList
  | partialWindow => "PARTIAL".toList

def ofText? (text : Text) : Option SnapshotStatus :=
  [fresh, partialWindow].find? fun status => status.value = CaseTable.upper (Text.strip text)

omit [UrlTable] in
theorem ofText?_value (status : SnapshotStatus) : ofText? status.value = some status := by
  have hcapitals : ∀ status : SnapshotStatus, ∀ c ∈ status.value, c.isUpper ∨ c = '_' := by
    rintro (_ | _) <;> decide
  have hstrip : Text.strip status.value = status.value := by cases status <;> decide
  rw [ofText?, hstrip, CaseTable.upper_of_capitals _ (hcapitals status)]
  cases status <;> decide

end SnapshotStatus

def symbolText (assessment : PublicRiskAssessment) : Text := assessment.symbol.text

/-- `sorted(assessments, key=lambda item: item.symbol)`. -/
def bySymbolOrder (assessments : List PublicRiskAssessment) : List PublicRiskAssessment :=
  assessments.insertionSort fun assessment other => symbolText assessment ≤ symbolText other

theorem bySymbolOrder_ordered {assessments : List PublicRiskAssessment}
    (h : (assessments.map symbolText).Nodup) :
    ((bySymbolOrder assessments).map symbolText).Pairwise (· < ·) := by
  have hsorted : (bySymbolOrder assessments).Pairwise fun assessment other =>
      symbolText assessment ≤ symbolText other := by
    have : Std.Total fun assessment other : PublicRiskAssessment =>
        symbolText assessment ≤ symbolText other := ⟨fun _ _ => le_total _ _⟩
    have : IsTrans PublicRiskAssessment fun assessment other =>
        symbolText assessment ≤ symbolText other := ⟨fun _ _ _ => le_trans⟩
    exact List.pairwise_insertionSort _ assessments
  have hnodup : ((bySymbolOrder assessments).map symbolText).Nodup :=
    ((List.perm_insertionSort _ assessments).map symbolText).nodup_iff.mpr h
  rw [List.pairwise_map]
  have hdistinct := List.pairwise_map.mp hnodup
  exact (hsorted.and hdistinct).imp fun ⟨hle, hne⟩ => lt_of_le_of_ne hle hne

structure PublicRiskSnapshot where
  source : RequiredText
  fetchedAt : UtcDateTime
  windowStart : Day
  windowEnd : Day
  status : SnapshotStatus
  noticeZh : RequiredText
  assessments : List PublicRiskAssessment
  window : windowStart.after? windowEnd = some false
  ordered : (assessments.map symbolText).Pairwise (· < ·)
  deriving DecidableEq

def PublicRiskSnapshot.create (source : Text) (fetchedAt : UtcDateTime) (windowStart windowEnd : Day)
    (status noticeZh : Text) (assessments : List PublicRiskAssessment) :
    Except String PublicRiskSnapshot := do
  let source ← RequiredText.check "source" source
  match window : windowStart.after? windowEnd with
  | none => .error "can't compare these dates"
  | some true => .error "risk window is inverted"
  | some false =>
      let status ← orRaise (SnapshotStatus.ofText? status)
        "successful public risk snapshot must be FRESH or PARTIAL"
      let noticeZh ← RequiredText.check "notice_zh" noticeZh
      if distinct : (assessments.map symbolText).Nodup then
        return {
          source
          fetchedAt
          windowStart
          windowEnd
          status
          noticeZh
          assessments := bySymbolOrder assessments
          window
          ordered := bySymbolOrder_ordered distinct }
      else .error "public risk assessments contain duplicate symbols"

/-- The assessments of a snapshot, each under its symbol. -/
abbrev BySymbol := Keyed fun assessment : PublicRiskAssessment => assessment.symbol

theorem symbolText_nodup {assessments : List PublicRiskAssessment}
    (h : (assessments.map fun assessment => assessment.symbol).Nodup) :
    (assessments.map symbolText).Nodup := by
  have hinjective : Function.Injective Symbol.text := by
    rintro ⟨text, _⟩ ⟨_, _⟩ rfl
    rfl
  have hmapped := h.map hinjective
  rwa [List.map_map] at hmapped

namespace PublicRiskSnapshot

def bySymbol (snapshot : PublicRiskSnapshot) : BySymbol where
  values := snapshot.assessments
  nodup := by
    have htexts : (snapshot.assessments.map symbolText).Nodup :=
      snapshot.ordered.imp fun hlt => ne_of_lt hlt
    have hmapped : snapshot.assessments.map symbolText =
        (snapshot.assessments.map fun assessment => assessment.symbol).map Symbol.text := by
      rw [List.map_map]
      rfl
    rw [hmapped] at htexts
    exact htexts.of_map

def withAssessments (snapshot : PublicRiskSnapshot) (assessments : BySymbol) :
    PublicRiskSnapshot :=
  { snapshot with
    assessments := bySymbolOrder assessments.values
    ordered := bySymbolOrder_ordered (symbolText_nodup assessments.nodup) }

end PublicRiskSnapshot

/-! ### Checked values are accepted again -/

omit [UrlTable] in
@[simp] theorem ReasonCodes.check_texts (reasons : ReasonCodes) :
    ReasonCodes.check reasons.texts = .ok reasons := by
  have hcodes : reasons.texts.mapM Code.ofText? = some reasons.codes :=
    Json.mapM_map_some Code.ofText?_text reasons.codes
  rw [check, hcodes]
  change Except.ok (ReasonCodes.mk (fromKeys reasons.codes) _) = _
  congr
  exact fromKeys_of_nodup reasons.distinct

theorem PublicRiskEvent.create_self (event : PublicRiskEvent) :
    create event.eventId.text event.symbol.text event.name.text event.title.text event.announcedAt
      event.source.text event.sourceUrl.text event.level event.reasonCodes.texts = .ok event := by
  rw [create]
  simp only [BoundedText.check_text, checkSymbol_text, ReasonCodes.check_texts, bind, Except.bind]
  split
  · rename_i error herror
    rw [event.urlAccepted] at herror
    cases herror
  · rfl

omit [CaseTable] [UrlTable] in
theorem assessmentName_text (symbol : Symbol) (name : RequiredText) :
    assessmentName symbol name.text = name := by
  obtain ⟨text, stripped, nonempty⟩ := name
  rw [assessmentName, dif_neg (by rwa [stripped])]
  simp only [stripped]

theorem PublicRiskAssessment.create_self (assessment : PublicRiskAssessment) :
    create assessment.symbol.text assessment.name.text assessment.level assessment.reasonCodes.texts
      assessment.events assessment.checkedAt = .ok assessment := by
  have hevents : latestFirst assessment.events = assessment.events :=
    assessment.ordered.insertionSort_eq
  rw [create]
  simp only [checkSymbol_text, ReasonCodes.check_texts, bind, Except.bind, assessmentName_text,
    hevents]
  rw [dif_pos assessment.ownEvents]
  rfl

theorem PublicRiskSnapshot.create_self (snapshot : PublicRiskSnapshot) :
    create snapshot.source.text snapshot.fetchedAt snapshot.windowStart snapshot.windowEnd
      snapshot.status.value snapshot.noticeZh.text snapshot.assessments = .ok snapshot := by
  have hassessments : bySymbolOrder snapshot.assessments = snapshot.assessments :=
    List.Pairwise.insertionSort_eq
      ((List.pairwise_map.mp snapshot.ordered).imp fun hlt => le_of_lt hlt)
  have hdistinct : (snapshot.assessments.map symbolText).Nodup :=
    snapshot.ordered.imp fun hlt => ne_of_lt hlt
  rw [create]
  simp only [RequiredText.check_text, SnapshotStatus.ofText?_value, bind, Except.bind, orRaise,
    hassessments]
  split
  · rename_i hwindow
    rw [snapshot.window] at hwindow
    cases hwindow
  · rename_i hwindow
    rw [snapshot.window] at hwindow
    cases hwindow
  · rw [dif_pos hdistinct]
    rfl

/-! ### What the constructors keep -/

omit [CaseTable] [UrlTable] in
theorem text_of_check {field : String} {maximum : ℕ} {raw : Text} {value : BoundedText maximum}
    (h : BoundedText.check field maximum raw = .ok value) : value.text = Text.strip raw := by
  obtain ⟨required, hrequired, h⟩ := bind_eq_ok_iff.mp h
  rw [RequiredText.check] at hrequired
  split at hrequired
  · cases hrequired
  · cases hrequired
    split at h
    · cases h
      rfl
    · cases h

theorem PublicRiskEvent.create_eq_ok {eventId symbol name title : Text} {announcedAt : UtcDateTime}
    {source sourceUrl : Text} {level : EventRiskLevel} {reasonCodes : List Text}
    {event : PublicRiskEvent}
    (h : create eventId symbol name title announcedAt source sourceUrl level reasonCodes =
      .ok event) :
    checkSymbol symbol = .ok event.symbol ∧ event.title.text = Text.strip title ∧
      event.announcedAt = announcedAt ∧ event.level = level ∧
      ReasonCodes.check reasonCodes = .ok event.reasonCodes := by
  obtain ⟨_, _, h⟩ := bind_eq_ok_iff.mp h
  obtain ⟨checked, hsymbol, h⟩ := bind_eq_ok_iff.mp h
  obtain ⟨_, _, h⟩ := bind_eq_ok_iff.mp h
  obtain ⟨kept, htitle, h⟩ := bind_eq_ok_iff.mp h
  obtain ⟨_, _, h⟩ := bind_eq_ok_iff.mp h
  obtain ⟨_, _, h⟩ := bind_eq_ok_iff.mp h
  split at h
  · cases h
  · obtain ⟨reasons, hreasons, h⟩ := bind_eq_ok_iff.mp h
    cases h
    exact ⟨hsymbol, text_of_check htitle, rfl, rfl, hreasons⟩

theorem PublicRiskAssessment.create_events {symbol name : Text} {level : EventRiskLevel}
    {reasonCodes : List Text} {events : List PublicRiskEvent} {checkedAt : UtcDateTime}
    {assessment : PublicRiskAssessment}
    (h : create symbol name level reasonCodes events checkedAt = .ok assessment) :
    assessment.events = latestFirst events ∧ assessment.level = level ∧
      checkSymbol symbol = .ok assessment.symbol := by
  obtain ⟨_, hsymbol, h⟩ := bind_eq_ok_iff.mp h
  obtain ⟨_, _, h⟩ := bind_eq_ok_iff.mp h
  split at h
  · cases h
    exact ⟨rfl, rfl, hsymbol⟩
  · cases h

theorem PublicRiskSnapshot.create_eq_ok {source : Text} {fetchedAt : UtcDateTime}
    {windowStart windowEnd : Day} {status noticeZh : Text} {assessments : List PublicRiskAssessment}
    {snapshot : PublicRiskSnapshot}
    (h : create source fetchedAt windowStart windowEnd status noticeZh assessments = .ok snapshot) :
    snapshot.windowStart = windowStart ∧ snapshot.windowEnd = windowEnd ∧
      snapshot.assessments = bySymbolOrder assessments ∧
      SnapshotStatus.ofText? status = some snapshot.status := by
  obtain ⟨_, _, h⟩ := bind_eq_ok_iff.mp h
  split at h
  · cases h
  · cases h
  · obtain ⟨_, hstatus, h⟩ := bind_eq_ok_iff.mp h
    obtain ⟨_, _, h⟩ := bind_eq_ok_iff.mp h
    split at h
    · cases h
      exact ⟨rfl, rfl, rfl, orRaise_eq_ok_iff.mp hstatus⟩
    · cases h

/-! ### Dictionaries -/

def ReasonCodes.toJson (reasons : ReasonCodes) : Json :=
  .arr (reasons.texts.map .str)

/-- The fields in the order of their keys, as they are written. -/
def PublicRiskEvent.toDict (event : PublicRiskEvent) : Json :=
  .obj [("announced_at".toList, .str event.announcedAt.isoformat),
    ("event_id".toList, .str event.eventId.text),
    ("level".toList, .str event.level.value),
    ("name".toList, .str event.name.text),
    ("reason_codes".toList, event.reasonCodes.toJson),
    ("source".toList, .str event.source.text),
    ("source_url".toList, .str event.sourceUrl.text),
    ("symbol".toList, .str event.symbol.text),
    ("title".toList, .str event.title.text)]

def PublicRiskAssessment.toDict (assessment : PublicRiskAssessment) : Json :=
  .obj [("checked_at".toList, .str assessment.checkedAt.isoformat),
    ("events".toList, .arr (assessment.events.map PublicRiskEvent.toDict)),
    ("level".toList, .str assessment.level.value),
    ("name".toList, .str assessment.name.text),
    ("reason_codes".toList, assessment.reasonCodes.toJson),
    ("symbol".toList, .str assessment.symbol.text)]

def PublicRiskSnapshot.toDict (snapshot : PublicRiskSnapshot) : Json :=
  .obj [("assessments".toList, .arr (snapshot.assessments.map PublicRiskAssessment.toDict)),
    ("fetched_at".toList, .str snapshot.fetchedAt.isoformat),
    ("notice_zh".toList, .str snapshot.noticeZh.text),
    ("source".toList, .str snapshot.source.text),
    ("status".toList, .str snapshot.status.value),
    ("window_end".toList, .str snapshot.windowEnd.isoformat),
    ("window_start".toList, .str snapshot.windowStart.isoformat)]

omit [UrlTable] in
theorem ReasonCodes.toJson_canonical (reasons : ReasonCodes) : reasons.toJson.Canonical :=
  Json.Canonical.arr_map Json.Canonical.str reasons.texts

def eventFields : List Text :=
  ["announced_at".toList, "event_id".toList, "level".toList, "name".toList, "reason_codes".toList,
    "source".toList, "source_url".toList, "symbol".toList, "title".toList]

def assessmentFields : List Text :=
  ["checked_at".toList, "events".toList, "level".toList, "name".toList, "reason_codes".toList,
    "symbol".toList]

def snapshotFields : List Text :=
  ["assessments".toList, "fetched_at".toList, "notice_zh".toList, "source".toList,
    "status".toList, "window_end".toList, "window_start".toList]

theorem PublicRiskEvent.toDict_canonical (event : PublicRiskEvent) : event.toDict.Canonical := by
  refine Json.Canonical.obj eventFields rfl (by decide) ?_
  simp [Json.Canonical.str, event.reasonCodes.toJson_canonical]

theorem PublicRiskAssessment.toDict_canonical (assessment : PublicRiskAssessment) :
    assessment.toDict.Canonical := by
  have hevents := Json.Canonical.arr_map PublicRiskEvent.toDict_canonical assessment.events
  refine Json.Canonical.obj assessmentFields rfl (by decide) ?_
  simp [Json.Canonical.str, assessment.reasonCodes.toJson_canonical, hevents]

theorem PublicRiskSnapshot.toDict_canonical (snapshot : PublicRiskSnapshot) :
    snapshot.toDict.Canonical := by
  have hassessments :=
    Json.Canonical.arr_map PublicRiskAssessment.toDict_canonical snapshot.assessments
  refine Json.Canonical.obj snapshotFields rfl (by decide) ?_
  simp [Json.Canonical.str, hassessments]

end QuantWorkbench.Intelligence
