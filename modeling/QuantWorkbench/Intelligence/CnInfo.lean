import QuantWorkbench.Intelligence.AnnouncementTitles
import QuantWorkbench.Signals.OfficialModelSignal

/-!
The adapter of the announcement service: it reads the first pages of each symbol's
announcements in a window, classifies them by their titles and assesses the symbol. A symbol
whose pages cannot be read is assessed as unknown.
-/

namespace QuantWorkbench.Intelligence

open Lib Data Signals

/-- How a request ends without its result. The errors that are caught make one symbol unknown,
the others end the refresh. -/
inductive CnInfoError where
  | caught (text : String)
  | escaping (text : String)
  deriving DecidableEq

/-- The errors of a constructor or a check, which are `ValueError`s. -/
def caughtError {α : Type} (result : Except String α) : Except CnInfoError α :=
  result.mapError .caught

theorem caughtError_eq_ok_iff {α : Type} {result : Except String α} {a : α} :
    caughtError result = .ok a ↔ result = .ok a := by
  cases result with
  | error text => exact ⟨(fun h => nomatch h), fun h => nomatch h⟩
  | ok value => exact ⟨fun h => by cases h; rfl, fun h => by cases h; rfl⟩

/-! ### Rows -/

/-- The `announcementTime` of a row, in milliseconds; a number that is below zero is `finite`
or counts as no number. -/
inductive RawTime where
  | notNumber
  | finite (value : ℚ)
  | notANumber
  | infinite
  deriving DecidableEq

def RawTime.isUsable : RawTime → Bool
  | notNumber => false
  | finite value => 0 < value
  | notANumber => true
  | infinite => true

/-- `datetime.fromtimestamp(float(value) / 1000, tz=timezone.utc)`. -/
class EpochClock where
  fromMilliseconds : ℚ → Except CnInfoError UtcDateTime

/-- One announcement as the service sends it, each text as `str` gives it. -/
structure AnnouncementRow where
  secCode : Text
  announcementTitle : Text
  announcementId : Text
  secName : Text
  announcementTime : RawTime
  adjunctUrl : Text
  deriving DecidableEq

/-- One company of the map; a row that is no object has no value. -/
structure CompanyRow where
  code : Text
  orgId : Text
  zwjc : Text
  deriving DecidableEq

def isCode (text : Text) : Bool := text.length == 6 && text.all Char.isDigit

def PDF_BASE : Text := "https://static.cninfo.com.cn/".toList

variable [CaseTable] [UrlTable] [HtmlTable] [FoldTable] [EpochClock]

/-- The instant of a usable time. -/
def announcedAt (raw : RawTime) : Except CnInfoError UtcDateTime :=
  match raw with
  | .finite value => EpochClock.fromMilliseconds value
  | .infinite => .error (.escaping "cannot convert float infinity to integer")
  | .notANumber | .notNumber => .error (.caught "cannot convert float NaN to integer")

def eventFromRow (row : Option AnnouncementRow) (expected : Symbol) :
    Except CnInfoError PublicRiskEvent := do
  let row ← orRaise row (CnInfoError.caught "CNINFO announcement row is invalid")
  let symbol := Text.strip row.secCode
  require (symbol = expected.text ∧ isCode symbol = true)
    (CnInfoError.caught "CNINFO announcement symbol mismatch")
  let title := cleanTitle row.announcementTitle
  require (row.announcementTime.isUsable = true)
    (CnInfoError.caught "CNINFO announcement time is invalid")
  let adjunct := (Text.strip row.adjunctUrl).dropWhile (· = '/')
  require (adjunct ≠ [] ∧ ¬ "..".toList <:+: adjunct ∧
      ".pdf".toList <:+ FoldTable.casefold adjunct)
    (CnInfoError.caught "CNINFO announcement URL is invalid")
  let announced ← announcedAt row.announcementTime
  caughtError (PublicRiskEvent.create (Text.strip row.announcementId) symbol
    (Text.strip row.secName) title announced "CNINFO".toList (PDF_BASE ++ adjunct)
    (classifyAnnouncementTitle title).1 (classifyAnnouncementTitle title).2)

/-! ### Companies -/

abbrev CompanyMap := Keyed fun company : CompanyRow => company.code

/-- A row with a code, an organisation and a name, without blanks at their ends. -/
def company? (row : Option CompanyRow) : Option CompanyRow := do
  let row ← row
  let company : CompanyRow := ⟨Text.strip row.code, Text.strip row.orgId, Text.strip row.zwjc⟩
  guard (isCode company.code = true ∧ company.orgId ≠ [] ∧ company.zwjc ≠ [])
  return company

def companyMap (rows : List (Option CompanyRow)) : Except CnInfoError CompanyMap := do
  require (rows ≠ [] ∧ rows.length ≤ 20000) (CnInfoError.caught "CNINFO company map is invalid")
  let result := (rows.filterMap company?).foldl Keyed.put Keyed.empty
  require (result.values ≠ []) (CnInfoError.caught "CNINFO company map has no valid A-share rows")
  return result

/-! ### Pages -/

/-- What one request for announcements asks for. -/
structure AnnouncementQuery where
  pageNum : ℕ
  symbol : Symbol
  orgId : Text
  windowStart : Date
  windowEnd : Date
  deriving DecidableEq

/-- What is answered; a row that is no object has no value. -/
structure AnnouncementPage where
  announcements : List (Option AnnouncementRow)
  hasMore : Bool
  deriving DecidableEq

def PAGE_SIZE : ℕ := 30

def announcementKey (event : PublicRiskEvent) : Text × Text × Text :=
  (event.symbol.text, event.announcedAt.isoformat, event.title.text)

/-- The announcements that were read, each under its symbol, time and title. -/
abbrev ReadAnnouncements := Keyed announcementKey

def readRow (expected : Symbol) (read : ReadAnnouncements) (row : Option AnnouncementRow) :
    Except CnInfoError ReadAnnouncements := do
  let event ← eventFromRow row expected
  return read.put event

/-- The pages from `page` on, while the budget lasts and there are more. -/
def readPages (answer : ℕ → Except CnInfoError AnnouncementPage) (expected : Symbol) :
    (budget page : ℕ) → ReadAnnouncements → Except CnInfoError ReadAnnouncements
  | 0, _, read => .ok read
  | budget + 1, page, read => do
      let payload ← answer page
      require (payload.announcements.length ≤ PAGE_SIZE)
        (CnInfoError.caught "CNINFO announcement page is invalid")
      let read ← payload.announcements.foldlM (readRow expected) read
      if payload.hasMore = false ∨ payload.announcements = [] then return read
      else readPages answer expected budget (page + 1) read

def announcements (answer : ℕ → Except CnInfoError AnnouncementPage) (expected : Symbol)
    (maxPages : ℕ) : Except CnInfoError (List PublicRiskEvent) := do
  let read ← readPages answer expected maxPages 1 Keyed.empty
  return latestFirst read.values

/-! ### Assessments -/

def resolutionTime (events : List PublicRiskEvent) (reason : Text) : Option UtcDateTime :=
  events.foldl (fun previous event =>
    if reason ∈ resolvedReasons event.title.text ∧ ∀ time ∈ previous, time < event.announcedAt then
      some event.announcedAt
    else previous) none

/-- The reasons of an event that were not resolved after it. -/
def unresolvedReasons (events : List PublicRiskEvent) (event : PublicRiskEvent) : List Text :=
  event.reasonCodes.texts.filter fun reason =>
    (resolutionTime events reason).getD event.announcedAt ≤ event.announcedAt

def activeEvents (events : List PublicRiskEvent) : List PublicRiskEvent :=
  events.filter fun event => unresolvedReasons events event ≠ []

def assessedLevel (events : List PublicRiskEvent) : EventRiskLevel :=
  if ∃ event ∈ activeEvents events, event.level = .blocked then .blocked
  else if activeEvents events ≠ [] then .review
  else .clear

/-- Events that state a risk come first, and among them the later ones. -/
def shownBefore (event other : PublicRiskEvent) : Prop :=
  (event.level ≠ .clear ∧ other.level = .clear) ∨
    ((event.level = .clear ↔ other.level = .clear) ∧ announcedLater event other)

instance : DecidableRel shownBefore := fun event other =>
  inferInstanceAs (Decidable ((event.level ≠ .clear ∧ other.level = .clear) ∨
    ((event.level = .clear ↔ other.level = .clear) ∧ announcedLater event other)))

def assessment (symbol : Symbol) (name : Text) (events : List PublicRiskEvent)
    (checkedAt : UtcDateTime) : Except String PublicRiskAssessment :=
  PublicRiskAssessment.create symbol.text name (assessedLevel events)
    ((activeEvents events).flatMap (unresolvedReasons events))
    ((events.insertionSort shownBefore).take 8) checkedAt

def unknownAssessment (symbol : Symbol) (name : Text) (checkedAt : UtcDateTime) (reason : Text) :
    Except String PublicRiskAssessment :=
  PublicRiskAssessment.create symbol.text name .unknown [reason] [] checkedAt

/-! ### Refreshes -/

def previousDay (day : Date) : Option Date :=
  (Date.ofParts? day.year day.month (day.day - 1)).or
    ((Date.ofParts? day.year (day.month - 1) (daysInMonth day.year (day.month - 1))).or
      (Date.ofParts? (day.year - 1) 12 31))

def daysBefore : ℕ → Date → Option Date
  | 0, day => some day
  | days + 1, day => (previousDay day).bind (daysBefore days)

/-- The adapter with the transport it uses: what it answers for the company map and for a page
of announcements. -/
structure CNInfoAnnouncementProvider where
  maxPagesPerSymbol : ℕ
  companies : Except CnInfoError (List (Option CompanyRow))
  query : AnnouncementQuery → Except CnInfoError AnnouncementPage
  pages_range : 1 ≤ maxPagesPerSymbol ∧ maxPagesPerSymbol ≤ 5

namespace CNInfoAnnouncementProvider

variable (provider : CNInfoAnnouncementProvider)

def answer (symbol : Symbol) (orgId : Text) (windowStart windowEnd : Date) (page : ℕ) :
    Except CnInfoError AnnouncementPage :=
  provider.query ⟨page, symbol, orgId, windowStart, windowEnd⟩

def assess (symbol : Symbol) (company : CompanyRow) (windowStart windowEnd : Date)
    (checkedAt : UtcDateTime) : Except CnInfoError PublicRiskAssessment := do
  let events ← announcements (provider.answer symbol company.orgId windowStart windowEnd) symbol
    provider.maxPagesPerSymbol
  caughtError (assessment symbol company.zwjc events checkedAt)

/-- What is kept of a symbol, and whether it counts as a failure. -/
def assessOrUnknown (companies : CompanyMap) (windowStart windowEnd : Date)
    (checkedAt : UtcDateTime) (symbol : Symbol) :
    Except CnInfoError (PublicRiskAssessment × Bool) :=
  match companies.get? symbol.text with
  | none => do
      let unknown ← caughtError (unknownAssessment symbol symbol.text checkedAt
        "CNINFO_SYMBOL_NOT_FOUND".toList)
      return (unknown, true)
  | some company =>
      match provider.assess symbol company windowStart windowEnd checkedAt with
      | .ok assessed => .ok (assessed, false)
      | .error (.caught _) => do
          let unknown ← caughtError (unknownAssessment symbol company.zwjc checkedAt
            "CNINFO_REQUEST_FAILED".toList)
          return (unknown, true)
      | .error (.escaping text) => .error (.escaping text)

/-- What the snapshot says about itself. -/
def notice (requested failures : ℕ) (windowStart windowEnd : Date) : Text :=
  "巨潮公告风险检查完成：".toList ++ (Nat.toDigits 10 (requested - failures) ++ '/' ::
    (Nat.toDigits 10 requested ++ " 只成功，窗口 ".toList ++ windowStart.isoformat ++
      " 至 ".toList ++ windowEnd.isoformat ++ "。".toList))

def fetch (symbols : List Text) (windowEnd : Date) (windowDays : ℤ) (now : UtcDateTime) :
    Except CnInfoError PublicRiskSnapshot := do
  require (1 ≤ windowDays ∧ windowDays ≤ 90)
    (CnInfoError.caught "window_days must be between 1 and 90")
  let checked ← caughtError (symbols.mapM checkSymbol)
  let normalized := fromKeys checked
  require (normalized.length ≤ 50)
    (CnInfoError.caught "CNINFO risk refresh is limited to 50 symbols")
  let windowStart ← orRaise (daysBefore (windowDays - 1).toNat windowEnd)
    (CnInfoError.escaping "date value out of range")
  let rows ← provider.companies
  let companies ← companyMap rows
  let results ← normalized.mapM (provider.assessOrUnknown companies windowStart windowEnd now)
  let failures := (results.filter Prod.snd).length
  caughtError (PublicRiskSnapshot.create "CNINFO".toList now (.date windowStart) (.date windowEnd)
    (if failures = 0 then SnapshotStatus.fresh.value else SnapshotStatus.partialWindow.value)
    (notice normalized.length failures windowStart windowEnd) (results.map Prod.fst))

end CNInfoAnnouncementProvider

/-! ### What an event says -/

/-- The symbol of an event is the expected one, and its reasons are those of its title. -/
structure ReadAs (expected : Symbol) (event : PublicRiskEvent) : Prop where
  symbol : event.symbol = expected
  level : event.level = (classifyAnnouncementTitle event.title.text).1
  reasons : event.reasonCodes.texts = (classifyAnnouncementTitle event.title.text).2

theorem readAs_of_eventFromRow {row : Option AnnouncementRow} {expected : Symbol}
    {event : PublicRiskEvent} (h : eventFromRow row expected = .ok event) :
    ReadAs expected event := by
  obtain ⟨row, _, h⟩ := bind_eq_ok_iff.mp h
  obtain ⟨_, hcode, h⟩ := bind_eq_ok_iff.mp h
  obtain ⟨_, _, h⟩ := bind_eq_ok_iff.mp h
  obtain ⟨_, _, h⟩ := bind_eq_ok_iff.mp h
  obtain ⟨announced, _, h⟩ := bind_eq_ok_iff.mp h
  obtain ⟨hsymbol, htitle, _, hlevel, hreasons⟩ :=
    PublicRiskEvent.create_eq_ok (caughtError_eq_ok_iff.mp h)
  have hclean : event.title.text = cleanTitle row.announcementTitle := by
    rw [htitle, strip_cleanTitle]
  rw [(require_eq_ok_iff.mp hcode).1, checkSymbol_text] at hsymbol
  have hsublist := reasons_sublist event.title.text
  rw [← hclean] at hlevel hreasons
  obtain ⟨reasons, hchecked, htexts⟩ := exists_reasonCodes fun text htext =>
    isPlainCode_of_mem_riskCodes text (hsublist.subset htext)
  rw [hreasons] at hchecked
  cases hchecked
  exact ⟨(Except.ok.inj hsymbol).symm, hlevel, htexts (hsublist.nodup riskCodes_nodup)⟩

/-! ### What an assessment says -/

def LiftedIn (events : List PublicRiskEvent) (event : PublicRiskEvent) (reason : Text) : Prop :=
  ∃ later ∈ events, event.announcedAt < later.announcedAt ∧
    reason ∈ resolvedReasons later.title.text

/-- The event states a risk that no later event resolves. -/
def UnresolvedIn (events : List PublicRiskEvent) (event : PublicRiskEvent) : Prop :=
  ∃ reason ∈ event.reasonCodes.texts, ¬ LiftedIn events event reason

instance (events : List PublicRiskEvent) (event : PublicRiskEvent) (reason : Text) :
    Decidable (LiftedIn events event reason) :=
  inferInstanceAs (Decidable (∃ later ∈ events, event.announcedAt < later.announcedAt ∧
    reason ∈ resolvedReasons later.title.text))

instance (events : List PublicRiskEvent) (event : PublicRiskEvent) :
    Decidable (UnresolvedIn events event) :=
  inferInstanceAs (Decidable (∃ reason ∈ event.reasonCodes.texts, ¬ LiftedIn events event reason))

omit [HtmlTable] [FoldTable] [EpochClock] in
theorem lt_resolutionTime_iff {events : List PublicRiskEvent} {reason : Text}
    {time : UtcDateTime} :
    (∃ resolved ∈ resolutionTime events reason, time < resolved) ↔
      ∃ event ∈ events, time < event.announcedAt ∧ reason ∈ resolvedReasons event.title.text := by
  have hfold : ∀ (events : List PublicRiskEvent) (previous : Option UtcDateTime),
      (∃ resolved ∈ events.foldl (fun previous event =>
        if reason ∈ resolvedReasons event.title.text ∧
          ∀ time ∈ previous, time < event.announcedAt then some event.announcedAt
        else previous) previous, time < resolved) ↔
      (∃ resolved ∈ previous, time < resolved) ∨
        ∃ event ∈ events, time < event.announcedAt ∧
          reason ∈ resolvedReasons event.title.text := by
    intro events
    induction events with
    | nil => simp
    | cons event rest ih =>
        intro previous
        rw [List.foldl_cons, ih, List.exists_mem_cons_iff, ← or_assoc]
        refine or_congr_left ?_
        by_cases hresolves : reason ∈ resolvedReasons event.title.text
        · by_cases hlater : ∀ time ∈ previous, time < event.announcedAt
          · rw [if_pos ⟨hresolves, hlater⟩]
            constructor
            · rintro ⟨_, ⟨⟩, hlt⟩
              exact Or.inr ⟨hlt, hresolves⟩
            · rintro (⟨resolved, hresolved, hlt⟩ | ⟨hlt, _⟩)
              · exact ⟨_, rfl, hlt.trans (hlater resolved hresolved)⟩
              · exact ⟨_, rfl, hlt⟩
          · rw [if_neg fun h => hlater h.2]
            refine ⟨Or.inl, ?_⟩
            rintro (hprevious | ⟨hlt, _⟩)
            · exact hprevious
            · push Not at hlater
              obtain ⟨resolved, hresolved, hle⟩ := hlater
              exact ⟨resolved, hresolved, hlt.trans_le hle⟩
        · rw [if_neg fun h => hresolves h.1]
          exact ⟨Or.inl, fun h => h.resolve_right fun h => hresolves h.2⟩
  rw [resolutionTime, hfold]
  simp

omit [HtmlTable] [FoldTable] [EpochClock] in
theorem mem_unresolvedReasons {events : List PublicRiskEvent} {event : PublicRiskEvent}
    {reason : Text} :
    reason ∈ unresolvedReasons events event ↔
      reason ∈ event.reasonCodes.texts ∧ ¬ LiftedIn events event reason := by
  rw [unresolvedReasons, List.mem_filter, decide_eq_true_iff]
  refine and_congr_right fun _ => ?_
  rw [LiftedIn, ← lt_resolutionTime_iff]
  cases resolutionTime events reason with
  | none => simp
  | some resolved => simp

omit [HtmlTable] [FoldTable] [EpochClock] in
theorem mem_activeEvents {events : List PublicRiskEvent} {event : PublicRiskEvent} :
    event ∈ activeEvents events ↔ event ∈ events ∧ UnresolvedIn events event := by
  rw [activeEvents, List.mem_filter, decide_eq_true_iff]
  refine and_congr_right fun _ => ?_
  rw [ne_eq, ← List.isEmpty_iff, Bool.not_eq_true, List.isEmpty_eq_false_iff_exists_mem]
  exact exists_congr fun _ => mem_unresolvedReasons

omit [HtmlTable] [FoldTable] [EpochClock] in
/-- The level is clear exactly if each stated risk was resolved later. -/
theorem assessedLevel_clear_iff {events : List PublicRiskEvent} :
    assessedLevel events = .clear ↔ ∀ event ∈ events, ¬ UnresolvedIn events event := by
  have hactive : activeEvents events = [] ↔ ∀ event ∈ events, ¬ UnresolvedIn events event := by
    rw [List.eq_nil_iff_forall_not_mem]
    exact forall_congr' fun event => by rw [mem_activeEvents, not_and]
  rw [← hactive, assessedLevel]
  split
  · rename_i hblocked
    obtain ⟨event, hevent, _⟩ := hblocked
    refine ⟨(fun h => nomatch h), fun hnil => ?_⟩
    rw [hnil] at hevent
    cases hevent
  · split
    · rename_i hne
      exact ⟨(fun h => nomatch h), fun hnil => absurd hnil hne⟩
    · rename_i hnil
      exact ⟨fun _ => not_not.mp hnil, fun _ => rfl⟩

omit [HtmlTable] [FoldTable] [EpochClock] in
theorem exists_created {symbol : Symbol} {codes : List Text} {reasons : ReasonCodes}
    (hchecked : ReasonCodes.check codes = .ok reasons) {events : List PublicRiskEvent}
    (hown : ∀ event ∈ events, event.symbol = symbol) (name : Text) (level : EventRiskLevel)
    (checkedAt : UtcDateTime) :
    ∃ created, PublicRiskAssessment.create symbol.text name level codes events checkedAt =
      .ok created := by
  rw [PublicRiskAssessment.create, checkSymbol_text, hchecked]
  exact ⟨_, dif_pos hown⟩

omit [HtmlTable] [FoldTable] [EpochClock] in
theorem symbol_of_created {symbol : Symbol} {name : Text} {level : EventRiskLevel}
    {codes : List Text} {events : List PublicRiskEvent} {checkedAt : UtcDateTime}
    {created : PublicRiskAssessment}
    (h : PublicRiskAssessment.create symbol.text name level codes events checkedAt = .ok created) :
    created.symbol = symbol ∧ created.level = level := by
  obtain ⟨_, hlevel, hsymbol⟩ := PublicRiskAssessment.create_events h
  rw [checkSymbol_text] at hsymbol
  exact ⟨(Except.ok.inj hsymbol).symm, hlevel⟩

omit [FoldTable] [EpochClock] in
theorem exists_assessment {symbol : Symbol} {events : List PublicRiskEvent}
    (h : ∀ event ∈ events, ReadAs symbol event) (name : Text) (checkedAt : UtcDateTime) :
    ∃ assessed, assessment symbol name events checkedAt = .ok assessed := by
  have hreasons : ∀ text ∈ (activeEvents events).flatMap (unresolvedReasons events),
      IsPlainCode text := by
    intro text htext
    obtain ⟨event, hevent, htext⟩ := List.mem_flatMap.mp htext
    have hstated := (mem_unresolvedReasons.mp htext).1
    rw [(h event (mem_activeEvents.mp hevent).1).reasons] at hstated
    exact isPlainCode_of_mem_riskCodes text ((reasons_sublist _).subset hstated)
  have hown : ∀ event ∈ (events.insertionSort shownBefore).take 8, event.symbol = symbol :=
    fun event hevent =>
      (h event ((List.mem_insertionSort shownBefore).mp (List.mem_of_mem_take hevent))).symbol
  obtain ⟨reasons, hchecked, _⟩ := exists_reasonCodes hreasons
  exact exists_created hchecked hown name _ checkedAt

/-! ### A refresh ends with a snapshot -/

section

omit [HtmlTable] [FoldTable] [EpochClock]

omit [UrlTable] [CaseTable] in
theorem ofParts?_eq_some {year month day : ℕ} {date : Date}
    (h : Date.ofParts? year month day = some date) :
    date.year = year ∧ date.month = month ∧ date.day = day := by
  rw [Date.ofParts?] at h
  split_ifs at h
  cases h
  exact ⟨rfl, rfl, rfl⟩

omit [UrlTable] [CaseTable] in
theorem previousDay_lt {day earlier : Date} (h : previousDay day = some earlier) :
    earlier < day := by
  have hyear := day.year_range
  have hmonth := day.month_range
  have hday := day.day_range
  change earlier.key < day.key
  simp only [Date.key, Prod.Lex.toLex_lt_toLex]
  rcases Option.or_eq_some_iff.mp h with hsame | ⟨_, h⟩
  · obtain ⟨h₁, h₂, h₃⟩ := ofParts?_eq_some hsame
    omega
  · rcases Option.or_eq_some_iff.mp h with hmonthBefore | ⟨_, hyearBefore⟩
    · obtain ⟨h₁, h₂, h₃⟩ := ofParts?_eq_some hmonthBefore
      omega
    · obtain ⟨h₁, h₂, h₃⟩ := ofParts?_eq_some hyearBefore
      omega

omit [UrlTable] [CaseTable] in
theorem daysBefore_le {days : ℕ} {day earlier : Date} (h : daysBefore days day = some earlier) :
    earlier ≤ day := by
  induction days generalizing day with
  | zero => exact le_of_eq (Option.some.inj h).symm
  | succ days ih =>
      obtain ⟨before, hbefore, hearlier⟩ := Option.bind_eq_some_iff.mp h
      exact (ih hearlier).trans (previousDay_lt hbefore).le

theorem exists_unknownAssessment (symbol : Symbol) (name : Text) (checkedAt : UtcDateTime)
    {reason : Text} (h : IsPlainCode reason) :
    ∃ unknown, unknownAssessment symbol name checkedAt reason = .ok unknown := by
  obtain ⟨reasons, hchecked, _⟩ :=
    exists_reasonCodes (List.forall_mem_singleton.mpr h)
  exact exists_created hchecked (fun _ hevent => absurd hevent List.not_mem_nil) name _ checkedAt

omit [UrlTable] [CaseTable] in
theorem notice_strip_ne_nil (requested failures : ℕ) (windowStart windowEnd : Date) :
    Text.strip (CNInfoAnnouncementProvider.notice requested failures windowStart windowEnd) ≠ [] :=
  Text.strip_cons_ne_nil _ (by decide)

end

section

variable {provider : CNInfoAnnouncementProvider} {companies : CompanyMap}
  {windowStart windowEnd : Date} {checkedAt : UtcDateTime} {symbol : Symbol}

theorem assessOrUnknown_symbol {result : PublicRiskAssessment × Bool}
    (h : provider.assessOrUnknown companies windowStart windowEnd checkedAt symbol = .ok result) :
    result.1.symbol = symbol := by
  rw [CNInfoAnnouncementProvider.assessOrUnknown] at h
  split at h
  · obtain ⟨unknown, hunknown, h⟩ := bind_eq_ok_iff.mp h
    cases h
    exact (symbol_of_created (caughtError_eq_ok_iff.mp hunknown)).1
  · split at h
    · rename_i hassessed
      cases h
      obtain ⟨_, _, hmade⟩ := bind_eq_ok_iff.mp hassessed
      exact (symbol_of_created (caughtError_eq_ok_iff.mp hmade)).1
    · obtain ⟨unknown, hunknown, h⟩ := bind_eq_ok_iff.mp h
      cases h
      exact (symbol_of_created (caughtError_eq_ok_iff.mp hunknown)).1
    · cases h

/-- Only an error that is not caught keeps a symbol without a result. -/
theorem exists_assessOrUnknown
    (h : ∀ company text, companies.get? symbol.text = some company →
      provider.assess symbol company windowStart windowEnd checkedAt ≠ .error (.escaping text)) :
    ∃ result, provider.assessOrUnknown companies windowStart windowEnd checkedAt symbol =
      .ok result := by
  rw [CNInfoAnnouncementProvider.assessOrUnknown]
  split
  · have hplain : IsPlainCode "CNINFO_SYMBOL_NOT_FOUND".toList := by decide
    obtain ⟨unknown, hunknown⟩ := exists_unknownAssessment symbol symbol.text checkedAt hplain
    rw [hunknown]
    exact ⟨_, rfl⟩
  · rename_i company hfound
    split
    · exact ⟨_, rfl⟩
    · have hplain : IsPlainCode "CNINFO_REQUEST_FAILED".toList := by decide
      obtain ⟨unknown, hunknown⟩ := exists_unknownAssessment symbol company.zwjc checkedAt hplain
      rw [hunknown]
      exact ⟨_, rfl⟩
    · rename_i text hescaping
      exact absurd hescaping (h company text hfound)

omit [HtmlTable] [FoldTable] [EpochClock] in
theorem exists_snapshot {results : List (PublicRiskAssessment × Bool)} {normalized : List Symbol}
    (hsymbols : results.map (fun result => result.1.symbol) = normalized)
    (hnormalized : normalized.Nodup) (checkedAt : UtcDateTime)
    (hwindow : windowStart ≤ windowEnd) (status : SnapshotStatus)
    {noticeZh : Text} (hnotice : Text.strip noticeZh ≠ []) :
    ∃ snapshot, PublicRiskSnapshot.create "CNINFO".toList checkedAt (.date windowStart)
      (.date windowEnd) status.value noticeZh (results.map Prod.fst) = .ok snapshot := by
  have hsource : RequiredText.check "source" "CNINFO".toList =
      .ok ⟨"CNINFO".toList, by decide, by decide⟩ := by
    rw [RequiredText.check, dif_neg (by decide)]
    rfl
  have hchecked : RequiredText.check "notice_zh" noticeZh =
      .ok ⟨Text.strip noticeZh, Text.strip_strip noticeZh, hnotice⟩ := dif_neg hnotice
  have hafter : (Day.date windowStart).after? (.date windowEnd) = some false := by
    rw [Day.after?, decide_eq_false (not_lt_of_ge hwindow)]
  have hdistinct : ((results.map Prod.fst).map symbolText).Nodup := by
    apply symbolText_nodup
    rw [List.map_map]
    exact hsymbols ▸ hnormalized
  rw [PublicRiskSnapshot.create, hsource, SnapshotStatus.ofText?_value, hchecked]
  split
  · rename_i hnone
    rw [hafter] at hnone
    cases hnone
  · rename_i htrue
    rw [hafter] at htrue
    cases htrue
  · exact ⟨_, dif_pos hdistinct⟩

/-- A refresh that is asked for a window of the calendar and at most fifty symbols, and whose
company map is answered, ends with a snapshot, unless an error is not caught. -/
theorem exists_fetch {symbols : List Text} {checked : List Symbol} {windowDays : ℤ}
    (hdays : 1 ≤ windowDays ∧ windowDays ≤ 90) (hchecked : symbols.mapM checkSymbol = .ok checked)
    (hcount : (fromKeys checked).length ≤ 50)
    (hstart : daysBefore (windowDays - 1).toNat windowEnd = some windowStart)
    (hcompanies : (provider.companies >>= companyMap) = .ok companies)
    (hcaught : ∀ symbol ∈ checked, ∀ company text, companies.get? symbol.text = some company →
      provider.assess symbol company windowStart windowEnd checkedAt ≠ .error (.escaping text)) :
    ∃ snapshot, provider.fetch symbols windowEnd windowDays checkedAt = .ok snapshot := by
  obtain ⟨rows, hrows, hmap⟩ := bind_eq_ok_iff.mp hcompanies
  obtain ⟨results, hresults⟩ : ∃ results, (fromKeys checked).mapM
      (provider.assessOrUnknown companies windowStart windowEnd checkedAt) = .ok results :=
    exists_mapM_ok fun symbol hsymbol =>
      exists_assessOrUnknown (hcaught symbol (mem_fromKeys.mp hsymbol))
  have hsymbols : results.map (fun result => result.1.symbol) = fromKeys checked :=
    (map_of_mapM_ok (fun _ _ => assessOrUnknown_symbol) hresults).trans (List.map_id _)
  have hnotice := notice_strip_ne_nil (fromKeys checked).length
    (results.filter Prod.snd).length windowStart windowEnd
  obtain ⟨snapshot, hsnapshot⟩ := exists_snapshot hsymbols
    (nodup_fromKeys checked) checkedAt (daysBefore_le hstart)
    (if (results.filter Prod.snd).length = 0 then .fresh else .partialWindow) hnotice
  refine ⟨snapshot, bind_eq_ok_iff.mpr ⟨(), require_eq_ok_iff.mpr hdays, ?_⟩⟩
  refine bind_eq_ok_iff.mpr ⟨checked, caughtError_eq_ok_iff.mpr hchecked, ?_⟩
  refine bind_eq_ok_iff.mpr ⟨(), require_eq_ok_iff.mpr hcount, ?_⟩
  refine bind_eq_ok_iff.mpr ⟨windowStart, orRaise_eq_ok_iff.mpr hstart, ?_⟩
  refine bind_eq_ok_iff.mpr ⟨rows, hrows, bind_eq_ok_iff.mpr ⟨companies, hmap, ?_⟩⟩
  refine bind_eq_ok_iff.mpr ⟨results, hresults, caughtError_eq_ok_iff.mpr ?_⟩
  rw [apply_ite SnapshotStatus.value] at hsnapshot
  exact hsnapshot

end

end QuantWorkbench.Intelligence
