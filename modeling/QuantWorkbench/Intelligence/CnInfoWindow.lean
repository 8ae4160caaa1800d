import QuantWorkbench.Intelligence.CnInfo

/-!
What a refresh says about a whole window. The service holds the announcements of each symbol in
pages, the latest first, and the adapter reads only the first of them.
-/

namespace QuantWorkbench.Intelligence

open Lib Data Signals

section

variable [CaseTable] [UrlTable] [HtmlTable] [FoldTable] [EpochClock]

/-- The announcements among rows, as far as they can be read. -/
def eventsOf (symbol : Symbol) (rows : List (Option AnnouncementRow)) : List PublicRiskEvent :=
  rows.filterMap fun row => (eventFromRow row symbol).toOption

/-- What the service holds in the window: pages in descending order of time. -/
structure AnnouncementServer where
  pages : Symbol → List (List (Option AnnouncementRow))
  small : ∀ symbol, ∀ page ∈ pages symbol, page.length ≤ PAGE_SIZE
  descending : ∀ symbol, (eventsOf symbol (pages symbol).flatten).Pairwise announcedLater

/-- A page and whether there are announcements behind it. -/
def servedPage (pages : List (List (Option AnnouncementRow))) : AnnouncementPage :=
  ⟨pages.headD [], pages.tail.flatten ≠ []⟩

/-- Each answer for the window is the page that was asked for; a request may also fail. -/
def Serves (server : AnnouncementServer) (provider : CNInfoAnnouncementProvider)
    (windowStart windowEnd : Date) : Prop :=
  ∀ symbol orgId index page,
    provider.answer symbol orgId windowStart windowEnd (index + 1) = .ok page →
      page = servedPage ((server.pages symbol).drop index)

def examinedPages : ℕ → List (List (Option AnnouncementRow)) →
    List (List (Option AnnouncementRow))
  | 0, _ => []
  | budget + 1, pages =>
      pages.headD [] ::
        if pages.tail.flatten = [] ∨ pages.headD [] = [] then []
        else examinedPages budget pages.tail

section

omit [CaseTable] [UrlTable] [HtmlTable] [FoldTable] [EpochClock]

/-- The rows of the pages that are asked for are the first ones. -/
theorem exists_unexamined (budget : ℕ) (pages : List (List (Option AnnouncementRow))) :
    ∃ later, pages.flatten = (examinedPages budget pages).flatten ++ later := by
  induction budget generalizing pages with
  | zero => exact ⟨pages.flatten, rfl⟩
  | succ budget ih =>
      have hfront : pages.flatten = pages.headD [] ++ pages.tail.flatten := by
        cases pages <;> rfl
      rw [examinedPages]
      split
      · exact ⟨pages.tail.flatten, by rw [hfront, List.flatten_singleton]⟩
      · obtain ⟨later, hlater⟩ := ih pages.tail
        exact ⟨later, by rw [hfront, hlater, List.flatten_cons, List.append_assoc]⟩

end

/-! ### Reading pages -/

def Readable (symbol : Symbol) (rows : List (Option AnnouncementRow)) : Prop :=
  ∀ row ∈ rows, ∃ event, eventFromRow row symbol = .ok event

theorem readable_append {symbol : Symbol} {rows later : List (Option AnnouncementRow)} :
    Readable symbol (rows ++ later) ↔ Readable symbol rows ∧ Readable symbol later :=
  List.forall_mem_append

theorem eventsOf_append (symbol : Symbol) (rows later : List (Option AnnouncementRow)) :
    eventsOf symbol (rows ++ later) = eventsOf symbol rows ++ eventsOf symbol later :=
  List.filterMap_append

theorem eventsOf_cons {symbol : Symbol} {row : Option AnnouncementRow} {event : PublicRiskEvent}
    (h : eventFromRow row symbol = .ok event) (rows : List (Option AnnouncementRow)) :
    eventsOf symbol (row :: rows) = event :: eventsOf symbol rows := by
  rw [eventsOf, List.filterMap_cons, h]
  rfl

theorem mem_eventsOf {symbol : Symbol} {rows : List (Option AnnouncementRow)}
    {event : PublicRiskEvent} :
    event ∈ eventsOf symbol rows ↔ ∃ row ∈ rows, eventFromRow row symbol = .ok event := by
  rw [eventsOf, List.mem_filterMap]
  exact exists_congr fun row => and_congr_right fun _ => toOption_eq_some_iff

theorem foldlM_readRow_iff {symbol : Symbol} {rows : List (Option AnnouncementRow)}
    {read result : ReadAnnouncements} :
    rows.foldlM (readRow symbol) read = .ok result ↔
      Readable symbol rows ∧ (eventsOf symbol rows).foldl Keyed.put read = result := by
  induction rows generalizing read with
  | nil =>
      constructor
      · intro h
        cases h
        exact ⟨fun _ hrow => absurd hrow List.not_mem_nil, rfl⟩
      · rintro ⟨_, rfl⟩
        rfl
  | cons row rest ih =>
      rw [List.foldlM_cons, bind_eq_ok_iff]
      constructor
      · rintro ⟨next, hnext, hrest⟩
        obtain ⟨event, hevent, hput⟩ := bind_eq_ok_iff.mp hnext
        cases hput
        obtain ⟨hreadable, hresult⟩ := ih.mp hrest
        refine ⟨List.forall_mem_cons.mpr ⟨⟨event, hevent⟩, hreadable⟩, ?_⟩
        rwa [eventsOf_cons hevent]
      · rintro ⟨hreadable, hresult⟩
        obtain ⟨⟨event, hevent⟩, hrest⟩ := List.forall_mem_cons.mp hreadable
        rw [eventsOf_cons hevent] at hresult
        exact ⟨_, bind_eq_ok_iff.mpr ⟨event, hevent, rfl⟩, ih.mpr ⟨hrest, hresult⟩⟩

section

variable {answer : ℕ → Except CnInfoError AnnouncementPage}
  {pages : List (List (Option AnnouncementRow))}

/-- The pages that are asked for from a position on are answered. -/
def AnsweredFrom (answer : ℕ → Except CnInfoError AnnouncementPage) (first count : ℕ) : Prop :=
  ∀ index < count, ∃ page, answer (first + index + 1) = .ok page

omit [CaseTable] [UrlTable] [HtmlTable] [FoldTable] [EpochClock] in
theorem answeredFrom_succ {first count : ℕ} :
    AnsweredFrom answer first (count + 1) ↔
      (∃ page, answer (first + 1) = .ok page) ∧ AnsweredFrom answer (first + 1) count := by
  constructor
  · intro h
    refine ⟨h 0 (Nat.zero_lt_succ count), fun index hindex => ?_⟩
    have hnext := h (index + 1) (Nat.succ_lt_succ hindex)
    rwa [show first + (index + 1) + 1 = first + 1 + index + 1 by omega] at hnext
  · rintro ⟨hfirst, hlater⟩ index hindex
    cases index with
    | zero => exact hfirst
    | succ index =>
        have hnext := hlater index (by omega)
        rwa [show first + 1 + index + 1 = first + (index + 1) + 1 by omega] at hnext

omit [CaseTable] [UrlTable] [HtmlTable] [FoldTable] [EpochClock] in
theorem servedPage_last_iff (pages : List (List (Option AnnouncementRow))) :
    ((servedPage pages).hasMore = false ∨ (servedPage pages).announcements = []) ↔
      (pages.tail.flatten = [] ∨ pages.headD [] = []) := by
  refine or_congr_left ?_
  rw [servedPage, decide_eq_false_iff_not, not_not]

omit [CaseTable] [UrlTable] [HtmlTable] [FoldTable] [EpochClock] in
theorem length_headD_le (hsmall : ∀ page ∈ pages, page.length ≤ PAGE_SIZE) (first : ℕ) :
    ((pages.drop first).headD []).length ≤ PAGE_SIZE := by
  cases hdrop : pages.drop first with
  | nil => exact Nat.zero_le _
  | cons page rest =>
      apply hsmall
      apply List.mem_of_mem_drop (i := first)
      rw [hdrop]
      exact List.mem_cons_self

theorem readPages_succ_iff {symbol : Symbol} {budget first : ℕ} {read result : ReadAnnouncements}
    (hserves : ∀ index page, answer (index + 1) = .ok page → page = servedPage (pages.drop index))
    (hsmall : ∀ page ∈ pages, page.length ≤ PAGE_SIZE) :
    readPages answer symbol (budget + 1) (first + 1) read = .ok result ↔
      (∃ page, answer (first + 1) = .ok page) ∧
        ∃ next, ((pages.drop first).headD []).foldlM (readRow symbol) read = .ok next ∧
          if (pages.drop first).tail.flatten = [] ∨ (pages.drop first).headD [] = [] then
            next = result
          else readPages answer symbol budget (first + 1 + 1) next = .ok result := by
  have hlast := servedPage_last_iff (pages.drop first)
  constructor
  · intro h
    obtain ⟨page, hpage, h⟩ := bind_eq_ok_iff.mp h
    obtain ⟨_, _, h⟩ := bind_eq_ok_iff.mp h
    obtain ⟨next, hnext, h⟩ := bind_eq_ok_iff.mp h
    cases hserves first page hpage
    refine ⟨⟨_, hpage⟩, next, hnext, ?_⟩
    split
    · rename_i hstop
      rw [if_pos (hlast.mpr hstop)] at h
      exact Except.ok.inj h
    · rename_i hgo
      rwa [if_neg (mt hlast.mp hgo)] at h
  · rintro ⟨⟨page, hpage⟩, next, hnext, h⟩
    refine bind_eq_ok_iff.mpr ⟨page, hpage, ?_⟩
    cases hserves first page hpage
    refine bind_eq_ok_iff.mpr ⟨(), require_eq_ok_iff.mpr (length_headD_le hsmall first), ?_⟩
    refine bind_eq_ok_iff.mpr ⟨next, hnext, ?_⟩
    split at h
    · rename_i hstop
      rw [if_pos (hlast.mpr hstop), h]
      rfl
    · rename_i hgo
      rwa [if_neg (mt hlast.mp hgo)]

/-- The loop over the pages succeeds exactly if what it asks for is answered and can be read,
and then it has put each announcement of the examined pages. -/
theorem readPages_iff {symbol : Symbol} {budget first : ℕ} {read result : ReadAnnouncements}
    (hserves : ∀ index page, answer (index + 1) = .ok page → page = servedPage (pages.drop index))
    (hsmall : ∀ page ∈ pages, page.length ≤ PAGE_SIZE) :
    readPages answer symbol budget (first + 1) read = .ok result ↔
      AnsweredFrom answer first (examinedPages budget (pages.drop first)).length ∧
        Readable symbol (examinedPages budget (pages.drop first)).flatten ∧
          (eventsOf symbol (examinedPages budget (pages.drop first)).flatten).foldl Keyed.put read =
            result := by
  induction budget generalizing first read with
  | zero =>
      constructor
      · intro h
        cases h
        exact ⟨fun _ hindex => absurd hindex (Nat.not_lt_zero _),
          fun _ hrow => absurd hrow List.not_mem_nil, rfl⟩
      · rintro ⟨_, _, rfl⟩
        rfl
  | succ budget ih =>
      rw [readPages_succ_iff hserves hsmall, examinedPages]
      split
      · rw [List.length_singleton, answeredFrom_succ, List.flatten_singleton]
        simp only [foldlM_readRow_iff]
        constructor
        · rintro ⟨hpage, next, ⟨hreadable, hnext⟩, rfl⟩
          exact ⟨⟨hpage, fun _ hindex => absurd hindex (Nat.not_lt_zero _)⟩, hreadable, hnext⟩
        · rintro ⟨⟨hpage, _⟩, hreadable, hnext⟩
          exact ⟨hpage, _, ⟨hreadable, hnext⟩, rfl⟩
      · rw [List.length_cons, answeredFrom_succ, List.flatten_cons, readable_append,
          eventsOf_append, List.foldl_append, List.tail_drop]
        simp only [foldlM_readRow_iff, ih]
        constructor
        · rintro ⟨hpage, _, ⟨hreadable, rfl⟩, hanswered, hlater, hresult⟩
          exact ⟨⟨hpage, hanswered⟩, ⟨hreadable, hlater⟩, hresult⟩
        · rintro ⟨⟨hpage, hanswered⟩, ⟨hreadable, hlater⟩, hresult⟩
          exact ⟨hpage, _, ⟨hreadable, rfl⟩, hanswered, hlater, hresult⟩

end

/-! ### Announcements that were put once -/

/-- Two announcements of the same time and title. -/
def SameAnnouncement (event other : PublicRiskEvent) : Prop :=
  event.announcedAt = other.announcedAt ∧ event.title.text = other.title.text

/-- No announcement states a risk that is not resolved later. -/
def Settled (events : List PublicRiskEvent) : Prop :=
  ∀ event ∈ events, ¬ UnresolvedIn events event

instance (events : List PublicRiskEvent) : Decidable (Settled events) :=
  inferInstanceAs (Decidable (∀ event ∈ events, ¬ UnresolvedIn events event))

omit [HtmlTable] [FoldTable] [EpochClock] in
theorem sameAnnouncement_of_key {event other : PublicRiskEvent}
    (h : announcementKey event = announcementKey other) : SameAnnouncement event other := by
  obtain ⟨_, hrest⟩ := Prod.mk.inj h
  obtain ⟨htime, htitle⟩ := Prod.mk.inj hrest
  have hread := congrArg UtcDateTime.fromisoformat htime
  rw [UtcDateTime.fromisoformat_isoformat, UtcDateTime.fromisoformat_isoformat] at hread
  exact ⟨Option.some.inj hread, htitle⟩

omit [FoldTable] [EpochClock] in
theorem unresolvedIn_of_same {symbol : Symbol} {events kept : List PublicRiskEvent}
    (hkept : ∀ other ∈ kept, ∃ event ∈ events, SameAnnouncement other event)
    {event other : PublicRiskEvent} (hevent : ReadAs symbol event) (hother : ReadAs symbol other)
    (hsame : SameAnnouncement event other) (h : UnresolvedIn events event) :
    UnresolvedIn kept other := by
  obtain ⟨reason, hreason, hstands⟩ := h
  refine ⟨reason, ?_, ?_⟩
  · rwa [hother.reasons, ← hsame.2, ← hevent.reasons]
  · rintro ⟨later, hlater, hafter, hresolves⟩
    obtain ⟨source, hsource, htime, htitle⟩ := hkept later hlater
    refine hstands ⟨source, hsource, ?_, ?_⟩
    · rwa [hsame.1, ← htime]
    · rwa [← htitle]

omit [FoldTable] [EpochClock] in
/-- Whether all is settled does not depend on announcements that are put twice. -/
theorem settled_put_iff {symbol : Symbol} {events : List PublicRiskEvent}
    (h : ∀ event ∈ events, ReadAs symbol event) :
    Settled (latestFirst (events.foldl Keyed.put (.empty : ReadAnnouncements)).values) ↔
      Settled events := by
  have hfrom : ∀ other ∈ latestFirst (events.foldl Keyed.put (.empty : ReadAnnouncements)).values,
      other ∈ events := by
    intro other hother
    exact (Keyed.mem_foldl_put (mem_latestFirst.mp hother)).resolve_right List.not_mem_nil
  have hinto : ∀ event ∈ events,
      ∃ other ∈ latestFirst (events.foldl Keyed.put (.empty : ReadAnnouncements)).values,
        SameAnnouncement event other := by
    intro event hevent
    have hkey := Keyed.mem_keys_foldl_put (d := (.empty : ReadAnnouncements)).mpr
      (Or.inl (List.mem_map_of_mem hevent))
    obtain ⟨other, hother, hsame⟩ := Keyed.mem_keys.mp hkey
    exact ⟨other, mem_latestFirst.mpr hother, sameAnnouncement_of_key hsame.symm⟩
  constructor
  · intro hsettled event hevent hunresolved
    obtain ⟨other, hother, hsame⟩ := hinto event hevent
    apply hsettled other hother
    exact unresolvedIn_of_same (fun kept hkept => ⟨kept, hfrom kept hkept, rfl, rfl⟩)
      (h event hevent) (h other (hfrom other hother)) hsame hunresolved
  · intro hsettled other hother hunresolved
    have hevent := hfrom other hother
    apply hsettled other hevent
    exact unresolvedIn_of_same hinto (h other hevent) (h other hevent) ⟨rfl, rfl⟩ hunresolved

/-! ### The window of a symbol -/

section

variable (server : AnnouncementServer) (provider : CNInfoAnnouncementProvider)

def windowRows (symbol : Symbol) : List (Option AnnouncementRow) := (server.pages symbol).flatten

def examinedRows (symbol : Symbol) : List (Option AnnouncementRow) :=
  (examinedPages provider.maxPagesPerSymbol (server.pages symbol)).flatten

def windowEvents (symbol : Symbol) : List PublicRiskEvent :=
  eventsOf symbol (windowRows server symbol)

def examinedEvents (symbol : Symbol) : List PublicRiskEvent :=
  eventsOf symbol (examinedRows server provider symbol)

def CNInfoAnnouncementProvider.companyOf (symbol : Symbol) : Option CompanyRow :=
  (provider.companies >>= companyMap).toOption.bind fun companies => companies.get? symbol.text

/-- The company is known, the pages that are asked for are answered and their rows can be
read. -/
structure Answered (windowStart windowEnd : Date) (symbol : Symbol) : Prop where
  pages : ∃ company, provider.companyOf symbol = some company ∧
    AnsweredFrom (provider.answer symbol company.orgId windowStart windowEnd) 0
      (examinedPages provider.maxPagesPerSymbol (server.pages symbol)).length
  readable : Readable symbol (examinedRows server provider symbol)

variable {server provider}

theorem readAs_of_mem_eventsOf {symbol : Symbol} {rows : List (Option AnnouncementRow)} :
    ∀ event ∈ eventsOf symbol rows, ReadAs symbol event := by
  intro event hevent
  obtain ⟨row, _, hread⟩ := mem_eventsOf.mp hevent
  exact readAs_of_eventFromRow hread

/-- The announcements that were not examined are not later than those that were. -/
theorem liftedIn_window_iff {symbol : Symbol} {event : PublicRiskEvent}
    (hevent : event ∈ examinedEvents server provider symbol) {reason : Text} :
    LiftedIn (windowEvents server symbol) event reason ↔
      LiftedIn (examinedEvents server provider symbol) event reason := by
  obtain ⟨later, hlater⟩ := exists_unexamined provider.maxPagesPerSymbol (server.pages symbol)
  have hwindow : windowEvents server symbol =
      examinedEvents server provider symbol ++ eventsOf symbol later := by
    rw [windowEvents, windowRows, hlater, eventsOf_append]
    rfl
  have hdescending := server.descending symbol
  rw [hlater, eventsOf_append] at hdescending
  obtain ⟨_, _, hbehind⟩ := List.pairwise_append.mp hdescending
  constructor
  · rintro ⟨other, hother, hafter, hresolves⟩
    rw [hwindow, List.mem_append] at hother
    rcases hother with hexamined | hunexamined
    · exact ⟨other, hexamined, hafter, hresolves⟩
    · exact absurd hafter (not_lt_of_ge (hbehind event hevent other hunexamined))
  · rintro ⟨other, hother, hresolved⟩
    exact ⟨other, hwindow ▸ List.mem_append_left _ hother, hresolved⟩

theorem settled_examined_iff {symbol : Symbol} :
    Settled (examinedEvents server provider symbol) ↔
      ∀ event ∈ examinedEvents server provider symbol,
        ¬ UnresolvedIn (windowEvents server symbol) event := by
  refine forall₂_congr fun event hevent => not_congr ?_
  exact exists_congr fun reason =>
    and_congr_right fun _ => not_congr (liftedIn_window_iff hevent).symm

/-! ### Results of one symbol -/

variable {windowStart windowEnd : Date} {checkedAt : UtcDateTime} {symbol : Symbol}

theorem announcements_iff (hserves : Serves server provider windowStart windowEnd) {orgId : Text}
    {events : List PublicRiskEvent} :
    announcements (provider.answer symbol orgId windowStart windowEnd) symbol
        provider.maxPagesPerSymbol = .ok events ↔
      AnsweredFrom (provider.answer symbol orgId windowStart windowEnd) 0
          (examinedPages provider.maxPagesPerSymbol (server.pages symbol)).length ∧
        Readable symbol (examinedRows server provider symbol) ∧
          latestFirst ((examinedEvents server provider symbol).foldl Keyed.put
            (.empty : ReadAnnouncements)).values = events := by
  have hread (result : ReadAnnouncements) :
      readPages (provider.answer symbol orgId windowStart windowEnd) symbol
          provider.maxPagesPerSymbol 1 .empty = .ok result ↔ _ :=
    readPages_iff (hserves symbol orgId) (server.small symbol)
  rw [announcements, bind_eq_ok_iff]
  constructor
  · rintro ⟨result, hresult, hevents⟩
    obtain ⟨hanswered, hreadable, rfl⟩ := (hread result).mp hresult
    exact ⟨hanswered, hreadable, Except.ok.inj hevents⟩
  · rintro ⟨hanswered, hreadable, rfl⟩
    exact ⟨_, (hread _).mpr ⟨hanswered, hreadable, rfl⟩, rfl⟩

/-- An assessment is made exactly if the pages are answered and can be read, and it is clear
exactly if all that was examined is settled. -/
theorem assess_iff (hserves : Serves server provider windowStart windowEnd) {company : CompanyRow}
    (hcompany : provider.companyOf symbol = some company) :
    (∃ assessed, provider.assess symbol company windowStart windowEnd checkedAt = .ok assessed) ↔
      Answered server provider windowStart windowEnd symbol := by
  constructor
  · rintro ⟨assessed, hassess⟩
    obtain ⟨events, hevents, _⟩ := bind_eq_ok_iff.mp hassess
    obtain ⟨hanswered, hreadable, _⟩ := (announcements_iff hserves).mp hevents
    exact ⟨⟨company, hcompany, hanswered⟩, hreadable⟩
  · rintro ⟨⟨found, hfound, hanswered⟩, hreadable⟩
    rw [hcompany] at hfound
    cases hfound
    have hevents := (announcements_iff hserves).mpr ⟨hanswered, hreadable, rfl⟩
    have hreads : ∀ event ∈ latestFirst ((examinedEvents server provider symbol).foldl Keyed.put
        (.empty : ReadAnnouncements)).values, ReadAs symbol event := by
      intro event hevent
      have hexamined : event ∈ examinedEvents server provider symbol :=
        (Keyed.mem_foldl_put (mem_latestFirst.mp hevent)).resolve_right List.not_mem_nil
      exact readAs_of_mem_eventsOf event hexamined
    obtain ⟨assessed, hassessed⟩ := exists_assessment hreads company.zwjc checkedAt
    exact ⟨assessed, bind_eq_ok_iff.mpr ⟨_, hevents, caughtError_eq_ok_iff.mpr hassessed⟩⟩

theorem level_of_assess (hserves : Serves server provider windowStart windowEnd)
    {company : CompanyRow} {assessed : PublicRiskAssessment}
    (h : provider.assess symbol company windowStart windowEnd checkedAt = .ok assessed) :
    assessed.symbol = symbol ∧
      (assessed.level = .clear ↔ Settled (examinedEvents server provider symbol)) := by
  obtain ⟨events, hevents, h⟩ := bind_eq_ok_iff.mp h
  obtain ⟨_, _, rfl⟩ := (announcements_iff hserves).mp hevents
  obtain ⟨hsymbol, hlevel⟩ := symbol_of_created (caughtError_eq_ok_iff.mp h)
  refine ⟨hsymbol, ?_⟩
  rw [hlevel, assessedLevel_clear_iff]
  exact settled_put_iff readAs_of_mem_eventsOf

/-- What is kept of a symbol. -/
structure KeptResult (server : AnnouncementServer) (provider : CNInfoAnnouncementProvider)
    (windowStart windowEnd : Date) (symbol : Symbol) (result : PublicRiskAssessment × Bool) :
    Prop where
  own : result.1.symbol = symbol
  failed : result.2 = false ↔ Answered server provider windowStart windowEnd symbol
  level : result.1.level = .clear ↔ Answered server provider windowStart windowEnd symbol ∧
    Settled (examinedEvents server provider symbol)

theorem KeptResult.ofUnknown {name reason : Text} {unknown : PublicRiskAssessment}
    (h : unknownAssessment symbol name checkedAt reason = .ok unknown)
    (hnot : ¬ Answered server provider windowStart windowEnd symbol) :
    KeptResult server provider windowStart windowEnd symbol (unknown, true) := by
  obtain ⟨hsymbol, hlevel⟩ := symbol_of_created h
  refine ⟨hsymbol, ⟨(fun h => nomatch h), fun h => absurd h hnot⟩, ?_⟩
  rw [hlevel]
  exact ⟨(fun h => nomatch h), fun h => absurd h.1 hnot⟩

theorem keptResult_of_assessOrUnknown (hserves : Serves server provider windowStart windowEnd)
    {companies : CompanyMap} (hcompanies : (provider.companies >>= companyMap) = .ok companies)
    {result : PublicRiskAssessment × Bool}
    (h : provider.assessOrUnknown companies windowStart windowEnd checkedAt symbol = .ok result) :
    KeptResult server provider windowStart windowEnd symbol result := by
  have hcompanyOf : provider.companyOf symbol = companies.get? symbol.text := by
    rw [CNInfoAnnouncementProvider.companyOf, hcompanies]
    rfl
  rw [CNInfoAnnouncementProvider.assessOrUnknown] at h
  split at h
  · rename_i hnone
    obtain ⟨unknown, hunknown, h⟩ := bind_eq_ok_iff.mp h
    cases h
    refine KeptResult.ofUnknown (caughtError_eq_ok_iff.mp hunknown) ?_
    rintro ⟨⟨company, hcompany, _⟩, _⟩
    rw [hcompanyOf, hnone] at hcompany
    cases hcompany
  · rename_i company hfound
    have hassess : (∃ assessed, provider.assess symbol company windowStart windowEnd checkedAt =
        .ok assessed) ↔ _ := assess_iff hserves (hcompanyOf.trans hfound)
    split at h
    · rename_i assessed hassessed
      cases h
      obtain ⟨hsymbol, hlevel⟩ := level_of_assess hserves hassessed
      have hanswered := hassess.mp ⟨assessed, hassessed⟩
      exact ⟨hsymbol, ⟨fun _ => hanswered, fun _ => rfl⟩,
        hlevel.trans ⟨fun hsettled => ⟨hanswered, hsettled⟩, And.right⟩⟩
    · rename_i hcaught
      obtain ⟨unknown, hunknown, h⟩ := bind_eq_ok_iff.mp h
      cases h
      refine KeptResult.ofUnknown (caughtError_eq_ok_iff.mp hunknown) ?_
      intro hanswered
      obtain ⟨_, hok⟩ := hassess.mpr hanswered
      rw [hcaught] at hok
      cases hok
    · cases h

/-! ### Refreshes -/

/-- The symbols a refresh is asked for. -/
def Requested (symbols : List Text) (symbol : Symbol) : Prop :=
  ∃ text ∈ symbols, checkSymbol text = .ok symbol

/-- What the snapshot says is true of the whole window: a clear symbol has no announcement that
states a risk which is not resolved later, and a fresh snapshot has examined everything. -/
structure EverythingExamined (server : AnnouncementServer) (provider : CNInfoAnnouncementProvider)
    (windowStart windowEnd : Date) (symbols : List Text) (snapshot : PublicRiskSnapshot) : Prop where
  clear : ∀ assessed ∈ snapshot.assessments, assessed.level = .clear →
    Settled (windowEvents server assessed.symbol)
  fresh : snapshot.status = .fresh → ∀ symbol, Requested symbols symbol →
    Answered server provider windowStart windowEnd symbol ∧
      examinedRows server provider symbol = windowRows server symbol

/-- The pages of the budget are enough: if a window has an unresolved announcement then they
have one, and if each symbol is answered then they are all there is. -/
structure BudgetSuffices (server : AnnouncementServer) (provider : CNInfoAnnouncementProvider)
    (windowStart windowEnd : Date) (symbols : List Text) : Prop where
  unresolved : ∀ symbol, Requested symbols symbol →
    Answered server provider windowStart windowEnd symbol →
      (∃ event ∈ windowEvents server symbol, UnresolvedIn (windowEvents server symbol) event) →
        ∃ event ∈ examinedEvents server provider symbol,
          UnresolvedIn (windowEvents server symbol) event
  complete : (∀ symbol, Requested symbols symbol →
      Answered server provider windowStart windowEnd symbol) →
    ∀ symbol, Requested symbols symbol →
      examinedRows server provider symbol = windowRows server symbol

theorem budgetSuffices_of_complete {symbols : List Text}
    (h : ∀ symbol, Requested symbols symbol →
      examinedRows server provider symbol = windowRows server symbol) :
    BudgetSuffices server provider windowStart windowEnd symbols := by
  refine ⟨?_, fun _ => h⟩
  rintro symbol hsymbol _ ⟨event, hevent, hunresolved⟩
  have hevents : examinedEvents server provider symbol = windowEvents server symbol :=
    congrArg (eventsOf symbol) (h symbol hsymbol)
  exact ⟨event, hevents ▸ hevent, hunresolved⟩

variable {symbols : List Text} {windowDays : ℤ} {snapshot : PublicRiskSnapshot}

/-- The snapshot has a result for each requested symbol and no others, and it is fresh exactly if
none of them failed. -/
theorem fetch_results (hserves : Serves server provider windowStart windowEnd)
    (hstart : daysBefore (windowDays - 1).toNat windowEnd = some windowStart)
    (h : provider.fetch symbols windowEnd windowDays checkedAt = .ok snapshot) :
    ∃ results : List (PublicRiskAssessment × Bool),
      (∀ symbol, Requested symbols symbol → ∃ result ∈ results,
        KeptResult server provider windowStart windowEnd symbol result) ∧
      (∀ result ∈ results, ∃ symbol, Requested symbols symbol ∧
        KeptResult server provider windowStart windowEnd symbol result) ∧
      (∀ assessed, assessed ∈ snapshot.assessments ↔ ∃ result ∈ results, result.1 = assessed) ∧
      (snapshot.status = .fresh ↔ ∀ result ∈ results, result.2 = false) := by
  obtain ⟨_, _, h⟩ := bind_eq_ok_iff.mp h
  obtain ⟨checked, hchecked, h⟩ := bind_eq_ok_iff.mp h
  obtain ⟨_, _, h⟩ := bind_eq_ok_iff.mp h
  obtain ⟨start, hstarted, h⟩ := bind_eq_ok_iff.mp h
  obtain ⟨rows, hrows, h⟩ := bind_eq_ok_iff.mp h
  obtain ⟨companies, hmap, h⟩ := bind_eq_ok_iff.mp h
  obtain ⟨results, hresults, h⟩ := bind_eq_ok_iff.mp h
  have hsame := orRaise_eq_ok_iff.mp hstarted
  rw [hstart] at hsame
  cases hsame
  have hcompanies : (provider.companies >>= companyMap) = .ok companies :=
    bind_eq_ok_iff.mpr ⟨rows, hrows, hmap⟩
  have hrequested : ∀ symbol, Requested symbols symbol ↔ symbol ∈ fromKeys checked := by
    intro symbol
    rw [mem_fromKeys]
    constructor
    · rintro ⟨text, htext, hsymbol⟩
      obtain ⟨other, hother, hcheck⟩ :=
        exists_mem_of_mapM_ok (caughtError_eq_ok_iff.mp hchecked) htext
      rw [hsymbol] at hcheck
      cases hcheck
      exact hother
    · intro hmem
      exact mem_of_mapM_ok (caughtError_eq_ok_iff.mp hchecked) hmem
  obtain ⟨_, _, hassessments, hstatus⟩ :=
    PublicRiskSnapshot.create_eq_ok (caughtError_eq_ok_iff.mp h)
  refine ⟨results, ?_, ?_, ?_, ?_⟩
  · intro symbol hsymbol
    obtain ⟨result, hresult, hmade⟩ := exists_mem_of_mapM_ok hresults ((hrequested symbol).mp hsymbol)
    exact ⟨result, hresult, keptResult_of_assessOrUnknown hserves hcompanies hmade⟩
  · intro result hresult
    obtain ⟨symbol, hsymbol, hmade⟩ := mem_of_mapM_ok hresults hresult
    exact ⟨symbol, (hrequested symbol).mpr hsymbol,
      keptResult_of_assessOrUnknown hserves hcompanies hmade⟩
  · intro assessed
    rw [hassessments, bySymbolOrder, List.mem_insertionSort, List.mem_map]
  · have hfailures : (results.filter Prod.snd).length = 0 ↔ ∀ result ∈ results, result.2 = false := by
      rw [List.length_eq_zero_iff, List.filter_eq_nil_iff]
      exact forall₂_congr fun result _ => Bool.not_eq_true result.2 ▸ Iff.rfl
    rw [← hfailures]
    split at hstatus
    · rename_i hzero
      rw [SnapshotStatus.ofText?_value] at hstatus
      exact ⟨fun _ => hzero, fun _ => (Option.some.inj hstatus).symm⟩
    · rename_i hsome
      rw [SnapshotStatus.ofText?_value] at hstatus
      rw [← Option.some.inj hstatus]
      exact ⟨(fun h => nomatch h), fun hzero => absurd hzero hsome⟩

/-- A refresh tells the truth about the window exactly if the budget suffices. -/
theorem everythingExamined_iff (hserves : Serves server provider windowStart windowEnd)
    (hstart : daysBefore (windowDays - 1).toNat windowEnd = some windowStart)
    (h : provider.fetch symbols windowEnd windowDays checkedAt = .ok snapshot) :
    EverythingExamined server provider windowStart windowEnd symbols snapshot ↔
      BudgetSuffices server provider windowStart windowEnd symbols := by
  obtain ⟨results, hinto, hfrom, hassessed, hfresh⟩ := fetch_results hserves hstart h
  have hstatus : snapshot.status = .fresh ↔ ∀ symbol, Requested symbols symbol →
      Answered server provider windowStart windowEnd symbol := by
    rw [hfresh]
    constructor
    · intro hall symbol hsymbol
      obtain ⟨result, hresult, hkept⟩ := hinto symbol hsymbol
      exact hkept.failed.mp (hall result hresult)
    · intro hall result hresult
      obtain ⟨symbol, hsymbol, hkept⟩ := hfrom result hresult
      exact hkept.failed.mpr (hall symbol hsymbol)
  have hsettled : ∀ symbol, Settled (windowEvents server symbol) ↔
      ¬ ∃ event ∈ windowEvents server symbol, UnresolvedIn (windowEvents server symbol) event := by
    intro symbol
    push Not
    rfl
  constructor
  · intro hexamined
    refine ⟨?_, fun hall symbol hsymbol => (hexamined.fresh (hstatus.mpr hall) symbol hsymbol).2⟩
    intro symbol hsymbol hanswered hunresolved
    by_contra hnone
    obtain ⟨result, hresult, hkept⟩ := hinto symbol hsymbol
    have hclear : result.1.level = .clear := by
      refine hkept.level.mpr ⟨hanswered, settled_examined_iff.mpr ?_⟩
      intro event hevent hstands
      exact hnone ⟨event, hevent, hstands⟩
    have hwindow := hexamined.clear result.1 ((hassessed _).mpr ⟨result, hresult, rfl⟩) hclear
    rw [hkept.own] at hwindow
    exact (hsettled symbol).mp hwindow hunresolved
  · intro hbudget
    refine ⟨?_, fun hstatusFresh symbol hsymbol => ?_⟩
    · intro assessed hmem hclear
      obtain ⟨result, hresult, rfl⟩ := (hassessed assessed).mp hmem
      obtain ⟨symbol, hsymbol, hkept⟩ := hfrom result hresult
      obtain ⟨hanswered, hexamined⟩ := hkept.level.mp hclear
      rw [hkept.own, hsettled]
      intro hunresolved
      obtain ⟨event, hevent, hstands⟩ := hbudget.unresolved symbol hsymbol hanswered hunresolved
      exact settled_examined_iff.mp hexamined event hevent hstands
    · have hall := hstatus.mp hstatusFresh
      exact ⟨hall symbol hsymbol, hbudget.complete hall symbol hsymbol⟩

end

end

section Sample

def noticeUrl : Text := "https://static.cninfo.com.cn/1.pdf".toList

/-- What `urlsplit` finds in that address. -/
@[reducible] def noticeUrlTable : UrlTable :=
  ⟨fun url => if url = noticeUrl then
    some ⟨"https".toList, "static.cninfo.com.cn".toList, [], []⟩ else none⟩

/-- Texts without character references. -/
@[reducible] def plainHtml : HtmlTable := ⟨id⟩

@[reducible] def asciiFold : FoldTable := ⟨List.map Char.toLower⟩

def epochDay : Date := .of 1970 1 1

/-- The first minute of the epoch, in whole milliseconds. -/
@[reducible] def firstMinute : EpochClock :=
  ⟨fun value =>
    let passed := value.floor.toNat
    if h : value = passed ∧ passed < 60000 then
      .ok ⟨epochDay, 0, 0, ⟨passed / 1000, by omega⟩, ⟨passed % 1000 * 1000, by omega⟩⟩
    else .error (.escaping "not in the first minute")⟩

attribute [local instance] CaseTable.caseless noticeUrlTable plainHtml asciiFold firstMinute

def listedSymbol : Symbol := ⟨"600000".toList, Eq.refl true⟩

def sampleRow (title : Text) (second : ℕ) : Option AnnouncementRow :=
  some ⟨listedSymbol.text, title, ['1'], ['n'], .finite (second * 1000), "1.pdf".toList⟩

/-- Thirty announcements that state no risk, and an older one that does. -/
def samplePages : List (List (Option AnnouncementRow)) :=
  [(List.range 30).map fun index => sampleRow "公告".toList (50 - index),
    [sampleRow "停牌".toList 1]]

theorem samplePages_facts :
    (∀ page ∈ samplePages, page.length ≤ PAGE_SIZE) ∧
      (eventsOf listedSymbol samplePages.flatten).Pairwise announcedLater ∧
        (∀ row ∈ samplePages.flatten, (eventFromRow row listedSymbol).toOption.isSome = true) ∧
          Settled (eventsOf listedSymbol (samplePages.headD [])) ∧
            ¬ Settled (eventsOf listedSymbol samplePages.flatten) := by
  decide +kernel

def sampleServer : AnnouncementServer where
  pages symbol := if symbol = listedSymbol then samplePages else []
  small := by
    intro symbol
    split
    · exact samplePages_facts.1
    · exact fun _ hpage => absurd hpage List.not_mem_nil
  descending := by
    intro symbol
    split
    · rename_i hlisted
      rw [hlisted]
      exact samplePages_facts.2.1
    · exact List.Pairwise.nil

/-- A service that answers with the pages of the sample. -/
def sampleProvider (budget : Fin 5) : CNInfoAnnouncementProvider where
  maxPagesPerSymbol := budget + 1
  companies := .ok [some ⟨listedSymbol.text, ['o'], ['n']⟩]
  query asked := .ok (servedPage ((sampleServer.pages asked.symbol).drop (asked.pageNum - 1)))
  pages_range := ⟨Nat.le_add_left 1 budget, budget.isLt⟩

theorem sampleProvider_serves (budget : Fin 5) :
    Serves sampleServer (sampleProvider budget) epochDay epochDay := by
  intro symbol orgId index page hpage
  cases hpage
  rfl

def epochStart : UtcDateTime := ⟨epochDay, 0, 0, 0, 0⟩

theorem sample_answered (budget : Fin 5) :
    Answered sampleServer (sampleProvider budget) epochDay epochDay listedSymbol := by
  refine ⟨⟨⟨listedSymbol.text, ['o'], ['n']⟩, rfl, fun _ _ => ⟨_, rfl⟩⟩, ?_⟩
  obtain ⟨later, hlater⟩ := exists_unexamined (budget + 1) (sampleServer.pages listedSymbol)
  intro row hrow
  have hmem : row ∈ (sampleServer.pages listedSymbol).flatten :=
    hlater.symm ▸ List.mem_append_left later hrow
  obtain ⟨event, hevent⟩ := Option.isSome_iff_exists.mp (samplePages_facts.2.2.1 row hmem)
  exact ⟨event, toOption_eq_some_iff.mp hevent⟩

theorem sample_fetched (budget : Fin 5) :
    ∃ snapshot, (sampleProvider budget).fetch [listedSymbol.text] epochDay 1 epochStart =
      .ok snapshot := by
  have hcompanies : ((sampleProvider budget).companies >>= companyMap) =
      .ok (Keyed.empty.put ⟨listedSymbol.text, ['o'], ['n']⟩) := by
    rfl
  have hchecked : [listedSymbol.text].mapM checkSymbol = .ok [listedSymbol] := by
    rw [List.mapM_cons, checkSymbol_text]
    rfl
  refine exists_fetch ⟨le_rfl, by omega⟩ hchecked (by decide) rfl hcompanies ?_
  intro symbol hsymbol company text hfound hescaping
  cases List.mem_singleton.mp hsymbol
  have hcompany : (sampleProvider budget).companyOf listedSymbol = some company := hfound
  have hassess : (∃ assessed, (sampleProvider budget).assess listedSymbol company epochDay epochDay
      epochStart = .ok assessed) ↔ _ := assess_iff (sampleProvider_serves budget) hcompany
  obtain ⟨assessed, hassessed⟩ := hassess.mpr (sample_answered budget)
  rw [hassessed] at hescaping
  cases hescaping

/-- One page is read as clear and fresh, and the announcement on the next one is adverse. -/
theorem onePage_not_everything :
    ∃ snapshot, Serves sampleServer (sampleProvider 0) epochDay epochDay ∧
      (sampleProvider 0).fetch [listedSymbol.text] epochDay 1 epochStart = .ok snapshot ∧
        ¬ EverythingExamined sampleServer (sampleProvider 0) epochDay epochDay
          [listedSymbol.text] snapshot := by
  obtain ⟨snapshot, hfetched⟩ := sample_fetched 0
  refine ⟨snapshot, sampleProvider_serves 0, hfetched, ?_⟩
  intro hexamined
  obtain ⟨results, hinto, _, hassessed, _⟩ := fetch_results (sampleProvider_serves 0) rfl hfetched
  obtain ⟨result, hresult, hkept⟩ := hinto listedSymbol
    ⟨_, List.mem_singleton_self _, checkSymbol_text listedSymbol⟩
  have hclear := hkept.level.mpr ⟨sample_answered 0, samplePages_facts.2.2.2.1⟩
  have hsettled := hexamined.clear result.1 ((hassessed _).mpr ⟨result, hresult, rfl⟩) hclear
  rw [hkept.own] at hsettled
  exact samplePages_facts.2.2.2.2 hsettled

/-- Two pages are all there is. -/
theorem twoPages_everything :
    ∃ snapshot,
      (sampleProvider 1).fetch [listedSymbol.text] epochDay 1 epochStart = .ok snapshot ∧
        EverythingExamined sampleServer (sampleProvider 1) epochDay epochDay
          [listedSymbol.text] snapshot := by
  obtain ⟨snapshot, hfetched⟩ := sample_fetched 1
  refine ⟨snapshot, hfetched, ?_⟩
  refine (everythingExamined_iff (sampleProvider_serves 1) rfl hfetched).mpr ?_
  apply budgetSuffices_of_complete
  intro symbol _
  by_cases hlisted : symbol = listedSymbol
  · rw [hlisted]
    rfl
  · have hnone : sampleServer.pages symbol = [] := if_neg hlisted
    rw [examinedRows, windowRows, hnone]
    rfl

end Sample

end QuantWorkbench.Intelligence
