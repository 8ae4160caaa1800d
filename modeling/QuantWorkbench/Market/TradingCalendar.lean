import QuantWorkbench.Lib.Search
import QuantWorkbench.Lib.Stamps

/-!
The sessions of the exchange as its published calendar of 2026 has them. For any other year the
calendar is not known, and the caller is told so.
-/

namespace QuantWorkbench.Market

open Lib

/-- The day after, up to the last day of the calendar. -/
def tomorrow (day : Date) : Option Date := day.next?

theorem tomorrow_eq (day : Date) : tomorrow day = day.next? := rfl

/-- `date.weekday`, which is zero on Mondays. -/
def weekday (day : Date) : ℤ := (Day.toordinal day + 6) % 7

def closed2026 : List (ℕ × ℕ) :=
  [(1, 1), (1, 2)] ++ ((List.range' 16 8).map fun day => (2, day)) ++ [(4, 6)] ++
    ((List.range' 1 5).map fun day => (5, day)) ++ [(6, 19), (9, 25)] ++
      (List.range' 1 7).map fun day => (10, day)

def isSession (day : Date) : Except String Bool := do
  require (day.year = 2026) "exchange-published calendar is unavailable for this year"
  return decide (weekday day < 5 ∧ (day.month, day.day) ∉ closed2026)

def nextSessionFrom : ℕ → Date → Except String Date
  | 0, _ => .error "date value out of range"
  | fuel + 1, day => do
      let candidate ← orRaise (tomorrow day) "date value out of range"
      if ← isSession candidate then return candidate else nextSessionFrom fuel candidate

/-- `next_session`. The loop leaves the published year after at most 366 days. -/
def nextSession (day : Date) : Except String Date := nextSessionFrom 367 day

example : nextSession (.of 2026 4 30) =
    .ok (.of 2026 5 6) := by rfl

/-! ### Calendars with closed dates of their own -/

/-- A calendar that was given its closed dates, or the published one. -/
structure AShareTradingCalendar where
  custom : Option (Finset Date)

/-- The offset of Shanghai at each universal time, and the instant of 15:00 there on each day: the
local clock passes it once. -/
class ShanghaiZone where
  offset : UtcDateTime → ZoneOffset
  close : Date → ℤ
  close_le_iff : ∀ (day : Date) (utc : UtcDateTime), close day ≤ utc.microseconds ↔
    Day.toordinal day * 86400000000 + 15 * 3600000000 ≤
      utc.microseconds + (offset utc).microseconds

namespace AShareTradingCalendar

def published : AShareTradingCalendar := ⟨none⟩

def ofClosed (closedDates : Finset Date) : AShareTradingCalendar := ⟨some closedDates⟩

/-- What `CalendarUnavailableError` says. -/
def unavailable : String := "exchange-published calendar is unavailable for this year"

/-- The text of an `OverflowError` of `date`. -/
def outOfRange : String := "date value out of range"

/-- `time(15)`, in microseconds after midnight. -/
def closeTime : ℤ := 15 * 3600000000

variable (calendar : AShareTradingCalendar)

def isClosed (day : Date) : Bool :=
  match calendar.custom with
  | some closedDates => decide (day ∈ closedDates)
  | none => decide (day.year = 2026 ∧ (day.month, day.day) ∈ closed2026)

def isSession (day : Date) : Except String Bool := do
  require (calendar.custom.isSome = true ∨ day.year = 2026) unavailable
  return decide (weekday day < 5 ∧ calendar.isClosed day = false)

/-- `next_session`. There are no more dates than the loop may try. -/
def nextSession (day : Date) : Except String Date :=
  searchFrom Date.next? calendar.isSession outOfRange 3652059 day

def previousSession (day : Date) : Except String Date :=
  searchFrom Date.previous? calendar.isSession outOfRange 3652059 day

def latestCompletedSession [ShanghaiZone] (now : Stamp) (closeTime : ℤ) : Except String Date := do
  let now ← match now with
    | .naive _ => .error "calendar clock must be timezone-aware"
    | .aware now => .ok now
  let localTime ← orRaise (now.astimezone ShanghaiZone.offset) outOfRange
  let isOpen ← calendar.isSession localTime.date
  if isOpen = true ∧ closeTime ≤ localTime.sinceMidnight then return localTime.date
  else calendar.previousSession localTime.date

/-! ### Sessions in their order -/

def Session (day : Date) : Prop := calendar.isSession day = .ok true

theorem isSession_ofClosed (closedDates : Finset Date) (day : Date) :
    (ofClosed closedDates).isSession day =
      .ok (decide (weekday day < 5 ∧ (ofClosed closedDates).isClosed day = false)) := by
  have hknown : (ofClosed closedDates).custom.isSome = true := rfl
  rw [isSession, require_of (Or.inl hknown), ok_bind]
  rfl

theorem isSession_published (day : Date) : published.isSession day = Market.isSession day := by
  by_cases hyear : day.year = 2026
  · rw [isSession, Market.isSession, require_of (Or.inr hyear), require_of hyear, ok_bind, ok_bind]
    simp [isClosed, published, hyear]
  · rw [isSession, Market.isSession, require, require, if_neg (by simp [published, hyear]),
      if_neg hyear]
    rfl

variable {calendar}

/-- The test raises on the days that no calendar is published for. -/
theorem isSession_eq_error_iff {day : Date} {error : String} :
    calendar.isSession day = .error error ↔
      (calendar.custom = none ∧ day.year ≠ 2026) ∧ error = unavailable := by
  rw [isSession, require]
  by_cases hknown : calendar.custom.isSome = true ∨ day.year = 2026
  · have hcovered : ¬ (calendar.custom = none ∧ day.year ≠ 2026) := by
      rintro ⟨hcustom, hyear⟩
      simp [hcustom, hyear] at hknown
    rw [if_pos hknown]
    exact ⟨(fun h => nomatch h), fun h => absurd h.1 hcovered⟩
  · push Not at hknown
    have hcustom : calendar.custom = none := by simpa using hknown.1
    rw [if_neg (by simp [hcustom, hknown.2])]
    constructor
    · intro h
      cases h
      exact ⟨⟨hcustom, hknown.2⟩, rfl⟩
    · rintro ⟨_, rfl⟩
      rfl

theorem walks_next : Walks Date.next? fun day => (3652059 - Day.toordinal day).toNat where
  covers := Date.covBy_of_next?
  last := Date.isMax_of_next?
  shrinks := by
    intro day next h
    have hstep := Day.toordinal_next h
    have hrange := Day.toordinal_range next
    omega

/-- The days the other way. -/
theorem walks_previous :
    @Walks Dateᵒᵈ _ Date.previous? fun day => (Day.toordinal day - 1).toNat where
  covers := by
    intro day previous h
    exact (Date.covBy_of_next? (Date.next?_of_previous? h)).toDual
  last := by
    intro day h
    exact (Date.isMin_of_previous? h).toDual
  shrinks := by
    intro day previous h
    have hstep := Day.toordinal_next (Date.next?_of_previous? h)
    have hrange := Day.toordinal_range previous
    change (Day.toordinal previous - 1).toNat < (Day.toordinal day - 1).toNat
    omega

theorem isLeast_nextSession {day session : Date} (h : calendar.nextSession day = .ok session) :
    IsLeast {other | calendar.Session other ∧ day < other} session :=
  (found_of_searchFrom walks_next h).isLeast

theorem isGreatest_previousSession {day session : Date}
    (h : calendar.previousSession day = .ok session) :
    IsGreatest {other | calendar.Session other ∧ other < day} session :=
  (found_of_searchFrom walks_previous h).isLeast

theorem isSession_ofClosed_ne_error (closedDates : Finset Date) (day : Date) (error : String) :
    (ofClosed closedDates).isSession day ≠ .error error := by
  rw [isSession_ofClosed]
  exact fun h => nomatch h

/-- A calendar with closed dates of its own finds the session after a day if there is one. -/
theorem exists_nextSession {closedDates : Finset Date} {day : Date}
    (h : ∃ session, (ofClosed closedDates).Session session ∧ day < session) :
    ∃ session, (ofClosed closedDates).nextSession day = .ok session := by
  apply exists_found walks_next _ _ h
  · have hrange := Day.toordinal_range day
    omega
  · exact fun other error => isSession_ofClosed_ne_error closedDates other error

theorem exists_previousSession {closedDates : Finset Date} {day : Date}
    (h : ∃ session, (ofClosed closedDates).Session session ∧ session < day) :
    ∃ session, (ofClosed closedDates).previousSession day = .ok session := by
  apply exists_found walks_previous _ _ h
  · have hrange := Day.toordinal_range day
    change (Day.toordinal day - 1).toNat < 3652059
    omega
  · exact fun other error => isSession_ofClosed_ne_error closedDates other error

/-- The two searches are inverse to each other on sessions. -/
theorem nextSession_iff_previousSession {closedDates : Finset Date} {session other : Date}
    (hsession : (ofClosed closedDates).Session session)
    (hother : (ofClosed closedDates).Session other) :
    (ofClosed closedDates).nextSession session = .ok other ↔
      (ofClosed closedDates).previousSession other = .ok session := by
  constructor
  · intro hnext
    obtain ⟨⟨_, hlt⟩, hleast⟩ := isLeast_nextSession hnext
    obtain ⟨found, hfound⟩ := exists_previousSession ⟨session, hsession, hlt⟩
    obtain ⟨⟨hfoundSession, hbefore⟩, hgreatest⟩ := isGreatest_previousSession hfound
    have hle : session ≤ found := hgreatest ⟨hsession, hlt⟩
    rcases hle.eq_or_lt with rfl | hafter
    · exact hfound
    · exact absurd (hleast ⟨hfoundSession, hafter⟩) hbefore.not_ge
  · intro hprevious
    obtain ⟨⟨_, hlt⟩, hgreatest⟩ := isGreatest_previousSession hprevious
    obtain ⟨found, hfound⟩ := exists_nextSession ⟨other, hother, hlt⟩
    obtain ⟨⟨hfoundSession, hafter⟩, hleast⟩ := isLeast_nextSession hfound
    have hle : found ≤ other := hleast ⟨hother, hlt⟩
    rcases hle.eq_or_lt with rfl | hbefore
    · exact hfound
    · exact absurd (hgreatest ⟨hfoundSession, hbefore⟩) hafter.not_ge

/-! ### The latest session that is over -/

section Clocks

variable [ShanghaiZone]

theorem close_le_iff_local {now : AwareTime} {localTime : UtcDateTime}
    (h : now.astimezone ShanghaiZone.offset = some localTime) (day : Date) :
    ShanghaiZone.close day ≤ now.instant ↔
      day < localTime.date ∨ day = localTime.date ∧ closeTime ≤ localTime.sinceMidnight := by
  obtain ⟨utc, hutc, hlocal⟩ := AwareTime.microseconds_astimezone h
  have hrange := localTime.sinceMidnight_range
  rw [← hutc, ShanghaiZone.close_le_iff, ← hlocal, UtcDateTime.microseconds_eq, closeTime]
  rcases lt_trichotomy day localTime.date with hlt | rfl | hgt
  · have hordinal := Day.toordinal_strictMono hlt
    exact ⟨fun _ => Or.inl hlt, fun _ => by omega⟩
  · simp
  · have hordinal := Day.toordinal_strictMono hgt
    constructor
    · intro h
      omega
    · rintro (hlt | ⟨rfl, _⟩)
      · exact absurd hlt hgt.asymm
      · exact absurd hgt (lt_irrefl _)

theorem latestCompletedSession_eq {now : AwareTime} {localTime : UtcDateTime}
    (h : now.astimezone ShanghaiZone.offset = some localTime) :
    calendar.latestCompletedSession (.aware now) closeTime = (do
      let isOpen ← calendar.isSession localTime.date
      if isOpen = true ∧ closeTime ≤ localTime.sinceMidnight then return localTime.date
      else calendar.previousSession localTime.date) := by
  simp only [latestCompletedSession, ok_bind, h]
  rfl

theorem isGreatest_latestCompletedSession {now : AwareTime} {session : Date}
    (h : calendar.latestCompletedSession (.aware now) closeTime = .ok session) :
    IsGreatest {other | calendar.Session other ∧ ShanghaiZone.close other ≤ now.instant}
      session := by
  cases hlocal : now.astimezone ShanghaiZone.offset with
  | none =>
      simp only [latestCompletedSession, ok_bind, hlocal] at h
      cases h
  | some localTime =>
      have hclose := close_le_iff_local hlocal
      rw [latestCompletedSession_eq hlocal] at h
      obtain ⟨isOpen, hopen, h⟩ := bind_eq_ok_iff.mp h
      split at h
      · rename_i hover
        cases h
        rw [hover.1] at hopen
        refine ⟨⟨hopen, (hclose _).mpr (Or.inr ⟨rfl, hover.2⟩)⟩, ?_⟩
        rintro other ⟨_, hother⟩
        rcases (hclose other).mp hother with hlt | ⟨rfl, _⟩
        · exact hlt.le
        · exact le_rfl
      · rename_i hover
        obtain ⟨⟨hsession, hlt⟩, hgreatest⟩ := isGreatest_previousSession h
        refine ⟨⟨hsession, (hclose _).mpr (Or.inl hlt)⟩, ?_⟩
        rintro other ⟨hotherSession, hother⟩
        rcases (hclose other).mp hother with hbefore | ⟨rfl, hlate⟩
        · exact hgreatest ⟨hotherSession, hbefore⟩
        · rw [Session, hopen] at hotherSession
          cases hotherSession
          exact absurd ⟨rfl, hlate⟩ hover

theorem exists_latestCompletedSession {closedDates : Finset Date} {now : AwareTime}
    {localTime : UtcDateTime} (hlocal : now.astimezone ShanghaiZone.offset = some localTime)
    (h : ∃ session, (ofClosed closedDates).Session session ∧
      ShanghaiZone.close session ≤ now.instant) :
    ∃ session,
      (ofClosed closedDates).latestCompletedSession (.aware now) closeTime = .ok session := by
  obtain ⟨session, hsession, hclose⟩ := h
  rw [latestCompletedSession_eq hlocal, isSession_ofClosed, ok_bind]
  split
  · exact ⟨localTime.date, rfl⟩
  · rename_i hover
    apply exists_previousSession
    rcases (close_le_iff_local hlocal session).mp hclose with hlt | ⟨rfl, hlate⟩
    · exact ⟨session, hsession, hlt⟩
    · rw [Session, isSession_ofClosed] at hsession
      exact absurd ⟨Except.ok.inj hsession, hlate⟩ hover

theorem latestCompletedSession_mono {now later : AwareTime} {session other : Date}
    (hle : now.instant ≤ later.instant)
    (h : calendar.latestCompletedSession (.aware now) closeTime = .ok session)
    (hlater : calendar.latestCompletedSession (.aware later) closeTime = .ok other) :
    session ≤ other := by
  obtain ⟨⟨hsession, hclose⟩, _⟩ := isGreatest_latestCompletedSession h
  exact (isGreatest_latestCompletedSession hlater).2 ⟨hsession, hclose.trans hle⟩

end Clocks

/-! ### The published year -/

theorem isSession_published_outside {day : Date} (hyear : day.year ≠ 2026) :
    published.isSession day = .error unavailable :=
  isSession_eq_error_iff.mpr ⟨⟨rfl, hyear⟩, rfl⟩

theorem Session.year_eq {day : Date} (h : published.Session day) : day.year = 2026 := by
  by_contra hyear
  rw [Session, isSession_published_outside hyear] at h
  cases h

/-- The days on both sides of the published year. -/
def lastBefore : Date := .of 2025 12 31

def firstAfter : Date := .of 2027 1 1

/-- A search for a later session that leaves the published year says so. -/
theorem nextSession_published_unavailable {day candidate : Date}
    (hcandidate : day.next? = some candidate)
    (hleaves : candidate.year ≠ 2026 ∨ ∀ session, published.Session session → ¬ day < session) :
    published.nextSession day = .error unavailable := by
  have hnext := Date.covBy_of_next? hcandidate
  have hrange := Day.toordinal_range day
  apply searchFrom_eq_error walks_next (by omega)
  · exact fun other error h => (isSession_eq_error_iff.mp h).2
  · by_cases hyear : candidate.year = 2026
    · have hlater : candidate < firstAfter :=
        Date.lt_iff_fields.mpr (Or.inl (by rw [hyear, firstAfter]; decide))
      exact ⟨firstAfter, hnext.lt.trans hlater, isSession_published_outside (by decide)⟩
    · exact ⟨candidate, hnext.lt, isSession_published_outside hyear⟩
  · intro session hfound
    rcases hleaves with hyear | hnone
    · exact hfound.not_error hnext (isSession_published_outside hyear)
    · exact hnone session hfound.accepted hfound.after

theorem previousSession_published_unavailable {day candidate : Date}
    (hcandidate : day.previous? = some candidate)
    (hleaves : candidate.year ≠ 2026 ∨ ∀ session, published.Session session → ¬ session < day) :
    published.previousSession day = .error unavailable := by
  have hprevious := Date.covBy_of_next? (Date.next?_of_previous? hcandidate)
  have hrange := Day.toordinal_range day
  apply searchFrom_eq_error walks_previous (by omega)
  · exact fun other error h => (isSession_eq_error_iff.mp h).2
  · by_cases hyear : candidate.year = 2026
    · have hearlier : lastBefore < candidate :=
        Date.lt_iff_fields.mpr (Or.inl (by rw [hyear, lastBefore]; decide))
      exact ⟨lastBefore, hearlier.trans hprevious.lt, isSession_published_outside (by decide)⟩
    · exact ⟨candidate, hprevious.lt, isSession_published_outside hyear⟩
  · intro session hfound
    rcases hleaves with hyear | hnone
    · exact hfound.not_error hprevious.toDual (isSession_published_outside hyear)
    · exact hnone session hfound.accepted hfound.after

theorem latestCompletedSession_published_unavailable [ShanghaiZone] {now : AwareTime}
    {localTime : UtcDateTime} (hlocal : now.astimezone ShanghaiZone.offset = some localTime)
    (hleaves : localTime.date.year ≠ 2026 ∨
      ∀ session, published.Session session → ¬ ShanghaiZone.close session ≤ now.instant) :
    published.latestCompletedSession (.aware now) closeTime = .error unavailable := by
  have hclose := close_le_iff_local hlocal
  rw [latestCompletedSession_eq hlocal]
  cases hopen : published.isSession localTime.date with
  | error error =>
      rw [(isSession_eq_error_iff.mp hopen).2]
      rfl
  | ok isOpen =>
      have hyear : localTime.date.year = 2026 := by
        by_contra hyear
        rw [isSession_published_outside hyear] at hopen
        cases hopen
      have hnone := hleaves.resolve_left (not_not.mpr hyear)
      rw [ok_bind, if_neg]
      · cases hcandidate : localTime.date.previous? with
        | none =>
            have hlast : lastBefore < localTime.date :=
              Date.lt_iff_fields.mpr (Or.inl (by rw [hyear, lastBefore]; decide))
            exact absurd hlast (Date.isMin_of_previous? hcandidate).not_lt
        | some candidate =>
            apply previousSession_published_unavailable hcandidate
            right
            intro session hsession hlt
            exact hnone session hsession ((hclose session).mpr (Or.inl hlt))
      · rintro ⟨rfl, hlate⟩
        exact hnone _ hopen ((hclose _).mpr (Or.inr ⟨rfl, hlate⟩))

theorem nextSessionFrom_eq (fuel : ℕ) (day : Date) :
    nextSessionFrom fuel day =
      searchFrom Date.next? published.isSession outOfRange fuel day := by
  induction fuel generalizing day with
  | zero => rfl
  | succ fuel ih =>
      simp only [nextSessionFrom, searchFrom, ih, isSession_published, tomorrow_eq, outOfRange]

/-! ### The calendar as an order of sessions -/

/-- The searches give the neighbours of a day among the sessions, and the clock the latest one that
is closed. The clock's time in Shanghai is within the range of the calendar. -/
structure FollowsSessions [ShanghaiZone] (calendar : AShareTradingCalendar) : Prop where
  next : ∀ day, (∃ session, calendar.Session session ∧ day < session) →
    ∃ session, calendar.nextSession day = .ok session ∧
      IsLeast {other | calendar.Session other ∧ day < other} session
  previous : ∀ day, (∃ session, calendar.Session session ∧ session < day) →
    ∃ session, calendar.previousSession day = .ok session ∧
      IsGreatest {other | calendar.Session other ∧ other < day} session
  inverse : ∀ session other, calendar.Session session → calendar.Session other →
    (calendar.nextSession session = .ok other ↔ calendar.previousSession other = .ok session)
  latest : ∀ now localTime, now.astimezone ShanghaiZone.offset = some localTime →
    (∃ session, calendar.Session session ∧ ShanghaiZone.close session ≤ now.instant) →
      ∃ session, calendar.latestCompletedSession (.aware now) closeTime = .ok session ∧
        IsGreatest {other | calendar.Session other ∧ ShanghaiZone.close other ≤ now.instant} session
  monotone : ∀ now later session other, now.instant ≤ later.instant →
    calendar.latestCompletedSession (.aware now) closeTime = .ok session →
      calendar.latestCompletedSession (.aware later) closeTime = .ok other → session ≤ other

/-- A calendar answers for the year 2026 only, and says so of a search that leaves it. -/
structure KeepsTo2026 [ShanghaiZone] (calendar : AShareTradingCalendar) : Prop where
  next : ∀ day session, calendar.nextSession day = .ok session → session.year = 2026
  previous : ∀ day session, calendar.previousSession day = .ok session → session.year = 2026
  latest : ∀ now session, calendar.latestCompletedSession now closeTime = .ok session →
    session.year = 2026
  next_leaves : ∀ day candidate, day.next? = some candidate →
    (candidate.year ≠ 2026 ∨ ∀ session, calendar.Session session → ¬ day < session) →
      calendar.nextSession day = .error unavailable
  previous_leaves : ∀ day candidate, day.previous? = some candidate →
    (candidate.year ≠ 2026 ∨ ∀ session, calendar.Session session → ¬ session < day) →
      calendar.previousSession day = .error unavailable
  latest_leaves : ∀ now localTime, now.astimezone ShanghaiZone.offset = some localTime →
    (localTime.date.year ≠ 2026 ∨
        ∀ session, calendar.Session session → ¬ ShanghaiZone.close session ≤ now.instant) →
      calendar.latestCompletedSession (.aware now) closeTime = .error unavailable

/-- A calendar with closed dates of its own follows its sessions, and the published one keeps to its
year. -/
theorem calendars_follow_sessions [ShanghaiZone] :
    (∀ closedDates, (ofClosed closedDates).FollowsSessions) ∧ published.KeepsTo2026 := by
  constructor
  · intro closedDates
    constructor
    · intro day hexists
      obtain ⟨session, hsession⟩ := exists_nextSession hexists
      exact ⟨session, hsession, isLeast_nextSession hsession⟩
    · intro day hexists
      obtain ⟨session, hsession⟩ := exists_previousSession hexists
      exact ⟨session, hsession, isGreatest_previousSession hsession⟩
    · exact fun session other => nextSession_iff_previousSession
    · intro now localTime hlocal hexists
      obtain ⟨session, hsession⟩ := exists_latestCompletedSession hlocal hexists
      exact ⟨session, hsession, isGreatest_latestCompletedSession hsession⟩
    · exact fun now later session other => latestCompletedSession_mono
  · constructor
    · exact fun day session h => (isLeast_nextSession h).1.1.year_eq
    · exact fun day session h => (isGreatest_previousSession h).1.1.year_eq
    · intro now session h
      cases now with
      | naive value => cases h
      | aware now => exact (isGreatest_latestCompletedSession h).1.1.year_eq
    · exact fun day candidate => nextSession_published_unavailable
    · exact fun day candidate => previousSession_published_unavailable
    · exact fun now localTime => latestCompletedSession_published_unavailable

@[reducible] def eightHoursAhead : ShanghaiZone where
  offset _ := .eightHours
  close day := Day.toordinal day * 86400000000 + 15 * 3600000000 - 28800000000
  close_le_iff day utc := by
    simp only [ZoneOffset.eightHours]
    constructor <;> intro h <;> omega

def friday : Date := .of 2026 8 14

/-- The Saturday after it at ten o'clock, two hours ahead of universal time. -/
def saturday : AwareTime :=
  ⟨⟨.of 2026 8 15, 10, 0, 0, 0⟩, ⟨7200000000, by decide⟩⟩

theorem saturday_latest :
    ∃ session,
      @latestCompletedSession (ofClosed ∅) eightHoursAhead (.aware saturday) closeTime =
          .ok session ∧
        IsGreatest {other | (ofClosed ∅).Session other ∧
          @ShanghaiZone.close eightHoursAhead other ≤ saturday.instant} session := by
  have hfollows := (@calendars_follow_sessions eightHoursAhead).1 ∅
  have hlocal : saturday.astimezone (@ShanghaiZone.offset eightHoursAhead) =
      some ⟨saturday.value.date, 16, 0, 0, 0⟩ := by decide +kernel
  have hopen : (ofClosed ∅).Session friday := by rfl
  have hclose : @ShanghaiZone.close eightHoursAhead friday ≤ saturday.instant := by decide
  exact @FollowsSessions.latest eightHoursAhead _ hfollows saturday _ hlocal ⟨friday, hopen, hclose⟩

def lastDay : Date := .of 9999 12 31

/-- An hour before the end of the year 9999 in universal time. -/
def lastEvening : AwareTime := ⟨⟨lastDay, 23, 0, 0, 0⟩, ⟨0, by decide⟩⟩

/-- The last day is over in Shanghai, where it is the year 10000 already, and the clock raises. -/
theorem lastEvening_raises :
    (ofClosed ∅).Session lastDay ∧
      @ShanghaiZone.close eightHoursAhead lastDay ≤ lastEvening.instant ∧
      @latestCompletedSession (ofClosed ∅) eightHoursAhead (.aware lastEvening) closeTime =
        .error outOfRange := by
  refine ⟨by rfl, by decide, by rfl⟩

end AShareTradingCalendar

end QuantWorkbench.Market
