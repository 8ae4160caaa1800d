import QuantWorkbench.Runtime.BackfillCoverage
import QuantWorkbench.Runtime.ResearchReturns

/-!
Histories fetched in pieces against one fetch. A response knows no session before its first, so
the first session of each piece has no return, whatever the pieces before it hold.
-/

namespace QuantWorkbench.Runtime

open QuantWorkbench.Lib QuantWorkbench.Lib.Coverage HistoricalBackfillCoordinator

variable {Bar : Type}

/-- The part of a row that depends on the session before it. -/
def label (row : HistoryRow (ResearchCells Bar)) : Option ℚ × Bool × Text :=
  (row.cells.researchReturn, row.researchUsable, row.unusableReason)

/-- What a frame says about a day. -/
def labelAt (frame : HistoryFrame (ResearchCells Bar)) (day : ℕ) :
    Option (Option ℚ × Bool × Text) :=
  (frame.find? fun row => row.date = day).map label

/-- There is a return between the two closes. -/
def HasReturn (close previous : Option ℚ) : Prop :=
  (positive? close).isSome = true ∧ (positive? previous).isSome = true

def labelOf (session : RawSession Bar) (returned : Except Text ℚ) : Option ℚ × Bool × Text :=
  let reasons :=
    (if sameState session session then [] else ["status conflict".toList]) ++
      (if validState session then [] else ["invalid history status".toList]) ++
      (match returned with
        | .error reason => [reason]
        | .ok _ => []) ++
      (if validState session then [] else ["invalid history status".toList])
  (returned.toOption, reasons = [], "; ".toList.intercalate (fromKeys reasons))

theorem label_sessionRow (symbol : String) (session : RawSession Bar) (bar : Bar)
    (previous : Option ℚ) :
    label (sessionRow symbol session bar previous) =
      labelOf session (researchReturn session.close previous) := rfl

/-- A session loses nothing at the beginning of a response exactly if it has no return behind
the session before it either. -/
theorem label_first_iff (symbol : String) (session : RawSession Bar) (bar : Bar)
    (previous : Option ℚ) :
    label (sessionRow symbol session bar none) = label (sessionRow symbol session bar previous) ↔
      ¬ HasReturn session.close previous := by
  rw [label_sessionRow, label_sessionRow]
  constructor
  · rintro hsame ⟨hclose, hprevious⟩
    obtain ⟨close, hclose⟩ := Option.isSome_iff_exists.mp hclose
    obtain ⟨earlier, hearlier⟩ := Option.isSome_iff_exists.mp hprevious
    have hreturn : (researchReturn session.close none).toOption =
        (researchReturn session.close previous).toOption := congrArg Prod.fst hsame
    rw [researchReturn, researchReturn, hclose, hearlier] at hreturn
    cases hreturn
  · intro hno
    congr 1
    rw [researchReturn, researchReturn]
    cases hclose : positive? session.close with
    | none => rfl
    | some close =>
        cases hprevious : positive? previous with
        | none => rfl
        | some earlier =>
            refine absurd ⟨?_, ?_⟩ hno
            · rw [hclose]
              rfl
            · rw [hprevious]
              rfl

/-! ### Sessions in their order -/

/-- The first session is the last one before the second. -/
structure Follows (sessions : List (RawSession Bar)) (first second : RawSession Bar) : Prop where
  first_mem : first ∈ sessions
  second_mem : second ∈ sessions
  before : first.date < second.date
  last : ∀ other ∈ sessions, other.date < second.date → other.date ≤ first.date

theorem Ascending.eq_of_date {sessions : List (RawSession Bar)} (h : Ascending sessions)
    {a b : RawSession Bar} (ha : a ∈ sessions) (hb : b ∈ sessions) (hdate : a.date = b.date) :
    a = b :=
  List.inj_on_of_nodup_map h.nodup ha hb hdate

theorem Follows.unique {sessions : List (RawSession Bar)} (h : Ascending sessions)
    {first other second : RawSession Bar} (hfirst : Follows sessions first second)
    (hother : Follows sessions other second) : first = other := by
  apply h.eq_of_date hfirst.first_mem hother.first_mem
  exact le_antisymm (hother.last first hfirst.first_mem hfirst.before)
    (hfirst.last other hother.first_mem hother.before)

theorem follows_of_split {before after : List (RawSession Bar)} {first second : RawSession Bar}
    (h : Ascending (before ++ first :: second :: after)) :
    Follows (before ++ first :: second :: after) first second := by
  obtain ⟨_, hlater, hacross⟩ := List.pairwise_append.mp h
  obtain ⟨hfirst, hlater⟩ := List.pairwise_cons.mp hlater
  obtain ⟨hsecond, _⟩ := List.pairwise_cons.mp hlater
  refine ⟨by simp, by simp, hfirst second List.mem_cons_self, ?_⟩
  intro other hother hbefore
  rcases List.mem_append.mp hother with hearly | hlate
  · exact (hacross other hearly first List.mem_cons_self).le
  · rcases List.mem_cons.mp hlate with rfl | hlate
    · exact le_rfl
    · rcases List.mem_cons.mp hlate with rfl | hlate
      · exact absurd hbefore (lt_irrefl _)
      · exact absurd (hsecond other hlate) (not_lt_of_gt hbefore)

theorem first_or_follows {sessions : List (RawSession Bar)} (h : Ascending sessions)
    {session : RawSession Bar} (hsession : session ∈ sessions) :
    (∀ other ∈ sessions, session.date ≤ other.date) ∨ ∃ first, Follows sessions first session := by
  obtain ⟨before, after, rfl⟩ := List.append_of_mem hsession
  rcases List.eq_nil_or_concat before with rfl | ⟨front, first, rfl⟩
  · left
    intro other hother
    rcases List.mem_cons.mp hother with rfl | hlate
    · exact le_rfl
    · exact ((List.pairwise_cons.mp h).1 other hlate).le
  · right
    refine ⟨first, ?_⟩
    rw [List.concat_eq_append, List.append_assoc] at h ⊢
    exact follows_of_split h

/-- The rows of a response: the first one has no session before it, each other one has the
session it follows. -/
structure RowIn (symbol : String) (sessions : List (RawSession Bar)) (session : RawSession Bar)
    (row : HistoryRow (ResearchCells Bar)) : Prop where
  mem : session ∈ sessions
  row : ∃ bar previous, session.bar = some bar ∧ row = sessionRow symbol session bar previous ∧
    ((∀ other ∈ sessions, session.date ≤ other.date) ∧ previous = none ∨
      ∃ first, Follows sessions first session ∧ previous = first.close)

theorem mem_sessionRows_iff {symbol : String} {rows : List (RawSession Bar × Bar)}
    {previous : Option ℚ} {row : HistoryRow (ResearchCells Bar)} :
    row ∈ sessionRows symbol previous rows ↔
      ∃ before session bar after, rows = before ++ (session, bar) :: after ∧
        row = sessionRow symbol session bar (lastClose previous (before.map Prod.fst)) := by
  induction rows generalizing previous with
  | nil => simp [sessionRows]
  | cons first rest ih =>
      rw [sessionRows, List.mem_cons, ih]
      constructor
      · rintro (rfl | ⟨before, session, bar, after, rfl, rfl⟩)
        · exact ⟨[], first.1, first.2, rest, rfl, rfl⟩
        · exact ⟨first :: before, session, bar, after, rfl, rfl⟩
      · rintro ⟨before, session, bar, after, hsplit, rfl⟩
        cases before with
        | nil =>
            cases hsplit
            exact Or.inl rfl
        | cons head before =>
            cases hsplit
            exact Or.inr ⟨before, session, bar, after, rfl, rfl⟩

theorem bar_of_withBars {raw : List (RawSession Bar)} {rows : List (RawSession Bar × Bar)}
    (h : withBars raw = some rows) : ∀ row ∈ rows, row.1.bar = some row.2 := by
  induction raw generalizing rows with
  | nil =>
      cases h
      exact fun _ hrow => absurd hrow List.not_mem_nil
  | cons session rest ih =>
      simp only [withBars, List.mapM_cons, Option.bind_eq_bind, Option.bind_eq_some_iff,
        Option.pure_def, Option.some.injEq] at h
      obtain ⟨first, hfirst, others, hothers, rfl⟩ := h
      obtain ⟨bar, hbar, rfl⟩ := Option.map_eq_some_iff.mp hfirst
      exact List.forall_mem_cons.mpr ⟨hbar, ih hothers⟩

theorem exists_withBars {raw : List (RawSession Bar)}
    (h : ∀ session ∈ raw, ∃ bar, session.bar = some bar) : ∃ rows, withBars raw = some rows := by
  induction raw with
  | nil => exact ⟨[], rfl⟩
  | cons session rest ih =>
      obtain ⟨⟨bar, hbar⟩, hrest⟩ := List.forall_mem_cons.mp h
      obtain ⟨rows, hrows⟩ := ih hrest
      refine ⟨(session, bar) :: rows, ?_⟩
      rw [withBars] at hrows ⊢
      rw [List.mapM_cons, hbar, hrows]
      rfl

theorem rowIn_of_mem {symbol : String} {sessions : List (RawSession Bar)}
    {rows : List (RawSession Bar × Bar)} (h : Ascending sessions)
    (hrows : withBars sessions = some rows) {row : HistoryRow (ResearchCells Bar)}
    (hrow : row ∈ sessionRows symbol none rows) :
    ∃ session, RowIn symbol sessions session row := by
  obtain ⟨before, session, bar, after, rfl, rfl⟩ := mem_sessionRows_iff.mp hrow
  have hfst := map_fst_of_withBars hrows
  have hbar := bar_of_withBars hrows (session, bar) (by simp)
  rw [List.map_append, List.map_cons] at hfst
  subst hfst
  refine ⟨session, by simp, bar, _, hbar, rfl, ?_⟩
  generalize before.map Prod.fst = before at h ⊢
  rcases List.eq_nil_or_concat before with rfl | ⟨front, first, rfl⟩
  · left
    refine ⟨?_, rfl⟩
    intro other hother
    rcases List.mem_cons.mp hother with rfl | hlate
    · exact le_rfl
    · exact ((List.pairwise_cons.mp h).1 other hlate).le
  · right
    rw [List.concat_eq_append] at h ⊢
    refine ⟨first, ?_, lastClose_append none front first⟩
    rw [List.append_assoc] at h ⊢
    exact follows_of_split h

theorem exists_row (symbol : String) {sessions : List (RawSession Bar)}
    {rows : List (RawSession Bar × Bar)} (hrows : withBars sessions = some rows)
    {session : RawSession Bar} (hsession : session ∈ sessions) :
    ∃ row ∈ sessionRows symbol none rows, row.date = session.date := by
  rw [← map_fst_of_withBars hrows] at hsession
  obtain ⟨⟨_, bar⟩, hmem, rfl⟩ := List.mem_map.mp hsession
  obtain ⟨before, after, rfl⟩ := List.append_of_mem hmem
  exact ⟨_, mem_sessionRows_iff.mpr ⟨before, _, bar, after, rfl, rfl⟩, rfl⟩

theorem date_of_sessionRows {symbol : String} {sessions : List (RawSession Bar)}
    {rows : List (RawSession Bar × Bar)} (hrows : withBars sessions = some rows) :
    frameDates (sessionRows symbol none rows) = dates sessions := by
  have hdates : ∀ (previous : Option ℚ) (rows : List (RawSession Bar × Bar)),
      frameDates (sessionRows symbol previous rows) = dates (rows.map Prod.fst) := by
    intro previous rows
    induction rows generalizing previous with
    | nil => rfl
    | cons row rest ih =>
        rw [sessionRows, frameDates, List.map_cons, ← frameDates, ih]
        rfl
  rw [hdates, map_fst_of_withBars hrows]

/-! ### Remote histories -/

/-- What the service has of each symbol, the same sessions and states in both responses, and
never another. -/
structure RemoteHistory (Bar : Type) where
  sessions : String → List (RawSession Bar)
  ascending : ∀ symbol, Ascending (sessions symbol)

namespace RemoteHistory

variable (remote : RemoteHistory Bar)

def between (symbol : String) (range : ℕ × ℕ) : List (RawSession Bar) :=
  (remote.sessions symbol).filter fun session =>
    range.1 ≤ session.date ∧ session.date ≤ range.2

def service : HistoryService Bar where
  unadjusted symbol startDay endDay := .ok (remote.between symbol (startDay, endDay))
  forwardAdjusted symbol startDay endDay := .ok (remote.between symbol (startDay, endDay))

def fetch (symbol : String) (range : ℕ × ℕ) :
    Except ProviderFailure (HistoryFrame (ResearchCells Bar)) :=
  remote.service.getResearchHistory symbol range.1 range.2

def sessionDates (symbol : String) : Set ℕ := {day | ∃ session ∈ remote.sessions symbol,
  session.date = day}

variable {remote} {symbol : String} {range : ℕ × ℕ}

theorem mem_between {session : RawSession Bar} :
    session ∈ remote.between symbol range ↔
      session ∈ remote.sessions symbol ∧ range.1 ≤ session.date ∧ session.date ≤ range.2 := by
  rw [between, List.mem_filter, decide_eq_true_iff]

theorem between_ascending : Ascending (remote.between symbol range) :=
  (remote.ascending symbol).filter _

/-- A fetch succeeds if the range is in order and its bars are valid, with a row for each
session. -/
theorem fetch_eq_ok_iff {frame : HistoryFrame (ResearchCells Bar)} :
    remote.fetch symbol range = .ok frame ↔
      range.1 ≤ range.2 ∧ ∃ rows, withBars (remote.between symbol range) = some rows ∧
        frame = sessionRows symbol none rows := by
  have hascending : Ascending (remote.between symbol range) := between_ascending
  have hframe := researchFrame_self hascending symbol
  by_cases hrange : range.2 < range.1
  · have herror : remote.fetch symbol range =
        .error (.permanent "invalid BaoStock history date range") := by
      rw [fetch, HistoryService.getResearchHistory, if_pos hrange]
      rfl
    rw [herror]
    exact ⟨(fun h => nomatch h), fun h => absurd hrange (not_lt_of_ge h.1)⟩
  · have hfetch : remote.fetch symbol range =
        researchFrame symbol (remote.between symbol range) (remote.between symbol range) := by
      rw [fetch, HistoryService.getResearchHistory, if_neg hrange]
      rfl
    rw [hfetch, hframe]
    cases hrows : withBars (remote.between symbol range) with
    | none => exact ⟨(fun h => nomatch h), fun ⟨_, _, h, _⟩ => nomatch h⟩
    | some rows =>
        constructor
        · intro h
          cases h
          exact ⟨not_lt.mp hrange, rows, rfl, rfl⟩
        · rintro ⟨_, _, ⟨⟩, rfl⟩
          rfl

theorem follows_of_between {first second : RawSession Bar}
    (h : Follows (remote.between symbol range) first second) :
    Follows (remote.sessions symbol) first second := by
  obtain ⟨hfirst, hfrom, hto⟩ := mem_between.mp h.first_mem
  obtain ⟨hsecond, _, hupTo⟩ := mem_between.mp h.second_mem
  refine ⟨hfirst, hsecond, h.before, ?_⟩
  intro other hother hbefore
  by_cases hlow : range.1 ≤ other.date
  · exact h.last other (mem_between.mpr ⟨hother, hlow, hbefore.le.trans hupTo⟩) hbefore
  · exact (not_le.mp hlow).le.trans hfrom

end RemoteHistory

/-! ### Slots with the labels of one fetch -/

section

variable (remote : RemoteHistory Bar)

/-- A row of a session, alone or behind the session it follows. -/
structure RowOf (symbol : String) (row : HistoryRow (ResearchCells Bar))
    (session : RawSession Bar) : Prop where
  mem : session ∈ remote.sessions symbol
  date : session.date = row.date
  label : ∃ bar previous, session.bar = some bar ∧
    label row = label (sessionRow symbol session bar previous) ∧
    (previous = none ∨ ∃ first, Follows (remote.sessions symbol) first session ∧
      previous = first.close)

def WholeLabel (symbol : String) (row : HistoryRow (ResearchCells Bar)) : Prop :=
  ∃ first session bar, Follows (remote.sessions symbol) first session ∧
    session.date = row.date ∧ session.bar = some bar ∧
    label row = label (sessionRow symbol session bar first.close)

def heldDates (slot : Slot (ResearchCells Bar)) : Set ℕ := {day | ∃ row ∈ heldRows slot,
  row.date = day}

/-- A slot whose artifact has every session between its first and its last row, each behind the
first with the label of the whole history, and whose record begins at a session. -/
structure WholeSlot (symbol : String) (slot : Slot (ResearchCells Bar)) : Prop where
  nonempty : ∀ artifact, slot.active = some artifact → artifact.frame ≠ []
  distinct : (frameDates (heldRows slot)).Nodup
  rows : ∀ row ∈ heldRows slot, row.symbol = symbol ∧ ∃ session, RowOf remote symbol row session
  whole : ∀ row ∈ heldRows slot, (∃ day ∈ heldDates slot, day < row.date) →
    WholeLabel remote symbol row
  unbroken : NoHoles id (remote.sessionDates symbol) (heldDates slot)
  record : ∀ record, slot.record = some record →
    slot.active ≠ none ∧ record.startDate ≤ record.endDate ∧
      record.startDate ∈ remote.sessionDates symbol ∧
      Spans id (heldDates slot) record.startDate record.endDate

variable {remote} {symbol : String} {slot : Slot (ResearchCells Bar)}

theorem wholeSlot_empty : WholeSlot remote symbol ⟨none, none⟩ where
  nonempty _ hactive := nomatch hactive
  distinct := List.nodup_nil
  rows _ hrow := absurd hrow List.not_mem_nil
  whole _ hrow := absurd hrow List.not_mem_nil
  unbroken := by
    rintro _ ⟨_, hrow, _⟩
    exact absurd hrow List.not_mem_nil
  record _ hrecord := nomatch hrecord

theorem WholeSlot.heldDates_subset (h : WholeSlot remote symbol slot) :
    heldDates slot ⊆ remote.sessionDates symbol := by
  rintro _ ⟨row, hrow, rfl⟩
  obtain ⟨_, session, hsession⟩ := h.rows row hrow
  exact ⟨session, hsession.mem, hsession.date⟩

/-- The range of the slot's record is held as one fetch of the range returns it, behind the first
day. -/
def AsOneFetch (remote : RemoteHistory Bar) (symbol : String) (slot : Slot (ResearchCells Bar)) :
    Prop :=
  ∀ record, slot.record = some record → ∃ artifact frame, slot.active = some artifact ∧
    remote.fetch symbol (record.startDate, record.endDate) = .ok frame ∧
    ∀ day, record.startDate < day → day ≤ record.endDate →
      labelAt artifact.frame day = labelAt frame day

theorem find?_date {frame : HistoryFrame (ResearchCells Bar)} (h : (frameDates frame).Nodup)
    {row : HistoryRow (ResearchCells Bar)} (hrow : row ∈ frame) :
    labelAt frame row.date = some (label row) := by
  have hsome : (frame.find? fun other => other.date = row.date).isSome := by
    rw [List.find?_isSome]
    exact ⟨row, hrow, by simp⟩
  obtain ⟨found, hfound⟩ := Option.isSome_iff_exists.mp hsome
  have hdate : found.date = row.date := by simpa using List.find?_some hfound
  have hsame := eq_of_date_eq h (List.mem_of_find?_eq_some hfound) hrow hdate
  rw [labelAt, hfound, hsame]
  rfl

theorem labelAt_eq_none {frame : HistoryFrame (ResearchCells Bar)} {day : ℕ}
    (h : day ∉ frameDates frame) : labelAt frame day = none := by
  rw [labelAt, List.find?_eq_none.mpr, Option.map_none]
  intro row hrow
  have hne : row.date ≠ day := fun hdate => h (hdate ▸ List.mem_map_of_mem hrow)
  simpa using hne

theorem WholeSlot.asOneFetch (h : WholeSlot remote symbol slot) :
    AsOneFetch remote symbol slot := by
  intro record hrecord
  obtain ⟨hactive, hordered, ⟨opening, hopening, hopeningDate⟩, hspans⟩ := h.record record hrecord
  obtain ⟨artifact, hartifact⟩ := Option.ne_none_iff_exists'.mp hactive
  have hheld : heldRows slot = artifact.frame := by
    rw [heldRows, hartifact]
  have hcovered := h.unbroken.window_subset hspans
  have hinside : ∀ session ∈ remote.between symbol (record.startDate, record.endDate),
      ∃ row ∈ heldRows slot, row.date = session.date := by
    intro session hsession
    obtain ⟨hmem, hfrom, hto⟩ := RemoteHistory.mem_between.mp hsession
    exact hcovered ⟨⟨session, hmem, rfl⟩, hfrom, hto⟩
  have hbars : ∃ rows, withBars (remote.between symbol (record.startDate, record.endDate)) =
      some rows := by
    refine exists_withBars fun session hsession => ?_
    obtain ⟨row, hrow, hdate⟩ := hinside session hsession
    obtain ⟨_, owner, howner⟩ := h.rows row hrow
    have hsame := (remote.ascending symbol).eq_of_date howner.mem
      (RemoteHistory.mem_between.mp hsession).1 (howner.date.trans hdate)
    obtain ⟨bar, _, hbar, _⟩ := howner.label
    exact ⟨bar, hsame ▸ hbar⟩
  obtain ⟨rows, hrows⟩ := hbars
  refine ⟨artifact, sessionRows symbol none rows, hartifact,
    RemoteHistory.fetch_eq_ok_iff.mpr ⟨hordered, rows, hrows, rfl⟩, ?_⟩
  have hdistinct : (frameDates (sessionRows symbol none rows)).Nodup := by
    rw [date_of_sessionRows hrows]
    exact RemoteHistory.between_ascending.nodup
  intro day hafter hupTo
  by_cases hday : day ∈ remote.sessionDates symbol
  · obtain ⟨session, hsession, rfl⟩ := hday
    have hbetween : session ∈ remote.between symbol (record.startDate, record.endDate) :=
      RemoteHistory.mem_between.mpr ⟨hsession, hafter.le, hupTo⟩
    obtain ⟨row, hrow, hrowDate⟩ := hinside session hbetween
    obtain ⟨fetched, hfetched, hfetchedDate⟩ := exists_row symbol hrows hbetween
    have hleft := find?_date (hheld ▸ h.distinct) (hheld ▸ hrow)
    have hright := find?_date hdistinct hfetched
    rw [hrowDate] at hleft
    rw [hfetchedDate] at hright
    rw [hleft, hright]
    congr 1
    obtain ⟨earliest, hearliest, _, _, hfirst, _⟩ := hspans
    obtain ⟨first, owner, bar, hfollows, hdate, hbar, hlabel⟩ :=
      h.whole row hrow ⟨earliest, hearliest, (hfirst.trans_lt hafter).trans_eq hrowDate.symm⟩
    have howner := (remote.ascending symbol).eq_of_date hfollows.second_mem hsession
      (hdate.trans hrowDate)
    subst howner
    obtain ⟨shown, hshown⟩ := rowIn_of_mem RemoteHistory.between_ascending hrows hfetched
    obtain ⟨bar', previous, hbar', rfl, hprevious⟩ := hshown.row
    have hsame := (remote.ascending symbol).eq_of_date
      (RemoteHistory.mem_between.mp hshown.mem).1 hsession hfetchedDate
    subst hsame
    rw [hbar] at hbar'
    cases hbar'
    rw [hlabel]
    rcases hprevious with ⟨hearlier, _⟩ | ⟨other, hother, rfl⟩
    · have hopeningIn : opening ∈ remote.between symbol (record.startDate, record.endDate) :=
        RemoteHistory.mem_between.mpr ⟨hopening, hopeningDate.ge, hopeningDate.trans_le hordered⟩
      have hle := hearlier opening hopeningIn
      omega
    · rw [hfollows.unique (remote.ascending symbol) (RemoteHistory.follows_of_between hother)]
  · rw [labelAt_eq_none, labelAt_eq_none]
    · rw [date_of_sessionRows hrows]
      rintro hmem
      obtain ⟨session, hsession, rfl⟩ := List.mem_map.mp hmem
      exact hday ⟨session, (RemoteHistory.mem_between.mp hsession).1, rfl⟩
    · intro hmem
      obtain ⟨row, hrow, rfl⟩ := List.mem_map.mp hmem
      exact hday (h.heldDates_subset ⟨row, hheld ▸ hrow, rfl⟩)

/-! ### Growing a slot -/

/-- The days that the requested ranges bring. -/
def fetchedDates (remote : RemoteHistory Bar) (symbol : String) (missing : List (ℕ × ℕ)) : Set ℕ :=
  {day | ∃ range ∈ missing, ∃ session ∈ remote.between symbol range, session.date = day}

/-- A session that a row may lose its return at: the first of a requested range, or the first
that is held. -/
def IsSeam (remote : RemoteHistory Bar) (symbol : String) (slot : Slot (ResearchCells Bar))
    (missing : List (ℕ × ℕ)) (seam : RawSession Bar) : Prop :=
  (∃ range ∈ missing, seam ∈ remote.between symbol range ∧
      ∀ other ∈ remote.between symbol range, seam.date ≤ other.date) ∨
    (seam.date ∈ heldDates slot ∧ ∀ day ∈ heldDates slot, seam.date ≤ day)

/-- The requested ranges join what is held without a session in between, and each seam behind
the first day of both is a session without a return. -/
structure JoinsWhole (remote : RemoteHistory Bar) (symbol : String)
    (slot : Slot (ResearchCells Bar)) (missing : List (ℕ × ℕ)) : Prop where
  joined : NoHoles id (remote.sessionDates symbol)
    (heldDates slot ∪ fetchedDates remote symbol missing)
  seams : ∀ seam, IsSeam remote symbol slot missing seam →
    (∃ day ∈ heldDates slot ∪ fetchedDates remote symbol missing, day < seam.date) →
      ∀ first, Follows (remote.sessions symbol) first seam → ¬ HasReturn seam.close first.close

theorem RowOf.wholeLabel {row : HistoryRow (ResearchCells Bar)} {session : RawSession Bar}
    (h : RowOf remote symbol row session)
    (hearlier : ∃ day ∈ remote.sessionDates symbol, day < row.date)
    (hno : ∀ first, Follows (remote.sessions symbol) first session →
      ¬ HasReturn session.close first.close) : WholeLabel remote symbol row := by
  obtain ⟨_, ⟨earlier, hearlier, rfl⟩, hbefore⟩ := hearlier
  rw [← h.date] at hbefore
  obtain hfirst | ⟨first, hfollows⟩ := first_or_follows (remote.ascending symbol) h.mem
  · exact absurd hbefore (not_lt_of_ge (hfirst earlier hearlier))
  · obtain ⟨bar, previous, hbar, hlabel, hprevious⟩ := h.label
    refine ⟨first, session, bar, hfollows, h.date, hbar, hlabel.trans ?_⟩
    rcases hprevious with rfl | ⟨other, hother, rfl⟩
    · exact (label_first_iff symbol session bar first.close).mpr (hno first hfollows)
    · rw [hother.unique (remote.ascending symbol) hfollows]

theorem RowIn.rowOf {range : ℕ × ℕ} {row : HistoryRow (ResearchCells Bar)}
    {session : RawSession Bar} (h : RowIn symbol (remote.between symbol range) session row) :
    row.symbol = symbol ∧ RowOf remote symbol row session := by
  obtain ⟨bar, previous, hbar, rfl, hprevious⟩ := h.row
  refine ⟨rfl, (RemoteHistory.mem_between.mp h.mem).1, rfl, bar, previous, hbar, rfl, ?_⟩
  rcases hprevious with ⟨_, hnone⟩ | ⟨first, hfollows, hclose⟩
  · exact Or.inl hnone
  · exact Or.inr ⟨first, RemoteHistory.follows_of_between hfollows, hclose⟩

theorem exists_dropDuplicates {Cells : Type} {frame : HistoryFrame Cells} {row : HistoryRow Cells}
    (h : row ∈ frame) :
    ∃ kept ∈ dropDuplicates frame, kept.symbol = row.symbol ∧ kept.date = row.date := by
  induction frame generalizing row with
  | nil => cases h
  | cons head rest ih =>
      rw [dropDuplicates]
      split
      · rename_i hlater
        rcases List.mem_cons.mp h with rfl | hrest
        · obtain ⟨later, hmem, hsymbol, hdate⟩ := hlater
          obtain ⟨kept, hkept, hkeptSymbol, hkeptDate⟩ := ih hmem
          exact ⟨kept, hkept, hkeptSymbol.trans hsymbol, hkeptDate.trans hdate⟩
        · exact ih hrest
      · rcases List.mem_cons.mp h with rfl | hrest
        · exact ⟨row, List.mem_cons_self, rfl, rfl⟩
        · obtain ⟨kept, hkept, hsame⟩ := ih hrest
          exact ⟨kept, List.mem_cons_of_mem _ hkept, hsame⟩

theorem mem_of_mem_mergeFrames {Cells : Type} {frames : List (HistoryFrame Cells)}
    {row : HistoryRow Cells} (h : row ∈ mergeFrames frames) : row ∈ frames.flatten :=
  (List.mem_insertionSort _).mp (mem_of_mem_dropDuplicates h)

theorem exists_mergeFrames {Cells : Type} {frames : List (HistoryFrame Cells)}
    {row : HistoryRow Cells} (h : row ∈ frames.flatten) :
    ∃ kept ∈ mergeFrames frames, kept.date = row.date := by
  obtain ⟨kept, hkept, _, hdate⟩ :=
    exists_dropDuplicates ((List.mem_insertionSort (·.date ≤ ·.date)).mpr h)
  exact ⟨kept, hkept, hdate⟩

/-- The pieces are what one fetch of each requested range returns. -/
structure FetchedPieces (remote : RemoteHistory Bar) (symbol : String) (missing : List (ℕ × ℕ))
    (pieces : List (HistoryFrame (ResearchCells Bar))) : Prop where
  source : ∀ piece ∈ pieces, ∃ range ∈ missing, remote.fetch symbol range = .ok piece
  each : ∀ range ∈ missing, ∃ piece ∈ pieces, remote.fetch symbol range = .ok piece

section

variable {missing : List (ℕ × ℕ)} {pieces : List (HistoryFrame (ResearchCells Bar))}

theorem FetchedPieces.rowIn (h : FetchedPieces remote symbol missing pieces)
    {piece : HistoryFrame (ResearchCells Bar)} (hpiece : piece ∈ pieces)
    {row : HistoryRow (ResearchCells Bar)} (hrow : row ∈ piece) :
    ∃ range ∈ missing, ∃ session, RowIn symbol (remote.between symbol range) session row := by
  obtain ⟨range, hrange, hfetch⟩ := h.source piece hpiece
  obtain ⟨_, rows, hrows, rfl⟩ := RemoteHistory.fetch_eq_ok_iff.mp hfetch
  exact ⟨range, hrange, rowIn_of_mem RemoteHistory.between_ascending hrows hrow⟩

/-- The days of the merged frame are those that were held and those that were fetched. -/
theorem merged_dates (h : FetchedPieces remote symbol missing pieces) :
    {day | ∃ row ∈ mergeFrames (heldRows slot :: pieces), row.date = day} =
      heldDates slot ∪ fetchedDates remote symbol missing := by
  ext day
  constructor
  · rintro ⟨row, hrow, rfl⟩
    rcases List.mem_append.mp (mem_of_mem_mergeFrames hrow) with hheld | hnew
    · exact Or.inl ⟨row, hheld, rfl⟩
    · obtain ⟨piece, hpiece, hrow⟩ := List.mem_flatten.mp hnew
      obtain ⟨range, hrange, session, hin⟩ := h.rowIn hpiece hrow
      exact Or.inr ⟨range, hrange, session, hin.mem, hin.rowOf.2.date⟩
  · rintro (⟨row, hrow, rfl⟩ | ⟨range, hrange, session, hsession, rfl⟩)
    · exact exists_mergeFrames (List.mem_append_left _ hrow)
    · obtain ⟨piece, hpiece, hfetch⟩ := h.each range hrange
      obtain ⟨_, rows, hrows, rfl⟩ := RemoteHistory.fetch_eq_ok_iff.mp hfetch
      obtain ⟨row, hrow, hdate⟩ := exists_row symbol hrows hsession
      rw [← hdate]
      exact exists_mergeFrames
        (List.mem_append_right _ (List.mem_flatten.mpr ⟨_, hpiece, hrow⟩))

theorem heldDates_merged (h : FetchedPieces remote symbol missing pieces)
    {artifact : ResearchArtifact (ResearchCells Bar)}
    (hframe : artifact.frame = mergeFrames (heldRows slot :: pieces)) :
    heldDates (⟨none, some artifact⟩ : Slot (ResearchCells Bar)) =
      heldDates slot ∪ fetchedDates remote symbol missing := by
  rw [← merged_dates h, ← hframe]
  rfl

theorem WholeSlot.merged (h : WholeSlot remote symbol slot)
    (hpieces : FetchedPieces remote symbol missing pieces) (hsome : ∃ piece ∈ pieces, piece ≠ [])
    (hdistinct : (frameDates (mergeFrames (heldRows slot :: pieces))).Nodup)
    (hjoins : JoinsWhole remote symbol slot missing)
    {artifact : ResearchArtifact (ResearchCells Bar)}
    (hframe : artifact.frame = mergeFrames (heldRows slot :: pieces)) :
    WholeSlot remote symbol ⟨none, some artifact⟩ := by
  have hheld : heldRows (⟨none, some artifact⟩ : Slot (ResearchCells Bar)) =
      mergeFrames (heldRows slot :: pieces) := hframe
  have hdates := heldDates_merged hpieces hframe
  have hsessions : heldDates slot ∪ fetchedDates remote symbol missing ⊆
      remote.sessionDates symbol := by
    rintro day (hday | ⟨range, _, session, hsession, rfl⟩)
    · exact h.heldDates_subset hday
    · exact ⟨session, (RemoteHistory.mem_between.mp hsession).1, rfl⟩
  refine ⟨?_, hheld ▸ hdistinct, ?_, ?_, hdates ▸ hjoins.joined, fun _ hrecord => nomatch hrecord⟩
  · rintro _ ⟨⟩
    obtain ⟨piece, hpiece, hne⟩ := hsome
    obtain ⟨row, hrow⟩ := List.exists_mem_of_ne_nil piece hne
    have hin : row ∈ (heldRows slot :: pieces).flatten :=
      List.mem_append_right _ (List.mem_flatten.mpr ⟨piece, hpiece, hrow⟩)
    obtain ⟨kept, hkept, _⟩ := exists_mergeFrames hin
    rw [hframe]
    exact List.ne_nil_of_mem hkept
  · intro row hrow
    rw [hheld] at hrow
    rcases List.mem_append.mp (mem_of_mem_mergeFrames hrow) with hold | hnew
    · exact h.rows row hold
    · obtain ⟨piece, hpiece, hrow⟩ := List.mem_flatten.mp hnew
      obtain ⟨_, _, session, hin⟩ := hpieces.rowIn hpiece hrow
      exact ⟨hin.rowOf.1, session, hin.rowOf.2⟩
  · intro row hrow hearlier
    rw [hdates] at hearlier
    rw [hheld] at hrow
    have hbefore : ∃ day ∈ remote.sessionDates symbol, day < row.date := by
      obtain ⟨day, hday, hlt⟩ := hearlier
      exact ⟨day, hsessions hday, hlt⟩
    rcases List.mem_append.mp (mem_of_mem_mergeFrames hrow) with hold | hnew
    · by_cases hfirst : ∃ day ∈ heldDates slot, day < row.date
      · exact h.whole row hold hfirst
      · obtain ⟨_, session, hsession⟩ := h.rows row hold
        push Not at hfirst
        refine hsession.wholeLabel hbefore (hjoins.seams session ?_ ?_)
        · right
          rw [hsession.date]
          exact ⟨⟨row, hold, rfl⟩, hfirst⟩
        · rw [hsession.date]
          exact hearlier
    · obtain ⟨piece, hpiece, hrow⟩ := List.mem_flatten.mp hnew
      obtain ⟨range, hrange, session, hin⟩ := hpieces.rowIn hpiece hrow
      have hsession := hin.rowOf.2
      obtain ⟨bar, previous, hbar, hrowEq, hprevious⟩ := hin.row
      rcases hprevious with ⟨hfirst, _⟩ | ⟨first, hfollows, rfl⟩
      · refine hsession.wholeLabel hbefore (hjoins.seams session ?_ ?_)
        · exact Or.inl ⟨range, hrange, hin.mem, hfirst⟩
        · rw [hsession.date]
          exact hearlier
      · exact ⟨first, session, bar, RemoteHistory.follows_of_between hfollows, hsession.date, hbar,
          congrArg label hrowEq⟩

end

theorem WholeSlot.withRecord {active : Option (ResearchArtifact (ResearchCells Bar))}
    (h : WholeSlot remote symbol ⟨none, active⟩) {record : Option SymbolRecord}
    (hrecord : ∀ current, record = some current →
      active ≠ none ∧ current.startDate ≤ current.endDate ∧
        current.startDate ∈ remote.sessionDates symbol ∧
        Spans id (heldDates ⟨none, active⟩) current.startDate current.endDate) :
    WholeSlot remote symbol ⟨record, active⟩ :=
  ⟨h.nonempty, h.distinct, h.rows, h.whole, h.unbroken, hrecord⟩

theorem WholeSlot.withoutRecord (h : WholeSlot remote symbol slot) :
    WholeSlot remote symbol ⟨none, slot.active⟩ :=
  ⟨h.nonempty, h.distinct, h.rows, h.whole, h.unbroken, fun _ hrecord => nomatch hrecord⟩

theorem WholeSlot.symbolRecord {artifact : ResearchArtifact (ResearchCells Bar)}
    (h : WholeSlot remote symbol ⟨none, some artifact⟩) {record : SymbolRecord}
    (hstart : record.startDate = (symbolRecord artifact.frame artifact).startDate)
    (hend : record.endDate = (symbolRecord artifact.frame artifact).endDate) :
    WholeSlot remote symbol ⟨some record, some artifact⟩ := by
  refine h.withRecord ?_
  rintro _ ⟨⟩
  obtain ⟨first, hfirst, last, hlast, _, hinside, hrecord⟩ :=
    frameBounds_of_ne_nil (h.nonempty artifact rfl)
  obtain ⟨hlow, hhigh⟩ := hrecord artifact
  have hheldFirst : first.date ∈ heldDates ⟨none, some artifact⟩ := ⟨first, hfirst, rfl⟩
  rw [hstart, hend, hlow, hhigh]
  exact ⟨by simp, (hinside first hfirst).2, h.heldDates_subset hheldFirst, first.date, hheldFirst,
    last.date, ⟨last, hlast, rfl⟩, le_rfl, le_rfl⟩

/-! ### Runs -/

/-- Whatever the provider answers is what one fetch of the history returns; a request may also
fail. -/
def AnswersFrom (remote : RemoteHistory Bar)
    (provider : HistoricalHistoryProvider (ResearchCells Bar)) : Prop :=
  ∀ symbol startDay endDay frame, provider.getResearchHistory symbol startDay endDay = .ok frame →
    remote.fetch symbol (startDay, endDay) = .ok frame

variable (c : HistoricalBackfillCoordinator (ResearchCells Bar)) (call : BackfillCall)

theorem fetchedPieces_of_ok (hanswers : AnswersFrom remote c.provider)
    {missing : List (ℕ × ℕ)} {pieces : List (HistoryFrame (ResearchCells Bar))}
    (h : c.fetchPieces symbol missing = .ok pieces) :
    FetchedPieces remote symbol missing pieces := by
  induction missing generalizing pieces with
  | nil =>
      cases h
      exact ⟨fun _ hpiece => absurd hpiece List.not_mem_nil,
        fun _ hrange => absurd hrange List.not_mem_nil⟩
  | cons range rest ih =>
      obtain ⟨piece, hpiece, h⟩ := bind_eq_ok_iff.mp h
      obtain ⟨_, _, h⟩ := bind_eq_ok_iff.mp h
      obtain ⟨later, hlater, h⟩ := bind_eq_ok_iff.mp h
      cases h
      have hfetch := hanswers symbol range.1 range.2 piece hpiece
      obtain ⟨hsource, heach⟩ := ih hlater
      refine ⟨List.forall_mem_cons.mpr ⟨⟨range, List.mem_cons_self, hfetch⟩, ?_⟩,
        List.forall_mem_cons.mpr ⟨⟨piece, List.mem_cons_self, hfetch⟩, ?_⟩⟩
      · intro other hother
        obtain ⟨origin, hmem, hok⟩ := hsource other hother
        exact ⟨origin, List.mem_cons_of_mem _ hmem, hok⟩
      · intro other hother
        obtain ⟨answered, hmem, hok⟩ := heach other hother
        exact ⟨answered, List.mem_cons_of_mem _ hmem, hok⟩

/-- The condition on one run: where a visit asks for ranges that can be fetched and bring a
session, they join what the symbol has. -/
def JoinsHistory (remote : RemoteHistory Bar) (storage : Storage (ResearchCells Bar))
    (call : BackfillCall) : Prop :=
  ∀ symbol missing, (symbol, missing) ∈ c.visits call storage →
    (∀ range ∈ missing, ∃ frame, remote.fetch symbol range = .ok frame) →
      (∃ range ∈ missing, remote.between symbol range ≠ []) →
        JoinsWhole remote symbol (storage.slot symbol) missing

theorem whole_reconciledSlot (h : WholeSlot remote symbol slot) :
    WholeSlot remote symbol (c.reconciledSlot symbol slot) := by
  rcases c.reconciledSlot_cases symbol slot with hsame | ⟨artifact, hactive, _, hrepaired⟩
  · rwa [hsame]
  · have hbare := h.withoutRecord
    rw [hrepaired, hactive]
    rw [hactive] at hbare
    exact hbare.symbolRecord rfl rfl

/-- A visit that meets the condition leaves a whole slot whole. -/
theorem whole_settle (hanswers : AnswersFrom remote c.provider) (h : WholeSlot remote symbol slot)
    {missing : List (ℕ × ℕ)} (hasked : missing = [] ∨ c.slotRequests call symbol slot = .ok missing)
    (hjoins : (∀ range ∈ missing, ∃ frame, remote.fetch symbol range = .ok frame) →
      (∃ range ∈ missing, remote.between symbol range ≠ []) → JoinsWhole remote symbol slot missing)
    (stage : Stage) : WholeSlot remote symbol (c.settle call symbol missing slot stage) := by
  have hreconciled := whole_reconciledSlot c h
  rcases c.settle_forms call hasked stage with hafter | hafter | ⟨current, hcurrent, hafter⟩ |
    ⟨pieces, version, _, hfetch, hsome, ⟨first, last, hvalid⟩, hafter⟩
  · rwa [hafter]
  · rwa [hafter]
  · rw [hafter]
    refine hreconciled.withoutRecord.withRecord ?_
    rintro _ ⟨⟩
    exact hreconciled.record current hcurrent
  · have hpieces := fetchedPieces_of_ok c hanswers hfetch
    have hbrings : ∃ range ∈ missing, remote.between symbol range ≠ [] := by
      obtain ⟨piece, hpiece, hne⟩ := hsome
      obtain ⟨row, hrow⟩ := List.exists_mem_of_ne_nil piece hne
      obtain ⟨range, hrange, session, hin⟩ := hpieces.rowIn hpiece hrow
      exact ⟨range, hrange, List.ne_nil_of_mem hin.mem⟩
    have hfetched : ∀ range ∈ missing, ∃ frame, remote.fetch symbol range = .ok frame := by
      intro range hrange
      obtain ⟨piece, _, hok⟩ := hpieces.each range hrange
      exact ⟨piece, hok⟩
    have hdistinct := (validateHistory_ok_iff.mp hvalid).2
    have hframe : (c.publication (mergeFrames (heldRows slot :: pieces)) version).frame =
        mergeFrames (heldRows slot :: pieces) := rfl
    have hmerged := h.merged hpieces hsome hdistinct (hjoins hfetched hbrings) hframe
    rcases hafter with hafter | hafter
    · rw [hafter]
      refine hmerged.withRecord ?_
      intro record hrecord
      obtain ⟨_, hordered, hopening, hspans⟩ := hreconciled.record record hrecord
      refine ⟨by simp, hordered, hopening, hspans.mono ?_⟩
      rw [heldDates_merged hpieces hframe, heldDates, c.heldRows_reconciledSlot]
      exact Set.subset_union_left
    · rw [hafter]
      exact hmerged.symbolRecord rfl rfl

/-- Each record's range is held as one fetch of it returns it. -/
def HistoriesAsOneFetch (remote : RemoteHistory Bar) (storage : Storage (ResearchCells Bar)) : Prop :=
  ∀ symbol, AsOneFetch remote symbol (storage.slot symbol)

theorem whole_runStorage (hanswers : AnswersFrom remote c.provider)
    {storage : Storage (ResearchCells Bar)}
    (h : ∀ symbol, WholeSlot remote symbol (storage.slot symbol))
    (hjoins : JoinsHistory c remote storage call) (symbol : String) :
    WholeSlot remote symbol ((c.runStorage storage call).slot symbol) := by
  rcases c.runStorage_slot call storage symbol with hsame | ⟨missing, stage, hmem, hsettled⟩
  · rw [hsame]
    exact h symbol
  · rw [hsettled]
    exact whole_settle c call hanswers (h symbol) (c.slotRequests_of_mem_visits call hmem)
      (hjoins symbol missing hmem) stage

/-- Along every sequence of runs whose requests join the histories they extend, what is held is
what one fetch returns, also where storage faults stop a run or requests fail. -/
theorem always_asOneFetch (hanswers : AnswersFrom remote c.provider) (calls : List BackfillCall)
    (hjoins : Runs.StepsMeet c.runStorage (JoinsHistory c remote) Storage.empty calls) :
    Runs.Always c.runStorage (HistoriesAsOneFetch remote) Storage.empty calls := by
  have hinvariant := Runs.always_of_stepsMeet c.runStorage
    (fun storage => ∀ symbol, WholeSlot remote symbol (storage.slot symbol))
    (fun storage call h hjoin => whole_runStorage c call hanswers h hjoin)
    Storage.empty calls (fun symbol => wholeSlot_empty) hjoins
  exact hinvariant.imp c.runStorage fun storage h symbol => (h symbol).asOneFetch

/-- The first request for a symbol has nothing to join. -/
theorem joinsHistory_empty : JoinsHistory c remote Storage.empty call := by
  intro symbol missing hmem _ _
  have hnothing : heldDates ((Storage.empty : Storage (ResearchCells Bar)).slot symbol) = ∅ := by
    ext day
    exact ⟨fun ⟨_, hrow, _⟩ => absurd hrow List.not_mem_nil, fun h => absurd h (Set.notMem_empty day)⟩
  have hlength : missing.length ≤ 1 := by
    rcases c.slotRequests_of_mem_visits call hmem with rfl | hrequests
    · exact Nat.zero_le 1
    · exact c.length_requestedRanges_none hrequests
  have hone : ∀ range ∈ missing, ∀ other ∈ missing, range = other := by
    intro range hrange other hother
    cases missing with
    | nil => cases hrange
    | cons first rest =>
        have hrest : rest = [] := List.length_eq_zero_iff.mp (by simpa using hlength)
        subst hrest
        rw [List.mem_singleton.mp hrange, List.mem_singleton.mp hother]
  refine ⟨?_, ?_⟩
  · rw [hnothing, Set.empty_union]
    rintro _ ⟨range, hrange, first, hfirst, rfl⟩ _ ⟨range', hrange', last, hlast, rfl⟩ day
      ⟨⟨session, hsession, rfl⟩, hfrom, hto⟩
    rw [← hone range hrange range' hrange'] at hlast
    have hlow := (RemoteHistory.mem_between.mp hfirst).2.1
    have hhigh := (RemoteHistory.mem_between.mp hlast).2.2
    exact ⟨range, hrange, session,
      RemoteHistory.mem_between.mpr ⟨hsession, hlow.trans hfrom, hto.trans hhigh⟩, rfl⟩
  · rintro seam hseam ⟨day, hday, hbefore⟩
    rw [hnothing, Set.empty_union] at hday
    obtain ⟨range, hrange, session, hsession, rfl⟩ := hday
    rcases hseam with ⟨range', hrange', _, hfirst⟩ | ⟨hheld, _⟩
    · rw [hone range hrange range' hrange'] at hsession
      exact absurd hbefore (not_lt_of_ge (hfirst session hsession))
    · rw [hnothing] at hheld
      exact absurd hheld (Set.notMem_empty _)

end

section Sample

/-- Three sessions, the adjusted close one higher on each. -/
def threeSessions : RemoteHistory Unit where
  sessions _ := [1, 2, 3].map fun day => ⟨737059 + day, ['1'], ['0'], some (), some (9 + day)⟩
  ascending _ := by
    simp [Ascending]

def threeDays : HistoricalBackfillCoordinator (ResearchCells Unit) where
  provider :=
    { listResearchInstruments := fun _ => .ok ["600001"]
      getResearchHistory := fun symbol startDay endDay =>
        threeSessions.fetch symbol (startDay, endDay) }
  format :=
    { parquetSha256 := fun frame => toString (frameDates frame)
      parquetSize := fun frame => frame.length
      frameDigest := fun frame => toString (frameDates frame) }
  maxRequestDays := none
  maxRequestDays_pos := by simp

theorem threeDays_answers : AnswersFrom threeSessions threeDays.provider :=
  fun _ _ _ _ h => h

/-- The third session is fetched a day later and has no return, which one fetch gives it. -/
theorem suffix_not_asOneFetch :
    ¬ Runs.Always threeDays.runStorage (HistoriesAsOneFetch threeSessions) Storage.empty
      [sampleCall 1 2, sampleCall 1 3] := by
  rintro ⟨_, _, hhistories⟩
  have hbounds : (((threeDays.runStorage (threeDays.runStorage Storage.empty (sampleCall 1 2))
      (sampleCall 1 3)).slot "600001").record.map fun record =>
        (record.startDate, record.endDate)) = some (737060, 737062) := by decide +kernel
  have hheld : (((threeDays.runStorage (threeDays.runStorage Storage.empty (sampleCall 1 2))
      (sampleCall 1 3)).slot "600001").active.map fun artifact =>
        (labelAt artifact.frame 737062).map Prod.fst) = some (some none) := by decide +kernel
  have hfetched : (threeSessions.fetch "600001" (737060, 737062)).toOption.map (fun frame =>
      (labelAt frame 737062).map Prod.fst) = some (some (some (1 / 11))) := by decide +kernel
  obtain ⟨record, hrecord, hends⟩ := Option.map_eq_some_iff.mp hbounds
  obtain ⟨hstart, hend⟩ := Prod.mk.inj hends
  obtain ⟨artifact, frame, hactive, hfetch, hlabels⟩ := hhistories "600001" record hrecord
  have hlabel := hlabels 737062 (by omega) (by omega)
  rw [hactive, Option.map_some, hlabel] at hheld
  rw [hstart, hend] at hfetch
  rw [hfetch] at hfetched
  cases hheld.symm.trans hfetched

/-- One run for the whole window. -/
theorem window_asOneFetch :
    Runs.Always threeDays.runStorage (HistoriesAsOneFetch threeSessions) Storage.empty
      [sampleCall 1 3] :=
  always_asOneFetch threeDays threeDays_answers [sampleCall 1 3]
    ⟨joinsHistory_empty threeDays (sampleCall 1 3), trivial⟩

end Sample

end QuantWorkbench.Runtime
