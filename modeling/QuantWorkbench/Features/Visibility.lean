import QuantWorkbench.Features.PitStore

/-!
The store does not look ahead: no row may be seen before it is announced, and what a query
returns depends only on the rows that were announced by its date.
-/

namespace QuantWorkbench.Features

open Lib Data Market

variable {T O : Type}

/-! ### Trading days -/

theorem le_of_skipWeekend {fuel : ℕ} {candidate day : Date}
    (h : skipWeekend fuel candidate = .ok day) : candidate ≤ day := by
  induction fuel generalizing candidate with
  | zero => cases h
  | succ fuel ih =>
      rw [skipWeekend] at h
      split at h
      · obtain ⟨next, hnext, h⟩ := bind_eq_ok_iff.mp h
        exact (Date.covBy_of_next? (orRaise_eq_ok_iff.mp hnext)).le.trans (ih h)
      · cases h
        exact le_rfl

theorem lt_nextTradingDay {calendar : List Date} {current day : Date}
    (h : nextTradingDay calendar current = .ok day) : current < day := by
  unfold nextTradingDay at h
  dsimp only at h
  split at h
  · have hday := orRaise_eq_ok_iff.mp h
    obtain ⟨hindex, hvalue⟩ := List.getElem?_eq_some_iff.mp hday
    have hdrop : (calendar.takeWhile (fun other => decide (other ≤ current)) ++
        calendar.dropWhile fun other => decide (other ≤ current)).drop
          (bisectRight calendar current) =
            calendar.dropWhile fun other => decide (other ≤ current) := List.drop_left
    rw [List.takeWhile_append_dropWhile, List.drop_eq_getElem_cons hindex, hvalue] at hdrop
    have hfirst := List.head?_dropWhile_not (fun other => decide (other ≤ current)) calendar
    rw [← hdrop] at hfirst
    simpa using hfirst
  · obtain ⟨next, hnext, h⟩ := bind_eq_ok_iff.mp h
    exact ((Date.covBy_of_next? (orRaise_eq_ok_iff.mp hnext)).lt).trans_le (le_of_skipWeekend h)

/-! ### Effective dates -/

theorem resolveEffectiveDate_ok {config : PITConfig} {calendar : List Date}
    {announcement explicit : Option Date} {effective : Option Date}
    (h : resolveEffectiveDate config calendar announcement explicit = .ok effective) :
    announcement = none ∧ effective = none ∨
      ∃ announced minimum resolved, announcement = some announced ∧ effective = some resolved ∧
        minimum ≤ resolved ∧
          (config.SameDay ∧ minimum = announced ∨
            ¬ config.SameDay ∧ nextTradingDay calendar announced = .ok minimum) := by
  unfold resolveEffectiveDate at h
  cases announcement with
  | none =>
      dsimp only at h
      split at h
      · cases h
      · cases h
        exact Or.inl ⟨rfl, rfl⟩
  | some announced =>
      obtain ⟨minimum, hminimum, h⟩ := bind_eq_ok_iff.mp h
      have hcase : config.SameDay ∧ minimum = announced ∨
          ¬ config.SameDay ∧ nextTradingDay calendar announced = .ok minimum := by
        unfold minimumEffective at hminimum
        split at hminimum
        · rename_i hsame
          cases hminimum
          exact Or.inl ⟨hsame, rfl⟩
        · rename_i hlater
          exact Or.inr ⟨hlater, hminimum⟩
      cases explicit with
      | none =>
          cases h
          exact Or.inr ⟨announced, minimum, minimum, rfl, rfl, le_rfl, hcase⟩
      | some explicit =>
          obtain ⟨_, _, h⟩ := bind_eq_ok_iff.mp h
          cases h
          exact Or.inr ⟨announced, minimum, _, rfl, rfl, le_max_right _ _, hcase⟩

/-- A row is visible from its announcement on at the earliest, and from the next trading day on
unless it may be seen on the same day. -/
def StoredRow.EffectiveAfter (config : PITConfig) (calendar : List Date) (row : StoredRow T O) :
    Prop :=
  ∀ effective ∈ row.effectiveDate, ∃ announced ∈ row.announcementDate, announced ≤ effective ∧
    (¬ config.SameDay → announced < effective ∧
      ∃ next, nextTradingDay calendar announced = .ok next ∧ next ≤ effective)

theorem storedRow_ok {config : PITConfig} {calendar : List Date} {row : PitRow T O}
    {stored : StoredRow T O} (h : storedRow config calendar row = .ok stored) :
    stored.announcementDate = row.announcementDate.day? ∧
      stored.EffectiveAfter config calendar := by
  obtain ⟨_, _, h⟩ := bind_eq_ok_iff.mp h
  obtain ⟨_, _, h⟩ := bind_eq_ok_iff.mp h
  obtain ⟨_, _, h⟩ := bind_eq_ok_iff.mp h
  obtain ⟨effective, heffective, h⟩ := bind_eq_ok_iff.mp h
  cases h
  refine ⟨rfl, fun resolved hresolved => ?_⟩
  change effective = some resolved at hresolved
  rcases resolveEffectiveDate_ok heffective with
    ⟨_, hnone⟩ | ⟨announced, minimum, found, hannounced, hfound, hle, hcase⟩
  · rw [hnone] at hresolved
    cases hresolved
  · cases hfound.symm.trans hresolved
    refine ⟨announced, hannounced, ?_⟩
    rcases hcase with ⟨hsame, rfl⟩ | ⟨_, hnext⟩
    · exact ⟨hle, fun hlater => absurd hsame hlater⟩
    · have hlt := (lt_nextTradingDay hnext).trans_le hle
      exact ⟨hlt.le, fun _ => ⟨hlt, minimum, hnext, hle⟩⟩

theorem prepare_ok {config : PITConfig} {calendar : List Date} {frame : PitFrame T O}
    {rows : List (StoredRow T O)} (h : prepare config calendar frame = .ok rows) :
    frame.rows.mapM (storedRow config calendar) = .ok rows := by
  unfold prepare at h
  obtain ⟨_, _, h⟩ := bind_eq_ok_iff.mp h
  obtain ⟨_, _, h⟩ := bind_eq_ok_iff.mp h
  obtain ⟨_, _, h⟩ := bind_eq_ok_iff.mp h
  obtain ⟨_, _, h⟩ := bind_eq_ok_iff.mp h
  obtain ⟨_, _, h⟩ := bind_eq_ok_iff.mp h
  obtain ⟨_, _, h⟩ := bind_eq_ok_iff.mp h
  obtain ⟨_, _, h⟩ := bind_eq_ok_iff.mp h
  obtain ⟨_, _, h⟩ := bind_eq_ok_iff.mp h
  obtain ⟨_, _, h⟩ := bind_eq_ok_iff.mp h
  obtain ⟨_, _, h⟩ := bind_eq_ok_iff.mp h
  exact h

/-! ### Announced rows -/

def PitRow.announcedBy (asOf : Date) (row : PitRow T O) : Bool :=
  row.announcementDate.day?.any fun day => day ≤ asOf

def StoredRow.announcedBy (asOf : Date) (row : StoredRow T O) : Bool :=
  row.announcementDate.any fun day => day ≤ asOf

/-- Two tables have the same rows, in their order, that were announced by a date. -/
def PitFrame.AgreesBy (asOf : Date) (frame other : PitFrame T O) : Prop :=
  frame.rows.filter (PitRow.announcedBy asOf) = other.rows.filter (PitRow.announcedBy asOf)

/-- The announced rows of a store come from the announced rows of its table. -/
theorem announced_stored {config : PITConfig} {calendar : List Date} {frame : PitFrame T O}
    {rows : List (StoredRow T O)} (h : prepare config calendar frame = .ok rows) (asOf : Date) :
    (frame.rows.filter (PitRow.announcedBy asOf)).mapM (storedRow config calendar) =
      .ok (rows.filter (StoredRow.announcedBy asOf)) := by
  refine filter_mapM_ok (fun row stored hstored => ?_) (prepare_ok h)
  rw [PitRow.announcedBy, StoredRow.announcedBy, (storedRow_ok hstored).1]

theorem announcedBy_of_visibleOn {config : PITConfig} {calendar : List Date}
    {row : StoredRow T O} (h : row.EffectiveAfter config calendar) {asOf : Date} {symbol : Symbol}
    (hvisible : row.visibleOn asOf symbol = true) : row.announcedBy asOf = true := by
  obtain ⟨_, heffective⟩ := Bool.and_eq_true_iff.mp hvisible
  cases hmem : row.effectiveDate with
  | none =>
      rw [hmem] at heffective
      cases heffective
  | some effective =>
      rw [hmem] at heffective
      have hle : effective ≤ asOf := by simpa using heffective
      obtain ⟨announced, hannounced, hbefore, _⟩ := h effective hmem
      have hstored : row.announcementDate = some announced := hannounced
      rw [StoredRow.announcedBy, hstored]
      simpa using hbefore.trans hle

/-- Visible rows are the same in two stores whose tables agree on what was announced. -/
theorem visible_congr {config : PITConfig} {calendar : List Date} {frame other : PitFrame T O}
    {rows others : List (StoredRow T O)} (h : prepare config calendar frame = .ok rows)
    (hother : prepare config calendar other = .ok others) {asOf : Date}
    (hagree : frame.AgreesBy asOf other) (symbol : Symbol) :
    rows.filter (StoredRow.visibleOn asOf symbol) =
      others.filter (StoredRow.visibleOn asOf symbol) := by
  have hannounced : rows.filter (StoredRow.announcedBy asOf) =
      others.filter (StoredRow.announcedBy asOf) := by
    have hrows := announced_stored h asOf
    rw [hagree, announced_stored hother asOf] at hrows
    exact (Except.ok.inj hrows).symm
  have hvisible : ∀ {frame : PitFrame T O} {rows : List (StoredRow T O)},
      prepare config calendar frame = .ok rows →
      rows.filter (StoredRow.visibleOn asOf symbol) =
        (rows.filter (StoredRow.announcedBy asOf)).filter (StoredRow.visibleOn asOf symbol) := by
    intro frame rows hprepared
    rw [List.filter_filter]
    refine List.filter_congr fun row hrow => ?_
    obtain ⟨raw, _, hstored⟩ := mem_of_mapM_ok (prepare_ok hprepared) hrow
    cases hvisible : row.visibleOn asOf symbol with
    | false => rfl
    | true => exact (announcedBy_of_visibleOn (storedRow_ok hstored).2 hvisible).symm
  rw [hvisible h, hvisible hother, hannounced]

/-! ### Queries -/

section

variable [LinearOrder T]

theorem mem_newestVisible {store : PITFeatureStore T O} {symbol : Symbol} {asOf : Date}
    {row : StoredRow T O} (h : row ∈ store.newestVisible symbol asOf) :
    row ∈ store.rows ∧ row.visibleOn asOf symbol = true :=
  List.mem_filter.mp (mem_sortValues.mp (List.mem_of_mem_drop h))

theorem filter_getAllFeaturesAsof (store : PITFeatureStore T O) (asOf : Date) (symbol : Symbol) :
    (store.getAllFeaturesAsof asOf).filter (fun row => row.symbol = symbol) =
      store.newestVisible symbol asOf := by
  have hsymbol : ∀ {other : Symbol} {row : StoredRow T O},
      row ∈ store.newestVisible other asOf → row.symbol = other := by
    intro other row hrow
    simpa using (Bool.and_eq_true_iff.mp (mem_newestVisible hrow).2).1
  have hgroups : ∀ symbols : List Symbol, symbols.Nodup →
      ((symbols.flatMap fun other => store.newestVisible other asOf).filter fun row =>
        decide (row.symbol = symbol)) =
          if symbol ∈ symbols then store.newestVisible symbol asOf else [] := by
    intro symbols hnodup
    induction symbols with
    | nil => rfl
    | cons other rest ih =>
        obtain ⟨hnew, hrest⟩ := List.nodup_cons.mp hnodup
        rw [List.flatMap_cons, List.filter_append, ih hrest]
        by_cases heq : symbol = other
        · subst heq
          rw [if_neg hnew, if_pos List.mem_cons_self, List.append_nil, List.filter_eq_self]
          intro row hrow
          simpa using hsymbol hrow
        · have hnone : (store.newestVisible other asOf).filter
              (fun row => decide (row.symbol = symbol)) = [] := by
            rw [List.filter_eq_nil_iff]
            intro row hrow
            rw [hsymbol hrow]
            simpa using Ne.symm heq
          have hmem : symbol ∈ other :: rest ↔ symbol ∈ rest := by simp [heq]
          rw [hnone, List.nil_append]
          simp only [hmem]
  rw [PITFeatureStore.getAllFeaturesAsof, hgroups _ (nodup_fromKeys _)]
  split
  · rfl
  · rename_i hnamed
    have hempty : store.newestVisible symbol asOf = [] := by
      rw [List.eq_nil_iff_forall_not_mem]
      intro row hrow
      refine hnamed (mem_fromKeys.mpr ?_)
      rw [← hsymbol hrow]
      exact List.mem_map_of_mem (mem_newestVisible hrow).1
    exact hempty.symm

/-- The store does not look ahead. -/
theorem pitFeatureStore_noLookAhead (config : PITConfig) (tradingCalendar : List Date)
    (frame other : PitFrame T O) (store store' : PITFeatureStore T O)
    (h : PITFeatureStore.create frame config tradingCalendar = .ok store)
    (h' : PITFeatureStore.create other config tradingCalendar = .ok store') :
    (∀ row ∈ store.rows, row.EffectiveAfter config (normalizeCalendar tradingCalendar)) ∧
      ∀ asOf, frame.AgreesBy asOf other →
        (∀ symbol, store.getFeaturesAsof symbol asOf = store'.getFeaturesAsof symbol asOf) ∧
          ∀ symbol, (store.getAllFeaturesAsof asOf).filter (fun row => row.symbol = symbol) =
            (store'.getAllFeaturesAsof asOf).filter fun row => row.symbol = symbol := by
  have hprepared : ∀ {frame : PitFrame T O} {store : PITFeatureStore T O},
      PITFeatureStore.create frame config tradingCalendar = .ok store →
      prepare config (normalizeCalendar tradingCalendar) frame = .ok store.rows := by
    intro frame store hcreate
    unfold PITFeatureStore.create at hcreate
    cases hrows : prepare config (normalizeCalendar tradingCalendar) frame with
    | error e =>
        rw [hrows] at hcreate
        cases hcreate
    | ok rows =>
        rw [hrows] at hcreate
        cases hcreate
        rfl
  constructor
  · intro row hrow
    obtain ⟨raw, _, hstored⟩ := mem_of_mapM_ok (prepare_ok (hprepared h)) hrow
    exact (storedRow_ok hstored).2
  · intro asOf hagree
    have hnewest : ∀ symbol,
        store.newestVisible symbol asOf = store'.newestVisible symbol asOf := by
      intro symbol
      unfold PITFeatureStore.newestVisible
      rw [visible_congr (hprepared h) (hprepared h') hagree symbol]
    constructor
    · intro symbol
      unfold PITFeatureStore.getFeaturesAsof
      simp only [hnewest]
    · intro symbol
      rw [filter_getAllFeaturesAsof, filter_getAllFeaturesAsof, hnewest]

end

section Sample

def sampleSymbol : Symbol := ⟨"000001".toList, Eq.refl true⟩

def reportDay : Date := .of 2026 3 30

def nextDay : Date := .of 2026 3 31

def laterDay : Date := .of 2026 4 1

def lastDay : Date := .of 2026 4 2

def announcedRow (day : Date) : PitRow ℕ Unit where
  symbol := sampleSymbol.text
  tradeDate := .blank
  reportPeriod := .date reportDay
  announcementDate := .date day
  ingestTime := some 0
  effectiveDate := .blank
  source := none
  dataVersion := none
  features := ()

def announcedStored (day effective : Date) : StoredRow ℕ Unit where
  symbol := sampleSymbol
  tradeDate := none
  reportPeriod := reportDay
  announcementDate := some day
  effectiveDate := some effective
  ingestTime := 0
  source := "unknown".toList
  dataVersion := "pit-v1".toList
  features := ()

/-- A row that is announced later changes no earlier answer. -/
theorem laterAnnouncement_unseen :
    PITFeatureStore.getFeaturesAsof (⟨[announcedStored reportDay nextDay]⟩ : PITFeatureStore ℕ Unit)
        sampleSymbol.text nextDay =
      PITFeatureStore.getFeaturesAsof
        ⟨[announcedStored laterDay lastDay, announcedStored reportDay nextDay]⟩
        sampleSymbol.text nextDay := by
  have h := pitFeatureStore_noLookAhead {} [reportDay, nextDay, laterDay, lastDay]
    ⟨requiredColumns, [announcedRow reportDay]⟩
    ⟨requiredColumns, [announcedRow laterDay, announcedRow reportDay]⟩
    ⟨[announcedStored reportDay nextDay]⟩
    ⟨[announcedStored laterDay lastDay, announcedStored reportDay nextDay]⟩ rfl rfl
  exact (h.2 nextDay rfl).1 sampleSymbol.text

end Sample

end QuantWorkbench.Features
