import Mathlib
import QuantWorkbench.Lib.Runs
import QuantWorkbench.Storage.MarketStore

/-!
What a write of daily bars does to the bars that are stored: exactly when it leaves those of other
dates as they are and takes the new ones as they are given.
-/

namespace QuantWorkbench.Storage

open Lib Data

section

variable [CellReader]

/-! ### Stored bars in a merged frame -/

/-- The bar with the provenance of another call. -/
def stamp (provenance : Provenance) (bar : DailyBar) : DailyBar :=
  { bar with
    source := provenance.source
    fetchedAt := provenance.fetchedAt
    dataVersion := provenance.dataVersion }

omit [CellReader] in
theorem stamp_eq_iff {provenance : Provenance} {bar : DailyBar} :
    stamp provenance bar = bar ↔ bar.source = provenance.source ∧
      bar.fetchedAt = provenance.fetchedAt ∧ bar.dataVersion = provenance.dataVersion := by
  cases bar
  simp [stamp, eq_comm]

omit [CellReader] in
theorem name_mem_canonical (field : DailyField) : field.name ∈ canonicalDailyColumns := by
  cases field <;> decide

/-- A stored bar is read as it was written. -/
theorem row_bar {columns : List Text} (h : ∀ column ∈ canonicalDailyColumns, column ∈ columns)
    (provenance : Provenance) (bar : DailyBar) :
    bar.row.bar columns bar.symbol provenance bar.date = stamp provenance bar := by
  have hvalue : ∀ field : DailyField,
      bar.row.value columns field = (bar.row field.name).number? := fun field => by
    rw [Row.value, DailyField.findColumn_name (h _ (name_mem_canonical field))]
    rfl
  have hoptional : ∀ value : Option Numeric, (Cell.optional value).number? = value := by
    intro value
    cases value <;> rfl
  have hamplitude : (bar.row DailyField.amplitudePct.name).number? = bar.amplitudePct :=
    hoptional _
  have hchange : (bar.row DailyField.changePct.name).number? = bar.changePct := hoptional _
  have hchangeAmount : (bar.row DailyField.changeAmount.name).number? = bar.changeAmount :=
    hoptional _
  have hturnover : (bar.row DailyField.turnoverPct.name).number? = bar.turnoverPct := hoptional _
  rw [Row.bar, hvalue, hvalue, hvalue, hvalue, hvalue, hvalue, hvalue, hvalue, hvalue, hvalue,
    hamplitude, hchange, hchangeAmount, hturnover]
  rfl

/-- The dates of the rows of a group, as they are read behind the stored ones. -/
def groupDates (existing : Option DailyFile) (group : Frame) : List Date :=
  ((mergedFrame existing group).dates.getD []).drop ((existing.map DailyFile.bars).getD []).length

def groupBars (existing : Option DailyFile) (group : Frame) (symbol : Symbol)
    (provenance : Provenance) : List DailyBar :=
  ((group.rows.zip (groupDates existing group)).map fun pair =>
    pair.1.bar group.columns symbol provenance pair.2)

/-- The same rows as bars, each field under the name that the stored bars have it by. -/
def mergedBars (existing : Option DailyFile) (group : Frame) (symbol : Symbol)
    (provenance : Provenance) : List DailyBar :=
  ((group.rows.zip (groupDates existing group)).map fun pair =>
    pair.1.bar (mergedFrame existing group).columns symbol provenance pair.2)

omit [CellReader] in
theorem zipWith_append_left {α β γ : Type} (make : α → β → γ) {left left' : List α}
    {right : List β} {count : ℕ} (h : left.length = count) :
    List.zipWith make (left ++ left') right =
      List.zipWith make left (right.take count) ++ List.zipWith make left' (right.drop count) := by
  subst h
  induction left generalizing right with
  | nil => simp
  | cons a rest ih =>
      cases right with
      | nil => simp
      | cons b others =>
          simp only [List.cons_append, List.zipWith_cons_cons, List.length_cons,
            List.take_succ_cons, List.drop_succ_cons]
          rw [ih]

theorem readsBars_alone {group : Frame} {symbol : Symbol} {provenance : Provenance}
    {bars : List DailyBar} (h : ReadsBars group symbol provenance bars) :
    bars = groupBars none group symbol provenance := by
  obtain ⟨dates, hdates, rfl⟩ := h.bars_eq
  have hsame : groupDates none group = dates := by
    rw [groupDates, mergedFrame, hdates]
    exact List.drop_zero
  rw [groupBars, hsame]
  exact List.map_uncurry_zip_eq_zipWith.symm

theorem readsBars_merged {file : DailyFile} {group : Frame} {provenance : Provenance}
    {bars : List DailyBar}
    (h : ReadsBars (file.frame.concat group) file.symbol provenance bars) :
    bars = file.bars.map (stamp provenance) ++
      mergedBars (some file) group file.symbol provenance := by
  obtain ⟨dates, hdates, rfl⟩ := h.bars_eq
  have hcolumns : ∀ column ∈ canonicalDailyColumns,
      column ∈ (file.frame.concat group).columns := fun column hcolumn =>
    List.mem_append_left _ hcolumn
  have hread := hdates
  rw [Frame.dates, DailyField.findColumn_name (hcolumns _ (name_mem_canonical .date))] at hread
  have hcells : ((file.frame.concat group).rows.map fun row => row DailyField.date.name) =
      (file.bars.map DailyBar.date).map Cell.day ++
        group.rows.map fun row => row DailyField.date.name := by
    change (file.bars.map DailyBar.row ++ group.rows).map _ = _
    rw [List.map_append, List.map_map, List.map_map]
    rfl
  rw [Option.bind_some, hcells] at hread
  have htake := CellReader.dates_days _ _ _ hread
  rw [List.length_map] at htake
  have hdrop : groupDates (some file) group = dates.drop file.bars.length := by
    rw [groupDates, mergedFrame, hdates]
    rfl
  have hlength : (file.bars.map DailyBar.row).length = file.bars.length := List.length_map _
  have hnew : List.zipWith (fun row date => Row.bar row (file.frame.concat group).columns
      file.symbol provenance date) group.rows (dates.drop file.bars.length) =
      mergedBars (some file) group file.symbol provenance := by
    rw [mergedBars, hdrop]
    exact List.map_uncurry_zip_eq_zipWith.symm
  change List.zipWith _ (file.bars.map DailyBar.row ++ group.rows) dates = _
  rw [zipWith_append_left _ hlength, htake, hnew, List.zipWith_map, List.zipWith_self]
  congr 1
  refine List.map_congr_left fun bar hbar => ?_
  rw [← file.sameSymbol bar hbar]
  exact row_bar hcolumns provenance bar

/-! ### Fields under another name -/

/-- The fields that a frame may lack. -/
def optionalFields : List DailyField := [.amplitudePct, .changePct, .changeAmount, .turnoverPct]

theorem value_concat (file : DailyFile) (group : Frame) (row : Row) (field : DailyField) :
    row.value (file.frame.concat group).columns field = (row field.name).number? := by
  have hname : field.name ∈ (file.frame.concat group).columns :=
    List.mem_append_left _ (name_mem_canonical field)
  rw [Row.value, DailyField.findColumn_name hname]
  rfl

/-- A field is read alike alone and behind stored bars if the group has its canonical column, or
no number for it. -/
theorem value_merged_iff (file : DailyFile) {group : Frame} {row : Row}
    (hrow : row ∈ group.rows) (field : DailyField) :
    row.value group.columns field = row.value (file.frame.concat group).columns field ↔
      field.name ∈ group.columns ∨ row.value group.columns field = none := by
  have hmerged := value_concat file group row field
  by_cases hname : field.name ∈ group.columns
  · have hown : row.value group.columns field = (row field.name).number? := by
      rw [Row.value, DailyField.findColumn_name hname]
      rfl
    exact iff_of_true (hown.trans hmerged.symm) (Or.inl hname)
  · have hnull : (row field.name).number? = none := by
      rw [group.outside row hrow _ hname]
      rfl
    rw [hmerged, hnull]
    exact ⟨Or.inr, fun h => h.resolve_left hname⟩

theorem bar_merged_iff {file : DailyFile} {group : Frame} {row : Row} (hrow : row ∈ group.rows)
    (hnumbers : ∀ field ∈ DailyField.required, field ≠ .date →
      ∃ value, row.value (file.frame.concat group).columns field = some value)
    (symbol : Symbol) (provenance : Provenance) (date : Date) :
    row.bar group.columns symbol provenance date =
        row.bar (file.frame.concat group).columns symbol provenance date ↔
      ∀ field ∈ optionalFields, field.name ∈ group.columns ∨
        row.value group.columns field = none := by
  have hrequired : ∀ field ∈ DailyField.required, field ≠ .date →
      row.value group.columns field = row.value (file.frame.concat group).columns field := by
    intro field hfield hdate
    refine (value_merged_iff file hrow field).mpr (Or.inl ?_)
    obtain ⟨value, hvalue⟩ := hnumbers field hfield hdate
    by_contra hname
    rw [value_concat, group.outside row hrow _ hname] at hvalue
    cases hvalue
  constructor
  · intro h field hfield
    refine (value_merged_iff file hrow field).mp ?_
    simp only [optionalFields, List.mem_cons, List.not_mem_nil, or_false] at hfield
    rcases hfield with rfl | rfl | rfl | rfl
    · exact congrArg DailyBar.amplitudePct h
    · exact congrArg DailyBar.changePct h
    · exact congrArg DailyBar.changeAmount h
    · exact congrArg DailyBar.turnoverPct h
  · intro h
    have hoptional : ∀ field ∈ optionalFields,
        row.value group.columns field = row.value (file.frame.concat group).columns field :=
      fun field hfield => (value_merged_iff file hrow field).mpr (h field hfield)
    rw [Row.bar, Row.bar, hrequired .opening (by decide) (by decide),
      hrequired .high (by decide) (by decide), hrequired .low (by decide) (by decide),
      hrequired .close (by decide) (by decide), hrequired .volume (by decide) (by decide),
      hrequired .amount (by decide) (by decide), hoptional .amplitudePct (by decide),
      hoptional .changePct (by decide), hoptional .changeAmount (by decide),
      hoptional .turnoverPct (by decide)]

/-! ### The write of a group -/

/-- The stored bars of the other dates and files stay, and each new date has its last new bar. -/
structure MergesGroup (lake after : DailyLake) (symbol : Symbol) (new : List DailyBar) :
    Prop where
  kept : ∀ bar ∈ lake.bars symbol, bar.date ∉ new.map DailyBar.date → bar ∈ after.bars symbol
  taken : ∀ bar, Keyed.LastOf DailyBar.date new bar → bar ∈ after.bars symbol
  only : ∀ bar ∈ after.bars symbol, Keyed.LastOf DailyBar.date new bar ∨
    bar ∈ lake.bars symbol ∧ bar.date ∉ new.map DailyBar.date
  increasing : Increasing DailyBar.date (after.bars symbol)
  others : ∀ other ≠ symbol, after.get? other = lake.get? other

/-- The stored bars of other dates have the provenance of the call already, and the last row of
each date has no number under another name only. -/
structure FitsGroup (file : DailyFile) (group : Frame) (provenance : Provenance) : Prop where
  provenance : ∀ bar ∈ file.bars, bar.date ∉ groupDates (some file) group →
    bar.source = provenance.source ∧ bar.fetchedAt = provenance.fetchedAt ∧
      bar.dataVersion = provenance.dataVersion
  columns : ∀ row date,
    Keyed.LastOf Prod.snd (group.rows.zip (groupDates (some file) group)) (row, date) →
      ∀ field ∈ optionalFields, field.name ∈ group.columns ∨
        row.value group.columns field = none

omit [CellReader] in
theorem bars_put (lake : DailyLake) (file : DailyFile) :
    DailyLake.bars (lake.put file) file.symbol = file.bars := by
  rw [DailyLake.bars, Keyed.get?_put]
  rfl

theorem length_groupDates {file : DailyFile} {group : Frame} {symbol : Symbol}
    {provenance : Provenance} {bars : List DailyBar}
    (h : ReadsBars (file.frame.concat group) symbol provenance bars) :
    (groupDates (some file) group).length = group.rows.length := by
  obtain ⟨dates, hdates, _⟩ := h.bars_eq
  have hread := hdates
  rw [Frame.dates] at hread
  obtain ⟨column, _, hread⟩ := Option.bind_eq_some_iff.mp hread
  have hlength := CellReader.length_dates _ _ hread
  rw [List.length_map] at hlength
  have hrows : (file.frame.concat group).rows.length = file.bars.length + group.rows.length := by
    change (file.bars.map DailyBar.row ++ group.rows).length = _
    rw [List.length_append, List.length_map]
  have hdrop : groupDates (some file) group = dates.drop file.bars.length := by
    rw [groupDates, mergedFrame, hdates]
    rfl
  rw [hdrop, List.length_drop, hlength, hrows]
  omega

omit [CellReader] in
theorem existingBars_eq_some {lake : DailyLake} {symbol : Symbol} {file : DailyFile}
    (h : existingBars lake false symbol = some file) :
    file.symbol = symbol ∧ lake.bars symbol = file.bars ∧ file.bars ≠ [] := by
  rw [existingBars, if_neg (by simp)] at h
  obtain ⟨hget, hsome⟩ := Option.filter_eq_some_iff.mp h
  refine ⟨(Keyed.get?_eq_some_iff.mp hget).2, ?_, by simpa using hsome⟩
  rw [DailyLake.bars, hget]
  rfl

omit [CellReader] in
theorem existingBars_eq_none {lake : DailyLake} {symbol : Symbol}
    (h : existingBars lake false symbol = none) : lake.bars symbol = [] := by
  rw [existingBars, if_neg (by simp)] at h
  cases hget : lake.get? symbol with
  | none => rw [DailyLake.bars, hget]; rfl
  | some file =>
      rw [hget, Option.filter_some] at h
      rw [DailyLake.bars, hget]
      by_contra hsome
      rw [if_pos (by simpa using hsome)] at h
      cases h

omit [CellReader] in
theorem get?_put_other (lake : DailyLake) {file : DailyFile} {other : Symbol}
    (h : other ≠ file.symbol) : (lake.put file).get? other = lake.get? other :=
  Keyed.get?_put_of_ne lake h

/-- A group of a symbol without bars is taken as it is. -/
theorem mergesGroup_new {write : GroupWrite} {lake : DailyLake} {frame : Frame} {rawSymbol : Text}
    {source : Text} {file : DailyFile} (h : PutsFile false write lake frame rawSymbol source file)
    (hnone : existingBars lake false file.symbol = none) (hrows : ¬ (frame.group rawSymbol).Empty) :
    MergesGroup lake (lake.put file) file.symbol (groupBars none (frame.group rawSymbol)
      file.symbol (groupProvenance write source
        (frame.group rawSymbol))) := by
  have hempty := existingBars_eq_none hnone
  have hwritten := h.written
  rw [hnone] at hwritten
  rcases normalizeDailyBars_ok hwritten with ⟨hno, _⟩ | ⟨read, hread, hbars, _⟩
  · exact absurd hno hrows
  · have hmem : ∀ bar, bar ∈ file.bars ↔ Keyed.LastOf DailyBar.date (groupBars none
        (frame.group rawSymbol) file.symbol
        (groupProvenance write source
        (frame.group rawSymbol))) bar := fun bar => by
      rw [hbars, mem_lastByKey_iff, readsBars_alone hread]
      rfl
    refine ⟨fun bar hbar => ?_, fun bar hbar => ?_, fun bar hbar => ?_, ?_, fun other hother => ?_⟩
    · rw [hempty] at hbar
      cases hbar
    · rw [bars_put]
      exact (hmem bar).mpr hbar
    · rw [bars_put] at hbar
      exact Or.inl ((hmem bar).mp hbar)
    · rw [bars_put]
      exact file.increasing
    · exact get?_put_other lake hother

/-- What is read when a group is written behind stored bars. -/
theorem readsBars_of_puts {write : GroupWrite} {lake : DailyLake} {frame : Frame}
    {rawSymbol : Text} {source : Text} {file old : DailyFile}
    (h : PutsFile false write lake frame rawSymbol source file)
    (hold : existingBars lake false file.symbol = some old) :
    ∃ read, ReadsBars (old.frame.concat (frame.group rawSymbol)) old.symbol
        (groupProvenance write source (frame.group rawSymbol)) read ∧
      file.bars = lastByKey DailyBar.date read := by
  obtain ⟨hsymbol, _, hsome⟩ := existingBars_eq_some hold
  have hwritten := h.written
  rw [hold, ← hsymbol] at hwritten
  rcases normalizeDailyBars_ok hwritten with ⟨hno, _⟩ | ⟨read, hread, hbars, _⟩
  · rcases hno with hcolumns | hrows
    · have hfirst : "symbol".toList ∈ (mergedFrame (some old) (frame.group rawSymbol)).columns :=
        List.mem_append_left _ List.mem_cons_self
      rw [hcolumns] at hfirst
      cases hfirst
    · have happend : old.bars.map DailyBar.row ++ (frame.group rawSymbol).rows = [] := hrows
      exact absurd (List.map_eq_nil_iff.mp (List.append_eq_nil_iff.mp happend).1) hsome
  · exact ⟨read, hread, hbars⟩

/-- The bars after a group is read behind stored bars: the last ones of its dates, and the stored
ones of other dates with the provenance of the call. -/
theorem mem_merged_iff {old : DailyFile} {group : Frame} {provenance : Provenance}
    {read : List DailyBar}
    (h : ReadsBars (old.frame.concat group) old.symbol provenance read) {bar : DailyBar} :
    bar ∈ lastByKey DailyBar.date read ↔
      (∃ pair, Keyed.LastOf Prod.snd (group.rows.zip (groupDates (some old) group)) pair ∧
        pair.1.bar (old.frame.concat group).columns old.symbol provenance pair.2 = bar) ∨
      (∃ kept ∈ old.bars, stamp provenance kept = bar) ∧
        bar.date ∉ groupDates (some old) group := by
  have hdistinct : ((old.bars.map (stamp provenance)).map DailyBar.date).Nodup := by
    rw [List.map_map]
    exact old.increasing.nodup
  have hdates : (mergedBars (some old) group old.symbol provenance).map DailyBar.date =
      groupDates (some old) group := by
    rw [mergedBars, List.map_map]
    exact List.map_snd_zip (length_groupDates h).le
  rw [mem_lastByKey_iff, readsBars_merged h, lastOf_append, lastOf_iff_of_nodup hdistinct,
    List.mem_map, hdates, mergedBars, lastOf_map_iff]
  rfl

/-- The write of a group merges it exactly if it fits the stored bars. -/
theorem mergesGroup_iff {write : GroupWrite} {lake : DailyLake} {frame : Frame} {rawSymbol : Text}
    {source : Text} {file old : DailyFile}
    (h : PutsFile false write lake frame rawSymbol source file)
    (hold : existingBars lake false file.symbol = some old) :
    MergesGroup lake (lake.put file) file.symbol (groupBars (some old) (frame.group rawSymbol)
        file.symbol (groupProvenance write source (frame.group rawSymbol))) ↔
      FitsGroup old (frame.group rawSymbol)
        (groupProvenance write source (frame.group rawSymbol)) := by
  obtain ⟨read, hread, hwritten⟩ := readsBars_of_puts h hold
  obtain ⟨hsymbol, hbars, _⟩ := existingBars_eq_some hold
  have hafter : DailyLake.bars (lake.put file) file.symbol = lastByKey DailyBar.date read :=
    (bars_put lake file).trans hwritten
  generalize groupProvenance write source (frame.group rawSymbol) = provenance at hread ⊢
  generalize frame.group rawSymbol = group at hread ⊢
  have hdates : (groupBars (some old) group file.symbol provenance).map DailyBar.date =
      groupDates (some old) group := by
    rw [groupBars, List.map_map]
    exact List.map_snd_zip (length_groupDates hread).le
  have hnew : ∀ pair, Keyed.LastOf Prod.snd (group.rows.zip (groupDates (some old) group)) pair →
      (pair.1.bar group.columns old.symbol provenance pair.2 =
          pair.1.bar (old.frame.concat group).columns old.symbol provenance pair.2 ↔
        ∀ field ∈ optionalFields, field.name ∈ group.columns ∨
          pair.1.value group.columns field = none) := by
    intro pair hpair
    have hrow : pair.1 ∈ group.rows := (List.of_mem_zip hpair.mem).1
    exact bar_merged_iff hrow (fun field hfield hdate =>
      hread.numbers field hfield hdate pair.1 (List.mem_append_right _ hrow)) _ _ _
  have hlast : ∀ bar, Keyed.LastOf DailyBar.date
      (groupBars (some old) group file.symbol provenance) bar ↔
      ∃ pair, Keyed.LastOf Prod.snd (group.rows.zip (groupDates (some old) group)) pair ∧
        pair.1.bar group.columns old.symbol provenance pair.2 = bar := fun bar => by
    rw [hsymbol]
    exact lastOf_map_iff
  constructor
  · intro hmerges
    refine ⟨fun bar hbar hdate => ?_, fun row date hpair field hfield => ?_⟩
    · have hkept := hmerges.kept bar (hbars ▸ hbar) (hdates ▸ hdate)
      rw [hafter] at hkept
      rcases (mem_merged_iff hread).mp hkept with ⟨pair, hpair, rfl⟩ | ⟨⟨kept, hkept, hsame⟩, _⟩
      · exact absurd (List.of_mem_zip hpair.mem).2 hdate
      · have hsameDate := congrArg DailyBar.date hsame
        have heq : kept = bar :=
          List.inj_on_of_nodup_map old.increasing.nodup hkept hbar hsameDate
        rw [heq] at hsame
        exact stamp_eq_iff.mp hsame
    · have htaken := hmerges.taken _ ((hlast _).mpr ⟨(row, date), hpair, rfl⟩)
      rw [hafter] at htaken
      rcases (mem_merged_iff hread).mp htaken with ⟨pair, hother, hsame⟩ | ⟨_, hnot⟩
      · have hpairs : pair = (row, date) :=
          lastOf_unique hother hpair (congrArg DailyBar.date hsame)
        rw [hpairs] at hsame
        exact (hnew _ hpair).mp hsame.symm field hfield
      · exact absurd (List.of_mem_zip hpair.mem).2 hnot
  · intro hfits
    have hsame : ∀ pair, Keyed.LastOf Prod.snd
        (group.rows.zip (groupDates (some old) group)) pair →
          pair.1.bar group.columns old.symbol provenance pair.2 =
            pair.1.bar (old.frame.concat group).columns old.symbol provenance pair.2 :=
      fun pair hpair => (hnew pair hpair).mpr (hfits.columns pair.1 pair.2 hpair)
    refine ⟨fun bar hbar hdate => ?_, fun bar hbar => ?_, fun bar hbar => ?_, ?_,
      fun other hother => get?_put_other lake hother⟩
    · rw [hbars] at hbar
      rw [hdates] at hdate
      rw [hafter]
      refine (mem_merged_iff hread).mpr (Or.inr ⟨⟨bar, hbar, ?_⟩, hdate⟩)
      exact stamp_eq_iff.mpr (hfits.provenance bar hbar hdate)
    · obtain ⟨pair, hpair, rfl⟩ := (hlast bar).mp hbar
      rw [hafter]
      exact (mem_merged_iff hread).mpr (Or.inl ⟨pair, hpair, (hsame pair hpair).symm⟩)
    · rw [hafter] at hbar
      rw [hdates, hbars]
      rcases (mem_merged_iff hread).mp hbar with ⟨pair, hpair, rfl⟩ | ⟨⟨kept, hkept, rfl⟩, hnot⟩
      · exact Or.inl ((hlast _).mpr ⟨pair, hpair, hsame pair hpair⟩)
      · refine Or.inr ⟨?_, hnot⟩
        rw [stamp_eq_iff.mpr (hfits.provenance kept hkept hnot)]
        exact hkept
    · rw [hafter]
      exact increasing_lastByKey read

/-! ### Calls -/

/-- The write of a group does to the stored bars what it should. -/
def MergesWrite (write : CallWrite) (frame : Frame) (lake : DailyLake) (rawSymbol : Text) : Prop :=
  ∀ symbol source, normalizeSymbol rawSymbol = some symbol →
    groupSource (frame.group rawSymbol) = .ok source →
      MergesGroup lake (writeGroup false (write.group rawSymbol) frame rawSymbol lake).2 symbol
        (groupBars (existingBars lake false symbol) (frame.group rawSymbol) symbol
          (groupProvenance (write.group rawSymbol) source (frame.group rawSymbol)))

def FitsWrite (write : CallWrite) (frame : Frame) (lake : DailyLake) (rawSymbol : Text) : Prop :=
  ∀ symbol source old, normalizeSymbol rawSymbol = some symbol →
    groupSource (frame.group rawSymbol) = .ok source →
      existingBars lake false symbol = some old →
        FitsGroup old (frame.group rawSymbol)
          (groupProvenance (write.group rawSymbol) source (frame.group rawSymbol))

theorem symbols_of_empty {frame : Frame} (h : frame.Empty) : frame.symbols = [] := by
  have hnone : (frame.rows.filterMap fun row => (row "symbol".toList).text?) = [] := by
    rcases h with hcolumns | hrows
    · refine List.filterMap_eq_nil_iff.mpr fun row hrow => ?_
      have hnull : row "symbol".toList = .null :=
        frame.outside row hrow _ (by rw [hcolumns]; exact List.not_mem_nil)
      rw [hnull]
      rfl
    · rw [hrows]
      rfl
  rw [Frame.symbols, hnone]
  rfl

theorem group_not_empty {frame : Frame} {rawSymbol : Text} (h : rawSymbol ∈ frame.symbols) :
    ¬ (frame.group rawSymbol).Empty := by
  have hmem : rawSymbol ∈ frame.rows.filterMap fun row => (row "symbol".toList).text? :=
    List.mem_dedup.mp ((List.perm_insertionSort _ _).mem_iff.mp h)
  obtain ⟨row, hrow, htext⟩ := List.mem_filterMap.mp hmem
  rintro (hcolumns | hrows)
  · have hempty : frame.Empty := Or.inl hcolumns
    rw [symbols_of_empty hempty] at h
    cases h
  · have hkept : row ∈ (frame.group rawSymbol).rows :=
      List.mem_filter.mpr ⟨hrow, decide_eq_true htext⟩
    rw [hrows] at hkept
    cases hkept

theorem mergesWrite_iff {write : CallWrite} {frame : Frame} {lake after : DailyLake}
    {rawSymbol : Text} (hsymbol : rawSymbol ∈ frame.symbols)
    (h : writeGroup false (write.group rawSymbol) frame rawSymbol lake = (.ok (), after)) :
    MergesWrite write frame lake rawSymbol ↔ FitsWrite write frame lake rawSymbol := by
  obtain ⟨source, file, hputs, hafter⟩ :=
    (writeGroup_ends false (write.group rawSymbol) frame rawSymbol lake).of_ok h
  have hwrite : (writeGroup false (write.group rawSymbol) frame rawSymbol lake).2 =
      lake.put file := by rw [h, hafter]
  have hmerges : MergesWrite write frame lake rawSymbol ↔
      MergesGroup lake (lake.put file) file.symbol
        (groupBars (existingBars lake false file.symbol) (frame.group rawSymbol) file.symbol
          (groupProvenance (write.group rawSymbol) source (frame.group rawSymbol))) := by
    rw [MergesWrite, hwrite]
    constructor
    · exact fun hall => hall file.symbol source hputs.named hputs.sourced
    · intro hmerged symbol source' hnamed hsourced
      cases hputs.named.symm.trans hnamed
      cases hputs.sourced.symm.trans hsourced
      exact hmerged
  rw [hmerges]
  cases hold : existingBars lake false file.symbol with
  | none =>
      refine iff_of_true (mergesGroup_new hputs hold (group_not_empty hsymbol)) ?_
      intro symbol source' old hnamed _ hexisting
      cases hputs.named.symm.trans hnamed
      cases hold.symm.trans hexisting
  | some old =>
      rw [mergesGroup_iff hputs hold]
      constructor
      · intro hfits symbol source' old' hnamed hsourced hexisting
        cases hputs.named.symm.trans hnamed
        cases hputs.sourced.symm.trans hsourced
        cases hold.symm.trans hexisting
        exact hfits
      · exact fun hall => hall file.symbol source old hputs.named hputs.sourced hold

def SameFile (symbol : Symbol) (before after : DailyLake) : Prop :=
  after.get? symbol = before.get? symbol

def KeepsProvenance (write : CallWrite) (frame : Frame) (lake : DailyLake) : Prop :=
  ∀ after, writeDailyBars write frame lake = (.ok (), after) →
    (∀ symbol, (∀ rawSymbol ∈ frame.symbols, normalizeSymbol rawSymbol ≠ some symbol) →
      SameFile symbol lake after) ∧
    Raising.EachMeets (fun rawSymbol => writeGroup false (write.group rawSymbol) frame rawSymbol)
      (MergesWrite write frame) lake frame.symbols

/-- A call that returns finds stored bars that each of its groups fits. -/
def FitsProvenance (write : CallWrite) (frame : Frame) (lake : DailyLake) : Prop :=
  ∀ after, writeDailyBars write frame lake = (.ok (), after) →
    Raising.EachMeets (fun rawSymbol => writeGroup false (write.group rawSymbol) frame rawSymbol)
      (FitsWrite write frame) lake frame.symbols

theorem writeDailyBars_ok {write : CallWrite} {frame : Frame} {lake after : DailyLake}
    (h : writeDailyBars write frame lake = (.ok (), after)) :
    Raising.forEach (fun rawSymbol => writeGroup false (write.group rawSymbol) frame rawSymbol)
      frame.symbols lake = (.ok (), after) := by
  obtain ⟨_, opened, hopens, h⟩ := Raising.bind_ok h
  obtain rfl : lake = opened := congrArg Prod.snd hopens
  by_cases hempty : frame.Empty
  · rw [if_neg (not_not_intro hempty)] at h
    rw [symbols_of_empty hempty]
    exact h
  · rw [if_pos hempty] at h
    obtain ⟨_, checked, hcheck, h⟩ := Raising.bind_ok h
    rw [Raising.check] at hcheck
    split at hcheck
    · cases hcheck
      exact h
    · cases hcheck

/-- The files of symbols that are not in a frame stay. -/
theorem sameFile_of_writeDailyBars {write : CallWrite} {frame : Frame} {lake after : DailyLake}
    (h : writeDailyBars write frame lake = (.ok (), after)) {symbol : Symbol}
    (hother : ∀ rawSymbol ∈ frame.symbols, normalizeSymbol rawSymbol ≠ some symbol) :
    SameFile symbol lake after := by
  have hstep : ∀ before rawSymbol, normalizeSymbol rawSymbol ≠ some symbol →
      Raising.Ends (writeGroup false (write.group rawSymbol) frame rawSymbol) before
        (fun _ after => SameFile symbol before after)
        (fun _ after => SameFile symbol before after) := by
    intro before rawSymbol hne
    have hput : ∀ source file, PutsFile false (write.group rawSymbol) before frame rawSymbol source
        file → SameFile symbol before (before.put file) := by
      intro source file hputs
      refine get?_put_other before fun hsame => hne ?_
      rw [hputs.named, hsame]
    refine (writeGroup_ends false (write.group rawSymbol) frame rawSymbol before).imp ?_ ?_
    · rintro _ _ ⟨source, file, hputs, rfl⟩
      exact hput source file hputs
    · rintro _ _ (rfl | ⟨source, file, hputs, rfl⟩)
      · rfl
      · exact hput source file hputs
  have hmeets : Raising.EachMeets
      (fun rawSymbol => writeGroup false (write.group rawSymbol) frame rawSymbol)
      (fun _ rawSymbol => normalizeSymbol rawSymbol ≠ some symbol) lake frame.symbols :=
    Raising.eachMeets_of_forall fun _ => hother
  have hends := Raising.ends_forEach (fun before => (rfl : SameFile symbol before before))
    (fun _ _ _ hfirst hsecond => hsecond.trans hfirst) hstep hmeets
  exact hends.of_ok (writeDailyBars_ok h)

/-- A call of `write_daily_bars` keeps and takes the bars as it should exactly if they fit. -/
theorem keepsProvenance_iff (write : CallWrite) (frame : Frame) (lake : DailyLake) :
    KeepsProvenance write frame lake ↔ FitsProvenance write frame lake := by
  refine forall_congr' fun after => forall_congr' fun h => ?_
  rw [and_iff_right fun symbol hother => sameFile_of_writeDailyBars h hother]
  exact Raising.eachMeets_congr (fun _ hsymbol _ _ hrun => mergesWrite_iff hsymbol hrun)
    (writeDailyBars_ok h)

end

section Sample

def plainDates : List Cell → Option (List Date)
  | [] => some []
  | .day value :: rest => (plainDates rest).map fun dates => value :: dates
  | _ :: _ => none

theorem length_plainDates : ∀ cells found, plainDates cells = some found →
    found.length = cells.length
  | [], found, h => by
      cases h
      rfl
  | .day value :: rest, found, h => by
      obtain ⟨dates, hdates, rfl⟩ := Option.map_eq_some_iff.mp h
      rw [List.length_cons, length_plainDates rest dates hdates, List.length_cons]

theorem plainDates_days : ∀ days cells found,
    plainDates (days.map Cell.day ++ cells) = some found → found.take days.length = days
  | [], _, _, _ => rfl
  | day :: rest, cells, found, h => by
      obtain ⟨dates, hdates, rfl⟩ := Option.map_eq_some_iff.mp h
      rw [List.length_cons, List.take_succ_cons, plainDates_days rest cells dates hdates]

/-- Texts are no numbers here, and dates have to be dates already. -/
@[reducible] def plainReader : CellReader where
  number _ := none
  text _ := []
  dates := plainDates
  length_dates := length_plainDates
  dates_days := plainDates_days

attribute [local instance] plainReader

def storedSymbol : Symbol := ⟨"600000".toList, Eq.refl true⟩

def storedBar : DailyBar where
  symbol := storedSymbol
  date := .of 2026 1 5
  opening := (10 : ℚ)
  high := (10 : ℚ)
  low := (10 : ℚ)
  close := (10 : ℚ)
  volume := 1
  amount := (10 : ℚ)
  amplitudePct := none
  changePct := none
  changeAmount := none
  turnoverPct := none
  source := "baostock".toList
  fetchedAt := "2026-01-05T10:00:00+00:00".toList
  dataVersion := "v1".toList

def nextBar : DailyBar :=
  { storedBar with date := .of 2026 1 6 }

def oneBarFile (bar : DailyBar) (h : bar.InRange) : DailyFile where
  symbol := bar.symbol
  bars := [bar]
  sameSymbol _ hbar := by rw [List.mem_singleton.mp hbar]
  increasing := List.pairwise_singleton _ _
  inRange _ hbar := List.mem_singleton.mp hbar ▸ h
  oneVersion _ hbar _ hother := by rw [List.mem_singleton.mp hbar, List.mem_singleton.mp hother]

def nextFrame : Frame := (oneBarFile nextBar ⟨by decide, by decide, by decide⟩).frame

def oneBarLake : DailyLake :=
  Keyed.empty.put (oneBarFile storedBar ⟨by decide, by decide, by decide⟩)

def nextWrite : CallWrite where
  opens := .ok ()
  group _ := ⟨"2026-01-06T10:00:00+00:00".toList, none⟩

/-- A write of the next day gives the stored bar the time of its own fetch. -/
theorem nextWrite_overwrites : ¬ KeepsProvenance nextWrite nextFrame oneBarLake := by
  intro h
  have hok : (writeDailyBars nextWrite nextFrame oneBarLake).1 = .ok () := by decide +kernel
  have hsymbols : nextFrame.symbols = [storedSymbol.text] := by decide +kernel
  have hnamed : normalizeSymbol storedSymbol.text = some storedSymbol := by decide +kernel
  have hsource : groupSource (nextFrame.group storedSymbol.text) = .ok "baostock".toList := by
    decide +kernel
  have hstored : DailyLake.bars oneBarLake storedSymbol = [storedBar] := rfl
  have hall : ∀ bar ∈ DailyLake.bars (writeGroup false (nextWrite.group storedSymbol.text) nextFrame
      storedSymbol.text oneBarLake).2 storedSymbol,
      bar.fetchedAt = "2026-01-06T10:00:00+00:00".toList := by decide +kernel
  have hdate : storedBar.date ∉ (groupBars (existingBars oneBarLake false storedSymbol)
      (nextFrame.group storedSymbol.text) storedSymbol
      (groupProvenance (nextWrite.group storedSymbol.text) "baostock".toList
        (nextFrame.group storedSymbol.text))).map DailyBar.date := by decide +kernel
  obtain ⟨after, hrun⟩ : ∃ after, writeDailyBars nextWrite nextFrame oneBarLake =
      (.ok (), after) := by
    generalize writeDailyBars nextWrite nextFrame oneBarLake = run at hok
    obtain ⟨result, after⟩ := run
    exact ⟨after, by rw [show result = .ok () from hok]⟩
  obtain ⟨_, hmeets⟩ := h after hrun
  rw [hsymbols] at hmeets
  obtain ⟨hwrite, _⟩ := hmeets
  have hmerges := hwrite storedSymbol "baostock".toList hnamed hsource
  have hbar : storedBar ∈ DailyLake.bars oneBarLake storedSymbol := by
    rw [hstored]
    exact List.mem_cons_self
  have hkept := hmerges.kept storedBar hbar hdate
  have hsame := hall storedBar hkept
  have hfetched : storedBar.fetchedAt ≠ "2026-01-06T10:00:00+00:00".toList := by decide +kernel
  exact hfetched hsame

end Sample

end QuantWorkbench.Storage
