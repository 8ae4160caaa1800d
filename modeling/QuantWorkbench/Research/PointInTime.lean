import QuantWorkbench.Research.ResearchSnapshot

/-!
What a research snapshot depends on: two tables that agree on the rows known on the cutoff give
one snapshot exactly if they name the same symbols that are unlisted then.
-/

namespace QuantWorkbench.Research

open Lib

variable {O P : Type}

/-! ### Rows known on the cutoff -/

def UniverseRow.knownOn (columns : UniverseColumns) (cutoff : Date) (row : UniverseRow O) : Bool :=
  (row.prepared columns).any fun row => row.asOf ≤ cutoff

def FeatureRow.availableOn (cutoff : Date) (row : FeatureRow O) : Bool :=
  row.prepared.any fun row => row.availableAt ≤ cutoff

/-- Two tables have the same rows, in their order, that were known on the cutoff. -/
structure UniverseFrame.AgreesOn (cutoff : Date) (frame other : UniverseFrame O) : Prop where
  columns : frame.columns = other.columns
  rows : frame.rows.filter (UniverseRow.knownOn frame.columns cutoff) =
    other.rows.filter (UniverseRow.knownOn other.columns cutoff)

def FeatureFrame.AgreesOn (cutoff : Date) (frame other : FeatureFrame O) : Prop :=
  frame.rows.filter (FeatureRow.availableOn cutoff) =
    other.rows.filter (FeatureRow.availableOn cutoff)

def UniverseFrame.UnlistedLater (frame : UniverseFrame O) (cutoff : Date) (symbol : Text) : Prop :=
  (∃ row ∈ frame.prepared, row.symbol = symbol) ∧
    ∀ row ∈ frame.prepared, row.symbol = symbol → cutoff < row.asOf ∧ cutoff < row.listedDate

theorem UniverseFrame.AgreesOn.prepared {cutoff : Date} {frame other : UniverseFrame O}
    (h : frame.AgreesOn cutoff other) :
    frame.prepared.filter (fun row => row.asOf ≤ cutoff) =
      other.prepared.filter fun row => row.asOf ≤ cutoff := by
  have hrows := h.rows
  unfold UniverseRow.knownOn at hrows
  rw [UniverseFrame.prepared, UniverseFrame.prepared, filter_filterMap, filter_filterMap, hrows,
    h.columns]

/-! ### Visible rows -/

theorem visibleUniverse_eq (cutoff : Date) (rows : List (PreparedRow O)) :
    visibleUniverse cutoff rows = keepLast PreparedRow.symbol
      (sortValues (fun row => toLex (row.symbol, row.asOf))
        (rows.filter fun row => row.asOf ≤ cutoff)) := by
  rw [visibleUniverse, ← filter_sortValues, ← filter_sortValues]
  congr 1
  have hmap : ∀ numbered : List (PreparedRow O × ℕ),
      (numbered.filter fun row => decide (row.1.asOf ≤ cutoff)).map Prod.fst =
        (numbered.map Prod.fst).filter fun row => decide (row.asOf ≤ cutoff) := by
    intro numbered
    rw [List.filter_map]
    rfl
  rw [hmap, @sortValues_rowOrder _ _ _ fun row : PreparedRow O => toLex (row.symbol, row.asOf)]

theorem symbols_visibleUniverse_nodup (cutoff : Date) (rows : List (PreparedRow O)) :
    ((visibleUniverse cutoff rows).map PreparedRow.symbol).Nodup :=
  keys_keepLast_nodup _

theorem mem_of_mem_visibleUniverse {cutoff : Date} {rows : List (PreparedRow O)}
    {row : PreparedRow O} (h : row ∈ visibleUniverse cutoff rows) :
    row ∈ rows ∧ row.asOf ≤ cutoff := by
  rw [visibleUniverse_eq] at h
  have hmem := mem_sortValues.mp (mem_keepLast_iff.mp h).mem
  exact ⟨List.mem_of_mem_filter hmem, by simpa using (List.mem_filter.mp hmem).2⟩

theorem exists_visible {cutoff : Date} {rows : List (PreparedRow O)} {row : PreparedRow O}
    (hrow : row ∈ rows) (hknown : row.asOf ≤ cutoff) :
    ∃ visible ∈ visibleUniverse cutoff rows, visible.symbol = row.symbol := by
  have hmem : row.symbol ∈ ((sortValues (fun row => toLex (row.symbol, row.asOf))
      (rows.filter fun row => row.asOf ≤ cutoff)).map PreparedRow.symbol) := by
    apply List.mem_map_of_mem
    rw [mem_sortValues, List.mem_filter]
    exact ⟨hrow, by simpa using hknown⟩
  obtain ⟨visible, hlast, hsymbol⟩ := Keyed.exists_lastOf hmem
  refine ⟨visible, ?_, hsymbol⟩
  rw [visibleUniverse_eq]
  exact mem_keepLast_iff.mpr hlast

/-! ### Exclusions -/

theorem mem_notYetListed {cutoff : Date} {rows : List (PreparedRow O)} {symbol : Text} :
    symbol ∈ notYetListed cutoff rows ↔
      (∃ row ∈ rows, row.symbol = symbol) ∧
        ∀ row ∈ rows, row.symbol = symbol → cutoff < row.listedDate := by
  rw [notYetListed, List.mem_filter, mem_sortValues, List.mem_dedup, List.mem_map,
    decide_eq_true_iff]

theorem nodup_notYetListed (cutoff : Date) (rows : List (PreparedRow O)) :
    (notYetListed cutoff rows).Nodup :=
  ((perm_sortValues _).nodup_iff.mpr (List.nodup_dedup _)).filter _

def PreparedRow.exclusion (columns : UniverseColumns) (cutoff : Date) (row : PreparedRow O) :
    Option Exclusion :=
  (row.exclusion? columns cutoff).map fun reason => ⟨row.symbol, reason⟩

theorem exclusionsOf_eq (columns : UniverseColumns) (cutoff : Date) (unlisted : List Text)
    (visible : List (PreparedRow O)) :
    exclusionsOf columns cutoff unlisted visible =
      (visible.filterMap (PreparedRow.exclusion columns cutoff)).foldl Keyed.put
        ((unlisted.map fun symbol => (⟨symbol, .notYetListed⟩ : Exclusion)).foldl Keyed.put
          Keyed.empty) := by
  rw [List.foldl_filterMap, List.foldl_map, exclusionsOf]
  congr 1
  funext exclusions row
  rw [PreparedRow.exclusion]
  cases row.exclusion? columns cutoff <;> rfl

theorem mem_exclusionsOf {columns : UniverseColumns} {cutoff : Date} {unlisted : List Text}
    {visible : List (PreparedRow O)} (hvisible : (visible.map PreparedRow.symbol).Nodup)
    (hunlisted : unlisted.Nodup) {exclusion : Exclusion} :
    exclusion ∈ (exclusionsOf columns cutoff unlisted visible).values ↔
      (∃ row ∈ visible, row.exclusion columns cutoff = some exclusion) ∨
        exclusion.reason = .notYetListed ∧ exclusion.symbol ∈ unlisted ∧
          ∀ row ∈ visible, row.symbol = exclusion.symbol →
            row.exclusion columns cutoff = none := by
  have hsymbol : ∀ {row : PreparedRow O} {found : Exclusion},
      row.exclusion columns cutoff = some found → found.symbol = row.symbol := by
    intro row found hfound
    obtain ⟨reason, _, rfl⟩ := Option.map_eq_some_iff.mp hfound
    rfl
  have hrows : ((visible.filterMap (PreparedRow.exclusion columns cutoff)).map
      Exclusion.symbol).Nodup := by
    apply List.Nodup.sublist _ hvisible
    clear hvisible
    induction visible with
    | nil => exact List.Sublist.slnil
    | cons row rest ih =>
        cases hfound : row.exclusion columns cutoff with
        | none =>
            rw [List.filterMap_cons_none hfound]
            exact ih.cons _
        | some found =>
            rw [List.filterMap_cons_some hfound, List.map_cons, List.map_cons, hsymbol hfound]
            exact ih.cons_cons _
  have hfirst : ((unlisted.map fun symbol => (⟨symbol, .notYetListed⟩ : Exclusion)).map
      Exclusion.symbol).Nodup := by
    rw [List.map_map]
    exact (List.map_id unlisted).symm ▸ hunlisted
  have hnone : exclusion.symbol ∉ (visible.filterMap
      (PreparedRow.exclusion columns cutoff)).map Exclusion.symbol ↔
      ∀ row ∈ visible, row.symbol = exclusion.symbol → row.exclusion columns cutoff = none := by
    constructor
    · intro hnot row hrow heq
      by_contra hsome
      obtain ⟨found, hfound⟩ := Option.ne_none_iff_exists'.mp hsome
      refine hnot (List.mem_map.mpr ⟨found, List.mem_filterMap.mpr ⟨row, hrow, hfound⟩, ?_⟩)
      rw [hsymbol hfound, heq]
    · intro hall hmem
      obtain ⟨found, hfound, heq⟩ := List.mem_map.mp hmem
      obtain ⟨row, hrow, hmade⟩ := List.mem_filterMap.mp hfound
      have hnone := hall row hrow ((hsymbol hmade).symm.trans heq)
      rw [hnone] at hmade
      cases hmade
  have hstart : exclusion ∈ ((unlisted.map fun symbol =>
      (⟨symbol, .notYetListed⟩ : Exclusion)).foldl Keyed.put
        (Keyed.empty : Exclusions)).values ↔
      exclusion.reason = .notYetListed ∧ exclusion.symbol ∈ unlisted := by
    rw [Keyed.mem_foldl_put_iff, lastOf_iff_of_nodup hfirst, List.mem_map]
    constructor
    · rintro (⟨symbol, hmem, rfl⟩ | ⟨hempty, _⟩)
      · exact ⟨rfl, hmem⟩
      · cases hempty
    · rintro ⟨hreason, hmem⟩
      refine Or.inl ⟨exclusion.symbol, hmem, ?_⟩
      cases exclusion
      cases hreason
      rfl
  rw [exclusionsOf_eq, Keyed.mem_foldl_put_iff, lastOf_iff_of_nodup hrows, List.mem_filterMap,
    hstart, hnone, and_assoc]

theorem mem_exclusions {frame : UniverseFrame O} {cutoff : Date} {exclusion : Exclusion} :
    exclusion ∈ (exclusionsOf frame.columns cutoff (notYetListed cutoff frame.prepared)
        (visibleUniverse cutoff frame.prepared)).values ↔
      (∃ row ∈ visibleUniverse cutoff frame.prepared,
          row.exclusion frame.columns cutoff = some exclusion) ∨
        exclusion.reason = .notYetListed ∧ frame.UnlistedLater cutoff exclusion.symbol := by
  rw [mem_exclusionsOf (symbols_visibleUniverse_nodup _ _) (nodup_notYetListed _ _),
    mem_notYetListed]
  refine or_congr Iff.rfl (and_congr Iff.rfl ?_)
  constructor
  · rintro ⟨⟨hnamed, hlisted⟩, hkept⟩
    refine ⟨hnamed, fun row hrow hsymbol => ⟨?_, hlisted row hrow hsymbol⟩⟩
    by_contra hknown
    obtain ⟨visible, hvisible, hsame⟩ := exists_visible hrow (not_lt.mp hknown)
    have hnone := hkept visible hvisible (hsame.trans hsymbol)
    have hlater := hlisted visible (mem_of_mem_visibleUniverse hvisible).1 (hsame.trans hsymbol)
    rw [PreparedRow.exclusion, PreparedRow.exclusion?, if_pos hlater] at hnone
    cases hnone
  · rintro ⟨hnamed, hall⟩
    refine ⟨⟨hnamed, fun row hrow hsymbol => (hall row hrow hsymbol).2⟩, ?_⟩
    intro row hrow hsymbol
    obtain ⟨hmem, hknown⟩ := mem_of_mem_visibleUniverse hrow
    exact absurd hknown (not_le.mpr (hall row hmem hsymbol).1)

/-- Every visible row is kept or has an exclusion, so none of them is dropped. -/
theorem audited_eq (columns : UniverseColumns) (cutoff : Date) (unlisted : List Text)
    (visible : List (PreparedRow O)) (hvisible : (visible.map PreparedRow.symbol).Nodup)
    (hunlisted : unlisted.Nodup) :
    (visible.filter fun row => decide (row.exclusion? columns cutoff = none ∨
      row.symbol ∈ (exclusionsOf columns cutoff unlisted visible).keys)) = visible := by
  rw [List.filter_eq_self]
  intro row hrow
  rw [decide_eq_true_iff]
  cases hreason : row.exclusion? columns cutoff with
  | none => exact Or.inl rfl
  | some reason =>
      right
      refine Keyed.mem_keys.mpr ⟨⟨row.symbol, reason⟩, ?_, rfl⟩
      rw [mem_exclusionsOf hvisible hunlisted]
      exact Or.inl ⟨row, hrow, by rw [PreparedRow.exclusion, hreason]; rfl⟩

/-! ### Snapshots -/

theorem buildPointInTimeUniverse_eq {frame : UniverseFrame O} (h : frame.check = .ok ())
    (cutoff : Date) :
    buildPointInTimeUniverse frame cutoff = .ok {
      universeRows := sortValues PreparedRow.symbol
        ((visibleUniverse cutoff frame.prepared).filter fun row => row.isListed cutoff)
      eligible := sortValues id (((visibleUniverse cutoff frame.prepared).filter fun row =>
        row.exclusion? frame.columns cutoff = none).map PreparedRow.symbol)
      exclusions := sortValues Exclusion.symbol (exclusionsOf frame.columns cutoff
        (notYetListed cutoff frame.prepared) (visibleUniverse cutoff frame.prepared)).values } := by
  have haudited := audited_eq frame.columns cutoff (notYetListed cutoff frame.prepared)
    (visibleUniverse cutoff frame.prepared) (symbols_visibleUniverse_nodup _ _)
    (nodup_notYetListed _ _)
  rw [buildPointInTimeUniverse, h]
  simp only [haudited]
  rfl

theorem buildVisibleFeatures_eq {frame : FeatureFrame P} (h : frame.check = .ok ())
    (cutoff : Date) (eligible : List Text) :
    buildVisibleFeatures frame cutoff eligible =
      .ok (sortValues (fun row => toLex (row.symbol, row.availableAt))
        (((frame.rows.filter (FeatureRow.availableOn cutoff)).filterMap
          FeatureRow.prepared).filter fun row => decide (row.symbol ∈ eligible))) := by
  have havailable := filter_filterMap FeatureRow.prepared
    (fun row : VisibleFeature P => decide (row.availableAt ≤ cutoff)) frame.rows
  change _ = (frame.rows.filter (FeatureRow.availableOn cutoff)).filterMap _ at havailable
  have hselected : ((frame.rows.filterMap FeatureRow.prepared).filter fun row =>
      decide (row.availableAt ≤ cutoff ∧ row.symbol ∈ eligible)) =
      ((frame.rows.filter (FeatureRow.availableOn cutoff)).filterMap
        FeatureRow.prepared).filter fun row => decide (row.symbol ∈ eligible) := by
    rw [← havailable, List.filter_filter]
    refine List.filter_congr fun row _ => ?_
    rw [Bool.decide_and, Bool.and_comm]
  rw [buildVisibleFeatures, h, ← hselected]
  rfl

section Sample

def day2021 : Date := .of 2021 6 30

def day2022 : Date := .of 2022 1 4

def allColumns : UniverseColumns := ⟨true, true, true, true, true, true, true, true, true⟩

def listedRow (symbol : String) (day : Date) : UniverseRow Unit where
  symbol := some symbol.toList
  listedDate := .date day
  delistedDate := .blank
  asOf := .date day
  tradeStatus := .text "1".toList
  tradable := .missing
  isSuspended := .bool false
  isSt := .bool false
  isDelistingRisk := .bool false
  others := ()

def knownTable : UniverseFrame Unit := ⟨allColumns, [listedRow "600001" day2021]⟩

def laterTable : UniverseFrame Unit :=
  ⟨allColumns, [listedRow "600001" day2021, listedRow "600002" day2022]⟩

def someFeatures : FeatureFrame Unit := ⟨true, true, [⟨some "600001".toList, .date day2021, ()⟩]⟩

theorem knownTable_agreesOn : knownTable.AgreesOn day2021 laterTable := ⟨rfl, rfl⟩

end Sample

end QuantWorkbench.Research
