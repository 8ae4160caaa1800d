import QuantWorkbench.Research.HistoricalScreening

/-!
A historical screen does not see labels that mature after the training window of a fold: what it
scores on the windows of the fold is the same for all values of such labels.
-/

namespace QuantWorkbench.Research.Screening

open Lib
open Backtest (CostModel)

/-! ### Folds -/

section Folds

variable {config : ScreeningConfig} {ordered : List Date}

theorem mem_foldsFrom {start index : ℕ} {fold : ScreeningFold}
    (h : fold ∈ foldsFrom config ordered start index) :
    ∃ (later : ℕ) (hspan : start + later * config.testSessions + config.span ≤ ordered.length),
      fold = foldAt config ordered (start + later * config.testSessions) (index + later) hspan := by
  induction start, index using foldsFrom.induct config ordered with
  | case1 start index hspan ih =>
      rw [foldsFrom, dif_pos hspan] at h
      rcases List.mem_cons.mp h with rfl | h
      · refine ⟨0, by simpa using hspan, ?_⟩
        simp only [Nat.zero_mul, Nat.add_zero]
      · obtain ⟨later, hlater, hfold⟩ := ih h
        have hstart : start + config.testSessions + later * config.testSessions =
            start + (later + 1) * config.testSessions := by
          rw [Nat.succ_mul, Nat.add_comm (later * _), Nat.add_assoc]
        have hindex : index + 1 + later = index + (later + 1) := by omega
        simp only [hstart, hindex] at hlater hfold
        exact ⟨later + 1, hlater, hfold⟩
  | case2 start index hshort =>
      rw [foldsFrom, dif_neg hshort] at h
      cases h

theorem get_lt (hordered : ordered.Pairwise (· < ·)) {i j : Fin ordered.length} (h : i < j) :
    ordered.get i < ordered.get j :=
  List.pairwise_iff_get.mp hordered i j h

theorem trainEnd_lt_validationStart (hordered : ordered.Pairwise (· < ·)) {start index : ℕ}
    {fold : ScreeningFold} (h : fold ∈ foldsFrom config ordered start index) :
    fold.trainEnd < fold.validationStart := by
  obtain ⟨later, hspan, rfl⟩ := mem_foldsFrom h
  have htrain := config.trainSessions_pos
  refine get_lt hordered ?_
  rw [Fin.mk_lt_mk]
  omega

theorem pairwise_foldsFrom (hordered : ordered.Pairwise (· < ·)) (start index : ℕ) :
    (foldsFrom config ordered start index).Pairwise fun fold other =>
      fold.index < other.index ∧ fold.trainEnd < other.trainEnd := by
  induction start, index using foldsFrom.induct config ordered with
  | case1 start index hspan ih =>
      rw [foldsFrom, dif_pos hspan]
      refine List.pairwise_cons.mpr ⟨?_, ih⟩
      intro other hother
      obtain ⟨later, hlater, rfl⟩ := mem_foldsFrom hother
      have htrain := config.trainSessions_pos
      have htest := config.testSessions_pos
      constructor
      · change index < index + 1 + later
        omega
      · refine get_lt hordered ?_
        rw [Fin.mk_lt_mk]
        omega
  | case2 start index hshort =>
      rw [foldsFrom, dif_neg hshort]
      exact List.Pairwise.nil

end Folds

/-! ### Labels of other values -/

/-- What two tables of labels have to share: a row without the value of its label. -/
def LabelRow.told (row : LabelRow) : Text × Option Date × Maturity :=
  (row.symbol, row.session, row.maturity)

/-- The label had matured on a date. -/
def Maturity.by (maturity : Maturity) (day : Date) : Bool :=
  maturity.date.any fun date => date ≤ day

theorem Maturity.by_iff {maturity : Maturity} {day : Date} :
    maturity.by day = true ↔ ∃ date, maturity.date = some date ∧ date ≤ day := by
  unfold Maturity.by
  cases maturity.date with
  | none => simp
  | some date => simp

/-- Two tables have the same rows but for the values of labels that mature after a date. -/
structure AgreeUpTo (day : Date) (labels others : List LabelRow) : Prop where
  rows : (labels.map LabelRow.told).Perm (others.map LabelRow.told)
  matured : (labels.filter fun row => row.maturity.by day).Perm
    (others.filter fun row => row.maturity.by day)

/-- A merged row with the label that another table has for it. -/
def relabelled (others : List LabelRow) (row : MergedRow) : MergedRow :=
  match others.find? fun label => label.key = (row.symbol, row.session) with
  | some label => { row with label := label.label }
  | none => row

theorem relabelled_eq (others : List LabelRow) (row : MergedRow) :
    ∃ label, relabelled others row = { row with label } := by
  unfold relabelled
  split
  · exact ⟨_, rfl⟩
  · exact ⟨row.label, rfl⟩

theorem session_relabelled (others : List LabelRow) (row : MergedRow) :
    (relabelled others row).session = row.session := by
  obtain ⟨label, hlabel⟩ := relabelled_eq others row
  rw [hlabel]

theorem maturity_relabelled (others : List LabelRow) (row : MergedRow) :
    (relabelled others row).maturity = row.maturity := by
  obtain ⟨label, hlabel⟩ := relabelled_eq others row
  rw [hlabel]

theorem order_relabelled (others : List LabelRow) (row : MergedRow) :
    (relabelled others row).order = row.order := by
  obtain ⟨label, hlabel⟩ := relabelled_eq others row
  rw [hlabel]
  rfl

theorem cell_relabelled (others : List LabelRow) (row : MergedRow) {column : Text}
    (h : column ≠ labelColumn) : (relabelled others row).cell column = row.cell column := by
  obtain ⟨label, hlabel⟩ := relabelled_eq others row
  rw [hlabel]
  simp only [MergedRow.cell, if_neg h]

/-! ### Merging -/

section Merging

variable {labels others : List LabelRow} {day : Date}

theorem find?_key {row : LabelRow} (hnodup : (labels.map LabelRow.key).Nodup) (h : row ∈ labels) :
    labels.find? (fun label => label.key = row.key) = some row := by
  cases hfind : labels.find? fun label => label.key = row.key with
  | none =>
      have hnone := List.find?_eq_none.mp hfind row h
      exact absurd (decide_eq_true rfl) hnone
  | some found =>
      have hkey : found.key = row.key := by simpa using List.find?_some hfind
      have hsame := List.inj_on_of_nodup_map hnodup (List.mem_of_find?_eq_some hfind) h hkey
      rw [hsame]

theorem nodup_keys_congr (h : (labels.map LabelRow.told).Perm (others.map LabelRow.told)) :
    (labels.map LabelRow.key).Nodup ↔ (others.map LabelRow.key).Nodup := by
  have hkeys := h.map fun told => (told.1, told.2.1)
  rw [List.map_map, List.map_map] at hkeys
  exact hkeys.nodup_iff

theorem joined_others (h : (labels.map LabelRow.told).Perm (others.map LabelRow.told))
    (hnodup : (labels.map LabelRow.key).Nodup) (row : FeatureRow) :
    joined others row = (joined labels row).map (relabelled others) := by
  have hothers := (nodup_keys_congr h).mp hnodup
  cases hfind : labels.find? fun label => label.key = row.key with
  | none =>
      have hnone : others.find? (fun label => label.key = row.key) = none := by
        refine List.find?_eq_none.mpr fun other hother hkey => ?_
        obtain ⟨label, hlabel, htold⟩ :=
          List.mem_map.mp (h.mem_iff.mpr (List.mem_map_of_mem hother))
        have hsame : label.key = other.key := congrArg (fun told => (told.1, told.2.1)) htold
        exact List.find?_eq_none.mp hfind label hlabel
          (decide_eq_true (hsame.trans (of_decide_eq_true hkey)))
      rw [joined, joined, hfind, hnone]
      rfl
  | some label =>
      have hkey : label.key = row.key := by simpa using List.find?_some hfind
      obtain ⟨other, hother, htold⟩ := List.mem_map.mp
        (h.mem_iff.mp (List.mem_map_of_mem (List.mem_of_find?_eq_some hfind)))
      have hsame : other.key = row.key :=
        (congrArg (fun told => (told.1, told.2.1)) htold).trans hkey
      have hmaturity : other.maturity = label.maturity := congrArg (fun told => told.2.2) htold
      have hfound := find?_key hothers hother
      rw [hsame] at hfound
      have hkeyed :
          others.find? (fun other => other.key = (row.symbol, row.session)) = some other :=
        hfound
      rw [joined, joined, hfind, hfound, Option.map_some, Option.map_some, Option.map_some,
        relabelled, hkeyed, hmaturity]

theorem relabelled_matured (h : AgreeUpTo day labels others)
    (hnodup : (labels.map LabelRow.key).Nodup) {row : FeatureRow} {merged : MergedRow}
    (hjoined : joined labels row = some merged) (hmatured : merged.maturity.by day = true) :
    relabelled others merged = merged := by
  obtain ⟨label, hfind, rfl⟩ := Option.map_eq_some_iff.mp hjoined
  have hkey : label.key = row.key := by simpa using List.find?_some hfind
  have hmem : label ∈ labels.filter fun row => row.maturity.by day :=
    List.mem_filter.mpr ⟨List.mem_of_find?_eq_some hfind, hmatured⟩
  have hother := (List.mem_filter.mp (h.matured.mem_iff.mp hmem)).1
  have hfound := find?_key ((nodup_keys_congr h.rows).mp hnodup) hother
  rw [hkey] at hfound
  have hkeyed : others.find? (fun other => other.key = (row.symbol, row.session)) = some label :=
    hfound
  rw [relabelled, hkeyed]

def MergedFrame.relabelled (others : List LabelRow) (frame : MergedFrame) : MergedFrame :=
  { frame with rows := frame.rows.map (Screening.relabelled others) }

theorem mergedRows_others (h : (labels.map LabelRow.told).Perm (others.map LabelRow.told))
    (hnodup : (labels.map LabelRow.key).Nodup) (rows : List FeatureRow) :
    sortValues MergedRow.order (rows.filterMap (joined others)) =
      (sortValues MergedRow.order (rows.filterMap (joined labels))).map (relabelled others) := by
  have hrows : rows.filterMap (joined others) =
      (rows.filterMap (joined labels)).map (relabelled others) := by
    rw [List.map_filterMap]
    exact List.filterMap_congr fun row _ => joined_others h hnodup row
  rw [hrows, sortValues_map]
  simp only [order_relabelled]

/-- Tables that tell the same rows are merged alike, but for the labels. -/
theorem mergeFeaturesLabels_others
    (h : (labels.map LabelRow.told).Perm (others.map LabelRow.told)) (features : Features)
    (candidate : HistoricalCandidate) : mergeFeaturesLabels features others candidate =
      (mergeFeaturesLabels features labels candidate).map (MergedFrame.relabelled others) := by
  have hempty : labels = [] ↔ others = [] := by
    rw [← List.map_eq_nil_iff (f := LabelRow.told), ← List.map_eq_nil_iff (f := LabelRow.told)]
    exact ⟨fun hnil => List.nil_perm.mp (hnil ▸ h), fun hnil => List.perm_nil.mp (hnil ▸ h)⟩
  unfold mergeFeaturesLabels
  cases featureColumns (features.columns ++ [sessionColumn]) features.numeric candidate with
  | error error => rfl
  | ok found =>
      simp only [bind, Except.bind, ← hempty]
      split
      · rfl
      · simp only [require, ← nodup_keys_congr h]
        generalize (if closeColumn ∈ features.columns ∧ closeColumn ∉ found then
          found ++ [closeColumn] else found) = merged
        by_cases hnodup : (labels.map LabelRow.key).Nodup
        · rw [mergedRows_others h hnodup]
          split_ifs <;> rfl
        · simp only [if_neg hnodup]
          split_ifs <;> rfl

theorem joined_of_merge {features : Features} {candidate : HistoricalCandidate}
    {frame : MergedFrame} (h : mergeFeaturesLabels features labels candidate = .ok frame)
    {merged : MergedRow} (hmerged : merged ∈ frame.rows) :
    (labels.map LabelRow.key).Nodup ∧ ∃ row, joined labels row = some merged := by
  obtain ⟨found, _, h⟩ := bind_eq_ok_iff.mp h
  dsimp only at h
  generalize (if closeColumn ∈ features.columns ∧ closeColumn ∉ found then
    found ++ [closeColumn] else found) = columns at h
  split at h
  · cases h
    cases hmerged
  · obtain ⟨_, _, h⟩ := bind_eq_ok_iff.mp h
    obtain ⟨_, _, h⟩ := bind_eq_ok_iff.mp h
    obtain ⟨_, _, h⟩ := bind_eq_ok_iff.mp h
    obtain ⟨_, hnodup, h⟩ := bind_eq_ok_iff.mp h
    cases h
    obtain ⟨row, _, hrow⟩ := List.mem_filterMap.mp (mem_sortValues.mp hmerged)
    exact ⟨require_eq_ok_iff.mp hnodup, row, hrow⟩

end Merging

/-! ### Columns without labels -/

theorem labelColumn_realized : isRealizedLabelColumn labelColumn = true := by decide +kernel

theorem labelColumn_notMem_featureColumns {columns found : List Text} {numeric : Text → Bool}
    {candidate : HistoricalCandidate} (h : featureColumns columns numeric candidate = .ok found) :
    labelColumn ∉ found := by
  intro hmem
  have hrealized := labelColumn_realized
  unfold featureColumns at h
  split at h
  · obtain ⟨_, _, h⟩ := bind_eq_ok_iff.mp h
    obtain ⟨_, hallowed, h⟩ := bind_eq_ok_iff.mp h
    cases h
    rw [List.mem_singleton.mp hmem, require_eq_ok_iff.mp hallowed] at hrealized
    cases hrealized
  · obtain ⟨_, _, h⟩ := bind_eq_ok_iff.mp h
    cases h
    have hnamed := mem_sortValues.mp (List.mem_of_mem_filter hmem)
    rw [(of_decide_eq_true (List.mem_filter.mp hnamed).2).2.1] at hrealized
    cases hrealized

section Relabelled

variable (others : List LabelRow)

theorem readings_relabelled {found : List Text} (h : labelColumn ∉ found) (rows : List MergedRow) :
    readings found (rows.map (relabelled others)) = readings found rows := by
  refine List.map_congr_left fun column hcolumn => ?_
  rw [List.map_map]
  refine List.map_congr_left fun row _ => ?_
  rw [Function.comp_apply, cell_relabelled others row fun hlabel => h (hlabel ▸ hcolumn)]

/-- A scorer is not shown any label. -/
theorem withoutRealizedLabels_relabelled (columns : List Text) (rows : List MergedRow) :
    withoutRealizedLabels columns (rows.map (relabelled others)) =
      withoutRealizedLabels columns rows := by
  have hrows : (rows.map (relabelled others)).map
      (fun row =>
        (columns.filter fun column => isRealizedLabelColumn column = false).map row.cell) =
      rows.map fun row =>
        (columns.filter fun column => isRealizedLabelColumn column = false).map row.cell := by
    rw [List.map_map]
    refine List.map_congr_left fun row _ => List.map_congr_left fun column hcolumn => ?_
    refine cell_relabelled others row fun hlabel => ?_
    have hvisible := of_decide_eq_true (List.mem_filter.mp hcolumn).2
    rw [hlabel, labelColumn_realized] at hvisible
    cases hvisible
  exact congrArg (VisibleFrame.mk _) hrows

theorem filter_inWindow_relabelled (first last : Date) (rows : List MergedRow) :
    (rows.map (relabelled others)).filter (MergedRow.inWindow first last) =
      (rows.filter (MergedRow.inWindow first last)).map (relabelled others) := by
  rw [List.filter_map]
  refine congrArg (List.map _) (List.filter_congr fun row _ => ?_)
  rw [Function.comp_apply, MergedRow.inWindow, session_relabelled, MergedRow.inWindow]

/-! ### Costs without labels -/

theorem selectedRows_relabelled (topK : ℕ) (rows : List (MergedRow × ℚ)) :
    selectedRows topK (rows.map (Prod.map (relabelled others) id)) =
      (selectedRows topK rows).map (Prod.map (relabelled others) id) := by
  have horder : ∀ entry : MergedRow × ℚ,
      MergedRow.scoreOrder (Prod.map (relabelled others) id entry) =
        MergedRow.scoreOrder entry := by
    intro entry
    obtain ⟨label, hlabel⟩ := relabelled_eq others entry.1
    rw [MergedRow.scoreOrder, Prod.map_fst, hlabel]
    rfl
  unfold selectedRows
  simp only [sortValues_map, horder, List.map_map, List.map_flatMap]
  have hsessions : (fun entry : MergedRow × ℚ => entry.1.session) ∘
      Prod.map (relabelled others) id = fun entry => entry.1.session := by
    funext entry
    exact session_relabelled others entry.1
  rw [hsessions]
  refine List.flatMap_congr fun session _ => ?_
  rw [List.filter_map, List.map_take]
  refine congrArg (fun rows => List.take topK (List.map _ rows))
    (List.filter_congr fun entry _ => ?_)
  rw [Function.comp_apply, Prod.map_fst, session_relabelled]

theorem selectedCostRates_relabelled (config : ScreeningConfig) (costModel : CostModel)
    (columns : List Text) (selected : List (MergedRow × ℚ)) :
    selectedCostRates config costModel columns (selected.map (Prod.map (relabelled others) id)) =
      selectedCostRates config costModel columns selected := by
  have hprices : labelColumn ∉ ["price".toList, closeColumn] := by decide
  have hquantities :
      labelColumn ∉ ["quantity".toList, "shares".toList, "position_size".toList] := by
    decide
  unfold selectedCostRates
  cases hprice : ["price".toList, closeColumn].find? (· ∈ columns) with
  | none => rfl
  | some price =>
      have hne : price ≠ labelColumn := by
        intro hlabel
        exact hprices (hlabel ▸ List.mem_of_find?_eq_some hprice)
      simp only [bind, Except.bind, orRaise, List.mapM_map]
      refine congrArg (fun rate => List.mapM rate selected) (funext fun entry => ?_)
      simp only [Function.comp_apply, Prod.map_fst, cell_relabelled others entry.1 hne]
      cases hquantity :
          ["quantity".toList, "shares".toList, "position_size".toList].find? (· ∈ columns) with
      | none => rfl
      | some quantity =>
          have hother : quantity ≠ labelColumn := by
            intro hlabel
            exact hquantities (hlabel ▸ List.mem_of_find?_eq_some hquantity)
          simp only [cell_relabelled others entry.1 hother]

theorem trainingRows_relabelled {frame : MergedFrame} {fold : ScreeningFold}
    (hmatured : ∀ row ∈ frame.rows, row.maturity.by fold.trainEnd = true →
      relabelled others row = row) :
    trainingRows (frame.relabelled others) fold = trainingRows frame fold := by
  have hrows : (frame.relabelled others).rows.filter
      (MergedRow.inWindow fold.trainStart fold.trainEnd) =
      (frame.rows.filter (MergedRow.inWindow fold.trainStart fold.trainEnd)).map
        (relabelled others) := filter_inWindow_relabelled others _ _ _
  unfold trainingRows
  rw [hrows]
  generalize hwindow : frame.rows.filter (MergedRow.inWindow fold.trainStart fold.trainEnd) = window
  have hmem : ∀ row ∈ window, row ∈ frame.rows := by
    intro row hrow
    rw [← hwindow] at hrow
    exact List.mem_of_mem_filter hrow
  have hkept : (window.map (relabelled others)).filter
        (fun row => row.maturity.date.any fun date => date ≤ fold.trainEnd) =
      window.filter fun row => row.maturity.date.any fun date => date ≤ fold.trainEnd := by
    rw [List.filter_map]
    have hsame : (fun row : MergedRow => row.maturity.date.any fun date => date ≤ fold.trainEnd) ∘
        relabelled others = fun row => row.maturity.date.any fun date => date ≤ fold.trainEnd := by
      funext row
      rw [Function.comp_apply, maturity_relabelled]
    rw [hsame]
    refine (List.map_congr_left fun row hrow => ?_).trans (List.map_id _)
    obtain ⟨hin, hby⟩ := List.mem_filter.mp hrow
    exact hmatured row (hmem row hin) hby
  unfold matureTrainingLabels
  rw [hkept]
  simp only [List.forall_mem_map, maturity_relabelled]
  rfl

/-! ### Scores without labels -/

variable [SquareRoot ℚ] (fit : ℕ → List (List ℚ) → List Bool → Except String Classifier)

theorem scores_relabelled (candidate : HistoricalCandidate) (frame : MergedFrame)
    (train target : List MergedRow) (seed : ℕ) :
    scores fit candidate (frame.relabelled others) train (target.map (relabelled others)) seed =
      scores fit candidate frame train target seed := by
  unfold scores
  have hcolumns : (frame.relabelled others).columns = frame.columns := rfl
  have hnumeric : (frame.relabelled others).numeric = frame.numeric := rfl
  rw [hcolumns, hnumeric, List.length_map]
  simp only [ne_eq, List.map_eq_nil_iff]
  cases hfound : featureColumns frame.columns frame.numeric candidate with
  | error error => rfl
  | ok found =>
      have hlabel := labelColumn_notMem_featureColumns hfound
      have hraw : rawScores fit candidate frame.columns found train
            (target.map (relabelled others)) seed =
          rawScores fit candidate frame.columns found train target seed := by
        unfold rawScores
        rw [readings_relabelled others hlabel, withoutRealizedLabels_relabelled]
      simp only [bind, Except.bind, readings_relabelled others hlabel, hraw]

/-! ### Folds without later labels -/

theorem runFold_relabelled (config : ScreeningConfig) (costModel : CostModel)
    (candidate : HistoricalCandidate) (frame : MergedFrame) (seed : ℕ) (fold : ScreeningFold)
    (hmatured : ∀ row ∈ frame.rows, row.maturity.by fold.trainEnd = true →
      relabelled others row = row) :
    runFold fit config costModel candidate (frame.relabelled others) seed fold =
      runFold fit config costModel candidate frame seed fold := by
  have hwindow : ∀ first last, (frame.relabelled others).rows.filter
      (MergedRow.inWindow first last) =
      (frame.rows.filter (MergedRow.inWindow first last)).map (relabelled others) :=
    fun first last => filter_inWindow_relabelled others first last frame.rows
  unfold runFold
  simp only [trainingRows_relabelled others hmatured, hwindow, scores_relabelled,
    List.length_map]
  have hzip : ∀ (rows : List MergedRow) (found : List ℚ),
      (rows.map (relabelled others)).zip found =
        (rows.zip found).map (Prod.map (relabelled others) id) := by
    intro rows found
    rw [List.zip_map_left]
  simp only [hzip, selectedRows_relabelled, selectedCostRates_relabelled]
  rfl

theorem fold_of_scored {config : ScreeningConfig} {costModel : CostModel}
    {candidate : HistoricalCandidate} {frame : MergedFrame} {seed : ℕ}
    {folds : List ScreeningFold} {entry : Scored}
    (h : entry ∈ (runFolds fit config costModel candidate frame seed folds).scored) :
    ∃ fold ∈ folds, entry.fold = fold.index := by
  induction folds with
  | nil => cases h
  | cons fold rest ih =>
      have hcurrent : ∀ {entry}, entry ∈
          (runFold fit config costModel candidate frame seed fold).scored →
          entry.fold = fold.index := by
        intro entry hentry
        unfold runFold at hentry
        dsimp only at hentry
        split at hentry
        · cases hentry
        · split at hentry
          · cases hentry
          · split at hentry
            · rw [List.mem_singleton.mp hentry]
            · rcases List.mem_cons.mp hentry with rfl | hentry
              · rfl
              · rw [List.mem_singleton.mp hentry]
      unfold runFolds at h
      dsimp only at h
      split at h
      · exact ⟨fold, List.mem_cons_self, hcurrent h⟩
      · rcases List.mem_append.mp h with h | h
        · exact ⟨fold, List.mem_cons_self, hcurrent h⟩
        · obtain ⟨other, hother, hindex⟩ := ih h
          exact ⟨other, List.mem_cons_of_mem fold hother, hindex⟩

def Trace.scoredOn (fold : ℕ) (trace : Trace) : List Scored :=
  trace.scored.filter fun entry => entry.fold = fold

/-- Up to a fold, the loop over the folds does not see labels that it has not trained on. -/
theorem runFolds_relabelled (config : ScreeningConfig) (costModel : CostModel)
    (candidate : HistoricalCandidate) {frame : MergedFrame} (seed : ℕ) {fold : ScreeningFold}
    (hmatured : ∀ row ∈ frame.rows, row.maturity.by fold.trainEnd = true →
      relabelled others row = row) {folds : List ScreeningFold}
    (hindexes : folds.Pairwise fun fold other => fold.index < other.index)
    (hends : ∀ other ∈ folds, other.index ≤ fold.index → other.trainEnd ≤ fold.trainEnd) :
    (runFolds fit config costModel candidate (frame.relabelled others) seed folds).scoredOn
        fold.index =
      (runFolds fit config costModel candidate frame seed folds).scoredOn fold.index := by
  induction folds with
  | nil => rfl
  | cons current rest ih =>
      obtain ⟨hlater, hrest⟩ := List.pairwise_cons.mp hindexes
      by_cases hindex : current.index ≤ fold.index
      · have hend := hends current List.mem_cons_self hindex
        have hsame := runFold_relabelled others fit config costModel candidate frame seed
          current fun row hrow hby => by
            obtain ⟨date, hdate, hle⟩ := Maturity.by_iff.mp hby
            exact hmatured row hrow (Maturity.by_iff.mpr ⟨date, hdate, hle.trans hend⟩)
        have hfollowing := ih hrest fun other hother => hends other (List.mem_cons_of_mem _ hother)
        unfold runFolds
        rw [hsame]
        unfold Trace.scoredOn at hfollowing ⊢
        dsimp only
        split
        · rfl
        · rw [List.filter_append, List.filter_append, hfollowing]
      · -- The folds that are left are later ones, none of whose scores is of the fold.
        have hnone : ∀ frame : MergedFrame,
            (runFolds fit config costModel candidate frame seed (current :: rest)).scoredOn
              fold.index = [] := by
          intro frame
          refine List.filter_eq_nil_iff.mpr fun entry hentry hsame => ?_
          obtain ⟨other, hother, hother'⟩ := fold_of_scored fit hentry
          have hequal := of_decide_eq_true hsame
          rcases List.mem_cons.mp hother with rfl | hother
          · omega
          · have := hlater other hother
            omega
        rw [hnone, hnone]

end Relabelled

/-! ### Runs -/

/-- Two snapshots that differ in nothing but the values of labels that mature after a date. -/
structure DifferAfter (day : Date) (a b : Snapshot) (labels others : List LabelRow) : Prop where
  features : a.features = b.features
  signalCutoff : a.signalCutoff = b.signalCutoff
  rows : AgreeUpTo day labels others

theorem matured_of_trainingRows {frame : MergedFrame} {fold : ScreeningFold}
    {train : List MergedRow} (h : trainingRows frame fold = .ok train) {row : MergedRow}
    (hrow : row ∈ train) : ∃ date, row.maturity.date = some date ∧ date ≤ fold.trainEnd := by
  obtain ⟨_, _, h⟩ := bind_eq_ok_iff.mp h
  obtain ⟨_, _, h⟩ := bind_eq_ok_iff.mp h
  obtain ⟨_, _, h⟩ := bind_eq_ok_iff.mp h
  cases h
  exact Maturity.by_iff.mp (List.mem_filter.mp hrow).2

theorem prepareInputs_eq_ok {snapshot : Snapshot} {features : Features} {labels : List LabelRow}
    {leakage : List String} (h : prepareInputs snapshot = .ok (features, labels, leakage)) :
    ∃ cutoff flags, snapshotCutoff snapshot = .ok cutoff ∧
      prepareFeatures snapshot.features cutoff = .ok (features, flags) ∧
      leakage = flags ++ if labels.any fun row => row.maturity.error then
        ["invalid_label_maturity"] else [] := by
  obtain ⟨_, _, h⟩ := bind_eq_ok_iff.mp h
  obtain ⟨cutoff, hcutoff, h⟩ := bind_eq_ok_iff.mp h
  obtain ⟨⟨prepared, flags⟩, hprepared, h⟩ := bind_eq_ok_iff.mp h
  obtain ⟨rows, _, h⟩ := bind_eq_ok_iff.mp h
  cases h
  exact ⟨cutoff, flags, hcutoff, hprepared, rfl⟩

/-- Snapshots that differ in later labels are prepared with the same features and flags. -/
theorem prepareInputs_others {day : Date} {a b : Snapshot} {features features' : Features}
    {labels others : List LabelRow} {leakage leakage' : List String}
    (ha : prepareInputs a = .ok (features, labels, leakage))
    (hb : prepareInputs b = .ok (features', others, leakage'))
    (h : DifferAfter day a b labels others) : features' = features ∧ leakage' = leakage := by
  obtain ⟨cutoff, flags, hcutoff, hprepared, hflags⟩ := prepareInputs_eq_ok ha
  obtain ⟨cutoff', flags', hcutoff', hprepared', hflags'⟩ := prepareInputs_eq_ok hb
  have hsame : snapshotCutoff b = snapshotCutoff a := by
    unfold snapshotCutoff
    rw [h.features, h.signalCutoff]
  rw [hsame, hcutoff] at hcutoff'
  cases hcutoff'
  rw [← h.features, hprepared] at hprepared'
  cases hprepared'
  have herrors : (others.any fun row => row.maturity.error) =
      labels.any fun row => row.maturity.error := by
    have hany : ∀ rows : List LabelRow, (rows.any fun row => row.maturity.error) =
        (rows.map LabelRow.told).any fun told => told.2.2.error := by
      intro rows
      rw [List.any_map]
      rfl
    rw [hany, hany, h.rows.rows.any_eq]
  exact ⟨rfl, by rw [hflags, hflags', herrors]⟩

section Runs

variable [SquareRoot ℚ] (fit : ℕ → List (List ℚ) → List Bool → Except String Classifier)

def runScores (config : ScreeningConfig) (costModel : CostModel) (snapshot : Snapshot)
    (candidate : HistoricalCandidate) (seed : ℕ) (fold : ScreeningFold) : List Scored :=
  match run fit config costModel snapshot candidate seed with
  | .ok trace => trace.scoredOn fold.index
  | .error _ => []

theorem runTrial_others {config : ScreeningConfig} {costModel : CostModel}
    {candidate : HistoricalCandidate} {features : Features} {labels others : List LabelRow}
    {seed : ℕ} {leakage : List String} {fold : ScreeningFold}
    (h : AgreeUpTo fold.trainEnd labels others)
    (hfold : fold ∈ makeFolds config features.sessions) :
    (runTrial fit config costModel candidate features others (makeFolds config features.sessions)
        seed leakage).scoredOn fold.index =
      (runTrial fit config costModel candidate features labels (makeFolds config features.sessions)
        seed leakage).scoredOn fold.index := by
  unfold runTrial
  cases leakage with
  | cons flag rest => rfl
  | nil =>
      dsimp only
      split
      · rfl
      · rw [mergeFeaturesLabels_others h.rows]
        cases hmerge : mergeFeaturesLabels features labels candidate with
        | error error => rfl
        | ok frame =>
            have hnil : (frame.relabelled others).rows = [] ↔ frame.rows = [] := List.map_eq_nil_iff
            have hpairs := @pairwise_foldsFrom config _
              (increasing_sortedSet features.sessions) 0 0
            have hmatured : ∀ row ∈ frame.rows, row.maturity.by fold.trainEnd = true →
                relabelled others row = row := by
              intro row hrow hby
              obtain ⟨hnodup, feature, hjoined⟩ := joined_of_merge hmerge hrow
              exact relabelled_matured h hnodup hjoined hby
            have hends : ∀ other ∈ makeFolds config features.sessions, other.index ≤ fold.index →
                other.trainEnd ≤ fold.trainEnd := by
              intro other hother hindex
              obtain ⟨i, rfl⟩ := List.get_of_mem hother
              obtain ⟨j, rfl⟩ := List.get_of_mem hfold
              rcases lt_trichotomy i j with hlt | rfl | hlt
              · exact (List.pairwise_iff_get.mp hpairs i j hlt).2.le
              · exact le_refl _
              · exact absurd hindex (List.pairwise_iff_get.mp hpairs j i hlt).1.not_ge
            have hruns := runFolds_relabelled others fit config costModel candidate seed hmatured
              (hpairs.imp And.left) hends
            change Trace.scoredOn fold.index
              (if (frame.relabelled others).rows = [] then _ else _) = _
            simp only [hnil]
            split
            · rfl
            · exact hruns

/-- A run scores the windows of a fold in the same way for all values of the labels that mature
after its training window, and trains on no row whose label matures after it. -/
theorem screening_without_future (config : ScreeningConfig) (costModel : CostModel)
    (candidate : HistoricalCandidate) (seed : ℕ) {a b : Snapshot} {features features' : Features}
    {labels others : List LabelRow} {leakage leakage' : List String}
    (ha : prepareInputs a = .ok (features, labels, leakage))
    (hb : prepareInputs b = .ok (features', others, leakage')) {fold : ScreeningFold}
    (hfold : fold ∈ makeFolds config features.sessions)
    (h : DifferAfter fold.trainEnd a b labels others) :
    runScores fit config costModel b candidate seed fold =
        runScores fit config costModel a candidate seed fold ∧
      fold.trainEnd < fold.validationStart ∧
      ∀ frame train, trainingRows frame fold = .ok train → ∀ row ∈ train,
        ∃ date, row.maturity.date = some date ∧ date ≤ fold.trainEnd := by
  refine ⟨?_, trainEnd_lt_validationStart (increasing_sortedSet _) hfold,
    fun frame train htrain row hrow => matured_of_trainingRows htrain hrow⟩
  obtain ⟨rfl, rfl⟩ := prepareInputs_others ha hb h
  unfold runScores run
  rw [ha, hb]
  simp only [bind, Except.bind, require]
  split_ifs
  · exact runTrial_others fit h.rows hfold
  · rfl

end Runs

section Sample

def screenDay (i : Fin 8) : Date := .daysFrom 2026 8 3 i

def dateCell (day : Date) : RawCell := ⟨[], .date day, .missing⟩

def numberCell (value : ℚ) : RawCell := ⟨[], .blank, .finite value⟩

/-- One symbol on seven sessions. -/
def sampleFeatures : GivenFrame where
  columns := ["symbol".toList, "trading_date".toList, "momentum".toList, "close".toList]
  nodup := by decide
  numeric := fun column => column = "momentum".toList ∨ column = "close".toList
  rows := (List.finRange 7).map fun (i : Fin 7) column =>
    if column = "symbol".toList then ⟨"000001".toList, .blank, .finite 1⟩
    else if column = "trading_date".toList then dateCell (screenDay i.castSucc)
    else numberCell (10 + i.val)

/-- A label for each session, which matures on the next day. -/
def sampleLabels (value : Fin 7 → ℚ) : GivenFrame where
  columns := ["symbol".toList, "trading_date".toList, "label".toList, "maturity_date".toList]
  nodup := by decide
  numeric := fun column => column = "label".toList
  rows := (List.finRange 7).map fun (i : Fin 7) column =>
    if column = "symbol".toList then ⟨"000001".toList, .blank, .finite 1⟩
    else if column = "trading_date".toList then dateCell (screenDay i.castSucc)
    else if column = "label".toList then numberCell (value i)
    else dateCell (screenDay i.succ)

def sampleSnapshot (value : Fin 7 → ℚ) : Snapshot :=
  ⟨sampleFeatures, some (sampleLabels value), some (screenDay 7)⟩

def sampleConfig : ScreeningConfig where
  trainSessions := 2
  validationSessions := 1
  embargoSessions := 1
  testSessions := 1
  minimumOosWindows := 3
  roundTripCost := 12 / 10000
  topK := 10
  trainSessions_pos := by decide
  validationSessions_pos := by decide
  embargoSessions_pos := by decide
  testSessions_pos := by decide
  minimumOosWindows_min := by decide
  roundTripCost_nonneg := by norm_num
  topK_pos := by decide

def sampleCandidate : HistoricalCandidate where
  modelFamily := "momentum".toList
  direction := .ok (.finite 1)
  scoreColumn := some "momentum".toList
  scorer := none

def sampleRows (value : Fin 7 → ℚ) : List LabelRow :=
  (List.finRange 7).map fun (i : Fin 7) =>
    ⟨"000001".toList, some (screenDay i.castSucc), ⟨some (screenDay i.succ), false⟩, value i⟩

def samplePrepared : Features :=
  ⟨sampleFeatures.columns, sampleFeatures.numeric, sampleFeatures.rows.map fun row =>
    ⟨zfill 6 (row "symbol".toList).text, (row "trading_date".toList).day.day?, row⟩⟩

theorem sampleRows_prepared (value : Fin 7 → ℚ) :
    prepareInputs (sampleSnapshot value) = .ok (samplePrepared, sampleRows value, []) := by
  rfl

theorem span_le_sampleSessions :
    0 + sampleConfig.span ≤ (sortedSet samplePrepared.sessions).length := by decide +kernel

def sampleWindow : ScreeningFold :=
  foldAt sampleConfig (sortedSet samplePrepared.sessions) 0 0 span_le_sampleSessions

def screenCosts : CostModel := Backtest.sampleCosts

/-- Nothing is fitted on rows of one class. -/
def fitNone : ℕ → List (List ℚ) → List Bool → Except String Classifier :=
  fun _ _ _ => .error "This solver needs samples of at least 2 classes in the data"

/-- Only the label of the first session matures before the first training window ends. -/
theorem laterLabels_unseen :
    @runScores ⟨Rat.sqrt⟩ fitNone sampleConfig screenCosts
        (sampleSnapshot fun i => if i = 0 then 1 else 2) sampleCandidate 7 sampleWindow =
      @runScores ⟨Rat.sqrt⟩ fitNone sampleConfig screenCosts (sampleSnapshot fun _ => 1)
        sampleCandidate 7 sampleWindow := by
  have hfold : sampleWindow ∈ makeFolds sampleConfig samplePrepared.sessions := by
    rw [makeFolds, foldsFrom, dif_pos span_le_sampleSessions]
    exact List.mem_cons_self
  have hdiffer : DifferAfter sampleWindow.trainEnd (sampleSnapshot fun _ => 1)
      (sampleSnapshot fun i => if i = 0 then 1 else 2) (sampleRows fun _ => 1)
      (sampleRows fun i => if i = 0 then 1 else 2) := by
    refine ⟨rfl, rfl, List.Perm.of_eq (by decide +kernel), List.Perm.of_eq (by decide +kernel)⟩
  exact (@screening_without_future ⟨Rat.sqrt⟩ fitNone sampleConfig screenCosts sampleCandidate 7 _ _
    _ _ _ _ _ _ (sampleRows_prepared _) (sampleRows_prepared _) _ hfold hdiffer).1

end Sample

end QuantWorkbench.Research.Screening
