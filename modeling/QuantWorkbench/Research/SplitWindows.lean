import QuantWorkbench.Experiments.TimeSplits
import QuantWorkbench.Research.Forecasting
import QuantWorkbench.Research.HistoricalScreening

/-!
The four ways of splitting dates into training, validation and test windows. The three loops slide
windows of fixed sizes on, and all four leave no date in two windows.
-/

namespace QuantWorkbench.Research

open Lib Experiments

/-! ### Folds of the historical screen -/

namespace Screening

def ScreeningFold.windows (fold : ScreeningFold) : Windows Date where
  trainEnd := fold.trainEnd
  validationStart := fold.validationStart
  validationEnd := fold.validationEnd
  testStart := fold.testStart
  testEnd := fold.testEnd

def ScreeningConfig.sizes (config : ScreeningConfig) : WindowSizes where
  train := config.trainSessions
  validation := config.validationSessions
  embargo := config.embargoSessions
  test := config.testSessions
  step := config.testSessions
  train_pos := config.trainSessions_pos
  validation_pos := config.validationSessions_pos
  test_pos := config.testSessions_pos
  step_pos := config.testSessions_pos

theorem windows_foldsFrom (config : ScreeningConfig) (ordered : List Date) (start index : ℕ) :
    (foldsFrom config ordered start index).map ScreeningFold.windows =
      config.sizes.slide ordered start := by
  induction start, index using foldsFrom.induct config ordered with
  | case1 start index hspan ih =>
      have hslide : start + config.sizes.span ≤ ordered.length := hspan
      rw [foldsFrom, dif_pos hspan, WindowSizes.slide, dif_pos hslide, List.map_cons, ih]
      rfl
  | case2 start index hshort =>
      have hslide : ¬ start + config.sizes.span ≤ ordered.length := hshort
      rw [foldsFrom, dif_neg hshort, WindowSizes.slide, dif_neg hslide, List.map_nil]

theorem trainStart_foldsFrom {config : ScreeningConfig} {ordered : List Date}
    (hordered : ordered.Pairwise (· < ·)) {start index : ℕ} {fold : ScreeningFold}
    (h : fold ∈ foldsFrom config ordered start index) :
    fold.trainStart ∈ ordered ∧ fold.trainStart ≤ fold.trainEnd := by
  induction start, index using foldsFrom.induct config ordered with
  | case1 start index hspan ih =>
      rw [foldsFrom, dif_pos hspan] at h
      rcases List.mem_cons.mp h with rfl | h
      · have htrain := config.trainSessions_pos
        refine ⟨List.get_mem _ _, (strictMono_get hordered).monotone (Fin.mk_le_mk.mpr ?_)⟩
        omega
      · exact ih h
  | case2 start index hshort =>
      rw [foldsFrom, dif_neg hshort] at h
      cases h

end Screening

/-! ### Folds of the forecasts -/

def WalkForwardFold.windows (fold : WalkForwardFold) : Windows Date where
  trainEnd := fold.trainEnd
  validationStart := fold.validationStart
  validationEnd := fold.validationEnd
  testStart := fold.testStart
  testEnd := fold.testEnd

def walkForwardSizes : WindowSizes where
  train := 756
  validation := 252
  embargo := 126
  test := 126
  step := 126
  train_pos := by omega
  validation_pos := by omega
  test_pos := by omega
  step_pos := by omega

theorem windows_walkForward (ordered : List Date) (start : ℕ) :
    (foldsFrom ordered start).map WalkForwardFold.windows =
      walkForwardSizes.slide ordered start := by
  induction start using foldsFrom.induct ordered with
  | case1 start hspan ih =>
      have hslide : start + walkForwardSizes.span ≤ ordered.length := hspan
      rw [foldsFrom, dif_pos hspan, WindowSizes.slide, dif_pos hslide, List.map_cons, ih]
      rfl
  | case2 start hshort =>
      have hslide : ¬ start + walkForwardSizes.span ≤ ordered.length := hshort
      rw [foldsFrom, dif_neg hshort, WindowSizes.slide, dif_neg hslide, List.map_nil]

/-! ### Splits -/

/-- Successive folds test adjacent windows, and the dates are too few for a further fold. -/
structure Successive {α : Type} (windows : α → Windows Date) (dates : List Date) (step span : ℕ)
    (folds : List α) : Prop where
  adjacent : folds.IsChain fun fold next => (windows fold).Adjacent dates (windows next)
  full : (distinct dates).card < folds.length * step + span

open Screening (ScreeningConfig ScreeningFold makeFolds) in
/-- Every split keeps its windows apart, those of fixed sizes hold so many dates, a fixed split
leaves out no date, and the folds test one date after another. -/
theorem splits_apart {V : Type} [SplitDate V] (round : ℚ → Number) :
    (∀ (dates : List V) (trainRatio validationRatio testRatio : Number) (split : TimeSplit),
      fixedTimeSplit round dates trainRatio validationRatio testRatio = .ok split →
      ∃ days, normalizeDates dates = .ok days ∧
        (split.train.1 ∈ days ∧ split.train.1 ≤ split.train.2) ∧ split.windows.InOrder days ∧
        ∀ day ∈ days, (split.parts days).countP (fun part => day ∈ part) = 1) ∧
    (∀ (dates : List V) (minTrainDates validationDates testDates stepDates : ℤ)
        (splits : List TimeSplit),
      rollingWalkForward dates minTrainDates validationDates testDates stepDates = .ok splits →
      ∃ days, normalizeDates dates = .ok days ∧ ∀ split ∈ splits,
        (split.train.1 ∈ days ∧ split.train.1 ≤ split.train.2) ∧ split.windows.InOrder days ∧
          split.windows.Sized days validationDates.toNat 0 testDates.toNat) ∧
    (∀ (config : ScreeningConfig) (dates : List Date),
      (∀ fold ∈ makeFolds config dates,
        (fold.trainStart ∈ dates ∧ fold.trainStart ≤ fold.trainEnd) ∧ fold.windows.InOrder dates ∧
          fold.windows.Sized dates config.validationSessions config.embargoSessions
            config.testSessions) ∧
      Successive ScreeningFold.windows dates config.testSessions config.span
        (makeFolds config dates)) ∧
    (∀ dates : List Date,
      (∀ fold ∈ walkForwardFolds dates,
        fold.windows.InOrder dates ∧ fold.windows.Sized dates 252 126 126) ∧
      Successive WalkForwardFold.windows dates 126 1260 (walkForwardFolds dates)) := by
  refine ⟨?_, ?_, ?_, ?_⟩
  · intro dates trainRatio validationRatio testRatio split h
    obtain ⟨days, hdays, cuts, rfl, hembargo, hend⟩ := fixedTimeSplit_eq_ok h
    have hordered := increasing_normalizeDates hdays
    exact ⟨days, hdays, trainStart_splitAt cuts hordered, cuts.inOrder hordered,
      fun day hday => countP_parts_splitAt cuts hordered hembargo hend hday⟩
  · intro dates minTrainDates validationDates testDates stepDates splits h
    obtain ⟨days, hdays, sizes, rfl, hvalidation, hembargo, htest⟩ := rollingWalkForward_eq_ok h
    have hordered := increasing_normalizeDates hdays
    refine ⟨days, hdays, fun split hsplit => ?_⟩
    have hmem := List.mem_map_of_mem (f := TimeSplit.windows) hsplit
    rw [windows_splitsFrom] at hmem
    refine ⟨trainStart_splitsFrom hordered hsplit, sizes.inOrder_of_mem_slide hordered hmem, ?_⟩
    rw [← hvalidation, ← hembargo, ← htest]
    exact sizes.sized_of_mem_slide hordered hmem
  · intro config dates
    have hfolds := Screening.windows_foldsFrom config (sortedSet dates) 0 0
    refine ⟨fun fold hfold => ?_, config.sizes.adjacent_of_map hfolds rfl,
      config.sizes.card_lt_of_map hfolds⟩
    obtain ⟨hstart, hle⟩ := Screening.trainStart_foldsFrom (increasing_sortedSet dates) hfold
    exact ⟨⟨mem_sortedSet.mp hstart, hle⟩, config.sizes.inOrder_of_map hfolds hfold,
      config.sizes.sized_of_map hfolds hfold⟩
  · intro dates
    have hfolds := windows_walkForward (sortedSet dates) 0
    exact ⟨fun fold hfold => ⟨walkForwardSizes.inOrder_of_map hfolds hfold,
      walkForwardSizes.sized_of_map hfolds hfold⟩, walkForwardSizes.adjacent_of_map hfolds rfl,
      walkForwardSizes.card_lt_of_map hfolds⟩

def januaryDay (n : ℕ) (h : 1 ≤ n ∧ n ≤ 31) : Date where
  year := 2025
  month := 1
  day := n
  year_range := by decide
  month_range := by decide
  day_range := h

/-- Three dates, of which one is given twice, are split into one each in both ways. -/
theorem three_dates_apart :
    let first := januaryDay 1 (by decide)
    let second := januaryDay 2 (by decide)
    let third := januaryDay 3 (by decide)
    let split : TimeSplit := ⟨(first, first), (second, second), (third, third)⟩
    (∃ days, normalizeDates [third, first, second, first] = .ok days ∧
      split.windows.InOrder days ∧
      ∀ day ∈ days, (split.parts days).countP (fun part => day ∈ part) = 1) ∧
    ∃ days, normalizeDates [third, first, second, first] = .ok days ∧
      split.windows.InOrder days ∧ split.windows.Sized days 1 0 1 := by
  intro first second third split
  have hapart := splits_apart (V := Date) .finite
  constructor
  · have hsplit : fixedTimeSplit .finite [third, first, second, first] (.finite (3 / 5))
        (.finite (1 / 5)) (.finite (1 / 5)) = .ok split := by decide +kernel
    obtain ⟨days, hdays, _, hinOrder, hcount⟩ := hapart.1 _ _ _ _ split hsplit
    exact ⟨days, hdays, hinOrder, hcount⟩
  · have hsplits : rollingWalkForward [third, first, second, first] 1 1 1 1 = .ok [split] := by
      decide +kernel
    obtain ⟨days, hdays, hall⟩ := hapart.2.1 _ _ _ _ _ [split] hsplits
    exact ⟨days, hdays, (hall split List.mem_cons_self).2⟩

end QuantWorkbench.Research
