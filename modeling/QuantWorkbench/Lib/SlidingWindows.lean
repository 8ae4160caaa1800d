import Mathlib.Order.Interval.Finset.Fin
import QuantWorkbench.Lib.Tables

/-!
Windows over distinct values in increasing order. The positions are cut into a training, a
validation and a test window, with a gap before the test window that may be empty, and a loop
slides such windows on for as long as they fit. The bounds of a window are values; what lies
within them is counted over all the values again.
-/

namespace QuantWorkbench.Lib

variable {κ : Type*} [LinearOrder κ]

def distinct (values : List κ) : Finset κ := values.toFinset

/-- The distinct values from one bound to another. -/
def within (values : List κ) (first last : κ) : Finset κ :=
  (distinct values).filter fun a => first ≤ a ∧ a ≤ last

/-- The distinct values after one bound and before another. -/
def between (values : List κ) (last next : κ) : Finset κ :=
  (distinct values).filter fun a => last < a ∧ a < next

theorem mem_within {values : List κ} {first last a : κ} :
    a ∈ within values first last ↔ a ∈ values ∧ first ≤ a ∧ a ≤ last := by
  rw [within, Finset.mem_filter, distinct, List.mem_toFinset]

theorem mem_between {values : List κ} {last next a : κ} :
    a ∈ between values last next ↔ a ∈ values ∧ last < a ∧ a < next := by
  rw [between, Finset.mem_filter, distinct, List.mem_toFinset]

theorem within_congr {values others : List κ} (h : ∀ a, a ∈ values ↔ a ∈ others) (first last : κ) :
    within values first last = within others first last := by
  ext a
  rw [mem_within, mem_within, h]

theorem between_congr {values others : List κ} (h : ∀ a, a ∈ values ↔ a ∈ others)
    (last next : κ) : between values last next = between others last next := by
  ext a
  rw [mem_between, mem_between, h]

/-- A window that ends before another one starts shares no value with it. -/
theorem disjoint_within (values : List κ) {first last next final : κ} (h : last < next) :
    Disjoint (within values first last) (within values next final) := by
  rw [Finset.disjoint_left]
  intro a ha hother
  exact absurd ((mem_within.mp hother).2.1.trans (mem_within.mp ha).2.2) (not_le.mpr h)

/-! ### Positions -/

section Positions

variable {ordered : List κ}

theorem strictMono_get (hordered : ordered.Pairwise (· < ·)) : StrictMono ordered.get :=
  fun i j h => List.pairwise_iff_get.mp hordered i j h

theorem distinct_eq_image_get (ordered : List κ) :
    distinct ordered = Finset.univ.image ordered.get := by
  ext a
  simp [distinct, List.mem_iff_get]

/-- From one position to another there are as many values as positions. -/
theorem card_within (hordered : ordered.Pairwise (· < ·)) (i j : Fin ordered.length) :
    (within ordered (ordered.get i) (ordered.get j)).card = j + 1 - i := by
  have hmono := strictMono_get hordered
  have himage : within ordered (ordered.get i) (ordered.get j) =
      (Finset.Icc i j).image ordered.get := by
    rw [within, distinct_eq_image_get, Finset.filter_image]
    congr 1
    ext k
    simp only [Finset.mem_filter, Finset.mem_univ, true_and, Finset.mem_Icc, hmono.le_iff_le]
  rw [himage, Finset.card_image_of_injective _ hmono.injective, Fin.card_Icc]

theorem card_between (hordered : ordered.Pairwise (· < ·)) (i j : Fin ordered.length) :
    (between ordered (ordered.get i) (ordered.get j)).card = j - i - 1 := by
  have hmono := strictMono_get hordered
  have himage : between ordered (ordered.get i) (ordered.get j) =
      (Finset.Ioo i j).image ordered.get := by
    rw [between, distinct_eq_image_get, Finset.filter_image]
    congr 1
    ext k
    simp only [Finset.mem_filter, Finset.mem_univ, true_and, Finset.mem_Ioo, hmono.lt_iff_lt]
  rw [himage, Finset.card_image_of_injective _ hmono.injective, Fin.card_Ioo]

end Positions

/-! ### Windows -/

/-- The last value of a training window, and the bounds of the two windows after it. -/
structure Windows (κ : Type*) where
  trainEnd : κ
  validationStart : κ
  validationEnd : κ
  testStart : κ
  testEnd : κ
  deriving DecidableEq

namespace Windows

/-- The bounds are among the values, so that no window is empty, and no window reaches the next. -/
structure InOrder (values : List κ) (windows : Windows κ) : Prop where
  trainEnd_mem : windows.trainEnd ∈ values
  validationStart_mem : windows.validationStart ∈ values
  validationEnd_mem : windows.validationEnd ∈ values
  testStart_mem : windows.testStart ∈ values
  testEnd_mem : windows.testEnd ∈ values
  train_lt : windows.trainEnd < windows.validationStart
  validation_le : windows.validationStart ≤ windows.validationEnd
  validation_lt : windows.validationEnd < windows.testStart
  test_le : windows.testStart ≤ windows.testEnd

/-- How many distinct values there are in the validation window, between it and the test window,
and in the test window. -/
structure Sized (values : List κ) (validation embargo test : ℕ) (windows : Windows κ) : Prop where
  validation : (within values windows.validationStart windows.validationEnd).card = validation
  embargo : (between values windows.validationEnd windows.testStart).card = embargo
  test : (within values windows.testStart windows.testEnd).card = test

/-- The test window of other windows is the next one. -/
structure Adjacent (values : List κ) (windows next : Windows κ) : Prop where
  disjoint : Disjoint (within values windows.testStart windows.testEnd)
    (within values next.testStart next.testEnd)
  test_lt : windows.testEnd < next.testStart
  between : between values windows.testEnd next.testStart = ∅

theorem InOrder.congr {values others : List κ} {windows : Windows κ}
    (hinOrder : windows.InOrder values) (h : ∀ a, a ∈ values ↔ a ∈ others) :
    windows.InOrder others where
  trainEnd_mem := (h _).mp hinOrder.trainEnd_mem
  validationStart_mem := (h _).mp hinOrder.validationStart_mem
  validationEnd_mem := (h _).mp hinOrder.validationEnd_mem
  testStart_mem := (h _).mp hinOrder.testStart_mem
  testEnd_mem := (h _).mp hinOrder.testEnd_mem
  train_lt := hinOrder.train_lt
  validation_le := hinOrder.validation_le
  validation_lt := hinOrder.validation_lt
  test_le := hinOrder.test_le

theorem Sized.congr {values others : List κ} {validation embargo test : ℕ} {windows : Windows κ}
    (hsized : windows.Sized values validation embargo test) (h : ∀ a, a ∈ values ↔ a ∈ others) :
    windows.Sized others validation embargo test where
  validation := by rw [← within_congr h, hsized.validation]
  embargo := by rw [← between_congr h, hsized.embargo]
  test := by rw [← within_congr h, hsized.test]

theorem Adjacent.congr {values others : List κ} {windows next : Windows κ}
    (hadjacent : windows.Adjacent values next) (h : ∀ a, a ∈ values ↔ a ∈ others) :
    windows.Adjacent others next where
  disjoint := disjoint_within _ hadjacent.test_lt
  test_lt := hadjacent.test_lt
  between := by rw [← between_congr h, hadjacent.between]

end Windows

/-- Positions at which windows over a number of values end. -/
structure Cuts (size : ℕ) where
  trainEnd : ℕ
  validationEnd : ℕ
  testStart : ℕ
  testEnd : ℕ
  train_pos : 0 < trainEnd
  validation_pos : trainEnd < validationEnd
  embargo_nonneg : validationEnd ≤ testStart
  test_pos : testStart < testEnd
  testEnd_le : testEnd ≤ size

namespace Cuts

variable {ordered : List κ}

omit [LinearOrder κ] in
theorem validationEnd_lt (cuts : Cuts ordered.length) : cuts.validationEnd < ordered.length :=
  cuts.embargo_nonneg.trans_lt (cuts.test_pos.trans_le cuts.testEnd_le)

def windows (cuts : Cuts ordered.length) : Windows κ :=
  have hvalidation := cuts.validationEnd_lt
  have htrain := cuts.validation_pos
  have htest := cuts.test_pos
  have hend := cuts.testEnd_le
  { trainEnd := ordered.get ⟨cuts.trainEnd - 1, by omega⟩
    validationStart := ordered.get ⟨cuts.trainEnd, by omega⟩
    validationEnd := ordered.get ⟨cuts.validationEnd - 1, by omega⟩
    testStart := ordered.get ⟨cuts.testStart, by omega⟩
    testEnd := ordered.get ⟨cuts.testEnd - 1, by omega⟩ }

theorem inOrder (hordered : ordered.Pairwise (· < ·)) (cuts : Cuts ordered.length) :
    cuts.windows.InOrder ordered := by
  have hmono := strictMono_get hordered
  have htrain := cuts.train_pos
  have hvalidation := cuts.validation_pos
  have hembargo := cuts.embargo_nonneg
  have htest := cuts.test_pos
  exact {
    trainEnd_mem := List.get_mem _ _
    validationStart_mem := List.get_mem _ _
    validationEnd_mem := List.get_mem _ _
    testStart_mem := List.get_mem _ _
    testEnd_mem := List.get_mem _ _
    train_lt := hmono (Fin.mk_lt_mk.mpr (by omega))
    validation_le := hmono.monotone (Fin.mk_le_mk.mpr (by omega))
    validation_lt := hmono (Fin.mk_lt_mk.mpr (by omega))
    test_le := hmono.monotone (Fin.mk_le_mk.mpr (by omega)) }

/-- The windows hold as many values as there are positions between the cuts. -/
theorem sized (hordered : ordered.Pairwise (· < ·)) (cuts : Cuts ordered.length) :
    cuts.windows.Sized ordered (cuts.validationEnd - cuts.trainEnd)
      (cuts.testStart - cuts.validationEnd) (cuts.testEnd - cuts.testStart) := by
  have htrain := cuts.train_pos
  have hvalidation := cuts.validation_pos
  have htest := cuts.test_pos
  constructor
  · refine (card_within hordered _ _).trans ?_
    change cuts.validationEnd - 1 + 1 - cuts.trainEnd = _
    omega
  · refine (card_between hordered _ _).trans ?_
    change cuts.testStart - (cuts.validationEnd - 1) - 1 = _
    omega
  · refine (card_within hordered _ _).trans ?_
    change cuts.testEnd - 1 + 1 - cuts.testStart = _
    omega

end Cuts

/-! ### Sliding windows -/

/-- The sizes of windows, and how far the next ones are moved on. -/
structure WindowSizes where
  train : ℕ
  validation : ℕ
  embargo : ℕ
  test : ℕ
  step : ℕ
  train_pos : 0 < train
  validation_pos : 0 < validation
  test_pos : 0 < test
  step_pos : 0 < step

namespace WindowSizes

variable (sizes : WindowSizes) {ordered : List κ}

def span : ℕ := sizes.train + sizes.validation + sizes.embargo + sizes.test

/-- The cuts of the windows that start at a position. -/
def cuts {size start : ℕ} (h : start + sizes.span ≤ size) : Cuts size where
  trainEnd := start + sizes.train
  validationEnd := start + sizes.train + sizes.validation
  testStart := start + sizes.train + sizes.validation + sizes.embargo
  testEnd := start + sizes.span
  train_pos := Nat.add_pos_right start sizes.train_pos
  validation_pos := Nat.lt_add_of_pos_right sizes.validation_pos
  embargo_nonneg := Nat.le_add_right _ _
  test_pos := by
    have htest := sizes.test_pos
    unfold span
    omega
  testEnd_le := h

/-- The windows from a position on. -/
def slide (ordered : List κ) (start : ℕ) : List (Windows κ) :=
  if h : start + sizes.span ≤ ordered.length then
    (sizes.cuts h).windows :: slide ordered (start + sizes.step)
  else []
termination_by ordered.length + 1 - start
decreasing_by
  have := sizes.step_pos
  omega

omit [LinearOrder κ] in
theorem mem_slide {start : ℕ} {windows : Windows κ} (h : windows ∈ sizes.slide ordered start) :
    ∃ (first : ℕ) (hfirst : first + sizes.span ≤ ordered.length),
      windows = (sizes.cuts hfirst).windows := by
  induction start using slide.induct sizes ordered with
  | case1 start hspan ih =>
      rw [slide, dif_pos hspan] at h
      rcases List.mem_cons.mp h with rfl | h
      · exact ⟨start, hspan, rfl⟩
      · exact ih h
  | case2 start hshort =>
      rw [slide, dif_neg hshort] at h
      cases h

theorem inOrder_of_mem_slide (hordered : ordered.Pairwise (· < ·)) {start : ℕ}
    {windows : Windows κ} (h : windows ∈ sizes.slide ordered start) : windows.InOrder ordered := by
  obtain ⟨first, hfirst, rfl⟩ := sizes.mem_slide h
  exact (sizes.cuts hfirst).inOrder hordered

theorem sized_of_mem_slide (hordered : ordered.Pairwise (· < ·)) {start : ℕ}
    {windows : Windows κ} (h : windows ∈ sizes.slide ordered start) :
    windows.Sized ordered sizes.validation sizes.embargo sizes.test := by
  obtain ⟨first, hfirst, rfl⟩ := sizes.mem_slide h
  have hsized := (sizes.cuts hfirst).sized hordered
  have hvalidation : first + sizes.train + sizes.validation - (first + sizes.train) =
      sizes.validation := by omega
  have hembargo : first + sizes.train + sizes.validation + sizes.embargo -
      (first + sizes.train + sizes.validation) = sizes.embargo := by omega
  have htest : first + sizes.span - (first + sizes.train + sizes.validation + sizes.embargo) =
      sizes.test := by
    unfold span
    omega
  simp only [cuts, hvalidation, hembargo, htest] at hsized
  exact hsized

/-- Windows that are moved on by the size of a test window test what follows. -/
theorem adjacent_slide (hordered : ordered.Pairwise (· < ·)) (hstep : sizes.step = sizes.test)
    (start : ℕ) : (sizes.slide ordered start).IsChain (Windows.Adjacent ordered) := by
  have htest := sizes.test_pos
  induction start using slide.induct sizes ordered with
  | case1 start hspan ih =>
      rw [slide, dif_pos hspan]
      by_cases hnext : start + sizes.step + sizes.span ≤ ordered.length
      · rw [slide, dif_pos hnext] at ih ⊢
        refine .cons_cons ?_ ih
        have hlt : (sizes.cuts hspan).windows.testEnd < (sizes.cuts hnext).windows.testStart := by
          refine strictMono_get hordered (Fin.mk_lt_mk.mpr ?_)
          simp only [cuts, span]
          omega
        refine ⟨disjoint_within _ hlt, hlt, Finset.card_eq_zero.mp ?_⟩
        refine (card_between hordered _ _).trans ?_
        simp only [cuts, span]
        omega
      · rw [slide, dif_neg hnext]
        exact .singleton _
  | case2 start hshort =>
      rw [slide, dif_neg hshort]
      exact .nil

omit [LinearOrder κ] in
/-- No more windows fit after those of the loop. -/
theorem length_lt_slide (start : ℕ) :
    ordered.length < start + (sizes.slide ordered start).length * sizes.step + sizes.span := by
  induction start using slide.induct sizes ordered with
  | case1 start hspan ih =>
      rw [slide, dif_pos hspan, List.length_cons, Nat.succ_mul]
      omega
  | case2 start hshort =>
      rw [slide, dif_neg hshort, List.length_nil]
      omega

section View

variable {α : Type*} {view : α → Windows κ} {items : List α} {values : List κ}

/-- Items in the windows that slide over distinct values are in order among all the values. -/
theorem inOrder_of_map (h : items.map view = sizes.slide (sortedSet values) 0) {item : α}
    (hitem : item ∈ items) : (view item).InOrder values := by
  have hmem := List.mem_map_of_mem (f := view) hitem
  rw [h] at hmem
  exact (sizes.inOrder_of_mem_slide (increasing_sortedSet values) hmem).congr
    fun _ => mem_sortedSet

theorem sized_of_map (h : items.map view = sizes.slide (sortedSet values) 0) {item : α}
    (hitem : item ∈ items) :
    (view item).Sized values sizes.validation sizes.embargo sizes.test := by
  have hmem := List.mem_map_of_mem (f := view) hitem
  rw [h] at hmem
  exact (sizes.sized_of_mem_slide (increasing_sortedSet values) hmem).congr fun _ => mem_sortedSet

theorem adjacent_of_map (h : items.map view = sizes.slide (sortedSet values) 0)
    (hstep : sizes.step = sizes.test) :
    items.IsChain fun item next => (view item).Adjacent values (view next) := by
  have hchain := sizes.adjacent_slide (increasing_sortedSet values) hstep 0
  rw [← h, List.isChain_map] at hchain
  exact hchain.imp fun _ _ hadjacent => hadjacent.congr fun _ => mem_sortedSet

theorem card_lt_of_map (h : items.map view = sizes.slide (sortedSet values) 0) :
    (distinct values).card < items.length * sizes.step + sizes.span := by
  have hlength := @length_lt_slide κ sizes (sortedSet values) 0
  rw [← h, List.length_map, Nat.zero_add] at hlength
  have hvalues : distinct values = (sortedSet values).toFinset := by
    ext a
    rw [distinct, List.mem_toFinset, List.mem_toFinset, mem_sortedSet]
  have hnodup : (sortedSet values).Nodup := (increasing_sortedSet values).imp fun hlt => hlt.ne
  rw [hvalues, List.toFinset_card_of_nodup hnodup]
  exact hlength

end View

end WindowSizes

end QuantWorkbench.Lib
