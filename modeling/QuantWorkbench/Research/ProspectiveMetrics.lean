import Mathlib.Algebra.BigOperators.Fin
import Mathlib.Analysis.Real.Sqrt
import QuantWorkbench.Lib.Columns
import QuantWorkbench.Lib.Drawdown
import QuantWorkbench.Research.ProspectiveContest

/-!
`compute_metrics` of `research/prospective_competition.py`: what the settled predictions of a
contest say about its model. All metrics but the drawdown depend on which predictions were settled
and how, not on when; the drawdown runs over the settlements as they were appended.
-/

namespace QuantWorkbench.Research.Prospective

open Lib

/-! ### Ledgers -/

/-- A prediction, as far as the metrics read it. -/
structure Prediction (F : Type) [Field F] [LinearOrder F] where
  id : Text
  modelId : Text
  modelVersion : Text
  configHash : Text
  trainingSnapshotHash : Text
  modelBundleDigest : Text
  score : F
  probability : Option F
  probabilityCalibrated : Bool
  inUnit : ∀ p ∈ probability, 0 ≤ p ∧ p ≤ 1
  calibrated : probabilityCalibrated = true → probability.isSome = true

structure OutcomeObservation (F : Type) where
  predictionId : Text
  realizedReturn : Option F

/-- The records of a ledger in the order in which they were appended. A prediction is appended
once, and settled once by an outcome with a return. -/
structure Ledger (F : Type) [Field F] [LinearOrder F] where
  predictions : List (Prediction F)
  settlements : List (OutcomeObservation F)
  distinctPredictions : (predictions.map Prediction.id).Nodup
  distinctSettlements : (settlements.map OutcomeObservation.predictionId).Nodup
  known : ∀ outcome ∈ settlements, outcome.predictionId ∈ predictions.map Prediction.id
  returned : ∀ outcome ∈ settlements, outcome.realizedReturn.isSome = true

structure Competition (F : Type) [Field F] [LinearOrder F] where
  store : Ledger F
  contest : Option ProspectiveContest

section Definitions

variable {F : Type} [Field F] [LinearOrder F]

def registeredBy (registration : ContestRegistration) (item : Prediction F) : Bool :=
  decide ((item.modelId, item.modelVersion, item.configHash, item.trainingSnapshotHash) =
    (registration.modelId, registration.modelVersion, registration.configHash,
      registration.trainingSnapshotHash)) &&
    registration.modelBundleDigest.all fun digest => item.modelBundleDigest = digest

def Competition.contestPredictions (competition : Competition F) : List (Prediction F) :=
  match competition.contest with
  | none => competition.store.predictions
  | some contest =>
      match contest.registration with
      | none => []
      | some registration => competition.store.predictions.filter (registeredBy registration)

/-! ### Metrics -/

structure Metrics (F : Type) where
  directionalHitRate : Option F
  brier : Option F
  ece : Option F
  rankIc : Option F
  netCostReturn : Option F
  maxDrawdown : Option F
  turnover : Option F
  coverage : F
  rejectionRate : F

/-- The probabilities and labels of a bin of `_expected_calibration_error`. -/
def bucket [FloorSemiring F] (items : List (F × F)) (bin : ℕ) : List (F × F) :=
  items.filter fun item => min 9 ⌊item.1 * 10⌋₊ = bin

def expectedCalibrationError [FloorSemiring F] (items : List (F × F)) : F :=
  ((((List.range 10).map (bucket items)).filter (· ≠ [])).map fun found =>
    (found.length : F) / items.length *
      |mean (found.map Prod.fst) - mean (found.map Prod.snd)|).sum

/-- The rank of a value: where it stands last among the sorted ones. -/
def rank (values : List F) (value : F) : F :=
  (((sortValues id values).zipIdx.reverse.lookup value).getD 0 : ℕ)

def rankCorrelation [SquareRoot F] (items : List (F × F)) : Option F :=
  if items.length < 2 then none
  else
    let leftRanks := items.map fun item => rank (items.map Prod.fst) item.1
    let rightRanks := items.map fun item => rank (items.map Prod.snd) item.2
    let leftMean := mean leftRanks
    let rightMean := mean rightRanks
    let numerator := (List.zipWith (fun a b => (a - leftMean) * (b - rightMean))
      leftRanks rightRanks).sum
    let denominator := SquareRoot.sqrt ((leftRanks.map fun a => (a - leftMean) ^ 2).sum *
      (rightRanks.map fun b => (b - rightMean) ^ 2).sum)
    some (if denominator ≠ 0 then numerator / denominator else 0)

def label (value : F) : F := if 0 < value then 1 else 0

def allCalibrated (settled : List (Prediction F)) : Bool :=
  settled.all fun item => item.probabilityCalibrated && item.probability.isSome

/-- Whether the model was right about each label: by its probabilities, or else by its scores. -/
def hits (settled : List (Prediction F)) (labels : List F) : List Bool :=
  if allCalibrated settled then
    List.zipWith (fun probability label => decide (1 / 2 ≤ probability) == decide (label ≠ 0))
      (settled.filterMap Prediction.probability) labels
  else
    List.zipWith (fun score label => decide (50 ≤ score) == decide (label ≠ 0))
      (settled.map Prediction.score) labels

variable [FloorSemiring F] [SquareRoot F]

def metricsOf (total : ℕ) (costBps : F) (settled : List (Prediction F)) (returns : List F) :
    Metrics F :=
  let labels := returns.map label
  let probabilities := settled.filterMap Prediction.probability
  let turnover : F := settled.length / max total 1
  let coverage : F := settled.length / total
  { directionalHitRate := some ((hits settled labels).count true / labels.length)
    brier :=
      if allCalibrated settled then
        some ((List.zipWith (fun probability label => (probability - label) ^ 2)
          probabilities labels).sum / labels.length)
      else none
    ece :=
      if allCalibrated settled then some (expectedCalibrationError (probabilities.zip labels))
      else none
    rankIc := rankCorrelation ((settled.map Prediction.score).zip returns)
    netCostReturn := some (returns.sum / returns.length - costBps / 10000 * turnover)
    maxDrawdown := some (maxDrawdown
      (returns.map fun value => value - costBps / 10000 * turnover / returns.length))
    turnover := some turnover
    coverage := coverage
    rejectionRate := 1 - coverage }

namespace Competition

def find? (competition : Competition F) (id : Text) : Option (Prediction F) :=
  competition.contestPredictions.find? fun item => item.id = id

/-- The settlements of the predictions of the contest. -/
def outcomes (competition : Competition F) : List (OutcomeObservation F) :=
  competition.store.settlements.filter fun item => (competition.find? item.predictionId).isSome

def computeMetrics (competition : Competition F) (costBps : F) : Except String (Metrics F) := do
  require (0 ≤ costBps) "cost_bps must be finite and non-negative"
  let total := competition.contestPredictions.length
  let outcomes := competition.outcomes
  if outcomes.isEmpty then
    return ⟨none, none, none, none, none, none, none, 0, 1⟩
  return metricsOf total costBps
    (outcomes.filterMap fun item => competition.find? item.predictionId)
    (outcomes.filterMap OutcomeObservation.realizedReturn)

end Competition

end Definitions

/-! ### Metrics in any order -/

section Orders

variable {F : Type} [Field F] [LinearOrder F]

omit [LinearOrder F] in
theorem mean_eq_of_perm {values others : List F} (h : values.Perm others) :
    mean values = mean others := by
  rw [mean, mean, h.sum_eq, h.length_eq]

theorem rank_eq_of_perm {values others : List F} (h : values.Perm others) :
    rank values = rank others := by
  funext value
  rw [rank, rank, sortValues_eq_of_perm h]

/-- The ranks of a pair among all pairs. -/
def ranksOf (items : List (F × F)) (item : F × F) : F × F :=
  (rank (items.map Prod.fst) item.1, rank (items.map Prod.snd) item.2)

theorem ranksOf_eq_of_perm {items others : List (F × F)} (h : items.Perm others) :
    ranksOf items = ranksOf others := by
  funext item
  rw [ranksOf, ranksOf, rank_eq_of_perm (h.map Prod.fst), rank_eq_of_perm (h.map Prod.snd)]

/-- How far the ranks of a pair are from their means. -/
def deviations (items : List (F × F)) (item : F × F) : F × F :=
  ((ranksOf items item).1 - mean (items.map fun item => (ranksOf items item).1),
    (ranksOf items item).2 - mean (items.map fun item => (ranksOf items item).2))

theorem deviations_eq_of_perm {items others : List (F × F)} (h : items.Perm others) :
    deviations items = deviations others := by
  funext item
  rw [deviations, deviations, ranksOf_eq_of_perm h, mean_eq_of_perm (h.map _),
    mean_eq_of_perm (h.map _)]

theorem rankCorrelation_eq [SquareRoot F] (items : List (F × F)) :
    rankCorrelation items =
      if items.length < 2 then none
      else
        let products := (items.map fun item =>
          (deviations items item).1 * (deviations items item).2).sum
        let size := SquareRoot.sqrt ((items.map fun item => (deviations items item).1 ^ 2).sum *
          (items.map fun item => (deviations items item).2 ^ 2).sum)
        some (if size ≠ 0 then products / size else 0) := by
  simp only [rankCorrelation, List.zipWith_map, List.zipWith_self, List.map_map]
  rfl

theorem rankCorrelation_eq_of_perm [SquareRoot F] {items others : List (F × F)}
    (h : items.Perm others) : rankCorrelation items = rankCorrelation others := by
  rw [rankCorrelation_eq, rankCorrelation_eq, deviations_eq_of_perm h, h.length_eq,
    (h.map _).sum_eq, (h.map _).sum_eq, (h.map _).sum_eq]

variable [FloorSemiring F]

theorem bucket_perm {items others : List (F × F)} (h : items.Perm others) (bin : ℕ) :
    (bucket items bin).Perm (bucket others bin) := h.filter _

def binError (items : List (F × F)) (bin : ℕ) : F :=
  (bucket items bin).length / items.length *
    |mean ((bucket items bin).map Prod.fst) - mean ((bucket items bin).map Prod.snd)|

theorem binError_eq_of_perm {items others : List (F × F)} (h : items.Perm others) (bin : ℕ) :
    binError items bin = binError others bin := by
  have hbucket := bucket_perm h bin
  rw [binError, binError, h.length_eq, hbucket.length_eq, mean_eq_of_perm (hbucket.map _),
    mean_eq_of_perm (hbucket.map _)]

theorem expectedCalibrationError_eq (items : List (F × F)) :
    expectedCalibrationError items = ((List.range 10).map (binError items)).sum := by
  rw [expectedCalibrationError]
  induction List.range 10 with
  | nil => rfl
  | cons bin later ih =>
      rw [List.map_cons, List.map_cons, List.sum_cons, ← ih]
      by_cases h : bucket items bin = []
      · rw [List.filter_cons_of_neg (by simp [h]), binError, h, List.length_nil, Nat.cast_zero,
          zero_div, zero_mul, zero_add]
      · rw [List.filter_cons_of_pos (by simp [h]), List.map_cons, List.sum_cons]
        rfl

theorem expectedCalibrationError_eq_of_perm {items others : List (F × F)}
    (h : items.Perm others) :
    expectedCalibrationError items = expectedCalibrationError others := by
  rw [expectedCalibrationError_eq, expectedCalibrationError_eq, funext (binError_eq_of_perm h)]

/-! ### Pairs of a prediction and its return -/

omit [FloorSemiring F]

/-- Whether the model was right about a settled prediction. -/
def hit (calibrated : Bool) (pair : Prediction F × F) : Bool :=
  decide (if calibrated then 1 / 2 ≤ pair.1.probability.getD 0 else 50 ≤ pair.1.score) ==
    decide (label pair.2 ≠ 0)

def odds (pair : Prediction F × F) : F × F := (pair.1.probability.getD 0, label pair.2)

theorem filterMap_probability {pairs : List (Prediction F × F)}
    (h : allCalibrated (pairs.map Prod.fst) = true) :
    (pairs.map Prod.fst).filterMap Prediction.probability =
      pairs.map fun pair => pair.1.probability.getD 0 := by
  induction pairs with
  | nil => rfl
  | cons pair rest ih =>
      rw [List.map_cons, allCalibrated, List.all_cons, Bool.and_eq_true] at h
      obtain ⟨probability, hprobability⟩ :=
        Option.isSome_iff_exists.mp (Bool.and_eq_true_iff.mp h.1).2
      rw [List.map_cons, List.filterMap_cons_some hprobability, ih h.2, List.map_cons,
        hprobability, Option.getD_some]

theorem allCalibrated_eq_of_perm {settled others : List (Prediction F)}
    (h : settled.Perm others) : allCalibrated settled = allCalibrated others := by
  rw [Bool.eq_iff_iff, allCalibrated, allCalibrated, List.all_eq_true, List.all_eq_true]
  exact forall_congr' fun item => by rw [h.mem_iff]

theorem hits_eq (pairs : List (Prediction F × F)) :
    hits (pairs.map Prod.fst) ((pairs.map Prod.snd).map label) =
      pairs.map (hit (allCalibrated (pairs.map Prod.fst))) := by
  rw [hits]
  split
  · next h =>
      rw [filterMap_probability h, List.map_map, List.zipWith_map, List.zipWith_self, h]
      rfl
  · next h =>
      rw [Bool.not_eq_true] at h
      rw [List.map_map, List.map_map, List.zipWith_map, List.zipWith_self, h]
      simp [hit]

/-- The part of the costs that each of a number of settled predictions bears. -/
def costShare (total : ℕ) (costBps : F) (count : ℕ) : F :=
  costBps / 10000 * (count / (max total 1 : ℕ)) / count

variable [FloorSemiring F] [SquareRoot F]

theorem metricsOf_pairs (total : ℕ) (costBps : F) (pairs : List (Prediction F × F)) :
    metricsOf total costBps (pairs.map Prod.fst) (pairs.map Prod.snd) =
      let calibrated := allCalibrated (pairs.map Prod.fst)
      { directionalHitRate := some ((pairs.map (hit calibrated)).count true / pairs.length)
        brier :=
          if calibrated then
            some (((pairs.map odds).map fun item => (item.1 - item.2) ^ 2).sum / pairs.length)
          else none
        ece := if calibrated then some (expectedCalibrationError (pairs.map odds)) else none
        rankIc := rankCorrelation (pairs.map fun pair => (pair.1.score, pair.2))
        netCostReturn := some ((pairs.map Prod.snd).sum / pairs.length -
          costBps / 10000 * (pairs.length / (max total 1 : ℕ)))
        maxDrawdown := some (maxDrawdown
          (pairs.map fun pair => pair.2 - costShare total costBps pairs.length))
        turnover := some (pairs.length / (max total 1 : ℕ))
        coverage := pairs.length / total
        rejectionRate := 1 - pairs.length / total } := by
  have hscores : ((pairs.map Prod.fst).map Prediction.score).zip (pairs.map Prod.snd) =
      pairs.map fun pair => (pair.1.score, pair.2) := by
    rw [List.map_map, List.zip_map', Function.comp_def]
  have hadjusted : ((pairs.map Prod.snd).map fun value => value -
      costBps / 10000 * (pairs.length / (max total 1 : ℕ)) / pairs.length) =
        pairs.map fun pair => pair.2 - costShare total costBps pairs.length := by
    rw [List.map_map]
    rfl
  by_cases h : allCalibrated (pairs.map Prod.fst) = true
  · have hprobabilities := filterMap_probability h
    have hodds : ((pairs.map Prod.fst).filterMap Prediction.probability).zip
        ((pairs.map Prod.snd).map label) = pairs.map odds := by
      rw [hprobabilities, List.map_map, List.zip_map']
      rfl
    have hbrier : List.zipWith (fun probability label => (probability - label) ^ 2)
        ((pairs.map Prod.fst).filterMap Prediction.probability)
        ((pairs.map Prod.snd).map label) =
          (pairs.map odds).map fun item => (item.1 - item.2) ^ 2 := by
      rw [hprobabilities, List.map_map, List.zipWith_map, List.zipWith_self, List.map_map]
      rfl
    simp only [metricsOf, hits_eq, hodds, hbrier, hscores, hadjusted, List.length_map]
  · simp only [metricsOf, hits_eq, hscores, hadjusted, if_neg h, List.length_map]

/-- Of all metrics only the drawdown may tell two orders apart. -/
theorem metricsOf_eq_iff_of_perm (total : ℕ) (costBps : F) {pairs others : List (Prediction F × F)}
    (h : others.Perm pairs) :
    metricsOf total costBps (others.map Prod.fst) (others.map Prod.snd) =
        metricsOf total costBps (pairs.map Prod.fst) (pairs.map Prod.snd) ↔
      maxDrawdown (others.map fun pair => pair.2 - costShare total costBps pairs.length) =
        maxDrawdown (pairs.map fun pair => pair.2 - costShare total costBps pairs.length) := by
  have hcalibrated := allCalibrated_eq_of_perm (h.map Prod.fst)
  rw [metricsOf_pairs, metricsOf_pairs]
  simp only [hcalibrated, h.length_eq, (h.map _).count_eq, ((h.map _).map _).sum_eq,
    (h.map Prod.snd).sum_eq, expectedCalibrationError_eq_of_perm (h.map odds),
    rankCorrelation_eq_of_perm (h.map _), Metrics.mk.injEq, Option.some.injEq, true_and, and_true]

end Orders

/-! ### Bounds -/

/-- The rates lie between zero and one, and the correlation between minus one and one. -/
structure Metrics.Bounded (metrics : Metrics ℝ) : Prop where
  directionalHitRate : ∀ value ∈ metrics.directionalHitRate, value ∈ Set.Icc 0 1
  brier : ∀ value ∈ metrics.brier, value ∈ Set.Icc 0 1
  ece : ∀ value ∈ metrics.ece, value ∈ Set.Icc 0 1
  rankIc : ∀ value ∈ metrics.rankIc, value ∈ Set.Icc (-1) 1
  coverage : metrics.coverage ∈ Set.Icc 0 1
  rejectionRate : metrics.rejectionRate ∈ Set.Icc 0 1

noncomputable instance : SquareRoot ℝ := ⟨Real.sqrt⟩

theorem sqrt_eq (value : ℝ) : SquareRoot.sqrt value = √value := rfl

theorem natCast_div_mem {count total : ℕ} (h : count ≤ total) :
    (count / total : ℝ) ∈ Set.Icc 0 1 :=
  ⟨by positivity, div_le_one_of_le₀ (Nat.cast_le.mpr h) (Nat.cast_nonneg total)⟩

/-- The mean of values between zero and one. -/
theorem mean_mem {values : List ℝ} (h : ∀ value ∈ values, value ∈ Set.Icc 0 1) :
    mean values ∈ Set.Icc 0 1 := by
  have hsum : values.sum ≤ values.length := by
    have hcard := values.sum_le_card_nsmul 1 fun value hvalue => (h value hvalue).2
    rwa [nsmul_eq_mul, mul_one] at hcard
  exact ⟨div_nonneg (List.sum_nonneg fun value hvalue => (h value hvalue).1) (Nat.cast_nonneg _),
    div_le_one_of_le₀ hsum (Nat.cast_nonneg _)⟩

theorem label_mem (value : ℝ) : label value ∈ Set.Icc (0 : ℝ) 1 := by
  unfold label
  split <;> simp

theorem odds_mem (pair : Prediction ℝ × ℝ) :
    (odds pair).1 ∈ Set.Icc 0 1 ∧ (odds pair).2 ∈ Set.Icc 0 1 := by
  refine ⟨?_, label_mem pair.2⟩
  unfold odds
  cases h : pair.1.probability with
  | none => simp
  | some probability => exact pair.1.inUnit probability h

theorem brier_mem (pairs : List (Prediction ℝ × ℝ)) :
    mean ((pairs.map odds).map fun item => (item.1 - item.2) ^ 2) ∈ Set.Icc 0 1 := by
  apply mean_mem
  intro value hvalue
  obtain ⟨item, hitem, rfl⟩ := List.mem_map.mp hvalue
  obtain ⟨pair, _, rfl⟩ := List.mem_map.mp hitem
  obtain ⟨⟨hlow, hhigh⟩, hzero, hone⟩ := odds_mem pair
  refine ⟨sq_nonneg _, (sq_le_one_iff_abs_le_one _).mpr (abs_le.mpr ⟨?_, ?_⟩)⟩ <;> linarith

/-- Each item lies in one of the ten bins. -/
theorem sum_length_bucket (items : List (ℝ × ℝ)) :
    ((List.range 10).map fun bin => (bucket items bin).length).sum = items.length := by
  have hone : ∀ place < 10,
      ((List.range 10).map fun bin => if place = bin then 1 else 0).sum = 1 := by decide
  induction items with
  | nil => rfl
  | cons item rest ih =>
      have hstep : ∀ bin, (bucket (item :: rest) bin).length =
          (bucket rest bin).length + if min 9 ⌊item.1 * 10⌋₊ = bin then 1 else 0 := by
        intro bin
        rw [bucket, List.filter_cons]
        by_cases h : min 9 ⌊item.1 * 10⌋₊ = bin
        · rw [if_pos (decide_eq_true h), if_pos h, List.length_cons, bucket]
        · rw [if_neg (by simpa using h), if_neg h, add_zero, bucket]
      simp only [hstep]
      rw [List.sum_map_add, ih, hone _ (by omega), List.length_cons]

theorem binError_mem {items : List (ℝ × ℝ)}
    (h : ∀ item ∈ items, item.1 ∈ Set.Icc 0 1 ∧ item.2 ∈ Set.Icc 0 1) (bin : ℕ) :
    binError items bin ∈ Set.Icc 0 ((bucket items bin).length / items.length : ℝ) := by
  have hfirst : mean ((bucket items bin).map Prod.fst) ∈ Set.Icc 0 1 := by
    apply mean_mem
    intro value hvalue
    obtain ⟨item, hitem, rfl⟩ := List.mem_map.mp hvalue
    exact (h item (List.mem_of_mem_filter hitem)).1
  have hsecond : mean ((bucket items bin).map Prod.snd) ∈ Set.Icc 0 1 := by
    apply mean_mem
    intro value hvalue
    obtain ⟨item, hitem, rfl⟩ := List.mem_map.mp hvalue
    exact (h item (List.mem_of_mem_filter hitem)).2
  have habs : |mean ((bucket items bin).map Prod.fst) -
      mean ((bucket items bin).map Prod.snd)| ≤ 1 := by
    rw [abs_le]
    constructor <;> linarith [hfirst.1, hfirst.2, hsecond.1, hsecond.2]
  have hweight : (0 : ℝ) ≤ (bucket items bin).length / items.length := by positivity
  exact ⟨mul_nonneg hweight (abs_nonneg _), mul_le_of_le_one_right hweight habs⟩

theorem expectedCalibrationError_mem {items : List (ℝ × ℝ)}
    (h : ∀ item ∈ items, item.1 ∈ Set.Icc 0 1 ∧ item.2 ∈ Set.Icc 0 1) :
    expectedCalibrationError items ∈ Set.Icc 0 1 := by
  rw [expectedCalibrationError_eq]
  constructor
  · refine List.sum_nonneg fun value hvalue => ?_
    obtain ⟨bin, _, rfl⟩ := List.mem_map.mp hvalue
    exact (binError_mem h bin).1
  · have hsum : ((List.range 10).map fun bin =>
        ((bucket items bin).length / items.length : ℝ)).sum = items.length / items.length := by
      simp only [div_eq_mul_inv]
      rw [List.sum_map_mul_right, ← sum_length_bucket items, Nat.cast_list_sum, List.map_map]
      rfl
    calc ((List.range 10).map (binError items)).sum
        ≤ ((List.range 10).map fun bin =>
            ((bucket items bin).length / items.length : ℝ)).sum :=
          List.sum_le_sum fun bin _ => (binError_mem h bin).2
      _ = items.length / items.length := hsum
      _ ≤ 1 := div_self_le_one _

/-- The products are bounded by the sizes of their factors. -/
theorem sq_sum_products_le {α : Type*} (items : List α) (f g : α → ℝ) :
    (items.map fun item => f item * g item).sum ^ 2 ≤
      (items.map fun item => f item ^ 2).sum * (items.map fun item => g item ^ 2).sum := by
  have h := Finset.sum_mul_sq_le_sq_mul_sq (Finset.univ : Finset (Fin items.length))
    (fun i => f items[i.val]) fun i => g items[i.val]
  rwa [Fin.sum_univ_fun_getElem items fun item => f item * g item,
    Fin.sum_univ_fun_getElem items fun item => f item ^ 2,
    Fin.sum_univ_fun_getElem items fun item => g item ^ 2] at h

theorem rankCorrelation_mem (items : List (ℝ × ℝ)) :
    ∀ value ∈ rankCorrelation items, value ∈ Set.Icc (-1) 1 := by
  intro value hvalue
  rw [rankCorrelation_eq] at hvalue
  split at hvalue
  · cases hvalue
  · obtain rfl := Option.some.inj hvalue
    have hbound := Real.abs_le_sqrt (sq_sum_products_le items
      (fun item => (deviations items item).1) fun item => (deviations items item).2)
    split
    · rw [Set.mem_Icc, ← abs_le, sqrt_eq, abs_div, abs_of_nonneg (Real.sqrt_nonneg _)]
      exact div_le_one_of_le₀ hbound (Real.sqrt_nonneg _)
    · simp

theorem metricsOf_bounded {total : ℕ} (costBps : ℝ) {pairs : List (Prediction ℝ × ℝ)}
    (h : pairs.length ≤ total) :
    (metricsOf total costBps (pairs.map Prod.fst) (pairs.map Prod.snd)).Bounded := by
  have hcoverage := natCast_div_mem h
  rw [metricsOf_pairs]
  constructor
  · intro value hvalue
    obtain rfl := Option.some.inj hvalue
    refine natCast_div_mem ?_
    exact List.count_le_length.trans_eq (List.length_map _)
  · intro value hvalue
    dsimp only at hvalue
    split at hvalue
    · obtain rfl := Option.some.inj hvalue
      have hbrier := brier_mem pairs
      rwa [mean, List.length_map, List.length_map] at hbrier
    · cases hvalue
  · intro value hvalue
    dsimp only at hvalue
    split at hvalue
    · obtain rfl := Option.some.inj hvalue
      refine expectedCalibrationError_mem fun item hitem => ?_
      obtain ⟨pair, _, rfl⟩ := List.mem_map.mp hitem
      exact odds_mem pair
    · cases hvalue
  · exact rankCorrelation_mem _
  · exact hcoverage
  · exact ⟨sub_nonneg.mpr hcoverage.2, sub_le_self _ hcoverage.1⟩

/-! ### Two orders of one ledger -/

section Ledgers

variable {F : Type} [Field F] [LinearOrder F]

def Ledger.SameRecords (ledger other : Ledger F) : Prop :=
  other.predictions.Perm ledger.predictions ∧ other.settlements.Perm ledger.settlements

theorem find?_id_eq_some_iff {items : List (Prediction F)} (h : (items.map Prediction.id).Nodup)
    {id : Text} {item : Prediction F} :
    items.find? (fun other => other.id = id) = some item ↔ item ∈ items ∧ item.id = id := by
  constructor
  · intro hfound
    exact ⟨List.mem_of_find?_eq_some hfound, by simpa using List.find?_some hfound⟩
  · rintro ⟨hmem, rfl⟩
    cases hfound : items.find? fun other => other.id = item.id with
    | none =>
        have hnot := List.find?_eq_none.mp hfound item hmem
        exact absurd (decide_eq_true rfl) hnot
    | some other =>
        have hid : other.id = item.id := by simpa using List.find?_some hfound
        rw [List.inj_on_of_nodup_map h (List.mem_of_find?_eq_some hfound) hmem hid]

namespace Competition

variable (competition : Competition F)

theorem contestPredictions_sublist :
    competition.contestPredictions.Sublist competition.store.predictions := by
  unfold contestPredictions
  split
  · exact List.Sublist.refl _
  · split
    · exact List.nil_sublist _
    · exact List.filter_sublist

theorem nodup_ids : (competition.contestPredictions.map Prediction.id).Nodup :=
  competition.store.distinctPredictions.sublist (competition.contestPredictions_sublist.map _)

/-- The settled prediction and its return. -/
def pair? (outcome : OutcomeObservation F) : Option (Prediction F × F) :=
  (competition.find? outcome.predictionId).bind fun item =>
    outcome.realizedReturn.map fun value => (item, value)

def pairs : List (Prediction F × F) := competition.outcomes.filterMap competition.pair?

theorem exists_pair {outcome : OutcomeObservation F} (h : outcome ∈ competition.outcomes) :
    ∃ item value, competition.find? outcome.predictionId = some item ∧
      outcome.realizedReturn = some value ∧ competition.pair? outcome = some (item, value) := by
  obtain ⟨hsettled, hfound⟩ := List.mem_filter.mp h
  obtain ⟨item, hitem⟩ := Option.isSome_iff_exists.mp hfound
  obtain ⟨value, hvalue⟩ :=
    Option.isSome_iff_exists.mp (competition.store.returned outcome hsettled)
  exact ⟨item, value, hitem, hvalue, by rw [pair?, hitem, hvalue]; rfl⟩

theorem map_pairs (share : F) :
    competition.pairs.map Prod.fst =
        competition.outcomes.filterMap (fun item => competition.find? item.predictionId) ∧
      competition.pairs.map Prod.snd =
        competition.outcomes.filterMap OutcomeObservation.realizedReturn ∧
      competition.pairs.map (fun pair => pair.2 - share) =
        competition.outcomes.map (fun item => item.realizedReturn.getD 0 - share) := by
  have h : ∀ outcome ∈ competition.outcomes, ∃ item value,
      competition.find? outcome.predictionId = some item ∧
        outcome.realizedReturn = some value ∧ competition.pair? outcome = some (item, value) :=
    fun _ houtcome => competition.exists_pair houtcome
  unfold pairs
  generalize competition.outcomes = outcomes at h ⊢
  induction outcomes with
  | nil => exact ⟨rfl, rfl, rfl⟩
  | cons outcome rest ih =>
      obtain ⟨item, value, hitem, hvalue, hpair⟩ := h outcome List.mem_cons_self
      obtain ⟨hfirst, hsecond, hthird⟩ :=
        ih fun other hother => h other (List.mem_cons_of_mem _ hother)
      simp only [List.filterMap_cons, List.map_cons, hpair, hitem, hvalue, hfirst, hsecond, hthird,
        Option.getD_some, and_self]

theorem length_pairs : competition.pairs.length = competition.outcomes.length := by
  rw [← List.length_map (fun pair => pair.2 - 0), (competition.map_pairs 0).2.2, List.length_map]

theorem length_outcomes_le :
    competition.outcomes.length ≤ competition.contestPredictions.length := by
  have hnodup : (competition.outcomes.map OutcomeObservation.predictionId).Nodup :=
    competition.store.distinctSettlements.sublist (List.filter_sublist.map _)
  have hsubset : competition.outcomes.map OutcomeObservation.predictionId ⊆
      competition.contestPredictions.map Prediction.id := by
    intro id hid
    obtain ⟨outcome, houtcome, rfl⟩ := List.mem_map.mp hid
    obtain ⟨item, _, hitem, _, _⟩ := competition.exists_pair houtcome
    obtain ⟨hmem, hsame⟩ := (find?_id_eq_some_iff competition.nodup_ids).mp hitem
    rw [← hsame]
    exact List.mem_map_of_mem hmem
  simpa using (List.subperm_of_subset hnodup hsubset).length_le

theorem computeMetrics_eq [FloorSemiring F] [SquareRoot F] {costBps : F} (hcost : 0 ≤ costBps) :
    competition.computeMetrics costBps =
      if competition.outcomes.isEmpty then .ok ⟨none, none, none, none, none, none, none, 0, 1⟩
      else .ok (metricsOf competition.contestPredictions.length costBps
        (competition.pairs.map Prod.fst) (competition.pairs.map Prod.snd)) := by
  rw [computeMetrics, require, if_pos hcost, (competition.map_pairs 0).1,
    (competition.map_pairs 0).2.1]
  rfl

end Competition

end Ledgers

namespace Competition

theorem computeMetrics_bounded (competition : Competition ℝ) {costBps : ℝ} {metrics : Metrics ℝ}
    (h : competition.computeMetrics costBps = .ok metrics) : metrics.Bounded := by
  by_cases hcost : 0 ≤ costBps
  · rw [competition.computeMetrics_eq hcost] at h
    split at h
    · obtain rfl := Except.ok.inj h
      constructor <;> simp
    · obtain rfl := Except.ok.inj h
      apply metricsOf_bounded
      rw [length_pairs]
      exact competition.length_outcomes_le
  · rw [computeMetrics, require, if_neg hcost] at h
    cases h

end Competition

section Orders

variable {contest : Option ProspectiveContest} {ledger other : Ledger ℝ}

theorem Ledger.SameRecords.contestPredictions (h : ledger.SameRecords other) :
    (Competition.mk other contest).contestPredictions.Perm
      (Competition.mk ledger contest).contestPredictions := by
  cases contest with
  | none => exact h.1
  | some contest =>
      simp only [Competition.contestPredictions]
      cases contest.registration with
      | none => exact List.Perm.refl _
      | some registration => exact h.1.filter _

theorem Ledger.SameRecords.find?_eq (h : ledger.SameRecords other) :
    (Competition.mk other contest).find? = (Competition.mk ledger contest).find? := by
  funext id
  apply Option.ext
  intro item
  rw [Competition.find?, Competition.find?, find?_id_eq_some_iff (Competition.nodup_ids _),
    find?_id_eq_some_iff (Competition.nodup_ids _), h.contestPredictions.mem_iff]

theorem Ledger.SameRecords.outcomes (h : ledger.SameRecords other) :
    (Competition.mk other contest).outcomes.Perm (Competition.mk ledger contest).outcomes := by
  rw [Competition.outcomes, Competition.outcomes, h.find?_eq]
  exact h.2.filter _

theorem Ledger.SameRecords.pairs (h : ledger.SameRecords other) :
    (Competition.mk other contest).pairs.Perm (Competition.mk ledger contest).pairs := by
  have hpair : (Competition.mk other contest).pair? = (Competition.mk ledger contest).pair? := by
    funext outcome
    rw [Competition.pair?, Competition.pair?, h.find?_eq]
  rw [Competition.pairs, Competition.pairs, hpair]
  exact h.outcomes.filterMap _

/-- What a settled prediction returned after its part of the costs. -/
noncomputable def adjustedReturn (total : ℕ) (costBps : ℝ) (outcome : OutcomeObservation ℝ) : ℝ :=
  outcome.realizedReturn.getD 0 - costBps / 10000 / total

theorem costShare_eq (competition : Competition ℝ) (costBps : ℝ)
    (h : competition.outcomes ≠ []) :
    costShare competition.contestPredictions.length costBps competition.outcomes.length =
      costBps / 10000 / competition.contestPredictions.length := by
  have hcount := List.length_pos_iff.mpr h
  have htotal := competition.length_outcomes_le
  have hcast : (competition.outcomes.length : ℝ) ≠ 0 := Nat.cast_ne_zero.mpr hcount.ne'
  rw [costShare, max_eq_left (hcount.trans_le htotal)]
  field_simp

/-- Two orders have the same metrics exactly if they have the same drawdown. -/
theorem Ledger.SameRecords.computeMetrics_eq_iff {costBps : ℝ} (hcost : 0 ≤ costBps)
    (h : ledger.SameRecords other) :
    (Competition.mk other contest).computeMetrics costBps =
        (Competition.mk ledger contest).computeMetrics costBps ↔
      maxDrawdown ((Competition.mk other contest).outcomes.map
        (adjustedReturn (Competition.mk ledger contest).contestPredictions.length costBps)) =
      maxDrawdown ((Competition.mk ledger contest).outcomes.map
        (adjustedReturn (Competition.mk ledger contest).contestPredictions.length costBps)) := by
  have houtcomes : (Competition.mk other contest).outcomes.Perm
      (Competition.mk ledger contest).outcomes := h.outcomes
  rw [Competition.computeMetrics_eq _ hcost, Competition.computeMetrics_eq _ hcost]
  by_cases hnone : (Competition.mk ledger contest).outcomes = []
  · rw [hnone] at houtcomes
    rw [hnone, houtcomes.eq_nil]
    exact iff_of_true rfl rfl
  · have hother : (Competition.mk other contest).outcomes ≠ [] :=
      fun hnil => hnone (hnil ▸ houtcomes).nil_eq.symm
    rw [if_neg (by simpa using hother), if_neg (by simpa using hnone), Except.ok.injEq,
      h.contestPredictions.length_eq, metricsOf_eq_iff_of_perm _ _ h.pairs,
      (Competition.map_pairs _ _).2.2, (Competition.map_pairs _ _).2.2, Competition.length_pairs,
      costShare_eq _ _ hnone]
    rfl

/-- The ledger with its settlements in another order. -/
def Ledger.reordered (ledger : Ledger ℝ) (settlements : List (OutcomeObservation ℝ))
    (h : settlements.Perm ledger.settlements) : Ledger ℝ where
  predictions := ledger.predictions
  settlements := settlements
  distinctPredictions := ledger.distinctPredictions
  distinctSettlements := (h.map _).nodup_iff.mpr ledger.distinctSettlements
  known outcome hmem := ledger.known outcome (h.mem_iff.mp hmem)
  returned outcome hmem := ledger.returned outcome (h.mem_iff.mp hmem)

theorem exists_order {outcomes : List (OutcomeObservation ℝ)}
    (h : outcomes.Perm (Competition.mk ledger contest).outcomes) :
    ∃ other : Ledger ℝ, ledger.SameRecords other ∧
      (Competition.mk other contest).outcomes = outcomes := by
  have hsplit : (outcomes ++ ledger.settlements.filter fun item =>
      !((Competition.mk ledger contest).find? item.predictionId).isSome).Perm
        ledger.settlements :=
    (h.append_right _).trans (List.filter_append_perm _ _)
  refine ⟨ledger.reordered _ hsplit, ⟨List.Perm.refl _, hsplit⟩, ?_⟩
  have hfound : ∀ item ∈ outcomes,
      ((Competition.mk ledger contest).find? item.predictionId).isSome = true :=
    fun item hitem => (List.mem_filter.mp (h.mem_iff.mp hitem)).2
  have hrest : ∀ item ∈ ledger.settlements.filter fun item =>
      !((Competition.mk ledger contest).find? item.predictionId).isSome,
      ¬ ((Competition.mk ledger contest).find? item.predictionId).isSome = true := by
    intro item hitem
    simpa using (List.mem_filter.mp hitem).2
  change (outcomes ++ ledger.settlements.filter fun item =>
    !((Competition.mk ledger contest).find? item.predictionId).isSome).filter (fun item =>
      ((Competition.mk ledger contest).find? item.predictionId).isSome) = outcomes
  rw [List.filter_append, List.filter_eq_self.mpr hfound, List.filter_eq_nil_iff.mpr hrest,
    List.append_nil]

/-- The metrics come from the records alone, and they are in their bounds if every return is at
least minus one. -/
def EvidenceOnly (contest : Option ProspectiveContest) (costBps : ℝ) (ledger : Ledger ℝ) : Prop :=
  (∀ other, ledger.SameRecords other →
    (Competition.mk other contest).computeMetrics costBps =
      (Competition.mk ledger contest).computeMetrics costBps) ∧
  ((∀ outcome ∈ ledger.settlements, ∀ value ∈ outcome.realizedReturn, -1 ≤ value) →
    ∀ metrics, (Competition.mk ledger contest).computeMetrics costBps = .ok metrics →
      metrics.Bounded)

/-- The drawdown depends on the order as soon as two settled predictions of the contest return
less than their costs and one returns more. -/
theorem evidenceOnly_iff (contest : Option ProspectiveContest) (costBps : ℝ) (ledger : Ledger ℝ) :
    EvidenceOnly contest costBps ledger ↔
      costBps < 0 ∨
      (Competition.mk ledger contest).outcomes.countP (fun outcome =>
        adjustedReturn (Competition.mk ledger contest).contestPredictions.length costBps
          outcome < 0) ≤ 1 ∨
      ∀ outcome ∈ (Competition.mk ledger contest).outcomes,
        adjustedReturn (Competition.mk ledger contest).contestPredictions.length costBps
          outcome ≤ 0 := by
  have hbounded : (∀ outcome ∈ ledger.settlements, ∀ value ∈ outcome.realizedReturn, -1 ≤ value) →
      ∀ metrics, (Competition.mk ledger contest).computeMetrics costBps = .ok metrics →
        metrics.Bounded := fun _ _ h => Competition.computeMetrics_bounded _ h
  rcases lt_or_ge costBps 0 with hnegative | hcost
  · refine iff_of_true ⟨fun other _ => ?_, hbounded⟩ (Or.inl hnegative)
    rw [Competition.computeMetrics, Competition.computeMetrics, require, if_neg hnegative.not_ge]
    rfl
  · rw [← maxDrawdown_perm_iff, EvidenceOnly, and_iff_left hbounded, or_iff_right hcost.not_gt]
    constructor
    · intro h outcomes hperm
      obtain ⟨other, hsame, houtcomes⟩ := exists_order hperm
      have heq := (hsame.computeMetrics_eq_iff hcost).mp (h other hsame)
      rwa [houtcomes] at heq
    · intro h other hsame
      exact (hsame.computeMetrics_eq_iff hcost).mpr (h _ hsame.outcomes)

end Orders

section Sample

noncomputable def samplePrediction (id : Text) : Prediction ℝ where
  id := id
  modelId := "model".toList
  modelVersion := "v1".toList
  configHash := "config".toList
  trainingSnapshotHash := "snapshot".toList
  modelBundleDigest := []
  score := 60
  probability := none
  probabilityCalibrated := false
  inUnit := by rintro _ ⟨⟩
  calibrated := by rintro ⟨⟩

noncomputable def sampleSettlements : List (OutcomeObservation ℝ) :=
  [⟨['a'], some (-1 / 10)⟩, ⟨['b'], some (1 / 10)⟩, ⟨['c'], some (-1 / 10)⟩]

/-- Two losses with a gain between them. -/
noncomputable def sampleLedger : Ledger ℝ where
  predictions := [samplePrediction ['a'], samplePrediction ['b'], samplePrediction ['c']]
  settlements := sampleSettlements
  distinctPredictions := by simp [samplePrediction]
  distinctSettlements := by simp [sampleSettlements]
  known := by simp [sampleSettlements, samplePrediction]
  returned := by simp [sampleSettlements]

/-- The gain is settled last. -/
theorem sample_perm : ([⟨['a'], some (-1 / 10)⟩, ⟨['c'], some (-1 / 10)⟩, ⟨['b'], some (1 / 10)⟩] :
    List (OutcomeObservation ℝ)).Perm sampleSettlements :=
  (List.Perm.swap _ _ []).cons _

/-- The drawdown is a tenth in one order, and a fifth in the other. -/
theorem sample_not_evidenceOnly : ¬ EvidenceOnly none 0 sampleLedger := by
  rintro ⟨hsame, _⟩
  have hrecords : sampleLedger.SameRecords (sampleLedger.reordered _ sample_perm) :=
    ⟨List.Perm.refl _, sample_perm⟩
  have heq := (hrecords.computeMetrics_eq_iff le_rfl).mp (hsame _ hrecords)
  have houtcomes : (Competition.mk sampleLedger none).outcomes = sampleSettlements := rfl
  have hothers : (Competition.mk (sampleLedger.reordered _ sample_perm) none).outcomes =
      [⟨['a'], some (-1 / 10)⟩, ⟨['c'], some (-1 / 10)⟩, ⟨['b'], some (1 / 10)⟩] := rfl
  rw [houtcomes, hothers] at heq
  norm_num [maxDrawdown, drawdownStep, adjustedReturn, sampleSettlements] at heq

end Sample

end QuantWorkbench.Research.Prospective
