import QuantWorkbench.Data.Normalization
import QuantWorkbench.Lib.Decimals
import QuantWorkbench.Lib.Fallible
import QuantWorkbench.Lib.Runs
import QuantWorkbench.Lib.Tables

/-!
The prediction ledger of `advisory/store.py`. Predictions are appended, and each one gets an outcome
when a later call finds it mature. Outcomes are stored one by one while prices are still being
looked up, so a price that fails leaves the outcomes before it stored and never reported.
-/

namespace QuantWorkbench.Advisory

open Lib Data

/-! ### Records -/

/-- A forecast, with what the ledger only compares as its details. -/
structure ForecastRecord (R : Type) where
  forecastId : Text
  symbol : Symbol
  referencePrice : ℚ
  horizonDays : ℕ
  maturityDate : Date
  details : R
  id_stripped : Text.strip forecastId = forecastId
  id_required : forecastId ≠ []
  horizon_allowed : horizonDays ∈ [5, 10, 20]
  referencePrice_pos : 0 < referencePrice

/-- The data of a record, in which two records differ. -/
def ForecastRecord.data {R : Type} (record : ForecastRecord R) : Text × Symbol × ℚ × ℕ × Date × R :=
  (record.forecastId, record.symbol, record.referencePrice, record.horizonDays,
    record.maturityDate, record.details)

theorem ForecastRecord.data_injective {R : Type} :
    Function.Injective (ForecastRecord.data : ForecastRecord R → _) := by
  rintro ⟨⟩ ⟨⟩ h
  cases h
  rfl

instance {R : Type} [DecidableEq R] : DecidableEq (ForecastRecord R) := fun _ _ =>
  decidable_of_iff _ ForecastRecord.data_injective.eq_iff

/-- An outcome, which matures at midnight, UTC. -/
structure OutcomeRecord where
  forecastId : Text
  symbol : Symbol
  horizonDays : ℕ
  maturityDate : Date
  maturedAt : Date
  realizedPrice : ℚ
  realizedReturn : ℚ
  deriving DecidableEq

inductive LedgerFault where
  | duplicateId
  /-- What `price_lookup` raises, or `Decimal` of what it returns. -/
  | lookup (error : Text)
  | invalidPrice
  /-- A result that the decimal context does not hold. -/
  | arithmetic
  | realizedPrice
  deriving DecidableEq

abbrev PriceLookup : Type := Symbol → Date → Except Text Decimal

/-- `quantize` to a number of places. -/
def quantized? (places : ℕ) (mode : ℚ → ℤ) (x : ℚ) : Option ℚ :=
  if |mode (x * 10 ^ places)| < 10 ^ 28 then some (mode (x * 10 ^ places) / 10 ^ places) else none

/-- The realized price and return of a prediction. -/
def realize {R : Type} (lookup : PriceLookup) (prediction : ForecastRecord R) :
    Except LedgerFault (ℚ × ℚ) :=
  match lookup prediction.symbol prediction.maturityDate with
  | .error error => .error (.lookup error)
  | .ok (.finite price) => do
      require (0 < price) .invalidPrice
      let ratio ← orRaise (DecimalContext.default.result? (price / prediction.referencePrice))
        .arithmetic
      let change ← orRaise (DecimalContext.default.result? (ratio - 1)) .arithmetic
      let realizedReturn ← orRaise (quantized? 6 Rounding.halfUp change) .arithmetic
      let realizedPrice ← orRaise (quantized? 4 Rounding.halfEven price) .arithmetic
      require (0 < realizedPrice) .realizedPrice
      return (realizedPrice, realizedReturn)
  | .ok _ => .error .invalidPrice

def outcomeOf {R : Type} (asOf : Date) (prediction : ForecastRecord R) (realized : ℚ × ℚ) :
    OutcomeRecord where
  forecastId := prediction.forecastId
  symbol := prediction.symbol
  horizonDays := prediction.horizonDays
  maturityDate := prediction.maturityDate
  maturedAt := asOf
  realizedPrice := realized.1
  realizedReturn := realized.2

/-! ### The store -/

structure PredictionLedgerStore (R : Type) where
  predictions : List (ForecastRecord R)
  outcomes : List OutcomeRecord

namespace PredictionLedgerStore

variable {R : Type} (store : PredictionLedgerStore R)

def empty : PredictionLedgerStore R := ⟨[], []⟩

def outcomeIds : List Text := store.outcomes.map OutcomeRecord.forecastId

def appendPrediction [DecidableEq R] (prediction : ForecastRecord R) :
    Except LedgerFault Bool × PredictionLedgerStore R :=
  match store.predictions.find? (fun other => other.forecastId = prediction.forecastId) with
  | some existing =>
      if existing = prediction then (.ok false, store) else (.error .duplicateId, store)
  | none => (.ok true, { store with predictions := store.predictions ++ [prediction] })

def matureEach (asOf : Date) (lookup : PriceLookup) :
    List (ForecastRecord R) → List OutcomeRecord → PredictionLedgerStore R →
      Except LedgerFault (List OutcomeRecord) × PredictionLedgerStore R
  | [], matured, store => (.ok matured, store)
  | prediction :: rest, matured, store =>
      if prediction.forecastId ∈ store.outcomeIds ∨ asOf < prediction.maturityDate then
        matureEach asOf lookup rest matured store
      else
        match realize lookup prediction with
        | .error fault => (.error fault, store)
        | .ok realized =>
            matureEach asOf lookup rest (matured ++ [outcomeOf asOf prediction realized])
              { store with outcomes := store.outcomes ++ [outcomeOf asOf prediction realized] }

def inOrder : List (ForecastRecord R) :=
  sortValues (fun prediction : ForecastRecord R =>
    toLex (prediction.maturityDate, toLex (prediction.symbol.text, prediction.horizonDays)))
    store.predictions

def mature (asOf : Date) (lookup : PriceLookup) :
    Except LedgerFault (List OutcomeRecord) × PredictionLedgerStore R :=
  matureEach asOf lookup store.inOrder [] store

end PredictionLedgerStore

/-! ### Runs -/

inductive LedgerCall (R : Type) where
  | appendPrediction (prediction : ForecastRecord R)
  | mature (asOf : Date) (lookup : PriceLookup)

/-- A store, and what the calls that succeeded have returned. -/
structure LedgerRun (R : Type) where
  store : PredictionLedgerStore R
  returned : List OutcomeRecord

namespace LedgerRun

variable {R : Type} [DecidableEq R] (run : LedgerRun R)

def start : LedgerRun R := ⟨.empty, []⟩

def step : LedgerCall R → LedgerRun R
  | .appendPrediction prediction =>
      { run with store := (run.store.appendPrediction prediction).2 }
  | .mature asOf lookup =>
      match run.store.mature asOf lookup with
      | (.ok matured, store) => ⟨store, run.returned ++ matured⟩
      | (.error _, store) => ⟨store, run.returned⟩

end LedgerRun

/-! ### One call -/

namespace PredictionLedgerStore

variable {R : Type} (store : PredictionLedgerStore R) (asOf : Date) (lookup : PriceLookup)

/-- Whether a call finds a prediction mature. -/
def isDue (prediction : ForecastRecord R) : Bool :=
  decide (prediction.forecastId ∉ store.outcomeIds ∧ prediction.maturityDate ≤ asOf)

def due : List (ForecastRecord R) := store.inOrder.filter (store.isDue asOf)

def realizeEach : List (ForecastRecord R) → List OutcomeRecord × Option LedgerFault
  | [] => ([], none)
  | prediction :: rest =>
      match realize lookup prediction with
      | .error fault => ([], some fault)
      | .ok realized =>
          (outcomeOf asOf prediction realized :: (realizeEach rest).1, (realizeEach rest).2)

variable {store asOf lookup}

theorem appendPrediction_cases [DecidableEq R] (prediction : ForecastRecord R) :
    (store.appendPrediction prediction).2 = store ∨
      (store.appendPrediction prediction).2 =
          { store with predictions := store.predictions ++ [prediction] } ∧
        ∀ other ∈ store.predictions, other.forecastId ≠ prediction.forecastId := by
  unfold appendPrediction
  cases hfound : store.predictions.find?
      (fun other => other.forecastId = prediction.forecastId) with
  | some existing =>
      dsimp only
      split <;> exact .inl rfl
  | none =>
      refine .inr ⟨rfl, fun other hother hsame => ?_⟩
      exact List.find?_eq_none.mp hfound other hother (decide_eq_true hsame)

theorem matureEach_eq {predictions : List (ForecastRecord R)}
    (hids : (predictions.map ForecastRecord.forecastId).Nodup) (matured : List OutcomeRecord)
    (store : PredictionLedgerStore R) :
    let made := realizeEach asOf lookup (predictions.filter (store.isDue asOf))
    matureEach asOf lookup predictions matured store =
      (match made.2 with
        | none => .ok (matured ++ made.1)
        | some fault => .error fault,
       { store with outcomes := store.outcomes ++ made.1 }) := by
  induction predictions generalizing matured store with
  | nil => simp [matureEach, realizeEach]
  | cons prediction rest ih =>
      obtain ⟨hnew, hrest⟩ := List.nodup_cons.mp hids
      dsimp only
      rw [matureEach]
      by_cases hskip : prediction.forecastId ∈ store.outcomeIds ∨ asOf < prediction.maturityDate
      · have hdue : ¬ store.isDue asOf prediction = true := by
          rw [isDue, decide_eq_true_iff, not_and_or, not_not, not_le]
          exact hskip
        rw [if_pos hskip, ih hrest, List.filter_cons_of_neg hdue]
      · have hdue : store.isDue asOf prediction = true :=
          decide_eq_true ((not_or.mp hskip).imp_right not_lt.mp)
        rw [if_neg hskip, List.filter_cons_of_pos hdue, realizeEach]
        cases hrealized : realize lookup prediction with
        | error fault => simp
        | ok realized =>
            -- What is stored for the prediction makes none of the others mature or not.
            have hfilter : rest.filter (isDue { store with
                outcomes := store.outcomes ++ [outcomeOf asOf prediction realized] } asOf) =
                rest.filter (store.isDue asOf) := by
              refine List.filter_congr fun other hother => ?_
              have hne : other.forecastId ≠ prediction.forecastId := by
                intro hsame
                exact hnew (hsame ▸ List.mem_map_of_mem hother)
              simp [isDue, outcomeIds, outcomeOf, hne]
            dsimp only
            rw [ih hrest, hfilter]
            simp only [List.append_assoc, List.singleton_append]

theorem mature_eq (hids : (store.predictions.map ForecastRecord.forecastId).Nodup) :
    let made := realizeEach asOf lookup (store.due asOf)
    store.mature asOf lookup =
      (match made.2 with
        | none => .ok made.1
        | some fault => .error fault,
       { store with outcomes := store.outcomes ++ made.1 }) := by
  have hsorted : (store.inOrder.map ForecastRecord.forecastId).Nodup :=
    ((perm_sortValues store.predictions).map _).nodup_iff.mpr hids
  exact matureEach_eq hsorted [] store

theorem mem_inOrder {prediction : ForecastRecord R} :
    prediction ∈ store.inOrder ↔ prediction ∈ store.predictions := mem_sortValues

theorem mem_due {prediction : ForecastRecord R} :
    prediction ∈ store.due asOf ↔ prediction ∈ store.predictions ∧
      prediction.forecastId ∉ store.outcomeIds ∧ prediction.maturityDate ≤ asOf := by
  rw [due, List.mem_filter, mem_inOrder, isDue, decide_eq_true_iff]

theorem mem_realizeEach {predictions : List (ForecastRecord R)} {outcome : OutcomeRecord}
    (h : outcome ∈ (realizeEach asOf lookup predictions).1) :
    ∃ prediction ∈ predictions, ∃ realized, realize lookup prediction = .ok realized ∧
      outcome = outcomeOf asOf prediction realized := by
  induction predictions with
  | nil => cases h
  | cons prediction rest ih =>
      rw [realizeEach] at h
      cases hrealized : realize lookup prediction with
      | error fault =>
          rw [hrealized] at h
          cases h
      | ok realized =>
          rw [hrealized] at h
          rcases List.mem_cons.mp h with rfl | h
          · exact ⟨prediction, List.mem_cons_self, realized, hrealized, rfl⟩
          · obtain ⟨other, hother, hmade⟩ := ih h
            exact ⟨other, List.mem_cons_of_mem _ hother, hmade⟩

theorem ids_realizeEach (predictions : List (ForecastRecord R)) :
    ((realizeEach asOf lookup predictions).1.map OutcomeRecord.forecastId).Sublist
      (predictions.map ForecastRecord.forecastId) := by
  induction predictions with
  | nil => exact List.Sublist.refl _
  | cons prediction rest ih =>
      rw [realizeEach]
      cases realize lookup prediction with
      | error fault => exact List.nil_sublist _
      | ok realized => exact ih.cons_cons prediction.forecastId

/-- Without a fault every prediction is realized. -/
theorem realizeEach_of_realized {predictions : List (ForecastRecord R)}
    (h : ∀ prediction ∈ predictions, ∃ realized, realize lookup prediction = .ok realized) :
    (realizeEach asOf lookup predictions).2 = none ∧
      (realizeEach asOf lookup predictions).1.map OutcomeRecord.forecastId =
        predictions.map ForecastRecord.forecastId := by
  induction predictions with
  | nil => exact ⟨rfl, rfl⟩
  | cons prediction rest ih =>
      obtain ⟨⟨realized, hrealized⟩, hrest⟩ := List.forall_mem_cons.mp h
      obtain ⟨hnone, hids⟩ := ih hrest
      rw [realizeEach, hrealized]
      exact ⟨hnone, congrArg (prediction.forecastId :: ·) hids⟩

/-- The outcomes of a call are of predictions without one. -/
theorem nodup_outcomeIds_append (hids : (store.predictions.map ForecastRecord.forecastId).Nodup)
    (houtcomes : store.outcomeIds.Nodup) :
    ((store.outcomes ++ (realizeEach asOf lookup (store.due asOf)).1).map
      OutcomeRecord.forecastId).Nodup := by
  have hsorted : (store.inOrder.map ForecastRecord.forecastId).Nodup :=
    ((perm_sortValues store.predictions).map _).nodup_iff.mpr hids
  have hdue : ((store.due asOf).map ForecastRecord.forecastId).Nodup :=
    hsorted.sublist (List.filter_sublist.map _)
  rw [List.map_append, List.nodup_append']
  refine ⟨houtcomes, hdue.sublist (ids_realizeEach _), ?_⟩
  intro id hid hmade
  obtain ⟨prediction, hprediction, rfl⟩ := List.mem_map.mp ((ids_realizeEach _).subset hmade)
  exact (mem_due.mp hprediction).2.1 hid

end PredictionLedgerStore

/-! ### What every run keeps -/

namespace LedgerRun

open PredictionLedgerStore

variable {R : Type} [DecidableEq R] {run : LedgerRun R}

structure Sound (run : LedgerRun R) : Prop where
  ids : (run.store.predictions.map ForecastRecord.forecastId).Nodup
  outcomeIds : run.store.outcomeIds.Nodup
  returned : run.returned.Sublist run.store.outcomes

/-- What a `mature` call makes of a run. -/
theorem step_mature (hsound : run.Sound) (asOf : Date) (lookup : PriceLookup) :
    let made := realizeEach asOf lookup (run.store.due asOf)
    run.step (.mature asOf lookup) =
      ⟨{ run.store with outcomes := run.store.outcomes ++ made.1 },
        match made.2 with
        | none => run.returned ++ made.1
        | some _ => run.returned⟩ := by
  dsimp only
  rw [step, mature_eq hsound.ids]
  cases (realizeEach asOf lookup (run.store.due asOf)).2 <;> rfl

theorem Sound.append (hsound : run.Sound) (prediction : ForecastRecord R) :
    (run.step (.appendPrediction prediction)).Sound := by
  rcases run.store.appendPrediction_cases prediction with hsame | ⟨hstore, hnew⟩
  · have hstep : run.step (.appendPrediction prediction) = run :=
      congrArg (LedgerRun.mk · run.returned) hsame
    rw [hstep]
    exact hsound
  · have hstep : run.step (.appendPrediction prediction) =
        ⟨{ run.store with predictions := run.store.predictions ++ [prediction] }, run.returned⟩ :=
      congrArg (LedgerRun.mk · run.returned) hstore
    rw [hstep]
    refine ⟨?_, hsound.outcomeIds, hsound.returned⟩
    rw [List.map_append, List.map_singleton, List.nodup_append']
    refine ⟨hsound.ids, List.nodup_singleton _, ?_⟩
    intro id hid hlast
    obtain ⟨other, hother, rfl⟩ := List.mem_map.mp hid
    exact hnew other hother (List.mem_singleton.mp hlast)

theorem Sound.step (hsound : run.Sound) (call : LedgerCall R) : (run.step call).Sound := by
  cases call with
  | appendPrediction prediction => exact hsound.append prediction
  | mature asOf lookup =>
      have houtcomes := @nodup_outcomeIds_append R run.store asOf lookup hsound.ids
        hsound.outcomeIds
      rw [step_mature hsound]
      refine ⟨hsound.ids, houtcomes, ?_⟩
      dsimp only
      split
      · exact hsound.returned.append (List.Sublist.refl _)
      · exact hsound.returned.trans (List.sublist_append_left _ _)

omit [DecidableEq R] in
theorem sound_start : (start : LedgerRun R).Sound :=
  ⟨List.nodup_nil, List.nodup_nil, List.Sublist.refl _⟩

/-- The run of some calls from an empty store. -/
def after (calls : List (LedgerCall R)) : LedgerRun R := calls.foldl LedgerRun.step start

theorem sound_after (calls : List (LedgerCall R)) : (after calls).Sound :=
  (Runs.always_of_invariant LedgerRun.step Sound (fun _ call hsound => hsound.step call)
    start calls sound_start).last

/-! ### Calls that do not fail half-way -/

/-- A `mature` call fails at the first mature prediction or at none. -/
def Undivided (run : LedgerRun R) : LedgerCall R → Prop
  | .appendPrediction _ => True
  | .mature asOf lookup => ∀ first rest, run.store.due asOf = first :: rest →
      (∃ fault, realize lookup first = .error fault) ∨
        ∀ prediction ∈ run.store.due asOf, ∃ realized, realize lookup prediction = .ok realized

/-- A `mature` call that raises leaves the outcomes unchanged. -/
def Atomic (run : LedgerRun R) : LedgerCall R → Prop
  | .appendPrediction _ => True
  | .mature asOf lookup => ∀ fault, (run.store.mature asOf lookup).1 = .error fault →
      (run.store.mature asOf lookup).2.outcomes = run.store.outcomes

omit [DecidableEq R] in
theorem realizeEach_of_undivided {asOf : Date} {lookup : PriceLookup}
    (h : run.Undivided (.mature asOf lookup)) :
    (realizeEach asOf lookup (run.store.due asOf)).2 = none ∨
      (realizeEach asOf lookup (run.store.due asOf)).1 = [] := by
  cases hdue : run.store.due asOf with
  | nil => exact .inl rfl
  | cons first rest =>
      rcases h first rest hdue with ⟨fault, hfault⟩ | hall
      · rw [realizeEach, hfault]
        exact .inr rfl
      · rw [← hdue]
        exact .inl (realizeEach_of_realized hall).1

omit [DecidableEq R] in
theorem atomic_of_undivided (hsound : run.Sound) {call : LedgerCall R}
    (h : run.Undivided call) : run.Atomic call := by
  cases call with
  | appendPrediction prediction => trivial
  | mature asOf lookup =>
      intro fault hfault
      rw [mature_eq hsound.ids] at hfault ⊢
      rcases realizeEach_of_undivided h with hnone | hnil
      · rw [hnone] at hfault
        cases hfault
      · dsimp only
        rw [hnil, List.append_nil]

theorem returned_step (hsound : run.Sound) (hreturned : run.returned = run.store.outcomes)
    {call : LedgerCall R} (h : run.Undivided call) :
    (run.step call).returned = (run.step call).store.outcomes := by
  cases call with
  | appendPrediction prediction =>
      have houtcomes : (run.store.appendPrediction prediction).2.outcomes = run.store.outcomes := by
        rcases run.store.appendPrediction_cases prediction with hsame | ⟨hstore, _⟩
        · rw [hsame]
        · rw [hstore]
      exact hreturned.trans houtcomes.symm
  | mature asOf lookup =>
      rw [step_mature hsound, hreturned]
      rcases realizeEach_of_undivided h with hnone | hnil
      · dsimp only
        rw [hnone]
      · dsimp only
        rw [hnil, List.append_nil]
        split <;> rfl

/-! ### Prices that never fail -/

/-- What an outcome tells apart from when it matured. -/
def told (outcome : OutcomeRecord) : Text × Symbol × ℕ × Date × ℚ × ℚ :=
  (outcome.forecastId, outcome.symbol, outcome.horizonDays, outcome.maturityDate,
    outcome.realizedPrice, outcome.realizedReturn)

def Explained (lookup : PriceLookup) (largest : Date) (run : LedgerRun R) : Prop :=
  ∀ outcome ∈ run.store.outcomes, ∃ prediction ∈ run.store.predictions,
    prediction.maturityDate ≤ largest ∧ ∃ realized, realize lookup prediction = .ok realized ∧
      told outcome = told (outcomeOf largest prediction realized)

theorem predictions_subset_step (hsound : run.Sound) (call : LedgerCall R) :
    run.store.predictions ⊆ (run.step call).store.predictions := by
  cases call with
  | appendPrediction prediction =>
      change run.store.predictions ⊆ (run.store.appendPrediction prediction).2.predictions
      rcases run.store.appendPrediction_cases prediction with hsame | ⟨hstore, _⟩
      · rw [hsame]
        exact List.Subset.refl _
      · rw [hstore]
        exact List.subset_append_left _ _
  | mature asOf lookup =>
      rw [step_mature hsound]
      exact List.Subset.refl _

theorem outcomes_subset_step (hsound : run.Sound) (call : LedgerCall R) :
    run.store.outcomes ⊆ (run.step call).store.outcomes := by
  cases call with
  | appendPrediction prediction =>
      change run.store.outcomes ⊆ (run.store.appendPrediction prediction).2.outcomes
      rcases run.store.appendPrediction_cases prediction with hsame | ⟨hstore, _⟩
      · rw [hsame]
        exact List.Subset.refl _
      · rw [hstore]
        exact List.Subset.refl _
  | mature asOf lookup =>
      rw [step_mature hsound]
      exact List.subset_append_left _ _

theorem Explained.step {lookup : PriceLookup} {largest : Date} (hexplained : run.Explained lookup largest)
    (hsound : run.Sound) {call : LedgerCall R}
    (hcall : ∀ asOf other, call = .mature asOf other → other = lookup ∧ asOf ≤ largest) :
    (run.step call).Explained lookup largest := by
  have hpredictions := predictions_subset_step hsound call
  intro outcome houtcome
  -- An outcome of the call itself is of one of the predictions that it finds mature.
  by_cases hold : outcome ∈ run.store.outcomes
  · obtain ⟨prediction, hprediction, hmade⟩ := hexplained outcome hold
    exact ⟨prediction, hpredictions hprediction, hmade⟩
  · cases call with
    | appendPrediction prediction =>
        have hsame : (run.store.appendPrediction prediction).2.outcomes = run.store.outcomes := by
          rcases run.store.appendPrediction_cases prediction with hsame | ⟨hstore, _⟩
          · rw [hsame]
          · rw [hstore]
        exact absurd (hsame ▸ houtcome) hold
    | mature asOf other =>
        obtain ⟨rfl, hle⟩ := hcall asOf other rfl
        rw [step_mature hsound] at houtcome
        rcases List.mem_append.mp houtcome with hmem | hmade
        · exact absurd hmem hold
        · obtain ⟨prediction, hdue, realized, hrealized, rfl⟩ := mem_realizeEach hmade
          obtain ⟨hprediction, _, hmature⟩ := mem_due.mp hdue
          exact ⟨prediction, hpredictions hprediction, hmature.trans hle, realized, hrealized, rfl⟩

/-- After a call whose prices do not fail, each mature prediction has an outcome. -/
theorem outcome_of_mature (hsound : run.Sound) {asOf : Date} {lookup : PriceLookup}
    (hprices : ∀ prediction ∈ run.store.predictions,
      ∃ realized, realize lookup prediction = .ok realized)
    {prediction : ForecastRecord R} (hprediction : prediction ∈ run.store.predictions)
    (hmature : prediction.maturityDate ≤ asOf) :
    prediction.forecastId ∈ (run.step (.mature asOf lookup)).store.outcomeIds := by
  rw [step_mature hsound, outcomeIds]
  dsimp only
  rw [List.map_append, List.mem_append]
  by_cases hdone : prediction.forecastId ∈ run.store.outcomeIds
  · exact .inl hdone
  · refine .inr ?_
    rw [(realizeEach_of_realized fun other hother => hprices other (mem_due.mp hother).1).2]
    exact List.mem_map_of_mem (mem_due.mpr ⟨hprediction, hdone, hmature⟩)

theorem after_append (calls later : List (LedgerCall R)) :
    after (calls ++ later) = later.foldl LedgerRun.step (after calls) := List.foldl_append

/-- What later calls keep of a run. -/
theorem subset_foldl (hsound : run.Sound) (calls : List (LedgerCall R)) :
    run.store.predictions ⊆ (calls.foldl LedgerRun.step run).store.predictions ∧
      run.store.outcomes ⊆ (calls.foldl LedgerRun.step run).store.outcomes := by
  induction calls generalizing run with
  | nil => exact ⟨List.Subset.refl _, List.Subset.refl _⟩
  | cons call rest ih =>
      obtain ⟨hpredictions, houtcomes⟩ := ih (hsound.step call)
      exact ⟨List.Subset.trans (predictions_subset_step hsound call) hpredictions,
        List.Subset.trans (outcomes_subset_step hsound call) houtcomes⟩

/-- The calls look prices up in one place, which never fails, up to a largest date, and a prediction
that is mature by then was there when a call could find it mature. -/
structure MaturedUpTo (calls : List (LedgerCall R)) (lookup : PriceLookup) (largest : Date) :
    Prop where
  lookups : ∀ asOf other, LedgerCall.mature asOf other ∈ calls → other = lookup
  greatest : IsGreatest {asOf | LedgerCall.mature asOf lookup ∈ calls} largest
  neverFails : ∀ prediction ∈ (after calls).store.predictions,
    ∃ realized, realize lookup prediction = .ok realized
  found : ∀ prediction ∈ (after calls).store.predictions, prediction.maturityDate ≤ largest →
    ∃ before asOf later, calls = before ++ .mature asOf lookup :: later ∧
      prediction ∈ (after before).store.predictions ∧ prediction.maturityDate ≤ asOf

theorem explained_foldl {lookup : PriceLookup} {largest : Date} (hsound : run.Sound)
    (hexplained : run.Explained lookup largest) {calls : List (LedgerCall R)}
    (h : ∀ asOf other, LedgerCall.mature asOf other ∈ calls → other = lookup ∧ asOf ≤ largest) :
    (calls.foldl LedgerRun.step run).Explained lookup largest := by
  induction calls generalizing run with
  | nil => exact hexplained
  | cons call rest ih =>
      refine ih (hsound.step call) (hexplained.step hsound fun asOf other hcall => ?_)
        fun asOf other hmem => h asOf other (List.mem_cons_of_mem _ hmem)
      exact h asOf other (hcall ▸ List.mem_cons_self)

theorem told_iff {calls : List (LedgerCall R)} {lookup : PriceLookup} {largest : Date}
    (h : MaturedUpTo calls lookup largest) (fact : Text × Symbol × ℕ × Date × ℚ × ℚ) :
    fact ∈ (after calls).store.outcomes.map told ↔
      ∃ prediction ∈ (after calls).store.predictions, prediction.maturityDate ≤ largest ∧
        ∃ realized, realize lookup prediction = .ok realized ∧
          fact = told (outcomeOf largest prediction realized) := by
  have hcalls : ∀ asOf other, LedgerCall.mature asOf other ∈ calls →
      other = lookup ∧ asOf ≤ largest := by
    intro asOf other hmem
    have hsame := h.lookups asOf other hmem
    exact ⟨hsame, h.greatest.2 (hsame ▸ hmem)⟩
  have hexplained : (after calls).Explained lookup largest :=
    explained_foldl sound_start (fun _ hnone => nomatch hnone) hcalls
  constructor
  · intro hfact
    obtain ⟨outcome, houtcome, rfl⟩ := List.mem_map.mp hfact
    exact hexplained outcome houtcome
  · rintro ⟨prediction, hprediction, hmature, realized, hrealized, rfl⟩
    obtain ⟨before, asOf, later, rfl, hfound, hasOf⟩ := h.found prediction hprediction hmature
    have hsound := sound_after before
    have hsplit : after (before ++ .mature asOf lookup :: later) =
        later.foldl LedgerRun.step ((after before).step (.mature asOf lookup)) :=
      after_append before _
    have hkept := subset_foldl (hsound.step (.mature asOf lookup)) later
    rw [← hsplit] at hkept
    have hprices : ∀ other ∈ (after before).store.predictions,
        ∃ realized, realize lookup other = .ok realized := fun other hother =>
      h.neverFails other (hkept.1 (predictions_subset_step hsound _ hother))
    obtain ⟨outcome, houtcome, hid⟩ := List.mem_map.mp
      (outcome_of_mature hsound hprices hfound hasOf)
    -- The outcome with the identifier of the prediction is of no other prediction.
    obtain ⟨other, hother, hmatureOther, realized', hrealized', htold⟩ :=
      hexplained outcome (hkept.2 houtcome)
    have hsame : other = prediction := by
      refine List.inj_on_of_nodup_map (sound_after _).ids hother hprediction ?_
      exact (congrArg Prod.fst htold).symm.trans hid
    subst hsame
    rw [hrealized] at hrealized'
    cases hrealized'
    exact List.mem_map.mpr ⟨outcome, hkept.2 houtcome, htold⟩

/-- A prediction has one outcome at most, and an outcome is returned once at most. Where no call
fails half-way, each outcome has been returned and a call that raises stores none. Where prices
never fail, the outcomes depend on the predictions and the largest date. -/
theorem outcomes_reported_once (calls : List (LedgerCall R)) :
    (after calls).store.outcomeIds.Nodup ∧
      (after calls).returned.Sublist (after calls).store.outcomes ∧
      (Runs.StepsMeet LedgerRun.step Undivided start calls →
        (after calls).returned = (after calls).store.outcomes ∧
          Runs.StepsMeet LedgerRun.step Atomic start calls) ∧
      ∀ (others : List (LedgerCall R)) (lookup : PriceLookup) (largest : Date),
        MaturedUpTo calls lookup largest → MaturedUpTo others lookup largest →
        (∀ prediction, prediction ∈ (after calls).store.predictions ↔
          prediction ∈ (after others).store.predictions) →
        ∀ fact, fact ∈ (after calls).store.outcomes.map told ↔
          fact ∈ (after others).store.outcomes.map told := by
  have hsound := sound_after calls
  refine ⟨hsound.outcomeIds, hsound.returned, fun hundivided => ⟨?_, ?_⟩, ?_⟩
  · have hrun := (Runs.always_of_stepsMeet LedgerRun.step
      (fun run => run.Sound ∧ run.returned = run.store.outcomes)
      (fun run call hrun hcall => ⟨hrun.1.step call, returned_step hrun.1 hrun.2 hcall⟩)
      start calls ⟨sound_start, rfl⟩ hundivided).last
    exact hrun.2
  · exact hundivided.imp LedgerRun.step Sound (fun run call hrun => hrun.step call)
      (fun run call hrun hcall => atomic_of_undivided hrun hcall) sound_start
  · intro others lookup largest hcalls hothers hsame fact
    rw [told_iff hcalls, told_iff hothers]
    simp only [hsame]

/-! ### One prediction -/

/-- A prediction that matures on the second day of 2026. -/
def oneForecast : ForecastRecord Unit where
  forecastId := "f".toList
  symbol := ⟨"000001".toList, Eq.refl true⟩
  referencePrice := 10
  horizonDays := 5
  maturityDate := .of 2026 1 2
  details := ()
  id_stripped := by decide
  id_required := by decide
  horizon_allowed := by decide
  referencePrice_pos := by norm_num

def elevenLookup : PriceLookup := fun _ _ => .ok (.finite 11)

theorem realize_oneForecast : realize elevenLookup oneForecast = .ok (11, 1 / 10) := by
  decide +kernel

def secondDay : Date := .of 2026 1 2

def appendedFirst : List (LedgerCall Unit) :=
  [.appendPrediction oneForecast, .mature secondDay elevenLookup]

def appendedLast : List (LedgerCall Unit) :=
  [.mature secondDay elevenLookup, .appendPrediction oneForecast]

theorem predictions_appended :
    (after appendedFirst).store.predictions = [oneForecast] ∧
      (after appendedLast).store.predictions = [oneForecast] := by
  decide +kernel

/-- Maturing it once more changes nothing, and what was returned is what is stored. -/
theorem oneForecast_reported :
    (after appendedFirst).returned = (after appendedFirst).store.outcomes ∧
      ∀ fact, fact ∈ (after appendedFirst).store.outcomes.map told ↔
        fact ∈ (after (appendedFirst ++ [.mature secondDay elevenLookup])).store.outcomes.map
          told := by
  have hpredictions := predictions_appended.1
  have htwice : (after (appendedFirst ++ [.mature secondDay elevenLookup])).store.predictions =
      [oneForecast] := by decide +kernel
  have hprices : ∀ prediction ∈ [oneForecast],
      ∃ realized, realize elevenLookup prediction = .ok realized := by
    rintro prediction hmem
    rw [List.mem_singleton.mp hmem]
    exact ⟨_, realize_oneForecast⟩
  have hmatured : ∀ calls : List (LedgerCall Unit), (after calls).store.predictions = [oneForecast] →
      (∃ later, calls = [.appendPrediction oneForecast, .mature secondDay elevenLookup] ++ later ∧
        ∀ call ∈ later, call = .mature secondDay elevenLookup) →
      MaturedUpTo calls elevenLookup secondDay := by
    rintro calls hcalls ⟨later, rfl, hlater⟩
    have hmem : ∀ asOf other, LedgerCall.mature asOf other ∈
        [.appendPrediction oneForecast, .mature secondDay elevenLookup] ++ later →
        asOf = secondDay ∧ other = elevenLookup := by
      intro asOf other hmem
      simp only [List.cons_append, List.nil_append, List.mem_cons, reduceCtorEq, false_or] at hmem
      rcases hmem with hfirst | hrest
      · exact LedgerCall.mature.inj hfirst
      · exact LedgerCall.mature.inj (hlater _ hrest)
    refine ⟨fun asOf other h => (hmem asOf other h).2,
      ⟨by simp, fun asOf h => (hmem asOf _ h).1.le⟩, fun prediction h => ?_, fun prediction h _ => ?_⟩
    · exact hprices prediction (hcalls ▸ h)
    · refine ⟨[.appendPrediction oneForecast], secondDay, later, rfl, ?_, ?_⟩
      · rw [hcalls] at h
        exact h
      · rw [hcalls] at h
        rw [List.mem_singleton.mp h]
        exact le_rfl
  have hfirst := hmatured appendedFirst hpredictions ⟨[], rfl, fun _ h => absurd h List.not_mem_nil⟩
  have hsecond := hmatured _ htwice ⟨[.mature secondDay elevenLookup], rfl, fun _ h =>
    List.mem_singleton.mp h⟩
  have hundivided : Runs.StepsMeet LedgerRun.step Undivided start appendedFirst := by
    refine ⟨trivial, fun first rest hdue => .inr fun prediction hprediction => ?_, trivial⟩
    exact hprices prediction (mem_due.mp hprediction).1
  have hreported := outcomes_reported_once appendedFirst
  refine ⟨(hreported.2.2.1 hundivided).1, hreported.2.2.2 _ _ _ hfirst hsecond fun prediction => ?_⟩
  rw [hpredictions, htwice]

/-- A prediction that is appended after the last call has no outcome: with the same predictions,
the same dates and prices that never fail, the outcomes are not the same. -/
theorem outcome_missing_of_last :
    (after appendedLast).store.predictions = (after appendedFirst).store.predictions ∧
      (∀ call, call ∈ appendedLast ↔ call ∈ appendedFirst) ∧
      (∃ realized, realize elevenLookup oneForecast = .ok realized) ∧
      (after appendedFirst).store.outcomes.map told =
        [told (outcomeOf secondDay oneForecast (11, 1 / 10))] ∧
      (after appendedLast).store.outcomes.map told = [] := by
  refine ⟨predictions_appended.2.trans predictions_appended.1.symm, fun call => ?_,
    ⟨_, realize_oneForecast⟩, by decide +kernel, by decide +kernel⟩
  exact (List.Perm.swap _ _ []).mem_iff

end LedgerRun

end QuantWorkbench.Advisory
