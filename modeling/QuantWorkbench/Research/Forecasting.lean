import QuantWorkbench.Lib.Columns
import QuantWorkbench.Lib.Fallible

/-!
The training data of the forecast challengers: labels from the closes a number of rows later,
walk-forward folds over the distinct dates, and the rows that a fold trains on.
-/

namespace QuantWorkbench.Research

open Lib

/-! ### Tables -/

structure PriceRow (F : Type) where
  symbol : Text
  date : Date
  close : F
  /-- The columns whose names begin with `feature_`, in the order of the names. -/
  features : List (Option F)

structure BenchmarkRow (F : Type) where
  date : Date
  close : F

structure ForecastTables (F : Type) where
  /-- The names that begin with `feature_`, in order. -/
  featureSchema : List String
  prices : List (PriceRow F)
  benchmark : List (BenchmarkRow F)

/-- The columns of one horizon. -/
structure HorizonLabel (F : Type) where
  forwardReturn : Option F
  benchmarkReturn : Option F
  excessReturn : Option F
  positiveEdge : Bool

structure ForecastRow (F : Type) where
  symbol : Text
  date : Date
  features : List (Option F)
  label : ℕ → HorizonLabel F

structure WalkForwardFold where
  trainEnd : Date
  validationStart : Date
  validationEnd : Date
  testStart : Date
  testEnd : Date

variable {F : Type} [Field F] [LinearOrder F]

/-! ### Labels -/

def normalisePrices (rows : List (PriceRow F)) : Except String (List (PriceRow F)) := do
  require (rows ≠ []) "price data cannot be empty"
  require (∀ row ∈ rows, 0 < row.close) "close prices must be finite and positive"
  return rows.map fun row => { row with symbol := zfill 6 row.symbol }

def normaliseBenchmark (rows : List (BenchmarkRow F)) : Except String (List (BenchmarkRow F)) := do
  require (rows ≠ []) "price data cannot be empty"
  require (∀ row ∈ rows, 0 < row.close) "close prices must be finite and positive"
  return rows

def sortStock (stock : List (PriceRow F)) : List (PriceRow F) :=
  sortValues (fun row => toLex (row.symbol, row.date)) stock

def sortBench (bench : List (BenchmarkRow F)) : List (BenchmarkRow F) :=
  keepFirst BenchmarkRow.date (sortValues BenchmarkRow.date bench)

/-- The rows of a symbol in the order of the table. -/
def ownRows (symbol : Text) (rows : List (PriceRow F)) : List (PriceRow F) :=
  rows.filter fun row => row.symbol = symbol

def benchmarkReturn (horizon : ℕ) : List (BenchmarkRow F) → Date → Option F
  | [], _ => none
  | row :: later, day =>
      if row.date = day then
        ((row :: later)[horizon]?).map fun future => future.close / row.close - 1
      else benchmarkReturn horizon later day

/-- The columns of a horizon, from the row, its symbol's later rows and the benchmark. -/
def horizonLabel (roundTripCost : F) (bench : List (BenchmarkRow F)) (row : PriceRow F)
    (later : List (PriceRow F)) (horizon : ℕ) : HorizonLabel F :=
  let forwardReturn := ((row :: later)[horizon]?).map fun future => future.close / row.close - 1
  let benchmarkReturn := benchmarkReturn horizon bench row.date
  let excess := forwardReturn.bind fun forward => benchmarkReturn.map fun bench => forward - bench
  { forwardReturn
    benchmarkReturn
    excessReturn := excess.map fun excess => excess - roundTripCost
    positiveEdge := excess.any fun excess => roundTripCost + 1 / 200 < excess }

/-- The features of a row: those of the table or, if it has none, the return over five rows. -/
def rowFeatures (schema : List String) (earlier : List (PriceRow F)) (row : PriceRow F) :
    List (Option F) :=
  if schema = [] then
    [((row :: earlier)[5]?).map fun before => row.close / before.close - 1]
  else row.features

def forecastRow (schema : List String) (roundTripCost : F) (bench : List (BenchmarkRow F))
    (place : Place (PriceRow F)) : ForecastRow F where
  symbol := place.row.symbol
  date := place.row.date
  features := rowFeatures schema (ownRows place.row.symbol place.seen) place.row
  label := horizonLabel roundTripCost bench place.row (ownRows place.row.symbol place.later)

/-- `build_forecast_labels`, with the features that `train_challengers` adds. -/
def buildForecastLabels (tables : ForecastTables F) (roundTripCost : F) :
    Except String (List (ForecastRow F)) := do
  require (0 ≤ roundTripCost) "round_trip_cost cannot be negative"
  let stock ← normalisePrices tables.prices
  let bench ← normaliseBenchmark tables.benchmark
  return around (forecastRow tables.featureSchema roundTripCost (sortBench bench)) (sortStock stock)

/-! ### Folds -/

/-- The folds from a start on: 756 sessions of training, 252 of validation, 126 of embargo and 126
of test, moved on by the sessions of a test. -/
def foldsFrom (ordered : List Date) (start : ℕ) : List WalkForwardFold :=
  if h : start + 1260 ≤ ordered.length then
    { trainEnd := ordered.get ⟨start + 755, by omega⟩
      validationStart := ordered.get ⟨start + 756, by omega⟩
      validationEnd := ordered.get ⟨start + 1007, by omega⟩
      testStart := ordered.get ⟨start + 1134, by omega⟩
      testEnd := ordered.get ⟨start + 1259, by omega⟩ } :: foldsFrom ordered (start + 126)
  else []
termination_by ordered.length - start
decreasing_by omega

def walkForwardFolds (dates : List Date) : List WalkForwardFold := foldsFrom (sortedSet dates) 0

/-! ### Training -/

/-- What a fold trains on from a row: its features and whether its edge is positive. -/
def ForecastRow.example? (row : ForecastRow F) : Option (List F × Bool) := do
  let features ← row.features.mapM id
  let _ ← (row.label 5).forwardReturn
  let _ ← (row.label 5).benchmarkReturn
  return (features, (row.label 5).positiveEdge)

/-- The matrix and the labels of a fold. -/
def trainingRows (labels : List (ForecastRow F)) (fold : WalkForwardFold) :
    List (List F × Bool) :=
  (labels.filter fun row => row.date ≤ fold.trainEnd).filterMap ForecastRow.example?

/-- What the models of a fold are fitted to, which is nothing without two classes. -/
def foldTraining (labels : List (ForecastRow F)) (fold : WalkForwardFold) :
    Option (List (List F) × List Bool) :=
  let train := trainingRows labels fold
  if (train.map Prod.snd).dedup.length < 2 then none
  else some (train.map Prod.fst, train.map Prod.snd)

def trainChallengers (tables : ForecastTables F) (roundTripCost : F) :
    Except String (List (WalkForwardFold × Option (List (List F) × List Bool))) := do
  let labels ← buildForecastLabels tables roundTripCost
  return (walkForwardFolds (labels.map ForecastRow.date)).map fun fold =>
    (fold, foldTraining labels fold)

end QuantWorkbench.Research

/-!
What the rows of a fold depend on: the rows up to the end of its training window and, for the
last ones of each code, the rows behind it. A window in which every row that could be trained on
has its outcome is fixed by its own rows.
-/

namespace QuantWorkbench.Research

open Lib

variable {F : Type}

/-! ### Tables up to a day -/

def PriceRow.padded (row : PriceRow F) : PriceRow F := { row with symbol := zfill 6 row.symbol }

def ForecastTables.stockBy (tables : ForecastTables F) (day : Date) : List (PriceRow F) :=
  sortStock ((tables.prices.filter fun row => row.date ≤ day).map PriceRow.padded)

def ForecastTables.stockAfter (tables : ForecastTables F) (day : Date) (symbol : Text) :
    List (PriceRow F) :=
  (sortStock (tables.prices.map PriceRow.padded)).filter fun row =>
    row.symbol = symbol ∧ day < row.date

def ForecastTables.benchBy (tables : ForecastTables F) (day : Date) : List (BenchmarkRow F) :=
  sortBench (tables.benchmark.filter fun row => row.date ≤ day)

/-- Both tables have the same rows dated on or before the day, and prices of the same dates. -/
structure ForecastTables.AgreesBy (tables : ForecastTables F) (day : Date)
    (other : ForecastTables F) : Prop where
  featureSchema : other.featureSchema = tables.featureSchema
  prices : (other.prices.filter fun row => row.date ≤ day) =
    tables.prices.filter fun row => row.date ≤ day
  benchmark : (other.benchmark.filter fun row => row.date ≤ day) =
    tables.benchmark.filter fun row => row.date ≤ day
  dates : ∀ date, date ∈ other.prices.map PriceRow.date ↔ date ∈ tables.prices.map PriceRow.date

theorem sortStock_pairwise (rows : List (PriceRow F)) :
    (sortStock rows).Pairwise fun a b => a.symbol = b.symbol → a.date ≤ b.date := by
  refine (pairwise_sortValues rows).imp fun {a b} hle hsame => ?_
  rcases Prod.Lex.toLex_le_toLex.mp hle with hlt | ⟨_, hdate⟩
  · exact absurd hsame hlt.ne
  · exact hdate

theorem stockBy_eq (tables : ForecastTables F) (day : Date) :
    tables.stockBy day =
      (sortStock (tables.prices.map PriceRow.padded)).filter fun row => row.date ≤ day := by
  rw [ForecastTables.stockBy, sortStock, sortStock, filter_sortValues, List.filter_map]
  rfl

theorem sortBench_increasing (rows : List (BenchmarkRow F)) :
    Increasing BenchmarkRow.date (sortBench rows) :=
  increasing_keepFirst (pairwise_sortValues rows)

theorem mem_dates_sortBench {rows : List (BenchmarkRow F)} {day : Date} :
    day ∈ (sortBench rows).map BenchmarkRow.date ↔ day ∈ rows.map BenchmarkRow.date := by
  rw [sortBench, mem_keys_keepFirst, List.mem_map, List.mem_map]
  simp only [mem_sortValues]

/-- The benchmark is the one up to the day, followed by the rows behind it. -/
theorem sortBench_split (tables : ForecastTables F) (day : Date) :
    sortBench tables.benchmark = tables.benchBy day ++
      (sortBench tables.benchmark).filter fun row => day < row.date := by
  have hbounded : tables.benchBy day =
      (sortBench tables.benchmark).filter fun row => row.date ≤ day := by
    rw [ForecastTables.benchBy, sortBench, sortBench, ← filter_sortValues]
    exact (filter_keepFirst (fun date => decide (date ≤ day)) _).symm
  rw [hbounded]
  exact upTo_append_behind ((sortBench_increasing _).imp fun h => h.le) day

/-! ### The benchmark's return -/

section

variable [Field F]

theorem benchmarkReturn_append {horizon : ℕ} {rows later : List (BenchmarkRow F)} {day : Date}
    (h : (benchmarkReturn horizon rows day).isSome) :
    benchmarkReturn horizon (rows ++ later) day = benchmarkReturn horizon rows day := by
  induction rows with
  | nil => cases h
  | cons row rest ih =>
      rw [List.cons_append, benchmarkReturn, benchmarkReturn]
      rw [benchmarkReturn] at h
      split
      · rename_i hday
        rw [if_pos hday, Option.isSome_map] at h
        have hlt : horizon < (row :: rest).length := by
          simpa using h
        rw [← List.cons_append, List.getElem?_append_left hlt]
      · rename_i hday
        rw [if_neg hday] at h
        exact ih h

theorem isSome_benchmarkReturn_iff {horizon : ℕ} {rows : List (BenchmarkRow F)} {day : Date}
    (hrows : Increasing BenchmarkRow.date rows) :
    (benchmarkReturn horizon rows day).isSome ↔
      day ∈ rows.map BenchmarkRow.date ∧
        horizon ≤ (rows.filter fun row => day < row.date).length := by
  induction rows with
  | nil => simp [benchmarkReturn]
  | cons row rest ih =>
      obtain ⟨hrow, hrest⟩ := List.pairwise_cons.mp hrows
      rw [benchmarkReturn, List.map_cons, List.mem_cons]
      split
      · rename_i hday
        subst hday
        have hlater : (row :: rest).filter (fun other => row.date < other.date) = rest := by
          rw [List.filter_cons_of_neg (by simp), List.filter_eq_self]
          intro other hother
          simpa using hrow other hother
        rw [hlater, Option.isSome_map]
        simp
      · rename_i hday
        rw [ih hrest]
        constructor
        · rintro ⟨hmem, hlength⟩
          obtain ⟨other, hother, rfl⟩ := List.mem_map.mp hmem
          refine ⟨Or.inr hmem, ?_⟩
          rwa [List.filter_cons_of_neg (by simpa using (hrow other hother).le)]
        · rintro ⟨hmem, hlength⟩
          rcases hmem with rfl | hmem
          · exact absurd rfl hday
          · obtain ⟨other, hother, rfl⟩ := List.mem_map.mp hmem
            rw [List.filter_cons_of_neg (by simpa using (hrow other hother).le)] at hlength
            exact ⟨hmem, hlength⟩

/-! ### Examples -/

omit [Field F] in
theorem isSome_example {row : ForecastRow F} :
    row.example?.isSome ↔ (row.features.mapM id).isSome ∧ (row.label 5).forwardReturn.isSome ∧
      (row.label 5).benchmarkReturn.isSome := by
  unfold ForecastRow.example?
  cases row.features.mapM id <;> cases (row.label 5).forwardReturn <;>
    cases (row.label 5).benchmarkReturn <;> simp

variable [LinearOrder F]

/-- What is trained on from a row, given the rows of its symbol around it. -/
def ownExample (schema : List String) (roundTripCost : F) (bench : List (BenchmarkRow F))
    (earlier : List (PriceRow F)) (row : PriceRow F) (later : List (PriceRow F)) :
    Option (List F × Bool) :=
  ForecastRow.example? {
    symbol := row.symbol
    date := row.date
    features := rowFeatures schema earlier row
    label := horizonLabel roundTripCost bench row later }

theorem isSome_ownExample {schema : List String} {cost : F} {bench : List (BenchmarkRow F)}
    {earlier later : List (PriceRow F)} {row : PriceRow F} :
    (ownExample schema cost bench earlier row later).isSome ↔
      ((rowFeatures schema earlier row).mapM id).isSome ∧ 5 ≤ later.length ∧
        (benchmarkReturn 5 bench row.date).isSome := by
  have houtcome : (horizonLabel cost bench row later 5).forwardReturn.isSome ↔
      5 ≤ later.length := by
    change (((row :: later)[5]?).map _).isSome ↔ _
    rw [Option.isSome_map]
    simp
    omega
  rw [ownExample, isSome_example, houtcome]
  rfl

/-- Only the fifth row behind it and the benchmark's return count. -/
theorem ownExample_congr {schema : List String} {cost : F} {bench other : List (BenchmarkRow F)}
    {earlier later behind : List (PriceRow F)} {row : PriceRow F}
    (houtcome : (row :: later)[5]? = (row :: behind)[5]?)
    (hbench : benchmarkReturn 5 bench row.date = benchmarkReturn 5 other row.date) :
    ownExample schema cost bench earlier row later =
      ownExample schema cost other earlier row behind := by
  have hlabel : horizonLabel cost bench row later 5 = horizonLabel cost other row behind 5 := by
    unfold horizonLabel
    rw [houtcome, hbench]
  unfold ownExample ForecastRow.example?
  simp only [hlabel]

def ForecastTables.labels (tables : ForecastTables F) (roundTripCost : F) :
    List (ForecastRow F) :=
  around (forecastRow tables.featureSchema roundTripCost (sortBench tables.benchmark))
    (sortStock (tables.prices.map PriceRow.padded))

/-- The tables have rows, and their closes are positive. -/
structure ForecastTables.Valid (tables : ForecastTables F) : Prop where
  prices : tables.prices ≠ []
  closes : ∀ row ∈ tables.prices, 0 < row.close
  benchmark : tables.benchmark ≠ []
  benchmarkCloses : ∀ row ∈ tables.benchmark, 0 < row.close

theorem buildForecastLabels_eq_ok_iff {tables : ForecastTables F} {cost : F}
    {labels : List (ForecastRow F)} :
    buildForecastLabels tables cost = .ok labels ↔
      0 ≤ cost ∧ tables.Valid ∧ labels = tables.labels cost := by
  unfold buildForecastLabels normalisePrices normaliseBenchmark
  simp only [bind_eq_ok_iff, require_eq_ok_iff, pure, Except.pure, Except.ok.injEq]
  constructor
  · rintro ⟨_, hcost, _, ⟨_, hprices, _, hcloses, rfl⟩, _, ⟨_, hbench, _, hbenchCloses, rfl⟩, rfl⟩
    exact ⟨hcost, ⟨hprices, hcloses, hbench, hbenchCloses⟩, rfl⟩
  · rintro ⟨hcost, hvalid, rfl⟩
    exact ⟨(), hcost, _, ⟨(), hvalid.prices, (), hvalid.closes, rfl⟩, _,
      ⟨(), hvalid.benchmark, (), hvalid.benchmarkCloses, rfl⟩, rfl⟩

theorem trainingRows_eq (tables : ForecastTables F) (cost : F) (fold : WalkForwardFold) :
    trainingRows (tables.labels cost) fold =
      (places [] (tables.stockBy fold.trainEnd)).filterMap fun place =>
        ownExample tables.featureSchema cost (sortBench tables.benchmark)
          (ownRows place.row.symbol place.seen) place.row
          (ownRows place.row.symbol place.later ++
            tables.stockAfter fold.trainEnd place.row.symbol) := by
  have hplaces := @filterMap_places_upTo _ _ _ _ _ _ PriceRow.symbol PriceRow.date
    fold.trainEnd
    (ownExample tables.featureSchema cost (sortBench tables.benchmark))
    (tables.stockAfter fold.trainEnd) []
    (sortStock (tables.prices.map PriceRow.padded)) (by simp) (sortStock_pairwise _)
    (fun _ _ _ => rfl)
  rw [List.filter_nil, ← stockBy_eq] at hplaces
  refine Eq.trans ?_ hplaces
  rw [trainingRows, ForecastTables.labels, around, List.filter_map, List.filterMap_map,
    List.filterMap_filter]
  refine List.filterMap_congr fun place _ => ?_
  by_cases hle : place.row.date ≤ fold.trainEnd
  · simp only [if_pos hle]
    have hfilter : ((fun row : ForecastRow F => decide (row.date ≤ fold.trainEnd)) ∘
        forecastRow tables.featureSchema cost (sortBench tables.benchmark)) place = true :=
      decide_eq_true hle
    rw [hfilter]
    rfl
  · simp only [if_neg hle]
    have hfilter : ((fun row : ForecastRow F => decide (row.date ≤ fold.trainEnd)) ∘
        forecastRow tables.featureSchema cost (sortBench tables.benchmark)) place = false :=
      decide_eq_false hle
    rw [hfilter]
    rfl

/-! ### Matured training windows -/

/-- Every row that could be trained on has five rows of its symbol and of the benchmark behind
it, up to the day. -/
def ForecastTables.MaturedBy (tables : ForecastTables F) (day : Date) : Prop :=
  ∀ place ∈ places [] (tables.stockBy day),
    ((rowFeatures tables.featureSchema (ownRows place.row.symbol place.seen)
      place.row).mapM id).isSome →
    place.row.date ∈ (tables.benchBy day).map BenchmarkRow.date →
    5 ≤ (ownRows place.row.symbol place.later).length ∧
      5 ≤ ((tables.benchBy day).filter fun row => place.row.date < row.date).length

omit [Field F] [LinearOrder F] in
theorem dates_stockBy {tables : ForecastTables F} {day : Date} {place : Place (PriceRow F)}
    (h : place ∈ places [] (tables.stockBy day)) : place.row.date ≤ day := by
  have hrow : place.row ∈ tables.stockBy day := by
    rw [← map_row_places [] (tables.stockBy day)]
    exact List.mem_map_of_mem h
  rw [stockBy_eq] at hrow
  exact of_decide_eq_true (List.mem_filter.mp hrow).2

omit [Field F] [LinearOrder F] in
/-- Dates up to the day are dates of the benchmark exactly if they are up to the day. -/
theorem mem_benchBy_iff {tables : ForecastTables F} {day date : Date} (h : date ≤ day) :
    date ∈ (tables.benchBy day).map BenchmarkRow.date ↔
      date ∈ (sortBench tables.benchmark).map BenchmarkRow.date := by
  rw [ForecastTables.benchBy, mem_dates_sortBench, mem_dates_sortBench, List.mem_map, List.mem_map]
  constructor
  · rintro ⟨row, hrow, rfl⟩
    exact ⟨row, List.mem_of_mem_filter hrow, rfl⟩
  · rintro ⟨row, hrow, rfl⟩
    exact ⟨row, List.mem_filter.mpr ⟨hrow, decide_eq_true h⟩, rfl⟩

theorem trainingRows_congr {tables other : ForecastTables F} (cost : F) {fold : WalkForwardFold}
    (hagree : tables.AgreesBy fold.trainEnd other) (hmatured : tables.MaturedBy fold.trainEnd) :
    trainingRows (other.labels cost) fold = trainingRows (tables.labels cost) fold := by
  have hstock : other.stockBy fold.trainEnd = tables.stockBy fold.trainEnd := by
    rw [ForecastTables.stockBy, ForecastTables.stockBy, hagree.prices]
  have hbenchBy : other.benchBy fold.trainEnd = tables.benchBy fold.trainEnd := by
    rw [ForecastTables.benchBy, ForecastTables.benchBy, hagree.benchmark]
  rw [trainingRows_eq, trainingRows_eq, hstock, hagree.featureSchema]
  refine List.filterMap_congr fun place hplace => ?_
  have hdate := dates_stockBy hplace
  by_cases hfeatures : ((rowFeatures tables.featureSchema (ownRows place.row.symbol place.seen)
      place.row).mapM id).isSome
  · by_cases hbench : place.row.date ∈ (tables.benchBy fold.trainEnd).map BenchmarkRow.date
    · obtain ⟨hown, hlater⟩ := hmatured place hplace hfeatures hbench
      have hreturn : (benchmarkReturn 5 (tables.benchBy fold.trainEnd) place.row.date).isSome :=
        (isSome_benchmarkReturn_iff (sortBench_increasing _)).mpr ⟨hbench, hlater⟩
      apply ownExample_congr
      · have hlt : 5 < (place.row :: ownRows place.row.symbol place.later).length := by
          rw [List.length_cons]
          omega
        rw [← List.cons_append, ← List.cons_append, List.getElem?_append_left hlt,
          List.getElem?_append_left hlt]
      · rw [sortBench_split other fold.trainEnd, sortBench_split tables fold.trainEnd, hbenchBy,
          benchmarkReturn_append hreturn, benchmarkReturn_append hreturn]
    · -- without a benchmark row of its date neither table trains on the row
      have hmissing : ∀ (others : ForecastTables F) (later : List (PriceRow F)),
          others.benchBy fold.trainEnd = tables.benchBy fold.trainEnd →
          ownExample tables.featureSchema cost (sortBench others.benchmark)
            (ownRows place.row.symbol place.seen) place.row later = none := by
        intro others later hsame
        rw [← Option.not_isSome_iff_eq_none, isSome_ownExample,
          isSome_benchmarkReturn_iff (sortBench_increasing _), ← mem_benchBy_iff hdate, hsame]
        exact fun h => hbench h.2.2.1
      rw [hmissing other _ hbenchBy, hmissing tables _ rfl]
  · have hmissing : ∀ (bench : List (BenchmarkRow F)) (later : List (PriceRow F)),
        ownExample tables.featureSchema cost bench (ownRows place.row.symbol place.seen) place.row
          later = none := by
      intro bench later
      rw [← Option.not_isSome_iff_eq_none, isSome_ownExample]
      exact fun h => hfeatures h.1
    rw [hmissing, hmissing]

end

end QuantWorkbench.Research
