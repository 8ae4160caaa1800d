import QuantWorkbench.Research.Forecasting

/-!
Two futures of a training window: one in which no code goes on, and one in which all do. They
train a fold on different rows unless the window is matured, so that a fold is fixed by the rows
up to the end of its window exactly if it is.
-/

namespace QuantWorkbench.Research

open Lib

variable {F : Type}

/-! ### Other futures -/

/-- Two trading years lie behind a training window. -/
theorem length_after_trainEnd {ordered : List Date} (hordered : Increasing id ordered)
    {start : ℕ} {fold : WalkForwardFold} (hfold : fold ∈ foldsFrom ordered start) :
    504 ≤ (ordered.filter fun date => fold.trainEnd < date).length := by
  induction start using foldsFrom.induct ordered with
  | case1 start h ih =>
      rw [foldsFrom, dif_pos h] at hfold
      rcases List.mem_cons.mp hfold with rfl | hrest
      · have hlater : ∀ date ∈ ordered.drop (start + 756),
            ordered.get ⟨start + 755, by omega⟩ < date := by
          intro date hdate
          obtain ⟨i, hi, rfl⟩ := List.getElem_of_mem hdate
          rw [List.length_drop] at hi
          rw [List.getElem_drop]
          exact List.pairwise_iff_getElem.mp hordered _ _ _ (by omega) (by omega)
        have hsame : (ordered.drop (start + 756)).filter
            (fun date => ordered.get ⟨start + 755, by omega⟩ < date) =
              ordered.drop (start + 756) := by
          rw [List.filter_eq_self]
          intro date hdate
          exact decide_eq_true (hlater date hdate)
        have hlength : (ordered.drop (start + 756)).length ≤
            (ordered.filter fun date => ordered.get ⟨start + 755, by omega⟩ < date).length := by
          rw [← hsame]
          exact ((List.drop_sublist _ _).filter _).length_le
        rw [List.length_drop] at hlength
        dsimp only
        omega
      · exact ih hrest
  | case2 start h =>
      rw [foldsFrom, dif_neg h] at hfold
      cases hfold

def ForecastTables.followedBy (tables : ForecastTables F) (day : Date)
    (prices : List (PriceRow F)) (benchmark : List (BenchmarkRow F)) : ForecastTables F where
  featureSchema := tables.featureSchema
  prices := (tables.prices.filter fun row => row.date ≤ day) ++ prices
  benchmark := (tables.benchmark.filter fun row => row.date ≤ day) ++ benchmark

theorem agreesBy_followedBy {tables : ForecastTables F} {day : Date}
    {prices : List (PriceRow F)} {benchmark : List (BenchmarkRow F)}
    (hprices : ∀ row ∈ prices, day < row.date) (hbenchmark : ∀ row ∈ benchmark, day < row.date)
    (hdates : ∀ row ∈ tables.prices, day < row.date → row.date ∈ prices.map PriceRow.date)
    (hknown : ∀ row ∈ prices, row.date ∈ tables.prices.map PriceRow.date) :
    tables.AgreesBy day (tables.followedBy day prices benchmark) := by
  constructor
  · rfl
  · have hlater : prices.filter (fun row => row.date ≤ day) = [] := by
      rw [List.filter_eq_nil_iff]
      intro row hrow
      simpa using hprices row hrow
    rw [ForecastTables.followedBy, List.filter_append, List.filter_filter, hlater, List.append_nil]
    simp only [Bool.and_self]
  · have hlater : benchmark.filter (fun row => row.date ≤ day) = [] := by
      rw [List.filter_eq_nil_iff]
      intro row hrow
      simpa using hbenchmark row hrow
    rw [ForecastTables.followedBy, List.filter_append, List.filter_filter, hlater, List.append_nil]
    simp only [Bool.and_self]
  · intro date
    rw [ForecastTables.followedBy, List.map_append, List.mem_append]
    constructor
    · rintro (hmem | hmem)
      · obtain ⟨row, hrow, rfl⟩ := List.mem_map.mp hmem
        exact List.mem_map_of_mem (List.mem_of_mem_filter hrow)
      · obtain ⟨row, hrow, rfl⟩ := List.mem_map.mp hmem
        exact hknown row hrow
    · intro hmem
      obtain ⟨row, hrow, rfl⟩ := List.mem_map.mp hmem
      by_cases hle : row.date ≤ day
      · exact Or.inl (List.mem_map_of_mem (List.mem_filter.mpr ⟨hrow, decide_eq_true hle⟩))
      · exact Or.inr (hdates row hrow (not_le.mp hle))

theorem length_stockAfter (tables : ForecastTables F) (day : Date) (symbol : Text) :
    (tables.stockAfter day symbol).length =
      (tables.prices.filter fun row => zfill 6 row.symbol = symbol ∧ day < row.date).length := by
  rw [ForecastTables.stockAfter, sortStock, ((perm_sortValues _).filter _).length_eq,
    List.filter_map, List.length_map]
  rfl

theorem length_zfill (width : ℕ) (text : Text) :
    (zfill width text).length = max width text.length := by
  cases text with
  | nil => simp [zfill]
  | cons sign rest =>
      rw [zfill, List.length_cons]
      split
      · rw [List.length_cons, List.length_append, List.length_replicate]
        omega
      · rw [List.length_append, List.length_replicate, List.length_cons]
        omega

/-- A code that no row of the table has. -/
theorem exists_newcomer (rows : List (PriceRow F)) :
    ∃ symbol : Text, ∀ row ∈ rows, zfill 6 row.symbol ≠ zfill 6 symbol := by
  have hbound : ∃ bound, ∀ row ∈ rows, row.symbol.length < bound := by
    induction rows with
    | nil => exact ⟨0, fun _ h => nomatch h⟩
    | cons row rest ih =>
        obtain ⟨bound, hbound⟩ := ih
        refine ⟨max bound (row.symbol.length + 1), fun other hother => ?_⟩
        rcases List.mem_cons.mp hother with rfl | hother
        · omega
        · have := hbound other hother
          omega
  obtain ⟨bound, hbound⟩ := hbound
  refine ⟨List.replicate (bound + 7) 'x', fun row hrow hsame => ?_⟩
  have hlength := congrArg List.length hsame
  rw [length_zfill, length_zfill, List.length_replicate] at hlength
  have := hbound row hrow
  omega

/-- The table continued by rows of another code only, and a benchmark that ends with the day. -/
def ForecastTables.discontinued (tables : ForecastTables F) (day : Date) (newcomer : Text) :
    ForecastTables F :=
  tables.followedBy day
    ((tables.prices.filter fun row => day < row.date).map fun row =>
      { row with symbol := newcomer }) []

/-- The table in which each code goes on at all later dates, and so does the benchmark. -/
def ForecastTables.continued (tables : ForecastTables F) (day : Date) : ForecastTables F :=
  tables.followedBy day
    ((tables.prices.filter fun row => row.date ≤ day).flatMap fun first =>
      (tables.prices.filter fun row => day < row.date).map fun row =>
        { row with symbol := first.symbol })
    ((tables.prices.filter fun row => day < row.date).map fun row => ⟨row.date, row.close⟩)

theorem agreesBy_discontinued (tables : ForecastTables F) (day : Date) (newcomer : Text) :
    tables.AgreesBy day (tables.discontinued day newcomer) := by
  apply agreesBy_followedBy
  · intro row hrow
    obtain ⟨later, hlater, rfl⟩ := List.mem_map.mp hrow
    exact of_decide_eq_true (List.mem_filter.mp hlater).2
  · intro row hrow
    cases hrow
  · intro row hrow hlater
    rw [List.map_map]
    exact List.mem_map.mpr ⟨row, List.mem_filter.mpr ⟨hrow, decide_eq_true hlater⟩, rfl⟩
  · intro row hrow
    obtain ⟨later, hlater, rfl⟩ := List.mem_map.mp hrow
    exact List.mem_map.mpr ⟨later, List.mem_of_mem_filter hlater, rfl⟩

theorem agreesBy_continued {tables : ForecastTables F} {day : Date}
    (h : (tables.prices.filter fun row => row.date ≤ day) ≠ []) :
    tables.AgreesBy day (tables.continued day) := by
  apply agreesBy_followedBy
  · intro row hrow
    obtain ⟨first, _, hrow⟩ := List.mem_flatMap.mp hrow
    obtain ⟨later, hlater, rfl⟩ := List.mem_map.mp hrow
    exact of_decide_eq_true (List.mem_filter.mp hlater).2
  · intro row hrow
    obtain ⟨later, hlater, rfl⟩ := List.mem_map.mp hrow
    exact of_decide_eq_true (List.mem_filter.mp hlater).2
  · intro row hrow hlater
    obtain ⟨first, hfirst⟩ := List.exists_mem_of_ne_nil _ h
    refine List.mem_map.mpr ⟨{ row with symbol := first.symbol }, ?_, rfl⟩
    refine List.mem_flatMap.mpr ⟨first, hfirst, ?_⟩
    exact List.mem_map_of_mem (List.mem_filter.mpr ⟨hrow, decide_eq_true hlater⟩)
  · intro row hrow
    obtain ⟨first, _, hrow⟩ := List.mem_flatMap.mp hrow
    obtain ⟨later, hlater, rfl⟩ := List.mem_map.mp hrow
    exact List.mem_map.mpr ⟨later, List.mem_of_mem_filter hlater, rfl⟩

theorem stockAfter_discontinued {tables : ForecastTables F} {day : Date} {newcomer : Text}
    (hnew : ∀ row ∈ tables.prices, zfill 6 row.symbol ≠ zfill 6 newcomer) {row : PriceRow F}
    (hrow : row ∈ tables.stockBy day) :
    (tables.discontinued day newcomer).stockAfter day row.symbol = [] := by
  obtain ⟨known, hknown, rfl⟩ := List.mem_map.mp (mem_sortValues.mp hrow)
  rw [← List.length_eq_zero_iff, length_stockAfter, List.length_eq_zero_iff, List.filter_eq_nil_iff]
  intro other hother hsame
  obtain ⟨hsymbol, hlater⟩ := of_decide_eq_true hsame
  rcases List.mem_append.mp hother with hother | hother
  · exact absurd hlater (of_decide_eq_true (List.mem_filter.mp hother).2).not_gt
  · obtain ⟨later, _, rfl⟩ := List.mem_map.mp hother
    exact hnew known (List.mem_of_mem_filter hknown) hsymbol.symm

theorem length_stockAfter_continued {tables : ForecastTables F} {day : Date} {row : PriceRow F}
    (hrow : row ∈ tables.stockBy day) :
    (tables.prices.filter fun row => day < row.date).length ≤
      ((tables.continued day).stockAfter day row.symbol).length := by
  obtain ⟨known, hknown, rfl⟩ := List.mem_map.mp (mem_sortValues.mp hrow)
  rw [length_stockAfter]
  set later := tables.prices.filter fun row => day < row.date with hlater
  have hblock : (later.map fun row => { row with symbol := known.symbol }).Sublist
      (tables.continued day).prices := by
    refine List.Sublist.trans ?_ (List.sublist_append_right _ _)
    rw [List.flatMap_def]
    exact List.sublist_flatten_of_mem (List.mem_map_of_mem hknown)
  have hsame : (later.map fun row => { row with symbol := known.symbol }).filter
      (fun row => zfill 6 row.symbol = known.padded.symbol ∧ day < row.date) =
        later.map fun row => { row with symbol := known.symbol } := by
    rw [List.filter_eq_self]
    intro other hother
    obtain ⟨raw, hraw, rfl⟩ := List.mem_map.mp hother
    exact decide_eq_true ⟨rfl, of_decide_eq_true (List.mem_filter.mp hraw).2⟩
  have hlength := (hblock.filter fun row =>
    decide (zfill 6 row.symbol = known.padded.symbol ∧ day < row.date)).length_le
  rwa [hsame, List.length_map] at hlength

theorem mem_dates_labels [Field F] [LinearOrder F] {tables : ForecastTables F} {cost : F}
    {date : Date} :
    date ∈ (tables.labels cost).map ForecastRow.date ↔ date ∈ tables.prices.map PriceRow.date := by
  have hdates : (tables.labels cost).map ForecastRow.date =
      (sortStock (tables.prices.map PriceRow.padded)).map PriceRow.date := by
    have hrows := congrArg (List.map PriceRow.date)
      (map_row_places [] (sortStock (tables.prices.map PriceRow.padded)))
    rw [List.map_map] at hrows
    rw [ForecastTables.labels, around, List.map_map]
    exact hrows
  rw [hdates, List.mem_map, sortStock]
  simp only [mem_sortValues, List.mem_map]
  constructor
  · rintro ⟨row, ⟨raw, hraw, rfl⟩, rfl⟩
    exact ⟨raw, hraw, rfl⟩
  · rintro ⟨raw, hraw, rfl⟩
    exact ⟨raw.padded, ⟨raw, hraw, rfl⟩, rfl⟩

section

variable [Field F] [LinearOrder F] {tables : ForecastTables F} {cost : F} {fold : WalkForwardFold}

theorem later_dates (hfold : fold ∈ walkForwardFolds ((tables.labels cost).map ForecastRow.date))
    (dates : List Date)
    (h : ∀ row ∈ tables.prices, fold.trainEnd < row.date → row.date ∈ dates) :
    504 ≤ dates.length := by
  have hlength := length_after_trainEnd (increasing_sortedSet _) hfold
  refine hlength.trans (List.subperm_of_subset ?_ ?_).length_le
  · refine List.Nodup.filter _ ?_
    have hnodup := (increasing_sortedSet ((tables.labels cost).map ForecastRow.date)).nodup
    rwa [List.map_id] at hnodup
  · intro date hdate
    obtain ⟨hmem, hlater⟩ := List.mem_filter.mp hdate
    obtain ⟨row, hrow, rfl⟩ := List.mem_map.mp (mem_dates_labels.mp (mem_sortedSet.mp hmem))
    exact h row hrow (of_decide_eq_true hlater)

/-- All dates behind a training window lie behind each of its rows in the continued benchmark. -/
theorem length_bench_continued
    (hfold : fold ∈ walkForwardFolds ((tables.labels cost).map ForecastRow.date)) {day : Date}
    (hday : day ≤ fold.trainEnd) :
    504 ≤ ((sortBench (tables.continued fold.trainEnd).benchmark).filter fun row =>
      day < row.date).length := by
  have hlength := later_dates hfold (((sortBench
    (tables.continued fold.trainEnd).benchmark).filter fun row => day < row.date).map
      BenchmarkRow.date) ?_
  · rwa [List.length_map] at hlength
  · intro row hrow hlater
    have hmem : row.date ∈ (sortBench (tables.continued fold.trainEnd).benchmark).map
        BenchmarkRow.date := by
      rw [mem_dates_sortBench]
      refine List.mem_map.mpr ⟨⟨row.date, row.close⟩, List.mem_append_right _ ?_, rfl⟩
      exact List.mem_map.mpr ⟨row, List.mem_filter.mpr ⟨hrow, decide_eq_true hlater⟩, rfl⟩
    obtain ⟨bench, hbench, hdate⟩ := List.mem_map.mp hmem
    refine List.mem_map.mpr ⟨bench, List.mem_filter.mpr ⟨hbench, ?_⟩, hdate⟩
    rw [hdate]
    exact decide_eq_true (hday.trans_lt hlater)

/-- If a row of a training window has its outcome behind the window, then other rows behind the
window change what is trained on. -/
theorem length_trainingRows_lt
    (hfold : fold ∈ walkForwardFolds ((tables.labels cost).map ForecastRow.date))
    (hopen : ¬ tables.MaturedBy fold.trainEnd) {newcomer : Text}
    (hnew : ∀ row ∈ tables.prices, zfill 6 row.symbol ≠ zfill 6 newcomer) :
    (trainingRows ((tables.discontinued fold.trainEnd newcomer).labels cost) fold).length <
      (trainingRows ((tables.continued fold.trainEnd).labels cost) fold).length := by
  have hrowOf : ∀ place ∈ places [] (tables.stockBy fold.trainEnd),
      place.row ∈ tables.stockBy fold.trainEnd := by
    intro place hplace
    have hmem := List.mem_map_of_mem (f := Place.row) hplace
    rwa [map_row_places] at hmem
  unfold ForecastTables.MaturedBy at hopen
  push Not at hopen
  obtain ⟨place, hplace, hfeatures, hbench, hshort⟩ := hopen
  have hsome : (tables.prices.filter fun row => row.date ≤ fold.trainEnd) ≠ [] := by
    intro hnil
    have hmem := hrowOf place hplace
    rw [ForecastTables.stockBy, hnil] at hmem
    cases hmem
  have hclosed := agreesBy_discontinued tables fold.trainEnd newcomer
  have hgoes := agreesBy_continued hsome
  have hstockBy : ∀ {other : ForecastTables F}, tables.AgreesBy fold.trainEnd other →
      other.stockBy fold.trainEnd = tables.stockBy fold.trainEnd := by
    intro other hagree
    rw [ForecastTables.stockBy, ForecastTables.stockBy, hagree.prices]
  have hclosedBench : sortBench (tables.discontinued fold.trainEnd newcomer).benchmark =
      tables.benchBy fold.trainEnd := by
    unfold ForecastTables.discontinued ForecastTables.followedBy
    rw [List.append_nil]
    rfl
  have hbenchMem : ∀ {date : Date}, date ≤ fold.trainEnd →
      date ∈ (tables.benchBy fold.trainEnd).map BenchmarkRow.date →
      (benchmarkReturn 5 (sortBench (tables.continued fold.trainEnd).benchmark) date).isSome := by
    intro date hdate hmem
    rw [isSome_benchmarkReturn_iff (sortBench_increasing _)]
    constructor
    · rw [← mem_benchBy_iff hdate, ForecastTables.benchBy, hgoes.benchmark]
      exact hmem
    · have := length_bench_continued hfold hdate
      omega
  have hownLength : ∀ place ∈ places [] (tables.stockBy fold.trainEnd),
      5 ≤ (ownRows place.row.symbol place.later ++
        (tables.continued fold.trainEnd).stockAfter fold.trainEnd place.row.symbol).length := by
    intro place hplace
    have hlater := length_stockAfter_continued (hrowOf place hplace)
    have hdates := later_dates hfold ((tables.prices.filter fun row =>
      fold.trainEnd < row.date).map PriceRow.date) fun row hrow hafter =>
        List.mem_map_of_mem (List.mem_filter.mpr ⟨hrow, decide_eq_true hafter⟩)
    rw [List.length_map] at hdates
    rw [List.length_append]
    omega
  rw [trainingRows_eq, trainingRows_eq, hstockBy hclosed, hstockBy hgoes]
  apply length_filterMap_lt
  · intro other hother hread
    rw [hclosedBench, isSome_ownExample] at hread
    obtain ⟨hcomplete, _, hreturn⟩ := hread
    have hdate := dates_stockBy hother
    rw [isSome_ownExample]
    refine ⟨hcomplete, hownLength other hother, hbenchMem hdate ?_⟩
    exact ((isSome_benchmarkReturn_iff (sortBench_increasing _)).mp hreturn).1
  · refine ⟨place, hplace, ?_, ?_⟩
    · rw [← Option.not_isSome_iff_eq_none, hclosedBench, isSome_ownExample,
        stockAfter_discontinued hnew (hrowOf place hplace), List.append_nil]
      rintro ⟨_, hown, hreturn⟩
      have hlater := ((isSome_benchmarkReturn_iff (sortBench_increasing _)).mp hreturn).2
      exact absurd hlater (hshort hown).not_ge
    · rw [isSome_ownExample]
      exact ⟨hfeatures, hownLength place hplace, hbenchMem (dates_stockBy hplace) hbench⟩

/-- A table whose window is not matured has rows in the window. -/
theorem valid_followedBy (hvalid : tables.Valid) {day : Date} (hopen : ¬ tables.MaturedBy day)
    {prices : List (PriceRow F)} {benchmark : List (BenchmarkRow F)}
    (hprices : ∀ row ∈ prices, 0 < row.close) (hbenchmark : ∀ row ∈ benchmark, 0 < row.close) :
    (tables.followedBy day prices benchmark).Valid := by
  unfold ForecastTables.MaturedBy at hopen
  push Not at hopen
  obtain ⟨place, hplace, _, hbench, _⟩ := hopen
  constructor
  · intro hnil
    have hmem := List.mem_map_of_mem (f := Place.row) hplace
    rw [map_row_places, ForecastTables.stockBy,
      (List.append_eq_nil_iff.mp hnil).1] at hmem
    cases hmem
  · intro row hrow
    rcases List.mem_append.mp hrow with hrow | hrow
    · exact hvalid.closes row (List.mem_of_mem_filter hrow)
    · exact hprices row hrow
  · intro hnil
    rw [ForecastTables.benchBy, mem_dates_sortBench, (List.append_eq_nil_iff.mp hnil).1] at hbench
    cases hbench
  · intro row hrow
    rcases List.mem_append.mp hrow with hrow | hrow
    · exact hvalid.benchmarkCloses row (List.mem_of_mem_filter hrow)
    · exact hbenchmark row hrow

theorem valid_discontinued (hvalid : tables.Valid) {day : Date} (newcomer : Text)
    (hopen : ¬ tables.MaturedBy day) : (tables.discontinued day newcomer).Valid := by
  refine valid_followedBy hvalid hopen (fun row hrow => ?_) fun _ hrow => nomatch hrow
  obtain ⟨later, hlater, rfl⟩ := List.mem_map.mp hrow
  exact hvalid.closes later (List.mem_of_mem_filter hlater)

theorem valid_continued (hvalid : tables.Valid) {day : Date} (hopen : ¬ tables.MaturedBy day) :
    (tables.continued day).Valid := by
  refine valid_followedBy hvalid hopen (fun row hrow => ?_) fun row hrow => ?_
  · obtain ⟨_, _, hrow⟩ := List.mem_flatMap.mp hrow
    obtain ⟨later, hlater, rfl⟩ := List.mem_map.mp hrow
    exact hvalid.closes later (List.mem_of_mem_filter hlater)
  · obtain ⟨later, hlater, rfl⟩ := List.mem_map.mp hrow
    exact hvalid.closes later (List.mem_of_mem_filter hlater)

/-- The folds come from the dates of the prices. -/
theorem walkForwardFolds_congr {other : ForecastTables F} {day : Date}
    (hagree : tables.AgreesBy day other) :
    walkForwardFolds ((other.labels cost).map ForecastRow.date) =
      walkForwardFolds ((tables.labels cost).map ForecastRow.date) := by
  have hdates : sortedSet ((other.labels cost).map ForecastRow.date) =
      sortedSet ((tables.labels cost).map ForecastRow.date) := by
    apply Increasing.eq_of_mem_iff (increasing_sortedSet _) (increasing_sortedSet _)
    intro date
    rw [mem_sortedSet, mem_sortedSet, mem_dates_labels, mem_dates_labels]
    exact hagree.dates date
  rw [walkForwardFolds, walkForwardFolds, hdates]

/-- Two futures of a window that is not matured. -/
theorem exists_futures (hvalid : tables.Valid) (hcost : 0 ≤ cost)
    (hfold : fold ∈ walkForwardFolds ((tables.labels cost).map ForecastRow.date))
    (hopen : ¬ tables.MaturedBy fold.trainEnd) :
    ∃ other other' : ForecastTables F,
      tables.AgreesBy fold.trainEnd other ∧ tables.AgreesBy fold.trainEnd other' ∧
        buildForecastLabels other cost = .ok (other.labels cost) ∧
        buildForecastLabels other' cost = .ok (other'.labels cost) ∧
        (trainingRows (other.labels cost) fold).length <
          (trainingRows (other'.labels cost) fold).length := by
  obtain ⟨newcomer, hnew⟩ := exists_newcomer tables.prices
  have hclosed := valid_discontinued hvalid newcomer hopen
  have hgoes := valid_continued hvalid hopen
  have hsome : (tables.prices.filter fun row => row.date ≤ fold.trainEnd) ≠ [] := by
    intro hnil
    apply hopen
    intro place hplace
    rw [ForecastTables.stockBy, hnil] at hplace
    cases hplace
  exact ⟨_, _, agreesBy_discontinued tables fold.trainEnd newcomer, agreesBy_continued hsome,
    buildForecastLabels_eq_ok_iff.mpr ⟨hcost, hclosed, rfl⟩,
    buildForecastLabels_eq_ok_iff.mpr ⟨hcost, hgoes, rfl⟩,
    length_trainingRows_lt hfold hopen hnew⟩

end

/-- A fold trains on the same rows, whatever lies behind its training window, exactly if each row
that could be trained on has its outcome within the window. -/
theorem trainingRows_bounded_iff [Field F] [LinearOrder F] (tables : ForecastTables F) (cost : F)
    (labels : List (ForecastRow F)) (fold : WalkForwardFold)
    (h : buildForecastLabels tables cost = .ok labels)
    (hfold : fold ∈ walkForwardFolds (labels.map ForecastRow.date)) :
    ((∀ other others, tables.AgreesBy fold.trainEnd other →
          buildForecastLabels other cost = .ok others →
          trainingRows others fold = trainingRows labels fold) ↔
        tables.MaturedBy fold.trainEnd) ∧
      (∀ other others, tables.AgreesBy fold.trainEnd other →
        buildForecastLabels other cost = .ok others →
        fold ∈ walkForwardFolds (others.map ForecastRow.date) ∧
          (tables.MaturedBy fold.trainEnd →
            foldTraining others fold = foldTraining labels fold)) ∧
      ((∀ other others, tables.AgreesBy fold.trainEnd other →
          buildForecastLabels other cost = .ok others →
          (foldTraining others fold).isSome ∧
            foldTraining others fold = foldTraining labels fold) →
        tables.MaturedBy fold.trainEnd) := by
  obtain ⟨hcost, hvalid, rfl⟩ := buildForecastLabels_eq_ok_iff.mp h
  have hsame : ∀ other others, tables.AgreesBy fold.trainEnd other →
      buildForecastLabels other cost = .ok others → tables.MaturedBy fold.trainEnd →
      trainingRows others fold = trainingRows (tables.labels cost) fold := by
    intro other others hagree hother hmatured
    obtain ⟨_, _, rfl⟩ := buildForecastLabels_eq_ok_iff.mp hother
    exact trainingRows_congr cost hagree hmatured
  have hfutures := exists_futures hvalid hcost hfold
  refine ⟨⟨fun hall => ?_, fun hmatured other others hagree hother =>
    hsame other others hagree hother hmatured⟩, fun other others hagree hother => ⟨?_, ?_⟩, ?_⟩
  · by_contra hopen
    obtain ⟨other, other', hagree, hagree', hother, hother', hlt⟩ := hfutures hopen
    rw [hall _ _ hagree hother, hall _ _ hagree' hother'] at hlt
    exact lt_irrefl _ hlt
  · obtain ⟨_, _, rfl⟩ := buildForecastLabels_eq_ok_iff.mp hother
    rwa [walkForwardFolds_congr hagree]
  · intro hmatured
    unfold foldTraining
    rw [hsame other others hagree hother hmatured]
  · intro hall
    by_contra hopen
    obtain ⟨other, other', hagree, hagree', hother, hother', hlt⟩ := hfutures hopen
    obtain ⟨hfitted, hequal⟩ := hall _ _ hagree hother
    obtain ⟨hfitted', hequal'⟩ := hall _ _ hagree' hother'
    have hlength : ∀ {rows : List (ForecastRow F)} {fitted : List (List F) × List Bool},
        foldTraining rows fold = some fitted →
          fitted.1.length = (trainingRows rows fold).length := by
      intro rows fitted hfit
      unfold foldTraining at hfit
      dsimp only at hfit
      split at hfit
      · cases hfit
      · cases hfit
        exact List.length_map _
    obtain ⟨fitted, hfit⟩ := Option.isSome_iff_exists.mp hfitted
    have hfit' := (hequal'.trans hequal.symm).trans hfit
    rw [← hlength hfit, ← hlength hfit'] at hlt
    exact lt_irrefl _ hlt

section Sample

theorem daysInMonth_ge (year month : ℕ) : 28 ≤ daysInMonth year month := by
  unfold daysInMonth
  split_ifs <;> omega

def sessionDay (i : Fin 1260) : Date where
  year := 2020 + i / 336
  month := 1 + i % 336 / 28
  day := 1 + i % 28
  year_range := by omega
  month_range := by omega
  day_range := ⟨by omega, (by omega : 1 + (i : ℕ) % 28 ≤ 28).trans (daysInMonth_ge _ _)⟩

theorem increasing_sessionDay : Increasing id ((List.finRange 1260).map sessionDay) := by
  refine List.pairwise_map.mpr ((List.pairwise_lt_finRange 1260).imp fun {i j} hlt => ?_)
  apply Date.lt_iff_fields.mpr
  have hvalue : (i : ℕ) < j := hlt
  change 2020 + (i : ℕ) / 336 < 2020 + j / 336 ∨ 2020 + (i : ℕ) / 336 = 2020 + j / 336 ∧
    (1 + (i : ℕ) % 336 / 28 < 1 + j % 336 / 28 ∨ 1 + (i : ℕ) % 336 / 28 = 1 + j % 336 / 28 ∧
      1 + (i : ℕ) % 28 < 1 + j % 28)
  omega

def sampleTables (days : List (Fin 1260)) : ForecastTables ℚ where
  featureSchema := ["feature_x"]
  prices := days.map fun i => ⟨"000001".toList, sessionDay i, 1, [some 1]⟩
  benchmark := days.map fun i => ⟨sessionDay i, 1⟩

def sampleFold : WalkForwardFold where
  trainEnd := sessionDay 755
  validationStart := sessionDay 756
  validationEnd := sessionDay 1007
  testStart := sessionDay 1134
  testEnd := sessionDay 1259

theorem dates_sampleTables (days : List (Fin 1260)) :
    (sampleTables days).prices.map PriceRow.date = days.map sessionDay :=
  List.map_map

theorem benchmarkDates_sampleTables (days : List (Fin 1260)) :
    (sampleTables days).benchmark.map BenchmarkRow.date = days.map sessionDay :=
  List.map_map

theorem sampleTables_valid {days : List (Fin 1260)} (h : days ≠ []) :
    (sampleTables days).Valid where
  prices := fun hnil => h (List.map_eq_nil_iff.mp hnil)
  closes := by
    intro row hrow
    obtain ⟨_, _, rfl⟩ := List.mem_map.mp hrow
    exact one_pos
  benchmark := fun hnil => h (List.map_eq_nil_iff.mp hnil)
  benchmarkCloses := by
    intro row hrow
    obtain ⟨_, _, rfl⟩ := List.mem_map.mp hrow
    exact one_pos

/-- The last row of a window looks behind it. -/
theorem sampleTables_open {days : List (Fin 1260)} {i : Fin 1260} (hi : i ∈ days) {day : Date}
    (hday : sessionDay i ≤ day) : ¬ (sampleTables days).MaturedBy day := by
  intro hmatured
  have hrows : (sampleTables days).stockBy day ≠ [] := by
    refine List.ne_nil_of_mem (mem_sortValues.mpr (List.mem_map_of_mem
      (a := (⟨"000001".toList, sessionDay i, 1, [some 1]⟩ : PriceRow ℚ))
      (List.mem_filter.mpr ⟨List.mem_map.mpr ⟨i, hi, rfl⟩, decide_eq_true hday⟩)))
  obtain ⟨place, hplace, hlast⟩ : ∃ place ∈ places [] ((sampleTables days).stockBy day),
      place.later = [] := by
    refine ⟨⟨((sampleTables days).stockBy day).dropLast.reverse,
      ((sampleTables days).stockBy day).getLast hrows, []⟩, mem_places.mpr
        ⟨((sampleTables days).stockBy day).dropLast, ?_, ?_⟩, rfl⟩
    · exact (List.dropLast_append_getLast hrows).symm
    · exact (List.append_nil _).symm
  have hmem := List.mem_map_of_mem (f := Place.row) hplace
  rw [map_row_places] at hmem
  obtain ⟨raw, hraw, hrow⟩ := List.mem_map.mp (mem_sortValues.mp hmem)
  obtain ⟨hraw, hdate⟩ := List.mem_filter.mp hraw
  have hfeatures : place.row.features = [some 1] := by
    obtain ⟨_, _, rfl⟩ := List.mem_map.mp hraw
    rw [← hrow]
    rfl
  have hsameDate : place.row.date = raw.date := by rw [← hrow]; rfl
  have hbench : place.row.date ∈ ((sampleTables days).benchBy day).map BenchmarkRow.date := by
    rw [hsameDate, mem_benchBy_iff (of_decide_eq_true hdate), mem_dates_sortBench,
      benchmarkDates_sampleTables, ← dates_sampleTables]
    exact List.mem_map_of_mem hraw
  have hcomplete : ((rowFeatures (sampleTables days).featureSchema
      (ownRows place.row.symbol place.seen) place.row).mapM id).isSome := by
    have hown : rowFeatures (sampleTables days).featureSchema
        (ownRows place.row.symbol place.seen) place.row = place.row.features :=
      if_neg (by simp [sampleTables])
    rw [hown, hfeatures]
    rfl
  have hshort := (hmatured place hplace hcomplete hbench).1
  rw [hlast] at hshort
  cases hshort

theorem sampleFold_mem : sampleFold ∈ walkForwardFolds
    (((sampleTables (List.finRange 1260)).labels 0).map ForecastRow.date) := by
  have hdates : sortedSet (((sampleTables (List.finRange 1260)).labels 0).map ForecastRow.date) =
      (List.finRange 1260).map sessionDay := by
    apply Increasing.eq_of_mem_iff (increasing_sortedSet _) increasing_sessionDay
    intro date
    rw [mem_sortedSet, mem_dates_labels, dates_sampleTables]
  have hlength : ((List.finRange 1260).map sessionDay).length = 1260 := by
    rw [List.length_map, List.length_finRange]
  rw [walkForwardFolds, hdates, foldsFrom, dif_pos (by rw [hlength])]
  apply List.mem_cons.mpr
  left
  simp only [List.get_eq_getElem, List.getElem_map, List.getElem_finRange]
  rfl

theorem sampleLabels_ok :
    buildForecastLabels (sampleTables (List.finRange 1260)) 0 =
      .ok ((sampleTables (List.finRange 1260)).labels 0) := by
  refine buildForecastLabels_eq_ok_iff.mpr ⟨le_rfl, sampleTables_valid ?_, rfl⟩
  exact List.ne_nil_of_mem (List.mem_finRange 0)

theorem sampleTables_notMatured :
    ¬ (sampleTables (List.finRange 1260)).MaturedBy sampleFold.trainEnd :=
  sampleTables_open (List.mem_finRange 755) le_rfl

/-- Rows behind the training window decide what the first fold is trained on. -/
theorem laterRows_change_training :
    sampleFold ∈ walkForwardFolds
        (((sampleTables (List.finRange 1260)).labels 0).map ForecastRow.date) ∧
      ∃ other others, (sampleTables (List.finRange 1260)).AgreesBy sampleFold.trainEnd other ∧
        buildForecastLabels other 0 = .ok others ∧
        trainingRows others sampleFold ≠
          trainingRows ((sampleTables (List.finRange 1260)).labels 0) sampleFold := by
  refine ⟨sampleFold_mem, ?_⟩
  by_contra hsame
  push Not at hsame
  obtain ⟨hcost, hvalid, _⟩ := buildForecastLabels_eq_ok_iff.mp sampleLabels_ok
  obtain ⟨other, other', hagree, hagree', hother, hother', hlt⟩ :=
    exists_futures hvalid hcost sampleFold_mem sampleTables_notMatured
  rw [hsame _ _ hagree hother, hsame _ _ hagree' hother'] at hlt
  exact lt_irrefl _ hlt

/-- The window of the sample is not matured, and so its fold is not fixed. -/
theorem sampleFold_open :
    ¬ ∀ other others, (sampleTables (List.finRange 1260)).AgreesBy sampleFold.trainEnd other →
      buildForecastLabels other 0 = .ok others →
      trainingRows others sampleFold =
        trainingRows ((sampleTables (List.finRange 1260)).labels 0) sampleFold := by
  have h := trainingRows_bounded_iff (sampleTables (List.finRange 1260)) 0 _ sampleFold
    sampleLabels_ok sampleFold_mem
  exact fun hall => sampleTables_notMatured (h.1.mp hall)

end Sample

end QuantWorkbench.Research
