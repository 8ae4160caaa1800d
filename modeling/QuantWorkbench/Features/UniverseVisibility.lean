import QuantWorkbench.Features.UniverseTables

/-!
Whether the universe of a date depends on what was known on it. The rows of later dates decide
which of the flag columns are columns of floats, and a flag of such a column is not read.
-/

namespace QuantWorkbench.Features

open Lib

/-! ### Lists of latest rows -/

section Latest

variable {α β : Type} {symbol : α → Text} {asOf : α → Date} {requested : Date}

def visibleRows (asOf : α → Date) (requested : Date) (rows : List α) : List α :=
  rows.filter fun row => asOf row ≤ requested

theorem mem_latestRows_iff {rows : List α} {row : α} :
    row ∈ latestRows symbol asOf requested rows ↔
      LatestOf symbol asOf (visibleRows asOf requested rows) row := by
  rw [latestRows, mem_keepLast_iff]
  exact lastOf_sortValues_iff

theorem latestRows_map {make : β → α} (rows : List β) :
    latestRows symbol asOf requested (rows.map make) =
      (latestRows (fun row => symbol (make row)) (fun row => asOf (make row)) requested
        rows).map make := by
  rw [latestRows, List.filter_map, sortValues_map, keepLast_map]
  rfl

theorem latestRows_congr {rows others : List α}
    (h : visibleRows asOf requested rows = visibleRows asOf requested others) :
    latestRows symbol asOf requested rows = latestRows symbol asOf requested others := by
  have hvisible : rows.filter (fun row => decide (asOf row ≤ requested)) =
      others.filter fun row => decide (asOf row ≤ requested) := h
  rw [latestRows, latestRows, hvisible]

theorem increasing_latestRows (rows : List α) :
    Increasing symbol (latestRows symbol asOf requested rows) := by
  have hsorted := (@pairwise_sortValues _ _ _ (fun row => toLex (symbol row, asOf row))
    (visibleRows asOf requested rows)).sublist (@keepLast_sublist _ _ _ symbol _)
  have hnodup := List.pairwise_map.mp
    (@keys_keepLast_nodup _ _ symbol _ (sortValues (fun row => toLex (symbol row, asOf row))
      (visibleRows asOf requested rows)))
  refine (hsorted.and hnodup).imp fun h => lt_of_le_of_ne ?_ h.2
  rcases Prod.Lex.toLex_le_toLex.mp h.1 with hlt | ⟨heq, _⟩
  · exact hlt.le
  · exact heq.le

theorem exists_latestOf {rows : List α} {row : α} (h : row ∈ rows) :
    ∃ latest, LatestOf symbol asOf rows latest ∧ symbol latest = symbol row := by
  have hkey : symbol row ∈ (sortValues (fun row => toLex (symbol row, asOf row)) rows).map symbol :=
    List.mem_map_of_mem (mem_sortValues.mpr h)
  obtain ⟨latest, hlatest, hsymbol⟩ := Keyed.exists_lastOf hkey
  exact ⟨latest, lastOf_sortValues_iff.mp hlatest, hsymbol⟩

theorem find?_latestRows_iff {rows : List α} {row : α} {name : Text} :
    (latestRows symbol asOf requested rows).find? (fun other => symbol other = name) = some row ↔
      LatestOf symbol asOf (visibleRows asOf requested rows) row ∧ symbol row = name := by
  constructor
  · intro h
    exact ⟨mem_latestRows_iff.mp (List.mem_of_find?_eq_some h), by
      simpa using List.find?_some h⟩
  · rintro ⟨hlatest, hname⟩
    cases hfound : (latestRows symbol asOf requested rows).find? fun other =>
        symbol other = name with
    | none =>
        have hnone := List.find?_eq_none.mp hfound row (mem_latestRows_iff.mpr hlatest)
        simp [hname] at hnone
    | some found =>
        have hmem := mem_latestRows_iff.mp (List.mem_of_find?_eq_some hfound)
        have hsame : symbol found = name := by simpa using List.find?_some hfound
        rw [hmem.unique hlatest (hsame.trans hname.symm)]

/-- Rows that are read one by one are those that can be read. -/
theorem filterMap_of_mapM_ok {ε : Type} {f : α → Except ε β} {items : List α} {values : List β}
    (h : items.mapM f = .ok values) : items.filterMap (fun a => (f a).toOption) = values := by
  induction items generalizing values with
  | nil =>
      cases h
      rfl
  | cons item rest ih =>
      rw [List.mapM_cons] at h
      obtain ⟨value, hvalue, h⟩ := bind_eq_ok_iff.mp h
      obtain ⟨others, hothers, h⟩ := bind_eq_ok_iff.mp h
      cases h
      rw [List.filterMap_cons, hvalue, ih hothers]
      rfl

end Latest

/-! ### What a row says -/

namespace InstrumentFrame

variable {V : Type} (frame : InstrumentFrame) (row : SourceRow V)

theorem dateOf_shownBy (isFloat : Text → Bool) (names : List String) (field : String) :
    frame.dateOf names field (row.shownBy isFloat) = frame.dateOf names field row.cells := by
  have hday : ∀ name, ((row.shownBy isFloat) name).day = (row.cells name).day := by
    intro name
    unfold SourceRow.shownBy
    split <;> rfl
  unfold dateOf cellOf
  rw [Option.map_map, Option.map_map]
  simp only [Function.comp_def, hday]

/-- The flag is set and its column shows it. -/
def Reads (isFloat : Text → Bool) (name : String) : Prop :=
  name.toList ∈ frame.columns ∧ (row.flags name.toList).truthy = true ∧
    ¬ (row.flags name.toList = .integer true ∧ isFloat name.toList = true)

theorem shown_reads (isFloat : Bool) (cell : FlagCell) :
    (Text.strip (cell.shown isFloat)).map Char.toLower ∈
        ["1".toList, "true".toList, "yes".toList, "y".toList] ↔
      cell.truthy = true ∧ ¬ (cell = .integer true ∧ isFloat = true) := by
  cases cell with
  | boolean value => revert value isFloat; decide
  | integer one => revert one isFloat; decide
  | missing => revert isFloat; decide

theorem flagOf_shownBy {isFloat : Text → Bool} (name : String)
    (hname : name.toList ∈ flagColumns) :
    frame.flagOf name (row.shownBy isFloat) = true ↔ frame.Reads row isFloat name := by
  unfold flagOf cellOf Reads
  by_cases hcolumn : name.toList ∈ frame.columns
  · rw [List.find?_cons_of_pos (by simpa using hcolumn)]
    simp only [Option.map_some, Option.any_some, decide_eq_true_eq, SourceRow.shownBy,
      if_pos hname, shown_reads, hcolumn, true_and]
  · rw [List.find?_cons_of_neg (by simpa using hcolumn)]
    simp [hcolumn]

end InstrumentFrame

def Instrument.flagged (row : Instrument) : Prop :=
  row.isSt = true ∨ row.isDelistingRisk = true ∨ row.isSuspended = true

namespace SourceTable

variable {V : Type} (table : SourceTable V)

/-- The name of the instrument says that it is an ST one. -/
def NamedSt (row : SourceRow V) : Prop :=
  "name".toList ∈ table.columns ∧
    "ST".toList <:+: Text.upper (row.cells "name".toList).text

def Flagged (row : SourceRow V) : Prop :=
  (∃ name ∈ ["is_st", "is_delisting_risk", "is_suspended"],
    name.toList ∈ table.columns ∧ (row.flags name.toList).truthy = true) ∨ table.NamedSt row

def ShowsFlag (row : SourceRow V) : Prop :=
  (∃ name ∈ ["is_st", "is_delisting_risk", "is_suspended"],
    table.frame.Reads row table.isFloat name) ∨ table.NamedSt row

/-- The flags of a row as its columns show them. -/
def reflagged (isFloat : Text → Bool) (row : SourceRow V) (listing : Listing V) : Listing V :=
  { listing with instrument := { listing.instrument with
    isSt := table.frame.flagOf "is_st" (row.shownBy isFloat) ||
      (table.frame.cellOf ["name"] (row.shownBy isFloat)).any fun cell =>
        "ST".toList <:+: Text.upper cell.text
    isDelistingRisk := table.frame.flagOf "is_delisting_risk" (row.shownBy isFloat)
    isSuspended := table.frame.flagOf "is_suspended" (row.shownBy isFloat) } }

/-- Rows with their flags shown in different columns differ in the flags alone. -/
theorem listingOf_reflagged (isFloat other : Text → Bool) (entry : SourceRow V × ℕ) :
    table.listingOf isFloat entry =
      table.reflagged isFloat entry.1 <$> table.listingOf other entry := by
  have hsymbol : ∀ isFloat, (entry.1.shownBy isFloat "symbol".toList).text =
      (entry.1.cells "symbol".toList).text := fun isFloat => by
    unfold SourceRow.shownBy
    rw [if_neg (by decide)]
  unfold listingOf InstrumentFrame.instrumentOf
  simp only [InstrumentFrame.dateOf_shownBy, hsymbol, map_bind, bind_assoc, map_pure, pure_bind]
  rfl

theorem flagged_reflagged {isFloat : Text → Bool} {row : SourceRow V} {listing : Listing V} :
    (table.reflagged isFloat row listing).instrument.flagged ↔
      (∃ name ∈ ["is_st", "is_delisting_risk", "is_suspended"],
        table.frame.Reads row isFloat name) ∨ table.NamedSt row := by
  have hname : ((table.frame.cellOf ["name"] (row.shownBy isFloat)).any fun cell =>
      decide ("ST".toList <:+: Text.upper cell.text)) = true ↔ table.NamedSt row := by
    unfold InstrumentFrame.cellOf NamedSt
    have hcolumns : table.frame.columns = table.columns := rfl
    rw [hcolumns]
    by_cases hcolumn : "name".toList ∈ table.columns
    · rw [List.find?_cons_of_pos (by simpa using hcolumn)]
      have hcell : row.shownBy isFloat "name".toList = row.cells "name".toList := by
        unfold SourceRow.shownBy
        rw [if_neg (by decide)]
      simp only [Option.map_some, Option.any_some, decide_eq_true_eq, hcell, hcolumn, true_and]
    · rw [List.find?_cons_of_neg (by simpa using hcolumn)]
      simp only [List.find?_nil, Option.map_none, Option.any_none, hcolumn, false_and,
        Bool.false_eq_true]
  unfold Instrument.flagged reflagged
  simp only [Bool.or_eq_true, hname,
    table.frame.flagOf_shownBy row "is_st" (by decide),
    table.frame.flagOf_shownBy row "is_delisting_risk" (by decide),
    table.frame.flagOf_shownBy row "is_suspended" (by decide),
    List.mem_cons, List.not_mem_nil, or_false, exists_eq_or_imp, exists_eq_left]
  tauto

/-! ### Tables row by row -/

/-- The rows with what they say themselves. -/
def said : List (SourceRow V × Listing V) :=
  table.rows.zipIdx.filterMap fun entry =>
    (table.listingOf (fun _ => false) entry).toOption.map fun listing => (entry.1, listing)

theorem preparedUniverse_ok {listings : List (Listing V)}
    (h : table.preparedUniverse = .ok listings) :
    listings = table.said.map fun entry => table.reflagged table.isFloat entry.1 entry.2 := by
  obtain ⟨_, _, h⟩ := bind_eq_ok_iff.mp h
  obtain ⟨_, _, h⟩ := bind_eq_ok_iff.mp h
  rw [← filterMap_of_mapM_ok h, said, List.map_filterMap]
  refine List.filterMap_congr fun entry _ => ?_
  rw [table.listingOf_reflagged table.isFloat (fun _ => false) entry]
  cases table.listingOf (fun _ => false) entry with
  | error name => rfl
  | ok listing => rfl

theorem mem_said {entry : SourceRow V × Listing V} (h : entry ∈ table.said) :
    (entry.2.instrument.flagged ↔ table.Flagged entry.1) ∧
      table.reflagged (fun _ => false) entry.1 entry.2 = entry.2 := by
  obtain ⟨source, _, hread⟩ := List.mem_filterMap.mp h
  obtain ⟨listing, hlisting, rfl⟩ := Option.map_eq_some_iff.mp hread
  have hok := toOption_eq_some_iff.mp hlisting
  have hsame := table.listingOf_reflagged (fun _ => false) (fun _ => false) source
  rw [hok] at hsame
  have hlisted : listing = table.reflagged (fun _ => false) source.1 listing :=
    Except.ok.inj hsame
  refine ⟨?_, hlisted.symm⟩
  rw [hlisted, flagged_reflagged]
  simp only [InstrumentFrame.Reads, Bool.false_eq_true, and_false, not_false_eq_true, and_true]
  rfl

/-- A flag that is read is set. -/
theorem flagged_of_showsFlag {row : SourceRow V} (h : table.ShowsFlag row) : table.Flagged row := by
  rcases h with ⟨name, hname, hcolumn, htruthy, _⟩ | hnamed
  · exact Or.inl ⟨name, hname, hcolumn, htruthy⟩
  · exact Or.inr hnamed

/-- Where no flag is set, or what is set is not read, all flags are shown as not set. -/
theorem reflagged_eq {entry : SourceRow V × Listing V} (h : entry ∈ table.said)
    (hflags : ¬ table.Flagged entry.1) :
    table.reflagged table.isFloat entry.1 entry.2 = entry.2 := by
  obtain ⟨hflagged, hsame⟩ := table.mem_said h
  have hplain : ¬ (table.reflagged (fun _ => false) entry.1 entry.2).instrument.flagged := by
    rw [hsame, hflagged]
    exact hflags
  have hshown : ¬ (table.reflagged table.isFloat entry.1 entry.2).instrument.flagged := by
    rw [flagged_reflagged]
    exact fun hshows => hflags (table.flagged_of_showsFlag hshows)
  have hnone : ∀ listing : Listing V, ¬ listing.instrument.flagged →
      listing = { listing with instrument := { listing.instrument with
        isSt := false, isDelistingRisk := false, isSuspended := false } } := by
    intro listing hnot
    simp only [Instrument.flagged, not_or, Bool.not_eq_true] at hnot
    obtain ⟨hst, hrisk, hsuspended⟩ := hnot
    obtain ⟨⟨_, _, _, _, _, _, _, _, _, _, _⟩, _, _, _⟩ := listing
    cases hst
    cases hrisk
    cases hsuspended
    rfl
  rw [hnone _ hshown]
  conv_rhs => rw [← hsame, hnone _ hplain]
  rfl

/-- The date from which a row is known. -/
def asOfOf (row : SourceRow V) : Option Date :=
  match table.frame.dateOf ["as_of", "snapshot_date"] "as_of" row.cells with
  | .ok (some day) => some day
  | .ok none => ((table.frame.dateOf ["listed_date"] "listed_date" row.cells).toOption).join
  | .error _ => none

def visibleOn (requested : Date) (row : SourceRow V) : Bool :=
  (table.asOfOf row).any fun day => day ≤ requested

theorem asOfOf_listing {isFloat : Text → Bool} {entry : SourceRow V × ℕ} {listing : Listing V}
    (h : table.listingOf isFloat entry = .ok listing) :
    table.asOfOf entry.1 = some listing.asOf := by
  unfold listingOf at h
  obtain ⟨instrument, hinstrument, h⟩ := bind_eq_ok_iff.mp h
  cases h
  unfold InstrumentFrame.instrumentOf at hinstrument
  simp only [InstrumentFrame.dateOf_shownBy] at hinstrument
  obtain ⟨_, _, hinstrument⟩ := bind_eq_ok_iff.mp hinstrument
  obtain ⟨listed, hlisted, hinstrument⟩ := bind_eq_ok_iff.mp hinstrument
  obtain ⟨listedDate, hdate, hinstrument⟩ := bind_eq_ok_iff.mp hinstrument
  obtain ⟨_, _, hinstrument⟩ := bind_eq_ok_iff.mp hinstrument
  obtain ⟨asOf, hasOf, hinstrument⟩ := bind_eq_ok_iff.mp hinstrument
  obtain ⟨_, _, hinstrument⟩ := bind_eq_ok_iff.mp hinstrument
  obtain ⟨_, _, hinstrument⟩ := bind_eq_ok_iff.mp hinstrument
  obtain ⟨_, _, hinstrument⟩ := bind_eq_ok_iff.mp hinstrument
  obtain ⟨_, _, hinstrument⟩ := bind_eq_ok_iff.mp hinstrument
  cases hinstrument
  unfold asOfOf
  rw [hasOf, hlisted, orRaise_eq_ok_iff.mp hdate]
  cases asOf with
  | some day => rfl
  | none => rfl

/-- Two tables have the same rows, in their order, that are known on a date. -/
structure AgreesBy (requested : Date) (other : SourceTable V) : Prop where
  rows : table.rows.filter (table.visibleOn requested) =
    other.rows.filter (other.visibleOn requested)
  columns : table.rows.filter (table.visibleOn requested) ≠ [] → table.columns = other.columns

theorem AgreesBy.symm {requested : Date} {table other : SourceTable V}
    (h : table.AgreesBy requested other) : other.AgreesBy requested table where
  rows := h.rows.symm
  columns hsome := (h.columns (h.rows ▸ hsome)).symm

/-- What a row says, its place in the table apart. -/
def sayOf (row : SourceRow V) : Option (SourceRow V × Listing V) :=
  (table.listingOf (fun _ => false) (row, 0)).toOption.map fun listing => (row, listing)

theorem sayOf_columns {other : SourceTable V} (h : table.columns = other.columns) :
    table.sayOf = other.sayOf := by
  funext row
  unfold sayOf listingOf InstrumentFrame.instrumentOf InstrumentFrame.dateOf
    InstrumentFrame.flagOf InstrumentFrame.cellOf numberOf frame
  simp only [h]

end SourceTable

def unplaced {V : Type} (entry : SourceRow V × Listing V) : SourceRow V × Listing V :=
  (entry.1, { entry.2 with rowOrder := 0 })

/-- Values that are read from rows, those that pass by a condition on the row. -/
theorem filter_filterMap_of {α β : Type} {read : α → Option β} {p : β → Bool} {q : α → Bool}
    (h : ∀ row value, read row = some value → p value = q row) (rows : List α) :
    (rows.filterMap read).filter p = (rows.filter q).filterMap read := by
  induction rows with
  | nil => rfl
  | cons row rest ih =>
      cases hread : read row with
      | none =>
          rw [List.filterMap_cons_none hread, ih, List.filter_cons]
          split
          · rw [List.filterMap_cons_none hread]
          · rfl
      | some value =>
          rw [List.filterMap_cons_some hread, List.filter_cons, List.filter_cons, h row value hread,
            ih]
          split
          · rw [List.filterMap_cons_some hread]
          · rfl

namespace SourceTable

variable {V : Type} (table : SourceTable V)

theorem said_unplaced : table.said.map unplaced = table.rows.filterMap table.sayOf := by
  have hplace : ∀ entry : SourceRow V × ℕ, Option.map unplaced
      ((table.listingOf (fun _ => false) entry).toOption.map fun listing => (entry.1, listing)) =
        table.sayOf entry.1 := by
    intro entry
    unfold sayOf listingOf
    cases table.frame.instrumentOf (entry.1.shownBy fun _ => false) with
    | error name => rfl
    | ok instrument => rfl
  have hrows : table.rows = table.rows.zipIdx.map Prod.fst := (List.zipIdx_map_fst 0 _).symm
  conv_rhs => rw [hrows]
  rw [said, List.map_filterMap, List.filterMap_map]
  exact List.filterMap_congr fun entry _ => hplace entry

theorem visible_unplaced (requested : Date) :
    visibleRows (fun entry => entry.2.asOf) requested (table.said.map unplaced) =
      (table.rows.filter (table.visibleOn requested)).filterMap table.sayOf := by
  rw [visibleRows, said_unplaced]
  refine filter_filterMap_of ?_ _
  intro row entry hentry
  obtain ⟨listing, hlisting, rfl⟩ := Option.map_eq_some_iff.mp hentry
  have hasOf := table.asOfOf_listing (toOption_eq_some_iff.mp hlisting)
  unfold visibleOn
  rw [hasOf]
  rfl

/-- Tables that agree on what is known have the same latest rows, their places apart. -/
theorem latest_unplaced {other : SourceTable V} {requested : Date}
    (h : table.AgreesBy requested other) :
    (latestRows (fun entry => entry.2.symbol) (fun entry => entry.2.asOf) requested
        table.said).map unplaced =
      (latestRows (fun entry => entry.2.symbol) (fun entry => entry.2.asOf) requested
        other.said).map unplaced := by
  have hvisible : visibleRows (fun entry => entry.2.asOf) requested (table.said.map unplaced) =
      visibleRows (fun entry => entry.2.asOf) requested (other.said.map unplaced) := by
    rw [visible_unplaced, visible_unplaced, ← h.rows]
    by_cases hnone : table.rows.filter (table.visibleOn requested) = []
    · rw [hnone]
      rfl
    · rw [table.sayOf_columns (h.columns hnone)]
  have hlatest := @latestRows_congr _ (fun entry => entry.2.symbol) _ _ _ _ hvisible
  rw [latestRows_map, latestRows_map] at hlatest
  exact hlatest

/-! ### Liquidity -/

def saidLiquidity : List (LiquidityRow V) :=
  table.rows.filterMap fun row => (table.liquidityOf row).toOption

def liquidityVisibleOn (requested : Date) (row : SourceRow V) : Bool :=
  match table.frame.dateOf ["as_of", "trade_date"] "liquidity.as_of" row.cells with
  | .ok (some day) => day ≤ requested
  | _ => false

structure LiquidityAgreesBy (requested : Date) (other : SourceTable V) : Prop where
  rows : table.rows.filter (table.liquidityVisibleOn requested) =
    other.rows.filter (other.liquidityVisibleOn requested)
  columns : table.rows.filter (table.liquidityVisibleOn requested) ≠ [] →
    table.columns = other.columns

theorem preparedLiquidity_ok {rows : List (LiquidityRow V)}
    (h : table.preparedLiquidity = .ok rows) : rows = table.saidLiquidity := by
  obtain ⟨_, _, h⟩ := bind_eq_ok_iff.mp h
  obtain ⟨_, _, h⟩ := bind_eq_ok_iff.mp h
  exact (filterMap_of_mapM_ok h).symm

theorem visible_liquidity (requested : Date) :
    visibleRows LiquidityRow.asOf requested table.saidLiquidity =
      (table.rows.filter (table.liquidityVisibleOn requested)).filterMap
        fun row => (table.liquidityOf row).toOption := by
  rw [visibleRows, saidLiquidity]
  refine filter_filterMap_of ?_ _
  intro row known hknown
  have hok := toOption_eq_some_iff.mp hknown
  unfold liquidityOf at hok
  obtain ⟨_, _, hok⟩ := bind_eq_ok_iff.mp hok
  obtain ⟨date, hdate, hok⟩ := bind_eq_ok_iff.mp hok
  obtain ⟨day, hday, hok⟩ := bind_eq_ok_iff.mp hok
  cases hok
  unfold liquidityVisibleOn
  rw [hdate, orRaise_eq_ok_iff.mp hday]

theorem liquidity_congr {other : SourceTable V} {requested : Date}
    (h : table.LiquidityAgreesBy requested other) :
    visibleRows LiquidityRow.asOf requested table.saidLiquidity =
      visibleRows LiquidityRow.asOf requested other.saidLiquidity := by
  rw [visible_liquidity, visible_liquidity, ← h.rows]
  by_cases hnone : table.rows.filter (table.liquidityVisibleOn requested) = []
  · rw [hnone]
    rfl
  · have hsame : table.liquidityOf = other.liquidityOf := by
      funext row
      unfold liquidityOf InstrumentFrame.dateOf InstrumentFrame.cellOf numberOf frame
      simp only [h.columns hnone]
    rw [hsame]

end SourceTable

section Universe

variable {V : Type}

/-- Both runs are without a table of liquidity, or with two that agree on what is known. -/
def LiquidityAgrees (requested : Date) : Option (SourceTable V) → Option (SourceTable V) → Prop
  | none, none => True
  | some table, some other => table.LiquidityAgreesBy requested other
  | _, _ => False

def KnownLiquidity (requested : Date) (liquidity : Option (SourceTable V)) (row : Listing V)
    (amount turnover : Option V) : Prop :=
  match liquidity with
  | none => amount = row.averageAmount ∧ turnover = row.averageTurnoverPct
  | some table =>
      (∃ known, LatestOf LiquidityRow.symbol LiquidityRow.asOf
          (visibleRows LiquidityRow.asOf requested table.saidLiquidity) known ∧
        known.symbol = row.symbol ∧ amount = known.averageAmount ∧
        turnover = known.averageTurnoverPct) ∨
      ((∀ known ∈ visibleRows LiquidityRow.asOf requested table.saidLiquidity,
          known.symbol ≠ row.symbol) ∧ amount = none ∧ turnover = none)

def withLiquidity (requested : Date) : Option (SourceTable V) → Listing V → Listing V
  | none => id
  | some table => Listing.merged
      (latestRows LiquidityRow.symbol LiquidityRow.asOf requested table.saidLiquidity)

theorem knownLiquidity_iff {requested : Date} {liquidity : Option (SourceTable V)}
    {row : Listing V} {amount turnover : Option V} :
    KnownLiquidity requested liquidity row amount turnover ↔
      amount = (withLiquidity requested liquidity row).averageAmount ∧
        turnover = (withLiquidity requested liquidity row).averageTurnoverPct := by
  cases liquidity with
  | none => exact Iff.rfl
  | some table =>
      unfold KnownLiquidity withLiquidity Listing.merged
      simp only
      cases hfound : (latestRows LiquidityRow.symbol LiquidityRow.asOf requested
          table.saidLiquidity).find? fun other => other.symbol = row.symbol with
      | some known =>
          obtain ⟨hlatest, hsymbol⟩ := find?_latestRows_iff.mp hfound
          constructor
          · rintro (⟨other, hother, hsame, rfl, rfl⟩ | ⟨hnone, _⟩)
            · rw [hother.unique hlatest (hsame.trans hsymbol.symm)]
              exact ⟨rfl, rfl⟩
            · exact absurd hsymbol (hnone known hlatest.mem)
          · rintro ⟨rfl, rfl⟩
            exact Or.inl ⟨known, hlatest, hsymbol, rfl, rfl⟩
      | none =>
          have hnone : ∀ known ∈ visibleRows LiquidityRow.asOf requested table.saidLiquidity,
              known.symbol ≠ row.symbol := by
            intro known hknown hsame
            obtain ⟨latest, hlatest, hsymbol⟩ := @exists_latestOf _ LiquidityRow.symbol
              LiquidityRow.asOf _ _ hknown
            rw [find?_latestRows_iff.mpr ⟨hlatest, hsymbol.trans hsame⟩] at hfound
            cases hfound
          constructor
          · rintro (⟨other, hother, hsame, _⟩ | ⟨_, rfl, rfl⟩)
            · exact absurd hsame (hnone other hother.mem)
            · exact ⟨rfl, rfl⟩
          · rintro ⟨rfl, rfl⟩
            exact Or.inr ⟨hnone, rfl, rfl⟩

theorem symbol_withLiquidity (requested : Date) (liquidity : Option (SourceTable V))
    (listing : Listing V) :
    (withLiquidity requested liquidity listing).symbol = listing.symbol := by
  cases liquidity with
  | none => rfl
  | some table => rfl

theorem rowOrder_withLiquidity (requested : Date) (liquidity : Option (SourceTable V))
    (listing : Listing V) :
    (withLiquidity requested liquidity listing).rowOrder = listing.rowOrder := by
  cases liquidity with
  | none => rfl
  | some table => rfl

theorem mergeLiquidity_ok {requested : Date} {liquidity : Option (SourceTable V)}
    {rows merged : List (Listing V)}
    (h : HistoricalUniverse.mergeLiquidity requested rows liquidity = .ok merged) :
    merged = rows.map (withLiquidity requested liquidity) := by
  cases liquidity with
  | none =>
      cases h
      exact (List.map_id rows).symm
  | some table =>
      obtain ⟨prepared, hprepared, h⟩ := bind_eq_ok_iff.mp h
      cases h
      rw [table.preparedLiquidity_ok hprepared]
      rfl

/-! ### The returned rows -/

/-- The latest visible row of each symbol, with what it says. -/
def SourceTable.latest (table : SourceTable V) (requested : Date) :
    List (SourceRow V × Listing V) :=
  latestRows (fun entry => entry.2.symbol) (fun entry => entry.2.asOf) requested table.said

def returned (requested : Date) (liquidity : Option (SourceTable V)) (listing : Listing V) :
    TradableRow V :=
  let row := withLiquidity requested liquidity listing
  { listing := row
    listingAgeDays := Day.toordinal requested - Day.toordinal row.instrument.listedDate
    universeDate := requested }

theorem mem_said_of_latest {requested : Date} {table : SourceTable V}
    {entry : SourceRow V × Listing V} (h : entry ∈ table.latest requested) : entry ∈ table.said :=
  (List.mem_filter.mp (mem_latestRows_iff.mp h).mem).1

theorem exists_unplaced {requested : Date} {table other : SourceTable V}
    (hagree : table.AgreesBy requested other) {entry : SourceRow V × Listing V}
    (hentry : entry ∈ table.latest requested) :
    ∃ entry' ∈ other.latest requested, unplaced entry' = unplaced entry := by
  have hsame : (table.latest requested).map unplaced = (other.latest requested).map unplaced :=
    table.latest_unplaced hagree
  have hmem : unplaced entry ∈ (other.latest requested).map unplaced :=
    hsame ▸ List.mem_map_of_mem hentry
  exact List.mem_map.mp hmem

theorem symbol_of_unplaced {entry entry' : SourceRow V × Listing V}
    (h : unplaced entry' = unplaced entry) : entry'.2.symbol = entry.2.symbol := by
  have hsymbol := congrArg (fun entry : SourceRow V × Listing V => entry.2.symbol) h
  exact hsymbol

theorem eq_of_unplaced {entry entry' : SourceRow V × Listing V}
    (h : unplaced entry' = unplaced entry) (hplace : entry'.2.rowOrder = entry.2.rowOrder) :
    entry'.2 = entry.2 := by
  obtain ⟨row, instrument, amount, turnover, place⟩ := entry
  obtain ⟨row', instrument', amount', turnover', place'⟩ := entry'
  obtain ⟨rfl, rfl, rfl, _⟩ := Listing.mk.inj (Prod.mk.inj h).2
  change place' = place at hplace
  rw [hplace]

/-- The latest rows of a symbol are the same, their places apart. -/
theorem unplaced_eq {requested : Date} {table other : SourceTable V}
    (hagree : table.AgreesBy requested other) {entry entry' : SourceRow V × Listing V}
    (hentry : entry ∈ table.latest requested) (hentry' : entry' ∈ other.latest requested)
    (hsymbol : entry.2.symbol = entry'.2.symbol) : unplaced entry = unplaced entry' := by
  obtain ⟨found, hfound, hunplaced⟩ := exists_unplaced hagree hentry
  have hsame := (symbol_of_unplaced hunplaced).trans hsymbol
  rw [← hunplaced, (mem_latestRows_iff.mp hfound).unique (mem_latestRows_iff.mp hentry') hsame]

theorem withLiquidity_congr {requested : Date} {liquidity liquidity' : Option (SourceTable V)}
    (h : LiquidityAgrees requested liquidity liquidity') :
    withLiquidity requested liquidity = withLiquidity requested liquidity' := by
  cases liquidity with
  | none =>
      cases liquidity' with
      | none => rfl
      | some other => exact absurd h not_false
  | some table =>
      cases liquidity' with
      | none => exact absurd h not_false
      | some other =>
          unfold withLiquidity
          simp only [@latestRows_congr _ LiquidityRow.symbol _ _ _ _ (table.liquidity_congr h)]

variable [LinearOrder V]

/-- The thresholds are met by what is known of the liquidity. -/
def MeetsLiquidity (settings : UniverseSettings V) (requested : Date)
    (liquidity : Option (SourceTable V)) (row : Listing V) : Prop :=
  ∃ amount turnover, KnownLiquidity requested liquidity row amount turnover ∧
    (∀ least ∈ settings.minAverageAmount, ∃ value ∈ amount, least ≤ value) ∧
    ∀ least ∈ settings.minAverageTurnoverPct, ∃ value ∈ turnover, least ≤ value

/-- The day is in an interval that begins and may end. -/
def Within (start last : Option Date) (requested : Date) : Prop :=
  ∃ begins ∈ start, begins ≤ requested ∧ ∀ ends ∈ last, requested < ends

/-- The instrument may be traded, its flags apart. -/
structure Instrument.Allowed (excludeNewDays : ℤ) (requested : Date) (row : Instrument) : Prop where
  listed : row.listedDate ≤ requested
  aged : excludeNewDays ≤ Day.toordinal requested - Day.toordinal row.listedDate
  delisted : ¬ ∃ delisted ∈ row.delistedDate, delisted ≤ requested
  st : ¬ Within row.stEffectiveDate row.stEndDate requested
  suspended : ¬ Within row.suspensionEffectiveDate row.suspensionEndDate requested

theorem activeInterval_iff (start last : Option Date) (requested : Date) :
    activeInterval start last requested = true ↔ Within start last requested := by
  unfold activeInterval Within
  simp [Option.any_eq_true]

theorem Instrument.eligible_iff (excludeNewDays : ℤ) (requested : Date) (row : Instrument) :
    row.eligible excludeNewDays requested = true ↔
      row.Allowed excludeNewDays requested ∧ ¬ row.flagged := by
  have hst := activeInterval_iff row.stEffectiveDate row.stEndDate requested
  have hsuspended := activeInterval_iff row.suspensionEffectiveDate row.suspensionEndDate requested
  unfold Instrument.eligible Instrument.flagged
  simp only [decide_eq_true_eq, not_or, Bool.not_eq_true]
  constructor
  · rintro ⟨hlisted, haged, hdelisted, hflag, hrisk, hhalted, hinterval, hhalt⟩
    refine ⟨⟨hlisted, haged, ?_, ?_, ?_⟩, hflag, hrisk, hhalted⟩
    · rintro ⟨delisted, hmem, hle⟩
      exact absurd (hdelisted delisted hmem) (not_lt.mpr hle)
    · rw [← hst, hinterval]
      exact Bool.false_ne_true
    · rw [← hsuspended, hhalt]
      exact Bool.false_ne_true
  · rintro ⟨⟨hlisted, haged, hdelisted, hinterval, hhalt⟩, hflag, hrisk, hhalted⟩
    refine ⟨hlisted, haged, ?_, hflag, hrisk, hhalted, ?_, ?_⟩
    · intro delisted hmem
      by_contra hle
      exact hdelisted ⟨delisted, hmem, not_lt.mp hle⟩
    · rw [← Bool.not_eq_true, hst]
      exact hinterval
    · rw [← Bool.not_eq_true, hsuspended]
      exact hhalt

theorem reaches_iff (threshold value : Option V) :
    reaches threshold value = true ↔ ∀ least ∈ threshold, ∃ known ∈ value, least ≤ known := by
  unfold reaches
  cases threshold with
  | none => simp
  | some least => simp [Option.any_eq_true]

/-- A row that may be traded, its flags apart. -/
structure Tradable (settings : UniverseSettings V) (requested : Date)
    (liquidity : Option (SourceTable V)) (listing : Listing V) : Prop where
  allowed : listing.instrument.Allowed settings.excludeNewDays requested
  liquid : MeetsLiquidity settings requested liquidity listing

theorem liquid_iff {settings : UniverseSettings V} {frame : List (Listing V)} {requested : Date}
    {liquidity : Option (SourceTable V)} {listing : Listing V} :
    HistoricalUniverse.liquid ⟨settings, frame⟩ (withLiquidity requested liquidity listing) =
        true ↔
      MeetsLiquidity settings requested liquidity listing := by
  unfold HistoricalUniverse.liquid MeetsLiquidity
  rw [Bool.and_eq_true, reaches_iff, reaches_iff]
  constructor
  · rintro ⟨hamount, hturnover⟩
    exact ⟨_, _, knownLiquidity_iff.mpr ⟨rfl, rfl⟩, hamount, hturnover⟩
  · rintro ⟨amount, turnover, hknown, hamount, hturnover⟩
    obtain ⟨rfl, rfl⟩ := knownLiquidity_iff.mp hknown
    exact ⟨hamount, hturnover⟩

/-- Whether a row may be traded otherwise does not depend on how its flags are shown. -/
theorem tradable_reflagged {settings : UniverseSettings V} {requested : Date}
    {liquidity : Option (SourceTable V)} (table : SourceTable V) (isFloat : Text → Bool)
    (entry : SourceRow V × Listing V) :
    Tradable settings requested liquidity (table.reflagged isFloat entry.1 entry.2) ↔
      Tradable settings requested liquidity entry.2 := by
  have hliquid : MeetsLiquidity settings requested liquidity
      (table.reflagged isFloat entry.1 entry.2) ↔
        MeetsLiquidity settings requested liquidity entry.2 := by
    cases liquidity with
    | none => exact Iff.rfl
    | some other => exact Iff.rfl
  constructor
  · rintro ⟨⟨hlisted, haged, hdelisted, hst, hsuspended⟩, hmeets⟩
    exact ⟨⟨hlisted, haged, hdelisted, hst, hsuspended⟩, hliquid.mp hmeets⟩
  · rintro ⟨⟨hlisted, haged, hdelisted, hst, hsuspended⟩, hmeets⟩
    exact ⟨⟨hlisted, haged, hdelisted, hst, hsuspended⟩, hliquid.mpr hmeets⟩

section Runs

variable {settings : UniverseSettings V} {requested : Date}

/-- What may be traded in one table may be traded in the other one, from the same row. -/
theorem untagged_iff {table other : SourceTable V} {liquidity liquidity' : Option (SourceTable V)}
    (hagree : table.AgreesBy requested other)
    (hliquidity : LiquidityAgrees requested liquidity liquidity')
    {entry entry' : SourceRow V × Listing V} (hentry : entry ∈ table.latest requested)
    (hentry' : entry' ∈ other.latest requested) (hsymbol : entry.2.symbol = entry'.2.symbol) :
    (Tradable settings requested liquidity entry.2 ∧ ¬ table.Flagged entry.1) ↔
      (Tradable settings requested liquidity' entry'.2 ∧ ¬ other.Flagged entry'.1) := by
  have hflagged := (table.mem_said (mem_said_of_latest hentry)).1
  have hflagged' := (other.mem_said (mem_said_of_latest hentry')).1
  obtain ⟨row, instrument, amount, turnover, place⟩ := entry
  obtain ⟨row', instrument', amount', turnover', place'⟩ := entry'
  obtain ⟨rfl, hlisting⟩ := Prod.mk.inj (unplaced_eq hagree hentry hentry' hsymbol)
  obtain ⟨rfl, rfl, rfl, _⟩ := Listing.mk.inj hlisting
  rw [← hflagged, ← hflagged']
  refine and_congr_left fun _ => ?_
  have hmeets : MeetsLiquidity settings requested liquidity ⟨instrument, amount, turnover, place⟩ ↔
      MeetsLiquidity settings requested liquidity' ⟨instrument, amount, turnover, place'⟩ := by
    unfold MeetsLiquidity
    simp only [knownLiquidity_iff, withLiquidity_congr hliquidity]
    cases liquidity' with
    | none => exact Iff.rfl
    | some other => exact Iff.rfl
  exact ⟨fun h => ⟨h.allowed, hmeets.mp h.liquid⟩, fun h => ⟨h.allowed, hmeets.mpr h.liquid⟩⟩

variable [Zero V]

/-- What a run returns: of the latest visible rows those that may be traded and show no flag. -/
theorem tradableUniverse_ok {table : SourceTable V} {liquidity : Option (SourceTable V)}
    {history : HistoricalUniverse V} {rows : List (TradableRow V)}
    (hcreate : HistoricalUniverse.create settings table = .ok history)
    (hrows : history.tradableUniverse requested liquidity = .ok rows) :
    (∀ row, row ∈ rows ↔ ∃ entry ∈ table.latest requested,
      Tradable settings requested liquidity entry.2 ∧ ¬ table.ShowsFlag entry.1 ∧
        row = returned requested liquidity
          (table.reflagged table.isFloat entry.1 entry.2)) ∧
      Increasing (fun row => row.listing.symbol) rows := by
  obtain ⟨_, _, hcreate⟩ := bind_eq_ok_iff.mp hcreate
  obtain ⟨_, _, hcreate⟩ := bind_eq_ok_iff.mp hcreate
  obtain ⟨_, _, hcreate⟩ := bind_eq_ok_iff.mp hcreate
  obtain ⟨frame, hframe, hcreate⟩ := bind_eq_ok_iff.mp hcreate
  cases hcreate
  have hlatest : latestRows Listing.symbol Listing.asOf requested frame =
      (table.latest requested).map fun entry =>
        table.reflagged table.isFloat entry.1 entry.2 := by
    rw [table.preparedUniverse_ok hframe, latestRows_map]
    rfl
  have hincreasing : Increasing (fun entry => entry.2.symbol) (table.latest requested) :=
    increasing_latestRows _
  unfold HistoricalUniverse.tradableUniverse at hrows
  simp only [hlatest] at hrows
  by_cases hnone : (table.latest requested).map
      (fun entry => table.reflagged table.isFloat entry.1 entry.2) = []
  · rw [if_pos hnone] at hrows
    cases hrows
    rw [List.map_eq_nil_iff] at hnone
    refine ⟨fun row => ⟨fun h => absurd h List.not_mem_nil, ?_⟩, List.Pairwise.nil⟩
    rintro ⟨entry, hentry, _⟩
    rw [hnone] at hentry
    exact absurd hentry List.not_mem_nil
  · rw [if_neg hnone] at hrows
    obtain ⟨merged, hmerged, hrows⟩ := bind_eq_ok_iff.mp hrows
    rw [mergeLiquidity_ok hmerged] at hrows
    cases hrows
    constructor
    · intro row
      simp only [List.mem_map, List.mem_filter]
      constructor
      · rintro ⟨_, ⟨⟨_, ⟨⟨entry, hentry, rfl⟩, heligible⟩, rfl⟩, hliquid⟩, rfl⟩
        obtain ⟨hallowed, hflags⟩ := (Instrument.eligible_iff _ _ _).mp heligible
        refine ⟨entry, hentry, ?_, fun hshows => hflags ?_, rfl⟩
        · exact (tradable_reflagged table table.isFloat entry).mp
            ⟨hallowed, liquid_iff.mp hliquid⟩
        · exact table.flagged_reflagged.mpr hshows
      · rintro ⟨entry, hentry, htradable, hflags, rfl⟩
        have hshown := (tradable_reflagged table table.isFloat entry).mpr htradable
        refine ⟨_, ⟨⟨_, ⟨⟨entry, hentry, rfl⟩, ?_⟩, rfl⟩, liquid_iff.mpr hshown.liquid⟩, rfl⟩
        refine (Instrument.eligible_iff _ _ _).mpr ⟨hshown.allowed, fun hflagged => hflags ?_⟩
        exact table.flagged_reflagged.mp hflagged
    · unfold Increasing
      rw [List.pairwise_map]
      refine List.Pairwise.filter _ ?_
      rw [List.pairwise_map]
      simp only [symbol_withLiquidity]
      refine List.Pairwise.filter _ ?_
      rw [List.pairwise_map]
      exact hincreasing

/-- The symbols are those of the latest visible rows that may be traded and have no flag set. -/
def Exact (settings : UniverseSettings V) (requested : Date) (table : SourceTable V)
    (liquidity : Option (SourceTable V)) (rows : List (TradableRow V)) : Prop :=
  ∀ symbol, symbol ∈ rows.map (fun row => row.listing.symbol) ↔
    ∃ entry, LatestOf (fun entry => entry.2.symbol) (fun entry => entry.2.asOf)
        (visibleRows (fun entry => entry.2.asOf) requested table.said) entry ∧
      entry.2.symbol = symbol ∧ Tradable settings requested liquidity entry.2 ∧
      ¬ table.Flagged entry.1

def FlagsShown (settings : UniverseSettings V) (requested : Date) (table : SourceTable V)
    (liquidity : Option (SourceTable V)) : Prop :=
  ∀ entry, LatestOf (fun entry => entry.2.symbol) (fun entry => entry.2.asOf)
      (visibleRows (fun entry => entry.2.asOf) requested table.said) entry →
    Tradable settings requested liquidity entry.2 → table.Flagged entry.1 →
      table.ShowsFlag entry.1

/-- The latest visible rows that may be traded have the same place in both tables. -/
def SamePlaces (settings : UniverseSettings V) (requested : Date) (table other : SourceTable V)
    (liquidity : Option (SourceTable V)) : Prop :=
  ∀ entry entry', LatestOf (fun entry => entry.2.symbol) (fun entry => entry.2.asOf)
      (visibleRows (fun entry => entry.2.asOf) requested table.said) entry →
    LatestOf (fun entry => entry.2.symbol) (fun entry => entry.2.asOf)
      (visibleRows (fun entry => entry.2.asOf) requested other.said) entry' →
    entry.2.symbol = entry'.2.symbol → Tradable settings requested liquidity entry.2 →
      ¬ table.Flagged entry.1 → entry.2.rowOrder = entry'.2.rowOrder

theorem exact_iff {table : SourceTable V} {liquidity : Option (SourceTable V)}
    {history : HistoricalUniverse V} {rows : List (TradableRow V)}
    (hcreate : HistoricalUniverse.create settings table = .ok history)
    (hrows : history.tradableUniverse requested liquidity = .ok rows) :
    Exact settings requested table liquidity rows ↔
      FlagsShown settings requested table liquidity := by
  obtain ⟨hmem, _⟩ := tradableUniverse_ok hcreate hrows
  have hsymbols : ∀ symbol, symbol ∈ rows.map (fun row => row.listing.symbol) ↔
      ∃ entry ∈ table.latest requested, entry.2.symbol = symbol ∧
        Tradable settings requested liquidity entry.2 ∧ ¬ table.ShowsFlag entry.1 := by
    intro symbol
    have hsymbol : ∀ entry : SourceRow V × Listing V, (returned requested liquidity
        (table.reflagged table.isFloat entry.1 entry.2)).listing.symbol = entry.2.symbol :=
      fun entry => (symbol_withLiquidity requested liquidity _).trans rfl
    rw [List.mem_map]
    constructor
    · rintro ⟨row, hrow, rfl⟩
      obtain ⟨entry, hentry, htradable, hflags, rfl⟩ := (hmem row).mp hrow
      exact ⟨entry, hentry, (hsymbol entry).symm, htradable, hflags⟩
    · rintro ⟨entry, hentry, rfl, htradable, hflags⟩
      exact ⟨_, (hmem _).mpr ⟨entry, hentry, htradable, hflags, rfl⟩, hsymbol entry⟩
  unfold Exact FlagsShown
  constructor
  · intro hexact entry hlatest htradable hflagged
    by_contra hshows
    obtain ⟨other, hother, hsame, _, hunflagged⟩ := (hexact entry.2.symbol).mp
      ((hsymbols _).mpr ⟨entry, mem_latestRows_iff.mpr hlatest, rfl, htradable, hshows⟩)
    rw [hother.unique hlatest hsame] at hunflagged
    exact hunflagged hflagged
  · intro hshown symbol
    rw [hsymbols]
    constructor
    · rintro ⟨entry, hentry, hsymbol, htradable, hflags⟩
      have hlatest := mem_latestRows_iff.mp hentry
      exact ⟨entry, hlatest, hsymbol, htradable,
        fun hflagged => hflags (hshown entry hlatest htradable hflagged)⟩
    · rintro ⟨entry, hlatest, hsymbol, htradable, hflags⟩
      exact ⟨entry, mem_latestRows_iff.mpr hlatest, hsymbol, htradable,
        fun hshows => hflags (table.flagged_of_showsFlag hshows)⟩

theorem mem_returned_iff {table : SourceTable V} {liquidity : Option (SourceTable V)}
    {history : HistoricalUniverse V} {rows : List (TradableRow V)}
    (hcreate : HistoricalUniverse.create settings table = .ok history)
    (hrows : history.tradableUniverse requested liquidity = .ok rows)
    (hshown : FlagsShown settings requested table liquidity) (row : TradableRow V) :
    row ∈ rows ↔ ∃ entry ∈ table.latest requested,
      (Tradable settings requested liquidity entry.2 ∧ ¬ table.Flagged entry.1) ∧
        row = returned requested liquidity entry.2 := by
  rw [(tradableUniverse_ok hcreate hrows).1]
  constructor
  · rintro ⟨entry, hentry, htradable, hshows, rfl⟩
    have hflags : ¬ table.Flagged entry.1 := fun hflagged =>
      hshows (hshown entry (mem_latestRows_iff.mp hentry) htradable hflagged)
    refine ⟨entry, hentry, ⟨htradable, hflags⟩, ?_⟩
    rw [table.reflagged_eq (mem_said_of_latest hentry) hflags]
  · rintro ⟨entry, hentry, ⟨htradable, hflags⟩, rfl⟩
    refine ⟨entry, hentry, htradable, fun hshows => hflags (table.flagged_of_showsFlag hshows), ?_⟩
    rw [table.reflagged_eq (mem_said_of_latest hentry) hflags]

/-- Two runs over tables that agree on what is known return the same rows, and those of the
instruments that may be traded, exactly if no flag of such an instrument is hidden in a column of
floats and the rows are in the same places. -/
theorem pointInTime_iff {table other : SourceTable V}
    {liquidity liquidity' : Option (SourceTable V)} {history history' : HistoricalUniverse V}
    {rows rows' : List (TradableRow V)}
    (hcreate : HistoricalUniverse.create settings table = .ok history)
    (hcreate' : HistoricalUniverse.create settings other = .ok history')
    (hrows : history.tradableUniverse requested liquidity = .ok rows)
    (hrows' : history'.tradableUniverse requested liquidity' = .ok rows')
    (hagree : table.AgreesBy requested other)
    (hliquidity : LiquidityAgrees requested liquidity liquidity') :
    (rows = rows' ∧ Exact settings requested table liquidity rows ∧
        Exact settings requested other liquidity' rows') ↔
      (FlagsShown settings requested table liquidity ∧
        FlagsShown settings requested other liquidity' ∧
        SamePlaces settings requested table other liquidity) := by
  rw [exact_iff hcreate hrows, exact_iff hcreate' hrows', and_comm, and_assoc]
  refine and_congr_right fun hshown => and_congr_right fun hshown' => ?_
  have hmem := mem_returned_iff hcreate hrows hshown
  have hmem' := mem_returned_iff hcreate' hrows' hshown'
  have hincreasing := (tradableUniverse_ok hcreate hrows).2
  have hincreasing' := (tradableUniverse_ok hcreate' hrows').2
  have hbring : returned requested liquidity' = returned requested liquidity (V := V) := by
    funext listing
    unfold returned
    rw [withLiquidity_congr hliquidity]
  rw [hbring] at hmem'
  constructor
  · rintro rfl entry entry' hlatest hlatest' hsymbol htradable hflags
    have hentry := mem_latestRows_iff.mpr hlatest
    have hentry' := mem_latestRows_iff.mpr hlatest'
    have hfirst := (hmem _).mpr ⟨entry, hentry, ⟨htradable, hflags⟩, rfl⟩
    have hsecond := (hmem' _).mpr ⟨entry', hentry',
      (untagged_iff hagree hliquidity hentry hentry' hsymbol).mp ⟨htradable, hflags⟩, rfl⟩
    have hsame := List.inj_on_of_nodup_map hincreasing.nodup hfirst hsecond
      (((symbol_withLiquidity _ _ _).trans hsymbol).trans (symbol_withLiquidity _ _ _).symm)
    have hplaces := congrArg (fun row : TradableRow V => row.listing.rowOrder) hsame
    exact ((rowOrder_withLiquidity _ _ _).symm.trans hplaces).trans
      (rowOrder_withLiquidity _ _ _)
  · intro hplaces
    refine hincreasing.eq_of_mem_iff hincreasing' fun row => ?_
    rw [hmem, hmem']
    have hsame : ∀ {entry entry'}, entry ∈ table.latest requested →
        entry' ∈ other.latest requested → unplaced entry' = unplaced entry →
        (Tradable settings requested liquidity entry.2 ∧ ¬ table.Flagged entry.1) →
          entry'.2 = entry.2 := by
      rintro entry entry' hentry hentry' hunplaced ⟨htradable, hflags⟩
      have hplace := hplaces entry entry' (mem_latestRows_iff.mp hentry)
        (mem_latestRows_iff.mp hentry') (symbol_of_unplaced hunplaced).symm htradable hflags
      exact eq_of_unplaced hunplaced hplace.symm
    constructor
    · rintro ⟨entry, hentry, hmay, rfl⟩
      obtain ⟨entry', hentry', hunplaced⟩ := exists_unplaced hagree hentry
      refine ⟨entry', hentry', ?_, by rw [hsame hentry hentry' hunplaced hmay]⟩
      exact (untagged_iff hagree hliquidity hentry hentry'
        (symbol_of_unplaced hunplaced).symm).mp hmay
    · rintro ⟨entry', hentry', hmay', rfl⟩
      obtain ⟨entry, hentry, hunplaced⟩ := exists_unplaced hagree.symm hentry'
      have hmay := (untagged_iff hagree hliquidity hentry hentry'
        (symbol_of_unplaced hunplaced)).mpr hmay'
      exact ⟨entry, hentry, hmay, by rw [hsame hentry hentry' hunplaced.symm hmay]⟩

end Runs

end Universe

/-! ### A flag that a later row hides -/

def knownDay : Date := .of 2021 6 30

def missingDay : Date := .of 2022 1 4

def flagRow (symbol : String) (day : Date) (st : FlagCell) : SourceRow ℕ where
  cells name := if name = "symbol".toList then ⟨symbol.toList, .invalid⟩ else ⟨[], .date day⟩
  flags _ := st
  numbers _ := none

def flagTable (rows : List (SourceRow ℕ)) : SourceTable ℕ :=
  ⟨["symbol".toList, "listed_date".toList, "as_of".toList, "is_st".toList], rows⟩

def noThresholds : UniverseSettings ℕ := ⟨0, none, none⟩

/-- An instrument that is an ST one, by an integer. -/
def knownFlags : SourceTable ℕ := flagTable [flagRow "600001" knownDay (.integer true)]

def laterFlags : SourceTable ℕ :=
  flagTable [flagRow "600001" knownDay (.integer true), flagRow "600002" missingDay .missing]

theorem knownFlags_pointInTime :
    (([] : List (TradableRow ℕ)) = [] ∧ Exact noThresholds knownDay knownFlags none [] ∧
        Exact noThresholds knownDay knownFlags none []) ↔
      (FlagsShown noThresholds knownDay knownFlags none ∧
        FlagsShown noThresholds knownDay knownFlags none ∧
          SamePlaces noThresholds knownDay knownFlags knownFlags none) :=
  pointInTime_iff (V := ℕ) rfl rfl rfl rfl ⟨rfl, fun _ => rfl⟩ trivial

/-- The later row lets the instrument through on the earlier day. -/
theorem laterFlag_hides :
    ¬ ∀ (settings : UniverseSettings ℕ) (requested : Date) (table other : SourceTable ℕ)
      (liquidity liquidity' : Option (SourceTable ℕ)) (history history' : HistoricalUniverse ℕ)
      (rows rows' : List (TradableRow ℕ)),
      HistoricalUniverse.create settings table = .ok history →
      HistoricalUniverse.create settings other = .ok history' →
      history.tradableUniverse requested liquidity = .ok rows →
      history'.tradableUniverse requested liquidity' = .ok rows' →
      table.AgreesBy requested other → LiquidityAgrees requested liquidity liquidity' →
        rows = rows' ∧ Exact settings requested table liquidity rows ∧
          Exact settings requested other liquidity' rows' := by
  intro h
  have hsame := (h noThresholds knownDay knownFlags laterFlags none none _ _ _ _ rfl rfl rfl rfl
    ⟨rfl, fun _ => rfl⟩ trivial).1
  cases hsame

end QuantWorkbench.Features
