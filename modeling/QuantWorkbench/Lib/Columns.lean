import Mathlib.Algebra.BigOperators.Group.List.Basic
import Mathlib.Algebra.Field.Basic
import QuantWorkbench.Lib.Tables

/-!
Columns of a table that are computed from the rows around a row. A column each of whose values
comes from the rows up to its own is causal: rows behind others change nothing before them.
-/

namespace QuantWorkbench.Lib

variable {α β γ : Type*}

/-! ### Columns of earlier rows -/

/-- The values of the rows when some rows were seen before them, newest first. -/
def columnFrom (entry : List α → β) : List α → List α → List β
  | _, [] => []
  | seen, row :: rest => entry (row :: seen) :: columnFrom entry (row :: seen) rest

/-- A column each of whose values comes from the rows up to its own, newest first. -/
def column (entry : List α → β) (rows : List α) : List β := columnFrom entry [] rows

theorem length_columnFrom (entry : List α → β) (seen rows : List α) :
    (columnFrom entry seen rows).length = rows.length := by
  induction rows generalizing seen with
  | nil => rfl
  | cons row rest ih => rw [columnFrom, List.length_cons, List.length_cons, ih]

@[simp] theorem length_column (entry : List α → β) (rows : List α) :
    (column entry rows).length = rows.length :=
  length_columnFrom entry [] rows

theorem columnFrom_append (entry : List α → β) (seen rows later : List α) :
    columnFrom entry seen (rows ++ later) =
      columnFrom entry seen rows ++ columnFrom entry (rows.reverse ++ seen) later := by
  induction rows generalizing seen with
  | nil => rfl
  | cons row rest ih =>
      rw [List.cons_append, columnFrom, columnFrom, ih, List.reverse_cons, List.append_assoc,
        List.cons_append, List.singleton_append]

theorem columnFrom_map (entry : List β → γ) (f : α → β) (seen rows : List α) :
    columnFrom entry (seen.map f) (rows.map f) =
      columnFrom (fun rows => entry (rows.map f)) seen rows := by
  induction rows generalizing seen with
  | nil => rfl
  | cons row rest ih =>
      rw [List.map_cons, columnFrom, columnFrom, ← ih]
      rfl

theorem column_map (entry : List β → γ) (f : α → β) (rows : List α) :
    column entry (rows.map f) = column (fun rows => entry (rows.map f)) rows :=
  columnFrom_map entry f [] rows

theorem mem_columnFrom {entry : List α → β} {seen rows : List α} {value : β}
    (h : value ∈ columnFrom entry seen rows) :
    ∃ earlier, earlier <:+ rows.reverse ++ seen ∧ entry earlier = value := by
  induction rows generalizing seen with
  | nil => cases h
  | cons row rest ih =>
      rw [List.reverse_cons, List.append_assoc, List.singleton_append]
      rcases List.mem_cons.mp h with rfl | hrest
      · exact ⟨row :: seen, List.suffix_append _ _, rfl⟩
      · exact ih hrest

theorem exists_of_mem_column {entry : List α → β} {rows : List α} {value : β}
    (h : value ∈ column entry rows) :
    ∃ earlier, earlier <:+ rows.reverse ∧ entry earlier = value := by
  obtain ⟨earlier, hearlier, hvalue⟩ := mem_columnFrom h
  rw [List.append_nil] at hearlier
  exact ⟨earlier, hearlier, hvalue⟩

/-- Rows behind others change none of the values before them. -/
structure Causal (f : List α → List β) : Prop where
  length : ∀ rows, (f rows).length = rows.length
  append : ∀ rows later, ∃ values, f (rows ++ later) = f rows ++ values

theorem causal_column (entry : List α → β) : Causal (column entry) where
  length := length_column entry
  append rows later := ⟨_, columnFrom_append entry [] rows later⟩

theorem Causal.comp {g : List β → List γ} {f : List α → List β} (hg : Causal g)
    (hf : Causal f) : Causal fun rows => g (f rows) where
  length rows := (hg.length _).trans (hf.length _)
  append rows later := by
    obtain ⟨values, hvalues⟩ := hf.append rows later
    rw [hvalues]
    exact hg.append _ values

theorem Causal.zip {f : List α → List β} {g : List α → List γ} (hf : Causal f)
    (hg : Causal g) : Causal fun rows => (f rows).zip (g rows) where
  length rows := by rw [List.length_zip, hf.length, hg.length, min_self]
  append rows later := by
    obtain ⟨values, hvalues⟩ := hf.append rows later
    obtain ⟨others, hothers⟩ := hg.append rows later
    refine ⟨values.zip others, ?_⟩
    rw [hvalues, hothers, List.zip_append]
    rw [hf.length, hg.length]

/-! ### Columns of later rows -/

/-- A column each of whose values comes from its row and the rows behind it. -/
def lookAhead (entry : List α → β) : List α → List β
  | [] => []
  | row :: rest => entry (row :: rest) :: lookAhead entry rest

theorem lookAhead_map (entry : List β → γ) (f : α → β) (rows : List α) :
    lookAhead entry (rows.map f) = lookAhead (fun rows => entry (rows.map f)) rows := by
  induction rows with
  | nil => rfl
  | cons row rest ih => rw [List.map_cons, lookAhead, lookAhead, ih, List.map_cons]

theorem mem_lookAhead {entry : List α → β} {rows : List α} {value : β} :
    value ∈ lookAhead entry rows ↔ ∃ i < rows.length, entry (rows.drop i) = value := by
  induction rows with
  | nil => simp [lookAhead]
  | cons row rest ih =>
      rw [lookAhead, List.mem_cons, ih]
      constructor
      · rintro (rfl | ⟨i, hi, hvalue⟩)
        · exact ⟨0, by simp, rfl⟩
        · exact ⟨i + 1, by simpa using hi, hvalue⟩
      · rintro ⟨i, hi, hvalue⟩
        cases i with
        | zero => exact Or.inl hvalue.symm
        | succ i => exact Or.inr ⟨i, by simpa using hi, hvalue⟩

/-! ### Columns of the rows around a row -/

/-- A row in its table, with the rows before it, newest first, and the rows behind it. -/
structure Place (α : Type*) where
  seen : List α
  row : α
  later : List α

def places : List α → List α → List (Place α)
  | _, [] => []
  | seen, row :: later => ⟨seen, row, later⟩ :: places (row :: seen) later

/-- A column each of whose values comes from the rows on both sides of its row. -/
def around (entry : Place α → β) (rows : List α) : List β := (places [] rows).map entry

theorem mem_places {seen rows : List α} {place : Place α} :
    place ∈ places seen rows ↔
      ∃ before, rows = before ++ place.row :: place.later ∧
        place.seen = before.reverse ++ seen := by
  induction rows generalizing seen with
  | nil => simp [places]
  | cons first rest ih =>
      rw [places, List.mem_cons, ih]
      constructor
      · rintro (rfl | ⟨before, hrows, hseen⟩)
        · exact ⟨[], rfl, rfl⟩
        · refine ⟨first :: before, by rw [hrows, List.cons_append], ?_⟩
          rw [hseen, List.reverse_cons, List.append_assoc, List.singleton_append]
      · rintro ⟨before, hrows, hseen⟩
        cases before with
        | nil =>
            obtain ⟨hfirst, hrest⟩ := List.cons_eq_cons.mp hrows
            obtain ⟨_, row, later⟩ := place
            cases hfirst
            cases hrest
            cases hseen
            exact Or.inl rfl
        | cons other before =>
            obtain ⟨rfl, hrest⟩ := List.cons_eq_cons.mp hrows
            rw [List.reverse_cons, List.append_assoc, List.singleton_append] at hseen
            exact Or.inr ⟨before, hrest, hseen⟩

theorem map_row_places (seen rows : List α) : (places seen rows).map Place.row = rows := by
  induction rows generalizing seen with
  | nil => rfl
  | cons row rest ih => rw [places, List.map_cons, ih]

section Groups

variable {σ κ : Type*} [DecidableEq σ] [LinearOrder κ] {group : α → σ} {key : α → κ}

/-- Of a table whose groups are sorted, a row up to a bound has around it, in its group, the rows
up to the bound and behind them those beyond it. -/
theorem filterMap_places_upTo (bound : κ) (entry : List α → α → List α → Option β)
    (beyond : σ → List α) {seen rows : List α}
    (hseen : ∀ a ∈ seen, ∀ b ∈ rows, group a = group b → key a ≤ key b)
    (hsorted : rows.Pairwise fun a b => group a = group b → key a ≤ key b)
    (hbeyond : ∀ row ∈ rows, key row ≤ bound →
      rows.filter (fun other => group other = group row ∧ bound < key other) =
        beyond (group row)) :
    (places seen rows).filterMap (fun place =>
        if key place.row ≤ bound then
          entry (place.seen.filter fun other => group other = group place.row) place.row
            (place.later.filter fun other => group other = group place.row)
        else none) =
      (places (seen.filter fun row => key row ≤ bound)
        (rows.filter fun row => key row ≤ bound)).filterMap fun place =>
          entry (place.seen.filter fun other => group other = group place.row) place.row
            ((place.later.filter fun other => group other = group place.row) ++
              beyond (group place.row)) := by
  induction rows generalizing seen with
  | nil => rfl
  | cons row rest ih =>
      obtain ⟨hrow, hrest⟩ := List.pairwise_cons.mp hsorted
      have hseenRest : ∀ a ∈ row :: seen, ∀ b ∈ rest, group a = group b → key a ≤ key b := by
        intro a ha b hb
        rcases List.mem_cons.mp ha with rfl | ha
        · exact hrow b hb
        · exact hseen a ha b (List.mem_cons_of_mem row hb)
      by_cases hbound : key row ≤ bound
      · have hbeyondRest : ∀ other ∈ rest, key other ≤ bound →
            rest.filter (fun later => group later = group other ∧ bound < key later) =
              beyond (group other) := by
          intro other hother hle
          rw [← hbeyond other (List.mem_cons_of_mem row hother) hle,
            List.filter_cons_of_neg (by simp [hbound])]
        have hbefore : (seen.filter fun other => key other ≤ bound).filter
            (fun other => group other = group row) =
            seen.filter fun other => group other = group row := by
          rw [List.filter_filter]
          refine List.filter_congr fun other hother => ?_
          by_cases hsame : group other = group row
          · have hle := hseen other hother row List.mem_cons_self hsame
            simp [hsame, hle.trans hbound]
          · simp [hsame]
        have hbehind : rest.filter (fun other => group other = group row) =
            ((rest.filter fun other => key other ≤ bound).filter fun other =>
              group other = group row) ++ beyond (group row) := by
          have hgroup : (rest.filter fun other => group other = group row).Pairwise
              fun a b => key a ≤ key b := by
            refine List.Pairwise.imp_of_mem ?_ (hrest.filter _)
            intro a b ha hb hab
            have hgroupA := of_decide_eq_true (List.mem_filter.mp ha).2
            have hgroupB := of_decide_eq_true (List.mem_filter.mp hb).2
            exact hab (hgroupA.trans hgroupB.symm)
          have hlater := hbeyond row List.mem_cons_self hbound
          rw [List.filter_cons_of_neg (by simp [hbound])] at hlater
          rw [upTo_append_behind hgroup bound, ← hlater, List.filter_filter, List.filter_filter,
            List.filter_filter]
          simp only [Bool.and_comm, Bool.decide_and]
        rw [places, List.filterMap_cons, List.filter_cons_of_pos (by simpa using hbound), places,
          List.filterMap_cons]
        have htail := ih hseenRest hrest hbeyondRest
        rw [List.filter_cons_of_pos (by simpa using hbound)] at htail
        simp only [if_pos hbound, hbefore, hbehind, htail]
      · have hbeyondRest : ∀ other ∈ rest, key other ≤ bound →
            rest.filter (fun later => group later = group other ∧ bound < key later) =
              beyond (group other) := by
          intro other hother hle
          have hgroup : group row ≠ group other := fun hsame =>
            hbound ((hrow other hother hsame).trans hle)
          rw [← hbeyond other (List.mem_cons_of_mem row hother) hle,
            List.filter_cons_of_neg (by simp [hgroup])]
        have htail := ih hseenRest hrest hbeyondRest
        rw [List.filter_cons_of_neg (by simpa using hbound)] at htail
        rw [places, List.filterMap_cons, List.filter_cons_of_neg (by simpa using hbound)]
        simp only [if_neg hbound]
        exact htail

end Groups

/-- A column with a value wherever another one has one, and at one more place, is longer. -/
theorem length_filterMap_lt {read other : α → Option β} {rows : List α}
    (hle : ∀ row ∈ rows, (read row).isSome → (other row).isSome)
    (hlt : ∃ row ∈ rows, read row = none ∧ (other row).isSome) :
    (rows.filterMap read).length < (rows.filterMap other).length := by
  have hcount : ∀ read : α → Option β,
      (rows.filterMap read).length = (rows.filter fun row => (read row).isSome).length := by
    intro read
    rw [List.length_filterMap_eq_countP, List.countP_eq_length_filter]
  have hinner : rows.filter (fun row => (read row).isSome) =
      (rows.filter fun row => (other row).isSome).filter fun row => (read row).isSome := by
    rw [List.filter_filter]
    refine List.filter_congr fun row hrow => ?_
    cases hread : (read row).isSome with
    | false => rfl
    | true => rw [hle row hrow hread]; rfl
  rw [hcount, hcount, hinner, List.length_filter_lt_length_iff_exists]
  obtain ⟨row, hrow, hnone, hsome⟩ := hlt
  exact ⟨row, List.mem_filter.mpr ⟨hrow, hsome⟩, by simp [hnone]⟩

/-! ### Entries -/

/-- `shift` by a number of rows. -/
def shifted (count : ℕ) (seen : List (Option β)) : Option β := (seen[count]?).join

/-- The values of a full window, if none is missing. -/
def windowOf (size : ℕ) (seen : List (Option β)) : Option (List β) :=
  if size ≤ seen.length then (seen.take size).mapM id else none

theorem mem_of_shifted {count : ℕ} {seen : List (Option β)} {value : β}
    (h : shifted count seen = some value) : some value ∈ seen := by
  cases hcell : seen[count]? with
  | none => simp [shifted, hcell] at h
  | some cell =>
      have hvalue : cell = some value := by simpa [shifted, hcell] using h
      rw [← hvalue]
      exact List.mem_of_getElem? hcell

def rolling (size : ℕ) (aggregate : List β → γ) (seen : List (Option β)) : Option γ :=
  (windowOf size seen).map aggregate

theorem size_le_of_rolling {size : ℕ} {aggregate : List β → γ} {seen : List (Option β)} {value : γ}
    (h : rolling size aggregate seen = some value) : size ≤ seen.length := by
  by_contra hshort
  rw [rolling, windowOf, if_neg hshort] at h
  cases h

section Field

variable {F : Type*} [Field F]

def pctChange (periods : ℕ) : List F → Option F
  | now :: earlier => ((now :: earlier)[periods]?).map fun before => now / before - 1
  | [] => none

theorem pctChange_scaled (periods : ℕ) {factor : F} (h : factor ≠ 0) (seen : List F) :
    pctChange periods (seen.map fun value => factor * value) = pctChange periods seen := by
  cases seen with
  | nil => rfl
  | cons now earlier =>
      rw [List.map_cons, pctChange, ← List.map_cons (f := fun value => factor * value),
        List.getElem?_map, Option.map_map, pctChange]
      congr 1
      funext before
      rw [Function.comp_apply, mul_div_mul_left _ _ h]

def mean (values : List F) : F := values.sum / values.length

/-- The variance with a number of degrees taken off. -/
def variance (ddof : ℕ) (values : List F) : F :=
  (values.map fun value => (value - mean values) * (value - mean values)).sum /
    (values.length - ddof)

end Field

/-- The square root of the arithmetic. -/
class SquareRoot (F : Type*) where
  sqrt : F → F

def std {F : Type*} [Field F] [SquareRoot F] (ddof : ℕ) (values : List F) : F :=
  SquareRoot.sqrt (variance ddof values)

end QuantWorkbench.Lib

/-!
Columns of floating-point numbers, some of which may be missing. The numbers and the operations on
them are a parameter; a value of a rolling column comes from the values up to its own row.
-/

namespace QuantWorkbench.Lib

/-- Floating-point numbers with the operations on columns of them. The lists of values up to a row
have the newest value first, and the operations on whole columns leave out missing values. -/
class FloatColumns (F : Type) where
  missing : F
  isMissing : F → Bool
  ofRat : ℚ → F
  add : F → F → F
  sub : F → F → F
  mul : F → F → F
  div : F → F → F
  /-- `<`, which no missing number is or has. -/
  less : F → F → Bool
  /-- `<=`. -/
  atMost : F → F → Bool
  round : ℕ → F → F
  pctChange : ℕ → List F → F
  rollingMean : ℕ → List F → F
  rollingStd : ℕ → List F → F
  mean : List F → F
  std : List F → F
  quantile : F → List F → F

namespace FloatColumns

variable {F : Type} [FloatColumns F]

def shifted : List F → F
  | _ :: before :: _ => before
  | _ => missing

def clip (lower upper value : F) : F :=
  if less value lower then lower else if less upper value then upper else value

def sum (values : List F) : F := values.foldl add (ofRat 0)

end FloatColumns

end QuantWorkbench.Lib
