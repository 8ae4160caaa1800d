import QuantWorkbench.Lib.Calendar
import QuantWorkbench.Lib.LastByKey
import QuantWorkbench.Lib.Text

/-!
Tables as lists of rows: cells of dates and padded codes, stable sorting and the first rows of
their keys. Both commute with the selection of rows.
-/

namespace QuantWorkbench.Lib

/-- What a date parser makes of a cell. -/
inductive DateCell where
  | blank
  | date (day : Date)
  | invalid
  deriving DecidableEq

def DateCell.day? : DateCell → Option Date
  | date day => some day
  | _ => none

def zfill (width : ℕ) : Text → Text
  | sign :: rest =>
      if sign = '+' ∨ sign = '-' then
        sign :: (List.replicate (width - (rest.length + 1)) '0' ++ rest)
      else List.replicate (width - (rest.length + 1)) '0' ++ sign :: rest
  | [] => List.replicate width '0'

section Reading

variable {α β : Type}

/-- The values read from the rows that pass are the read values that pass. -/
theorem filter_filterMap (read : α → Option β) (p : β → Bool) (rows : List α) :
    (rows.filterMap read).filter p = (rows.filter fun row => (read row).any p).filterMap read := by
  induction rows with
  | nil => rfl
  | cons row rest ih =>
      cases hread : read row with
      | none =>
          rw [List.filterMap_cons_none hread, List.filter_cons_of_neg (by simp [hread]), ih]
      | some value =>
          rw [List.filterMap_cons_some hread]
          cases hp : p value with
          | false =>
              rw [List.filter_cons_of_neg (by simp [hp]),
                List.filter_cons_of_neg (by simp [hread, hp]), ih]
          | true =>
              rw [List.filter_cons_of_pos hp, List.filter_cons_of_pos (by simp [hread, hp]), ih,
                List.filterMap_cons_some hread]

end Reading

variable {α κ : Type*}

section Sorting

variable (r : α → α → Prop) [DecidableRel r] [IsTrans α r] [Std.Total r]

omit [Std.Total r] in
theorem filter_orderedInsert (p : α → Bool) (a : α) {l : List α} (h : l.Pairwise r) :
    (l.orderedInsert r a).filter p =
      if p a then (l.filter p).orderedInsert r a else l.filter p := by
  induction l with
  | nil => cases hp : p a <;> simp [hp]
  | cons b rest ih =>
      obtain ⟨hb, hrest⟩ := List.pairwise_cons.mp h
      by_cases hab : r a b
      · have hfront : ∀ c ∈ (b :: rest).filter p, r a c := by
          intro c hc
          rcases List.mem_cons.mp (List.mem_of_mem_filter hc) with rfl | hrest
          · exact hab
          · exact IsTrans.trans _ _ _ hab (hb c hrest)
        have hinsert : ((b :: rest).filter p).orderedInsert r a = a :: (b :: rest).filter p := by
          cases hrows : (b :: rest).filter p with
          | nil => rfl
          | cons c others =>
              rw [hrows] at hfront
              exact List.orderedInsert_cons_of_le r _ (hfront c List.mem_cons_self)
        rw [List.orderedInsert_cons_of_le r rest hab, hinsert, List.filter_cons]
      · rw [List.orderedInsert_of_not_le r rest hab, List.filter_cons, List.filter_cons, ih hrest]
        cases p a with
        | false => rfl
        | true =>
            cases p b with
            | false => rfl
            | true => exact (List.orderedInsert_of_not_le r _ hab).symm

theorem filter_insertionSort (p : α → Bool) (l : List α) :
    (l.insertionSort r).filter p = (l.filter p).insertionSort r := by
  induction l with
  | nil => rfl
  | cons a rest ih =>
      rw [List.insertionSort_cons, filter_orderedInsert r p a (List.pairwise_insertionSort r rest),
        ih, List.filter_cons]
      cases p a <;> rfl

end Sorting

section Keys

variable [LinearOrder κ]

def sortValues (key : α → κ) (rows : List α) : List α := rows.insertionSort fun a b => key a ≤ key b

variable {key : α → κ}

theorem perm_sortValues (rows : List α) : (sortValues key rows).Perm rows :=
  List.perm_insertionSort _ rows

@[simp] theorem mem_sortValues {rows : List α} {a : α} : a ∈ sortValues key rows ↔ a ∈ rows :=
  (perm_sortValues rows).mem_iff

instance keyTotal (key : α → κ) : Std.Total fun a b => key a ≤ key b :=
  ⟨fun _ _ => le_total _ _⟩

instance keyTrans (key : α → κ) : IsTrans α fun a b => key a ≤ key b :=
  ⟨fun _ _ _ => le_trans⟩

theorem pairwise_sortValues (rows : List α) :
    (sortValues key rows).Pairwise fun a b => key a ≤ key b :=
  List.pairwise_insertionSort _ rows

theorem sortValues_eq_of_perm {α : Type*} [LinearOrder α] {values others : List α}
    (h : values.Perm others) : sortValues id values = sortValues id others := by
  have hperm : (sortValues id values).Perm (sortValues id others) :=
    ((perm_sortValues values).trans h).trans (perm_sortValues others).symm
  exact hperm.eq_of_pairwise (fun a b _ _ => le_antisymm) (pairwise_sortValues values)
    (pairwise_sortValues others)

/-- Rows that are selected stay in their order. -/
theorem filter_sortValues (p : α → Bool) (rows : List α) :
    (sortValues key rows).filter p = sortValues key (rows.filter p) :=
  filter_insertionSort _ p rows

/-- Rows that are changed without their keys stay in their order. -/
theorem sortValues_map {β : Type*} {f : β → α} (rows : List β) :
    sortValues key (rows.map f) = (sortValues (fun row => key (f row)) rows).map f := by
  exact (List.map_insertionSort (fun a b => key (f a) ≤ key (f b)) (fun a b => key a ≤ key b) f rows
    fun _ _ _ _ => Iff.rfl).symm

theorem increasing_sortValues {rows : List α} (h : (rows.map key).Nodup) :
    Increasing key (sortValues key rows) := by
  have hnodup : ((sortValues key rows).map key).Nodup :=
    ((perm_sortValues rows).map key).nodup_iff.mpr h
  exact ((pairwise_sortValues rows).and (List.pairwise_map.mp hnodup)).imp
    fun h => lt_of_le_of_ne h.1 h.2

/-- Sorted rows are those up to a key, followed by those behind it. -/
theorem upTo_append_behind {rows : List α} (h : rows.Pairwise fun a b => key a ≤ key b)
    (bound : κ) :
    rows = (rows.filter fun row => key row ≤ bound) ++ rows.filter fun row => bound < key row := by
  induction rows with
  | nil => rfl
  | cons row rest ih =>
      obtain ⟨hrow, hrest⟩ := List.pairwise_cons.mp h
      by_cases hle : key row ≤ bound
      · rw [List.filter_cons_of_pos (by simpa using hle),
          List.filter_cons_of_neg (by simpa using hle), List.cons_append]
        exact congrArg (row :: ·) (ih hrest)
      · have hbehind : ∀ later ∈ row :: rest, bound < key later := by
          intro later hlater
          rcases List.mem_cons.mp hlater with rfl | hlater
          · exact not_le.mp hle
          · exact (not_le.mp hle).trans_le (hrow later hlater)
        have hnone : (row :: rest).filter (fun row => key row ≤ bound) = [] := by
          rw [List.filter_eq_nil_iff]
          intro later hlater
          simpa using hbehind later hlater
        have hall : (row :: rest).filter (fun row => bound < key row) = row :: rest := by
          rw [List.filter_eq_self]
          intro later hlater
          simpa using hbehind later hlater
        rw [hnone, hall, List.nil_append]

/-- The number of a row as the last key of a stable sort changes nothing. -/
theorem sortValues_rowOrder (rows : List α) (start : ℕ) :
    (sortValues (fun row : α × ℕ => toLex (key row.1, row.2)) (rows.zipIdx start)).map Prod.fst =
      sortValues key rows := by
  have hinsert : ∀ (a : α) (i : ℕ) (numbered : List (α × ℕ)), (∀ row ∈ numbered, i < row.2) →
      ((numbered.orderedInsert (fun a b : α × ℕ => toLex (key a.1, a.2) ≤ toLex (key b.1, b.2))
        (a, i)).map Prod.fst) =
        (numbered.map Prod.fst).orderedInsert (fun a b => key a ≤ key b) a := by
    intro a i numbered hlater
    induction numbered with
    | nil => rfl
    | cons row rest ih =>
        obtain ⟨hrow, hrest⟩ := List.forall_mem_cons.mp hlater
        have hsame : toLex (key a, i) ≤ toLex (key row.1, row.2) ↔ key a ≤ key row.1 := by
          rw [Prod.Lex.toLex_le_toLex]
          constructor
          · rintro (hlt | ⟨heq, _⟩)
            · exact hlt.le
            · exact heq.le
          · intro hle
            rcases hle.lt_or_eq with hlt | heq
            · exact Or.inl hlt
            · exact Or.inr ⟨heq, hrow.le⟩
        rw [List.map_cons, List.orderedInsert_cons, List.orderedInsert_cons]
        by_cases hle : key a ≤ key row.1
        · rw [if_pos (hsame.mpr hle), if_pos hle, List.map_cons, List.map_cons]
        · rw [if_neg (fun h => hle (hsame.mp h)), if_neg hle, List.map_cons, ih hrest]
  induction rows generalizing start with
  | nil => rfl
  | cons a rest ih =>
      have hlater : ∀ row ∈ sortValues (fun row : α × ℕ => toLex (key row.1, row.2))
          (rest.zipIdx (start + 1)), start < row.2 := by
        intro row hrow
        have hindex := List.le_snd_of_mem_zipIdx (mem_sortValues.mp hrow)
        omega
      have hstep := hinsert a start _ hlater
      rw [ih] at hstep
      rw [List.zipIdx_cons]
      exact hstep

/-- Distinct values in increasing order. -/
def sortedSet (values : List κ) : List κ := sortValues id values.dedup

theorem mem_sortedSet {values : List κ} {a : κ} : a ∈ sortedSet values ↔ a ∈ values := by
  rw [sortedSet, mem_sortValues, List.mem_dedup]

theorem increasing_sortedSet (values : List κ) : Increasing id (sortedSet values) := by
  apply increasing_sortValues
  rw [List.map_id]
  exact values.nodup_dedup

section FilterMap

variable {β : Type*}

/-- Values that bring nothing may be left out. -/
theorem filterMap_sortedSet {values others : List κ} {f : κ → Option β}
    (hsub : ∀ a ∈ values, a ∈ others) (hnone : ∀ a ∈ others, a ∉ values → f a = none) :
    (sortedSet values).filterMap f = (sortedSet others).filterMap f := by
  have hvalues : sortedSet values = (sortedSet others).filter (· ∈ values) := by
    refine Increasing.eq_of_mem_iff (increasing_sortedSet values)
      ((increasing_sortedSet others).sublist List.filter_sublist) fun a => ?_
    rw [List.mem_filter, mem_sortedSet, mem_sortedSet, decide_eq_true_iff]
    exact ⟨fun h => ⟨hsub a h, h⟩, fun h => h.2⟩
  rw [hvalues, List.filterMap_filter]
  refine List.filterMap_congr fun a ha => ?_
  by_cases hmem : a ∈ values
  · rw [if_pos (decide_eq_true hmem)]
  · rw [if_neg (by simpa using hmem), hnone a (mem_sortedSet.mp ha) hmem]

/-- The last of distinct values in increasing order is the greatest one. -/
theorem le_getLast?_sortedSet {values : List κ} {last : κ}
    (h : (sortedSet values).getLast? = some last) {a : κ} (ha : a ∈ values) : a ≤ last := by
  obtain ⟨earlier, hearlier⟩ := List.getLast?_eq_some_iff.mp h
  have hincreasing := increasing_sortedSet values
  rw [hearlier] at hincreasing
  have hmem := mem_sortedSet.mpr ha
  rw [hearlier] at hmem
  rcases List.mem_append.mp hmem with hmem | hmem
  · exact ((List.pairwise_append.mp hincreasing).2.2 a hmem last List.mem_cons_self).le
  · exact (List.mem_singleton.mp hmem).le

theorem getLast?_sortedSet_mem {values : List κ} {last : κ}
    (h : (sortedSet values).getLast? = some last) : last ∈ values :=
  mem_sortedSet.mp (List.mem_of_getLast? h)

theorem getLast?_sortedSet_eq_none {values : List κ} :
    (sortedSet values).getLast? = none ↔ values = [] := by
  rw [List.getLast?_eq_none_iff, List.eq_nil_iff_forall_not_mem, List.eq_nil_iff_forall_not_mem]
  exact forall_congr' fun a => not_congr mem_sortedSet

end FilterMap

end Keys

section FirstByKey

variable [DecidableEq κ]

/-- `drop_duplicates`, which keeps the first row of each key. -/
def keepFirst (key : α → κ) : List α → List α
  | [] => []
  | row :: rest => row :: (keepFirst key rest).filter fun other => key other ≠ key row

variable {key : α → κ}

theorem keepFirst_sublist (rows : List α) : (keepFirst key rows).Sublist rows := by
  induction rows with
  | nil => exact List.Sublist.refl _
  | cons row rest ih => exact (List.filter_sublist.trans ih).cons_cons row

theorem keys_keepFirst_nodup (rows : List α) : ((keepFirst key rows).map key).Nodup := by
  induction rows with
  | nil => exact List.nodup_nil
  | cons row rest ih =>
      rw [keepFirst, List.map_cons, List.nodup_cons]
      constructor
      · intro hmem
        obtain ⟨other, hother, hkey⟩ := List.mem_map.mp hmem
        exact of_decide_eq_true (List.mem_filter.mp hother).2 hkey
      · exact ih.sublist (List.filter_sublist.map key)

theorem mem_keys_keepFirst {rows : List α} {k : κ} :
    k ∈ (keepFirst key rows).map key ↔ k ∈ rows.map key := by
  induction rows with
  | nil => rfl
  | cons row rest ih =>
      rw [keepFirst, List.map_cons, List.map_cons, List.mem_cons, List.mem_cons, ← ih]
      constructor
      · rintro (hrow | hrest)
        · exact Or.inl hrow
        · exact Or.inr ((List.filter_sublist.map key).subset hrest)
      · rintro (hrow | hrest)
        · exact Or.inl hrow
        · by_cases hsame : k = key row
          · exact Or.inl hsame
          · obtain ⟨other, hother, rfl⟩ := List.mem_map.mp hrest
            exact Or.inr (List.mem_map_of_mem
              (List.mem_filter.mpr ⟨hother, decide_eq_true hsame⟩))

theorem filter_keepFirst (p : κ → Bool) (rows : List α) :
    (keepFirst key rows).filter (fun row => p (key row)) =
      keepFirst key (rows.filter fun row => p (key row)) := by
  induction rows with
  | nil => rfl
  | cons row rest ih =>
      cases hrow : p (key row) with
      | true =>
          have hrest : (row :: rest).filter (fun row => p (key row)) =
              row :: rest.filter fun row => p (key row) := List.filter_cons_of_pos hrow
          rw [hrest, keepFirst, keepFirst, ← ih, List.filter_filter]
          refine (List.filter_cons_of_pos (p := fun row => p (key row)) hrow).trans ?_
          rw [List.filter_filter]
          simp only [Bool.and_comm]
      | false =>
          have hrest : (row :: rest).filter (fun row => p (key row)) =
              rest.filter fun row => p (key row) := List.filter_cons_of_neg (by simp [hrow])
          rw [hrest, keepFirst, ← ih]
          refine (List.filter_cons_of_neg (p := fun row => p (key row)) (by simp [hrow])).trans ?_
          rw [List.filter_filter]
          refine List.filter_congr fun other _ => ?_
          cases hother : p (key other) with
          | false => rfl
          | true =>
              have hne : key other ≠ key row := by
                intro hsame
                rw [hsame, hrow] at hother
                cases hother
              simp [hne]

/-- Rows may be selected by their keys before or after all but the last of each key are dropped. -/
theorem filter_keepLast (p : κ → Bool) (rows : List α) :
    (keepLast key rows).filter (fun row => p (key row)) =
      keepLast key (rows.filter fun row => p (key row)) := by
  induction rows with
  | nil => rfl
  | cons row rest ih =>
      have hlater : key row ∈ (rest.filter fun row => p (key row)).map key ↔
          key row ∈ rest.map key ∧ p (key row) = true := by
        rw [List.mem_map, List.mem_map]
        constructor
        · rintro ⟨other, hother, hkey⟩
          obtain ⟨hmem, hselected⟩ := List.mem_filter.mp hother
          exact ⟨⟨other, hmem, hkey⟩, hkey ▸ hselected⟩
        · rintro ⟨⟨other, hmem, hkey⟩, hselected⟩
          exact ⟨other, List.mem_filter.mpr ⟨hmem, by rw [hkey]; exact hselected⟩, hkey⟩
      rw [keepLast]
      by_cases hselected : p (key row) = true
      · rw [List.filter_cons_of_pos (p := fun row => p (key row)) hselected, keepLast, ← ih]
        by_cases hmem : key row ∈ rest.map key
        · rw [if_pos hmem, if_pos (hlater.mpr ⟨hmem, hselected⟩)]
        · rw [if_neg hmem, if_neg fun h => hmem (hlater.mp h).1,
            List.filter_cons_of_pos (p := fun row => p (key row)) hselected]
      · rw [List.filter_cons_of_neg (p := fun row => p (key row)) hselected, ← ih]
        by_cases hmem : key row ∈ rest.map key
        · rw [if_pos hmem]
        · rw [if_neg hmem, List.filter_cons_of_neg (p := fun row => p (key row)) hselected]

end FirstByKey

theorem increasing_keepFirst [LinearOrder κ] [DecidableEq κ] {key : α → κ} {rows : List α}
    (h : rows.Pairwise fun a b => key a ≤ key b) : Increasing key (keepFirst key rows) :=
  ((h.sublist (keepFirst_sublist rows)).and
    (List.pairwise_map.mp (keys_keepFirst_nodup rows))).imp fun h => lt_of_le_of_ne h.1 h.2

end QuantWorkbench.Lib
