import QuantWorkbench.Lib.Keyed

/-!
Rows sorted by a key after all but the last of each key are dropped.
-/

namespace QuantWorkbench.Lib

variable {α κ : Type*} (key : α → κ)

/-- `drop_duplicates(keep="last")`. -/
def keepLast [DecidableEq κ] : List α → List α
  | [] => []
  | a :: rest => if key a ∈ rest.map key then keepLast rest else a :: keepLast rest

variable {key}

theorem mem_keepLast_iff [DecidableEq κ] {values : List α} {a : α} :
    a ∈ keepLast key values ↔ Keyed.LastOf key values a := by
  induction values with
  | nil => simp [keepLast, Keyed.LastOf]
  | cons b rest ih =>
      rw [keepLast, Keyed.LastOf]
      by_cases hlater : key b ∈ rest.map key
      · rw [if_pos hlater, ih]
        constructor
        · exact Or.inl
        · rintro (hlast | ⟨rfl, hlast⟩)
          · exact hlast
          · exact absurd hlater hlast
      · rw [if_neg hlater, List.mem_cons, ih]
        constructor
        · rintro (rfl | hlast)
          · exact Or.inr ⟨rfl, hlater⟩
          · exact Or.inl hlast
        · rintro (hlast | ⟨rfl, _⟩)
          · exact Or.inr hlast
          · exact Or.inl rfl

theorem keys_keepLast_nodup [DecidableEq κ] (values : List α) :
    ((keepLast key values).map key).Nodup := by
  induction values with
  | nil => exact List.nodup_nil
  | cons a rest ih =>
      rw [keepLast]
      by_cases hlater : key a ∈ rest.map key
      · rw [if_pos hlater]
        exact ih
      · rw [if_neg hlater, List.map_cons, List.nodup_cons]
        refine ⟨fun hmem => ?_, ih⟩
        obtain ⟨b, hb, hkey⟩ := List.mem_map.mp hmem
        exact hlater (hkey ▸ List.mem_map_of_mem (mem_keepLast_iff.mp hb).mem)

theorem keepLast_of_nodup [DecidableEq κ] {values : List α} (h : (values.map key).Nodup) :
    keepLast key values = values := by
  induction values with
  | nil => rfl
  | cons a rest ih =>
      obtain ⟨hfirst, hrest⟩ := List.nodup_cons.mp h
      rw [keepLast, if_neg hfirst, ih hrest]

/-- The last value of a sequence comes from its second part, or from the first one if the second
has no value of its key. -/
theorem lastOf_append {values others : List α} {a : α} :
    Keyed.LastOf key (values ++ others) a ↔
      Keyed.LastOf key others a ∨ Keyed.LastOf key values a ∧ key a ∉ others.map key := by
  induction values with
  | nil => simp [Keyed.LastOf]
  | cons b rest ih =>
      rw [List.cons_append, Keyed.LastOf, ih, Keyed.LastOf, List.map_append, List.mem_append]
      constructor
      · rintro ((hlast | ⟨hlast, hother⟩) | ⟨rfl, hnone⟩)
        · exact Or.inl hlast
        · exact Or.inr ⟨Or.inl hlast, hother⟩
        · exact Or.inr ⟨Or.inr ⟨rfl, fun h => hnone (Or.inl h)⟩, fun h => hnone (Or.inr h)⟩
      · rintro (hlast | ⟨hlast | ⟨rfl, hnone⟩, hother⟩)
        · exact Or.inl (Or.inl hlast)
        · exact Or.inl (Or.inr ⟨hlast, hother⟩)
        · exact Or.inr ⟨rfl, fun h => h.elim hnone hother⟩

/-- In a sequence without two values of one key every value is the last one. -/
theorem lastOf_iff_of_nodup {values : List α} (h : (values.map key).Nodup) {a : α} :
    Keyed.LastOf key values a ↔ a ∈ values := by
  induction values with
  | nil => simp [Keyed.LastOf]
  | cons b rest ih =>
      obtain ⟨hnew, hrest⟩ := List.nodup_cons.mp h
      rw [Keyed.LastOf, ih hrest, List.mem_cons]
      constructor
      · rintro (hmem | ⟨rfl, _⟩)
        · exact Or.inr hmem
        · exact Or.inl rfl
      · rintro (rfl | hmem)
        · exact Or.inr ⟨rfl, hnew⟩
        · exact Or.inl hmem

theorem lastOf_unique {values : List α} {a b : α} (ha : Keyed.LastOf key values a)
    (hb : Keyed.LastOf key values b) (h : key a = key b) : a = b := by
  induction values with
  | nil => cases ha
  | cons c rest ih =>
      rcases ha with ha | ⟨rfl, hnone⟩
      · rcases hb with hb | ⟨rfl, hnone⟩
        · exact ih ha hb
        · exact absurd (h ▸ List.mem_map_of_mem ha.mem) hnone
      · rcases hb with hb | ⟨rfl, _⟩
        · exact absurd (h ▸ List.mem_map_of_mem hb.mem) hnone
        · rfl

/-- The last values of a sequence that is made from another one. -/
theorem lastOf_map_iff {β : Type*} {make : β → α} {values : List β} {a : α} :
    Keyed.LastOf key (values.map make) a ↔
      ∃ b, Keyed.LastOf (fun b => key (make b)) values b ∧ make b = a := by
  induction values with
  | nil => simp [Keyed.LastOf]
  | cons c rest ih =>
      have hkeys : (rest.map make).map key = rest.map fun b => key (make b) := List.map_map
      rw [List.map_cons, Keyed.LastOf, ih, hkeys]
      constructor
      · rintro (⟨b, hb, rfl⟩ | ⟨rfl, hnone⟩)
        · exact ⟨b, Or.inl hb, rfl⟩
        · exact ⟨c, Or.inr ⟨rfl, hnone⟩, rfl⟩
      · rintro ⟨b, hb | ⟨rfl, hnone⟩, rfl⟩
        · exact Or.inl ⟨b, hb, rfl⟩
        · exact Or.inr ⟨rfl, hnone⟩

variable [LinearOrder κ]

def Increasing (key : α → κ) (values : List α) : Prop :=
  values.Pairwise fun a b => key a < key b

variable (key) in
/-- `drop_duplicates(keep="last")`, then `sort_values`. -/
def lastByKey (values : List α) : List α :=
  (keepLast key values).insertionSort fun a b => key a ≤ key b

theorem mem_lastByKey_iff {values : List α} {a : α} :
    a ∈ lastByKey key values ↔ Keyed.LastOf key values a := by
  rw [lastByKey, (List.perm_insertionSort _ _).mem_iff, mem_keepLast_iff]

theorem increasing_lastByKey (values : List α) : Increasing key (lastByKey key values) := by
  have : Std.Total fun a b : α => key a ≤ key b := ⟨fun _ _ => le_total _ _⟩
  have : IsTrans α fun a b => key a ≤ key b := ⟨fun _ _ _ => le_trans⟩
  have hsorted := List.pairwise_insertionSort (fun a b => key a ≤ key b) (keepLast key values)
  have hperm := List.perm_insertionSort (fun a b => key a ≤ key b) (keepLast key values)
  have hnodup : ((lastByKey key values).map key).Nodup :=
    (hperm.map key).nodup_iff.mpr (keys_keepLast_nodup values)
  exact (hsorted.and (List.pairwise_map.mp hnodup)).imp fun h => lt_of_le_of_ne h.1 h.2

theorem Increasing.nodup {values : List α} (h : Increasing key values) :
    (values.map key).Nodup :=
  List.pairwise_map.mpr (h.imp fun hlt => hlt.ne)

theorem Increasing.eq_of_mem_iff {values others : List α} (h : Increasing key values)
    (h' : Increasing key others) (hmem : ∀ a, a ∈ values ↔ a ∈ others) : values = others := by
  have hperm : values.Perm others :=
    (List.perm_ext_iff_of_nodup h.nodup.of_map h'.nodup.of_map).mpr hmem
  exact hperm.eq_of_pairwise (fun _ _ _ _ hlt hgt => absurd hgt hlt.asymm) h h'

end QuantWorkbench.Lib
