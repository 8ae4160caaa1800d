import Mathlib.Data.List.Nodup
import Mathlib.Tactic

/-!
Dictionaries in insertion order whose values know their own key. A value put under
a key that is there takes the place of the old one, and under a new key it comes last.
-/

namespace QuantWorkbench.Lib

structure Keyed {α κ : Type*} (key : α → κ) where
  values : List α
  nodup : (values.map key).Nodup

namespace Keyed

variable {α κ : Type*} {key : α → κ}

def empty : Keyed key := ⟨[], List.nodup_nil⟩

def keys (d : Keyed key) : List κ := d.values.map key

@[ext] theorem ext {d e : Keyed key} (h : d.values = e.values) : d = e := by
  cases d
  cases e
  cases h
  rfl

@[simp] theorem values_empty : (empty : Keyed key).values = [] := rfl

theorem mem_keys {d : Keyed key} {k : κ} : k ∈ d.keys ↔ ∃ a ∈ d.values, key a = k :=
  List.mem_map

/-- Two values of one key are the same value. -/
theorem eq_of_key_eq {d : Keyed key} {a b : α} (ha : a ∈ d.values) (hb : b ∈ d.values)
    (h : key a = key b) : a = b :=
  List.inj_on_of_nodup_map d.nodup ha hb h

/-- Keeps the values that pass. -/
def filter (p : α → Bool) (d : Keyed key) : Keyed key where
  values := d.values.filter p
  nodup := d.nodup.sublist (List.filter_sublist.map key)

/-- Replaces every value by one with the same key. -/
def map (f : α → α) (hf : ∀ a, key (f a) = key a) (d : Keyed key) : Keyed key where
  values := d.values.map f
  nodup := by
    have hsame : key ∘ f = key := funext hf
    rw [List.map_map, hsame]
    exact d.nodup

@[simp] theorem mem_values_filter {p : α → Bool} {d : Keyed key} {a : α} :
    a ∈ (d.filter p).values ↔ a ∈ d.values ∧ p a = true :=
  List.mem_filter

@[simp] theorem mem_values_map {f : α → α} (hf : ∀ a, key (f a) = key a) {d : Keyed key}
    {b : α} : b ∈ (d.map f hf).values ↔ ∃ a ∈ d.values, f a = b :=
  List.mem_map

@[simp] theorem keys_map {f : α → α} (hf : ∀ a, key (f a) = key a) (d : Keyed key) :
    (d.map f hf).keys = d.keys := by
  have hsame : key ∘ f = key := funext hf
  simp [keys, map, hsame]

/-- The values of a sequence that no later one of the same key takes the place of. -/
def LastOf (key : α → κ) : List α → α → Prop
  | [], _ => False
  | b :: rest, a => LastOf key rest a ∨ a = b ∧ key a ∉ rest.map key

theorem LastOf.mem {values : List α} {a : α} (h : LastOf key values a) : a ∈ values := by
  induction values with
  | nil => cases h
  | cons b rest ih =>
      rcases h with hrest | ⟨rfl, _⟩
      · exact List.mem_cons_of_mem b (ih hrest)
      · exact List.mem_cons_self

/-- Every key of a sequence has a last value. -/
theorem exists_lastOf {values : List α} {k : κ} (h : k ∈ values.map key) :
    ∃ last, LastOf key values last ∧ key last = k := by
  induction values with
  | nil => cases h
  | cons b rest ih =>
      by_cases hlater : k ∈ rest.map key
      · obtain ⟨last, hlast, hkey⟩ := ih hlater
        exact ⟨last, Or.inl hlast, hkey⟩
      · rcases List.mem_cons.mp h with rfl | hrest
        · exact ⟨b, Or.inr ⟨rfl, hlater⟩, rfl⟩
        · exact absurd hrest hlater

variable [DecidableEq κ]

def get? (d : Keyed key) (k : κ) : Option α := d.values.find? fun a => key a = k

/-- Takes out the value of a key, if there is one. -/
def remove (d : Keyed key) (k : κ) : Keyed key := d.filter fun a => key a ≠ k

theorem get?_eq_some_iff {d : Keyed key} {k : κ} {a : α} :
    d.get? k = some a ↔ a ∈ d.values ∧ key a = k := by
  constructor
  · intro h
    exact ⟨List.mem_of_find?_eq_some h, by simpa using List.find?_some h⟩
  · rintro ⟨ha, rfl⟩
    cases hfound : d.get? (key a) with
    | none => simpa using List.find?_eq_none.mp hfound a ha
    | some b =>
        have hb := List.mem_of_find?_eq_some hfound
        have hkey : key b = key a := by simpa using List.find?_some hfound
        rw [eq_of_key_eq hb ha hkey]

theorem get?_eq_none_iff {d : Keyed key} {k : κ} : d.get? k = none ↔ k ∉ d.keys := by
  rw [mem_keys]
  simp [get?]

theorem get?_isSome_iff {d : Keyed key} {k : κ} : (d.get? k).isSome ↔ k ∈ d.keys := by
  rw [Option.isSome_iff_ne_none, ne_eq, get?_eq_none_iff, not_not]

@[simp] theorem mem_values_remove {d : Keyed key} {k : κ} {a : α} :
    a ∈ (d.remove k).values ↔ a ∈ d.values ∧ key a ≠ k := by
  simp [remove]

/-- The value in its place, or at the end if its key is new. -/
def putValue (key : α → κ) (a : α) : List α → List α
  | [] => [a]
  | b :: rest => if key b = key a then a :: rest else b :: putValue key a rest

theorem putValue_new {a : α} :
    ∀ {values : List α}, key a ∉ values.map key → putValue key a values = values ++ [a]
  | [], _ => rfl
  | b :: rest, h => by
      rw [List.map_cons, List.mem_cons, not_or] at h
      rw [putValue, if_neg (Ne.symm h.1), putValue_new h.2, List.cons_append]

theorem map_key_putValue_old {a : α} :
    ∀ {values : List α}, key a ∈ values.map key →
      (putValue key a values).map key = values.map key
  | [], h => absurd h List.not_mem_nil
  | b :: rest, h => by
      rw [putValue]
      split
      · rename_i hkey
        rw [List.map_cons, List.map_cons, hkey]
      · rename_i hkey
        have hrest : key a ∈ rest.map key := by
          rcases List.mem_cons.mp h with heq | hrest
          · exact absurd heq.symm hkey
          · exact hrest
        rw [List.map_cons, List.map_cons, map_key_putValue_old hrest]

theorem mem_putValue {a b : α} :
    ∀ {values : List α}, (values.map key).Nodup →
      (b ∈ putValue key a values ↔ b = a ∨ b ∈ values ∧ key b ≠ key a)
  | [], _ => by simp [putValue]
  | c :: rest, h => by
      rw [List.map_cons, List.nodup_cons] at h
      obtain ⟨hnew, hrest⟩ := h
      rw [putValue]
      split
      · rename_i hkey
        have hothers : ∀ other ∈ rest, key other ≠ key a := fun other hother heq =>
          hnew (List.mem_map.mpr ⟨other, hother, heq.trans hkey.symm⟩)
        rw [List.mem_cons, List.mem_cons]
        constructor
        · rintro (rfl | hmem)
          · exact Or.inl rfl
          · exact Or.inr ⟨Or.inr hmem, hothers b hmem⟩
        · rintro (rfl | ⟨rfl | hmem, hne⟩)
          · exact Or.inl rfl
          · exact absurd hkey hne
          · exact Or.inr hmem
      · rename_i hkey
        rw [List.mem_cons, mem_putValue hrest, List.mem_cons]
        constructor
        · rintro (rfl | rfl | ⟨hmem, hne⟩)
          · exact Or.inr ⟨Or.inl rfl, hkey⟩
          · exact Or.inl rfl
          · exact Or.inr ⟨Or.inr hmem, hne⟩
        · rintro (rfl | ⟨rfl | hmem, hne⟩)
          · exact Or.inr (Or.inl rfl)
          · exact Or.inl rfl
          · exact Or.inr (Or.inr ⟨hmem, hne⟩)

def put (d : Keyed key) (a : α) : Keyed key where
  values := putValue key a d.values
  nodup := by
    by_cases h : key a ∈ d.values.map key
    · rw [map_key_putValue_old h]
      exact d.nodup
    · rw [putValue_new h, List.map_append]
      exact List.Nodup.append d.nodup (List.nodup_singleton _)
        (List.disjoint_singleton.mpr h)

theorem values_put_new {d : Keyed key} {a : α} (h : key a ∉ d.keys) :
    (d.put a).values = d.values ++ [a] :=
  putValue_new h

theorem keys_put_old {d : Keyed key} {a : α} (h : key a ∈ d.keys) : (d.put a).keys = d.keys :=
  map_key_putValue_old h

@[simp] theorem mem_values_put {d : Keyed key} {a b : α} :
    b ∈ (d.put a).values ↔ b = a ∨ b ∈ d.values ∧ key b ≠ key a :=
  mem_putValue d.nodup

theorem mem_keys_put {d : Keyed key} {a : α} {k : κ} :
    k ∈ (d.put a).keys ↔ k = key a ∨ k ∈ d.keys := by
  simp only [mem_keys, mem_values_put]
  constructor
  · rintro ⟨b, rfl | ⟨hb, _⟩, rfl⟩
    · exact Or.inl rfl
    · exact Or.inr ⟨b, hb, rfl⟩
  · rintro (rfl | ⟨b, hb, rfl⟩)
    · exact ⟨a, Or.inl rfl, rfl⟩
    · by_cases hkey : key b = key a
      · exact ⟨a, Or.inl rfl, hkey.symm⟩
      · exact ⟨b, Or.inr ⟨hb, hkey⟩, rfl⟩

theorem get?_put (d : Keyed key) (a : α) : (d.put a).get? (key a) = some a :=
  get?_eq_some_iff.mpr ⟨mem_values_put.mpr (Or.inl rfl), rfl⟩

theorem get?_put_of_ne (d : Keyed key) {a : α} {k : κ} (h : k ≠ key a) :
    (d.put a).get? k = d.get? k := by
  ext found
  simp only [get?_eq_some_iff, mem_values_put]
  constructor
  · rintro ⟨rfl | ⟨hfound, _⟩, hkey⟩
    · exact absurd hkey.symm h
    · exact ⟨hfound, hkey⟩
  · rintro ⟨hfound, rfl⟩
    exact ⟨Or.inr ⟨hfound, h⟩, rfl⟩

/-- New keys come behind the old ones, in their order. -/
theorem values_foldl_put_new {values : List α} {d : Keyed key} (hnodup : (values.map key).Nodup)
    (hnew : ∀ a ∈ values, key a ∉ d.keys) :
    (values.foldl put d).values = d.values ++ values := by
  induction values generalizing d with
  | nil => exact (List.append_nil _).symm
  | cons a rest ih =>
      rw [List.map_cons, List.nodup_cons] at hnodup
      obtain ⟨hfirst, hrest⟩ := List.forall_mem_cons.mp hnew
      rw [List.foldl_cons, ih hnodup.2, values_put_new hfirst, List.append_assoc,
        List.singleton_append]
      intro b hb
      rw [mem_keys_put, not_or]
      refine ⟨?_, hrest b hb⟩
      intro hkey
      exact hnodup.1 (hkey ▸ List.mem_map_of_mem hb)

/-- What the dictionary of a sequence has comes from the sequence. -/
theorem mem_foldl_put {a : α} {values : List α} {d : Keyed key}
    (h : a ∈ (values.foldl put d).values) : a ∈ values ∨ a ∈ d.values := by
  induction values generalizing d with
  | nil => exact Or.inr h
  | cons b rest ih =>
      rcases ih h with hrest | hput
      · exact Or.inl (List.mem_cons_of_mem b hrest)
      · rcases mem_values_put.mp hput with rfl | hold
        · exact Or.inl List.mem_cons_self
        · exact Or.inr hold.1

/-- The dictionary of a sequence has the last value of each of its keys, and the old values of the
others. -/
theorem mem_foldl_put_iff {values : List α} {d : Keyed key} {a : α} :
    a ∈ (values.foldl put d).values ↔
      LastOf key values a ∨ a ∈ d.values ∧ key a ∉ values.map key := by
  induction values generalizing d with
  | nil => simp [LastOf]
  | cons b rest ih =>
      rw [List.foldl_cons, ih, mem_values_put, LastOf, List.map_cons, List.mem_cons, not_or]
      constructor
      · rintro (hlast | ⟨hnew | ⟨hold, hne⟩, hrest⟩)
        · exact Or.inl (Or.inl hlast)
        · exact Or.inl (Or.inr ⟨hnew, hrest⟩)
        · exact Or.inr ⟨hold, hne, hrest⟩
      · rintro ((hlast | ⟨hnew, hrest⟩) | ⟨hold, hne, hrest⟩)
        · exact Or.inl hlast
        · exact Or.inr ⟨Or.inl hnew, hrest⟩
        · exact Or.inr ⟨Or.inr ⟨hold, hne⟩, hrest⟩

theorem mem_keys_foldl_put {values : List α} {d : Keyed key} {k : κ} :
    k ∈ (values.foldl put d).keys ↔ k ∈ values.map key ∨ k ∈ d.keys := by
  induction values generalizing d with
  | nil => simp
  | cons a rest ih =>
      rw [List.foldl_cons, ih, mem_keys_put, List.map_cons, List.mem_cons]
      exact ⟨fun h => h.elim (Or.inl ∘ Or.inr) (Or.imp_left Or.inl),
        fun h => h.elim (fun h => h.elim (Or.inr ∘ Or.inl) Or.inl) (Or.inr ∘ Or.inr)⟩

end Keyed

end QuantWorkbench.Lib
