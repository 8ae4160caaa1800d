import Mathlib.Tactic

/-!
Computations that raise: checks in front of them, and what is known when they succeed.
-/

namespace QuantWorkbench.Lib

variable {ε α β : Type}

/-- Raises unless the condition holds. -/
def require (condition : Prop) [Decidable condition] (error : ε) : Except ε Unit :=
  if condition then .ok () else .error error

def orRaise (value : Option α) (error : ε) : Except ε α :=
  match value with
  | some a => .ok a
  | none => .error error

theorem require_eq_ok_iff {condition : Prop} [Decidable condition] {error : ε} {u : Unit} :
    require condition error = .ok u ↔ condition := by
  unfold require
  split
  · rename_i h
    exact ⟨fun _ => h, fun _ => rfl⟩
  · rename_i h
    exact ⟨(fun herror => nomatch herror), fun hholds => absurd hholds h⟩

theorem orRaise_eq_ok_iff {value : Option α} {error : ε} {a : α} :
    orRaise value error = .ok a ↔ value = some a := by
  cases value with
  | none => exact ⟨(fun h => nomatch h), fun h => nomatch h⟩
  | some b => exact ⟨fun h => by cases h; rfl, fun h => by cases h; rfl⟩

theorem toOption_eq_some_iff {x : Except ε α} {a : α} : x.toOption = some a ↔ x = .ok a := by
  cases x with
  | error e => exact ⟨(fun h => nomatch h), fun h => nomatch h⟩
  | ok b => exact ⟨fun h => by cases h; rfl, fun h => by cases h; rfl⟩

theorem guard_eq_some_iff {condition : Prop} [Decidable condition] {u : Unit} :
    (guard condition : Option Unit) = some u ↔ condition := by
  unfold guard
  split
  · rename_i h
    exact ⟨fun _ => h, fun _ => rfl⟩
  · rename_i h
    exact ⟨(fun hnone => nomatch hnone), fun hholds => absurd hholds h⟩

theorem require_of {condition : Prop} [Decidable condition] {error : ε} (h : condition) :
    require condition error = .ok () :=
  if_pos h

theorem ok_bind (a : α) (f : α → Except ε β) : (Except.ok a >>= f) = f a := rfl

/-- A check, together with the fact that it succeeded. -/
def confirm (check : Except ε Unit) : Except ε (PLift (check = .ok ())) :=
  match check with
  | .ok () => .ok ⟨rfl⟩
  | .error error => .error error

theorem confirm_of {check : Except ε Unit} (h : check = .ok ()) : confirm check = .ok ⟨h⟩ := by
  subst h
  rfl

/-- A sequence succeeds if its first part does and the rest does from there. -/
theorem bind_eq_ok_iff {x : Except ε α} {f : α → Except ε β} {b : β} :
    (x >>= f) = Except.ok b ↔ ∃ a, x = .ok a ∧ f a = .ok b := by
  cases x with
  | error e => exact ⟨(fun h => nomatch h), fun ⟨_, h, _⟩ => nomatch h⟩
  | ok a =>
      constructor
      · exact fun h => ⟨a, rfl, h⟩
      · rintro ⟨_, h, hf⟩
        cases h
        exact hf

/-- The items that pass have the values that pass. -/
theorem filter_mapM_ok {f : α → Except ε β} {p : α → Bool} {q : β → Bool}
    (hsame : ∀ a b, f a = .ok b → p a = q b) {items : List α} {values : List β}
    (h : items.mapM f = .ok values) : (items.filter p).mapM f = .ok (values.filter q) := by
  induction items generalizing values with
  | nil =>
      cases h
      rfl
  | cons a rest ih =>
      rw [List.mapM_cons] at h
      obtain ⟨first, hfirst, h⟩ := bind_eq_ok_iff.mp h
      obtain ⟨others, hothers, h⟩ := bind_eq_ok_iff.mp h
      cases h
      have hpass := hsame a first hfirst
      cases hq : q first with
      | false =>
          rw [List.filter_cons_of_neg (by simp [hpass, hq]),
            List.filter_cons_of_neg (by simp [hq]), ih hothers]
      | true =>
          rw [List.filter_cons_of_pos (by simp [hpass, hq]), List.filter_cons_of_pos hq,
            List.mapM_cons, hfirst, ih hothers]
          rfl

/-- Each value of a sequence that succeeds comes from one of its items. -/
theorem mem_of_mapM_ok {f : α → Except ε β} {items : List α} {values : List β}
    (h : items.mapM f = .ok values) {b : β} (hb : b ∈ values) : ∃ a ∈ items, f a = .ok b := by
  induction items generalizing values with
  | nil =>
      cases h
      cases hb
  | cons a rest ih =>
      rw [List.mapM_cons] at h
      obtain ⟨first, hfirst, h⟩ := bind_eq_ok_iff.mp h
      obtain ⟨others, hothers, h⟩ := bind_eq_ok_iff.mp h
      cases h
      rcases List.mem_cons.mp hb with rfl | hrest
      · exact ⟨a, List.mem_cons_self, hfirst⟩
      · obtain ⟨other, hother, hvalue⟩ := ih hothers hrest
        exact ⟨other, List.mem_cons_of_mem _ hother, hvalue⟩

/-- Each item of a sequence that succeeds has its value. -/
theorem exists_mem_of_mapM_ok {f : α → Except ε β} {items : List α}
    {values : List β} (h : items.mapM f = .ok values) {a : α} (ha : a ∈ items) :
    ∃ b ∈ values, f a = .ok b := by
  induction items generalizing values with
  | nil => cases ha
  | cons first rest ih =>
      rw [List.mapM_cons] at h
      obtain ⟨value, hvalue, h⟩ := bind_eq_ok_iff.mp h
      obtain ⟨others, hothers, h⟩ := bind_eq_ok_iff.mp h
      cases h
      rcases List.mem_cons.mp ha with rfl | hrest
      · exact ⟨value, List.mem_cons_self, hvalue⟩
      · obtain ⟨b, hb, hmade⟩ := ih hothers hrest
        exact ⟨b, List.mem_cons_of_mem _ hb, hmade⟩

theorem exists_mapM_ok {f : α → Except ε β} {items : List α} (h : ∀ a ∈ items, ∃ b, f a = .ok b) :
    ∃ values, items.mapM f = .ok values := by
  induction items with
  | nil => exact ⟨[], rfl⟩
  | cons a rest ih =>
      obtain ⟨⟨b, hb⟩, hrest⟩ := List.forall_mem_cons.mp h
      obtain ⟨values, hvalues⟩ := ih hrest
      refine ⟨b :: values, ?_⟩
      rw [List.mapM_cons, hb, hvalues]
      rfl

/-- What the values tell of their items, in the order of the items. -/
theorem map_of_mapM_ok {γ : Type} {f : α → Except ε β} {key : α → γ} {told : β → γ}
    (hkey : ∀ a b, f a = .ok b → told b = key a) {items : List α} {values : List β}
    (h : items.mapM f = .ok values) : values.map told = items.map key := by
  induction items generalizing values with
  | nil =>
      cases h
      rfl
  | cons a rest ih =>
      rw [List.mapM_cons] at h
      obtain ⟨first, hfirst, h⟩ := bind_eq_ok_iff.mp h
      obtain ⟨others, hothers, h⟩ := bind_eq_ok_iff.mp h
      cases h
      rw [List.map_cons, List.map_cons, hkey a first hfirst, ih hothers]

end QuantWorkbench.Lib
