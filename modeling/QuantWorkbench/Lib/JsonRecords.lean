import QuantWorkbench.Lib.JsonLines

/-!
Values that are written as they stand: every object has distinct keys in their order, so
sorting them changes nothing and what is written is read back. Records of records are built
from the rules for objects and arrays.
-/

namespace QuantWorkbench.Lib.Json

/-! ### Canonical values -/

structure Canonical (value : Json) : Prop where
  writable : value.Writable
  sorted : value.sorted = value

theorem Canonical.str (text : Text) : Canonical (.str text) := ⟨trivial, by rw [Json.sorted]⟩

theorem Canonical.int (value : ℤ) : Canonical (.int value) := ⟨trivial, by rw [Json.sorted]⟩

theorem Canonical.bool (value : Bool) : Canonical (.bool value) := ⟨trivial, by rw [Json.sorted]⟩

theorem Canonical.null : Canonical .null := ⟨trivial, by rw [Json.sorted]⟩

theorem Canonical.float {lexeme : Text} (h : isFloatLexeme lexeme = true) :
    Canonical (.float lexeme) := ⟨Or.inl h, by rw [Json.sorted]⟩

theorem Canonical.arr {items : List Json} (h : ∀ item ∈ items, item.Canonical) :
    Canonical (.arr items) := by
  induction items with
  | nil => exact ⟨trivial, by rw [Json.sorted, sortedItems]⟩
  | cons item rest ih =>
      obtain ⟨hwritable, hsorted⟩ := h item List.mem_cons_self
      have hrest := ih fun other hother => h other (List.mem_cons_of_mem _ hother)
      refine ⟨⟨hwritable, hrest.writable⟩, ?_⟩
      have hitems : sortedItems rest = rest := by
        have := hrest.sorted
        rwa [Json.sorted, Json.arr.injEq] at this
      rw [Json.sorted, sortedItems, hsorted, hitems]

/-- An object whose keys are in their order, without a repetition. -/
theorem Canonical.obj {members : List (Text × Json)} (names : List Text)
    (hnames : members.map (·.1) = names) (horder : names.Pairwise (· < ·))
    (h : ∀ member ∈ members, member.2.Canonical) : Canonical (.obj members) := by
  subst hnames
  have hvalues : sortedMembers members = members := by
    rw [sortedMembers_eq_map]
    refine (List.map_congr_left ?_).trans (List.map_id _)
    intro member hmember
    rw [(h member hmember).sorted]
    rfl
  have hkeys : members.Pairwise inKeyOrder := by
    rw [List.pairwise_map] at horder
    exact horder.imp fun hlt => le_of_lt hlt
  refine ⟨⟨horder.imp fun hlt => ne_of_lt hlt, ?_⟩, ?_⟩
  · exact writableMembers_iff.mpr fun member hmember => (h member hmember).writable
  · rw [sorted_obj, hvalues, hkeys.insertionSort_eq]

theorem Canonical.loads_dumps {value : Json} (h : value.Canonical) :
    loads (dumps value) = some value := by
  rw [Json.loads_dumps h.writable, h.sorted]

theorem Canonical.loads_dumps_newline {value : Json} (h : value.Canonical) :
    loads (dumps value ++ ['\n']) = some value := by
  rw [Json.loads_dumps_newline h.writable, h.sorted]

theorem hasKeys_obj {members : List (Text × Json)} (names : List Text)
    (hnames : members.map (·.1) = names) : hasKeys names (.obj members) = true := by
  have hall : ∀ key ∈ names, decide (key ∈ names) = true := fun key hkey => decide_eq_true hkey
  rw [hasKeys, keys, hnames, List.all_eq_true.mpr hall, Bool.and_self]

/-! ### Readers -/

def asText : Json → Option Text
  | .str text => some text
  | _ => none

def asInt : Json → Option ℤ
  | .int value => some value
  | _ => none

def asBool : Json → Option Bool
  | .bool value => some value
  | _ => none

/-- The items of a value, each of them read. -/
def asList {α : Type} (read : Json → Option α) : Json → Option (List α)
  | .arr items => items.mapM read
  | _ => none

def asTexts : Json → Option (List Text) := asList asText

/-- A value that may be missing. -/
def asNullable {α : Type} (read : Json → Option α) : Json → Option (Option α)
  | .null => some none
  | value => (read value).map some

def field {α : Type} (value : Json) (key : String) (read : Json → Option α) : Option α :=
  (value.member? key.toList).bind read

/-- A value that may be missing, written. -/
def nullable {α : Type} (write : α → Json) : Option α → Json
  | none => .null
  | some a => write a

@[simp] theorem asText_str (text : Text) : asText (.str text) = some text := rfl

theorem mapM_map_of_mem {α β : Type} {read : β → Option α} {write : α → β} {values : List α}
    (h : ∀ a ∈ values, read (write a) = some a) : (values.map write).mapM read = some values := by
  induction values with
  | nil => rfl
  | cons a rest ih =>
      obtain ⟨hfirst, hrest⟩ := List.forall_mem_cons.mp h
      rw [List.map_cons, List.mapM_cons, hfirst, ih hrest]
      rfl

theorem mapM_map_some {α β : Type} {read : β → Option α} {write : α → β}
    (h : ∀ a, read (write a) = some a) (values : List α) :
    (values.map write).mapM read = some values :=
  mapM_map_of_mem fun a _ => h a

theorem exists_of_mapM {α β : Type} {read : β → Option α} {items : List β} {values : List α}
    (h : items.mapM read = some values) {item : β} (hitem : item ∈ items) :
    ∃ a, read item = some a := by
  induction items generalizing values with
  | nil => cases hitem
  | cons first rest ih =>
      rw [List.mapM_cons] at h
      obtain ⟨a, ha, h⟩ := Option.bind_eq_some_iff.mp h
      obtain ⟨others, hothers, _⟩ := Option.bind_eq_some_iff.mp h
      rcases List.mem_cons.mp hitem with rfl | hrest
      · exact ⟨a, ha⟩
      · exact ih hothers hrest

theorem mem_of_mapM {α β : Type} {read : β → Option α} {items : List β} {values : List α}
    (h : items.mapM read = some values) {a : α} (ha : a ∈ values) :
    ∃ item ∈ items, read item = some a := by
  induction items generalizing values with
  | nil =>
      cases h
      cases ha
  | cons item rest ih =>
      rw [List.mapM_cons] at h
      obtain ⟨first, hfirst, h⟩ := Option.bind_eq_some_iff.mp h
      obtain ⟨others, hothers, h⟩ := Option.bind_eq_some_iff.mp h
      cases h
      rcases List.mem_cons.mp ha with rfl | hrest
      · exact ⟨item, List.mem_cons_self, hfirst⟩
      · obtain ⟨other, hother, hread⟩ := ih hothers hrest
        exact ⟨other, List.mem_cons_of_mem _ hother, hread⟩

theorem mem_of_field_asList {α : Type} {read : Json → Option α} {payload : Json} {key : String}
    {values : List α} (h : payload.field key (asList read) = some values) {a : α}
    (ha : a ∈ values) : ∃ item, read item = some a := by
  obtain ⟨value, _, hlist⟩ := Option.bind_eq_some_iff.mp h
  cases value with
  | arr items =>
      obtain ⟨item, _, hitem⟩ := mem_of_mapM hlist ha
      exact ⟨item, hitem⟩
  | _ => cases hlist

theorem mapM_imp {α β : Type} {read read' : β → Option α}
    (himp : ∀ item a, read item = some a → read' item = some a) {items : List β} {values : List α}
    (h : items.mapM read = some values) : items.mapM read' = some values := by
  induction items generalizing values with
  | nil => exact h
  | cons item rest ih =>
      rw [List.mapM_cons] at h ⊢
      obtain ⟨first, hfirst, h⟩ := Option.bind_eq_some_iff.mp h
      obtain ⟨others, hothers, h⟩ := Option.bind_eq_some_iff.mp h
      rw [himp item first hfirst, ih hothers]
      exact h

theorem field_asList_imp {α : Type} {read read' : Json → Option α}
    (himp : ∀ item a, read item = some a → read' item = some a) {payload : Json} {key : String}
    {values : List α} (h : payload.field key (asList read) = some values) :
    payload.field key (asList read') = some values := by
  obtain ⟨value, hvalue, hlist⟩ := Option.bind_eq_some_iff.mp h
  rw [field, hvalue]
  cases value with
  | arr items => exact mapM_imp himp hlist
  | _ => cases hlist

theorem asList_map {α : Type} {read : Json → Option α} {write : α → Json}
    (h : ∀ a, read (write a) = some a) (values : List α) :
    asList read (.arr (values.map write)) = some values :=
  mapM_map_some h values

theorem asTexts_map (texts : List Text) : asTexts (.arr (texts.map Json.str)) = some texts :=
  asList_map asText_str texts

theorem asNullable_nullable {α : Type} {read : Json → Option α} {write : α → Json}
    (h : ∀ a, read (write a) = some a) (hnull : ∀ a, write a ≠ .null) (value : Option α) :
    asNullable read (nullable write value) = some value := by
  cases value with
  | none => rfl
  | some a =>
      rw [nullable, asNullable, h]
      · rfl
      · exact hnull a

theorem Canonical.nullable {α : Type} {write : α → Json} (h : ∀ a, (write a).Canonical)
    (value : Option α) : (nullable write value).Canonical := by
  cases value with
  | none => exact Canonical.null
  | some a => exact h a

theorem Canonical.arr_map {α : Type} {write : α → Json} (h : ∀ a, (write a).Canonical)
    (values : List α) : Canonical (.arr (values.map write)) := by
  apply Canonical.arr
  intro item hitem
  obtain ⟨a, _, rfl⟩ := List.mem_map.mp hitem
  exact h a

end QuantWorkbench.Lib.Json
