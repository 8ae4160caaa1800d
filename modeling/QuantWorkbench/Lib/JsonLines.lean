import QuantWorkbench.Lib.JsonText

/-!
Objects whose members are scalars, and files with one such object a line.
-/

namespace QuantWorkbench.Lib.Json

/-! ### Fields -/

def text? (key : String) (value : Json) : Option Text :=
  match value.member? key.toList with
  | some (.str text) => some text
  | _ => none

/-- A member that is a natural number. The truth values are numbers too. -/
def count? (key : String) (value : Json) : Option ℕ :=
  match value.member? key.toList with
  | some (.int n) => if 0 ≤ n then some n.toNat else none
  | some (.bool b) => some b.toNat
  | _ => none

def without (key : String) : Json → Json
  | .obj members => .obj (members.filter fun member => member.1 ≠ key.toList)
  | value => value

/-! ### Members in order -/

def isScalar : Json → Bool
  | .arr _ => false
  | .obj _ => false
  | _ => true

theorem sorted_of_isScalar {value : Json} (h : value.isScalar = true) : value.sorted = value := by
  cases value with
  | arr items => cases h
  | obj members => cases h
  | _ => rw [sorted]

/-- Members that are written in the order of their keys stay as they are. -/
theorem sorted_of_inOrder {members : List (Text × Json)}
    (horder : (members.map (·.1)).Pairwise (· ≤ ·))
    (hscalar : ∀ member ∈ members, member.2.isScalar = true) :
    sorted (.obj members) = .obj members := by
  have hvalues : sortedMembers members = members := by
    rw [sortedMembers_eq_map]
    refine (List.map_congr_left ?_).trans (List.map_id _)
    intro member hmember
    rw [sorted_of_isScalar (hscalar member hmember)]
    rfl
  have hsorted : members.Pairwise inKeyOrder := by
    rw [List.pairwise_map] at horder
    exact horder
  rw [sorted_obj, hvalues, hsorted.insertionSort_eq]

/-! ### Lines -/

/-- The line boundaries of `bytes.splitlines`. -/
def lineEnds : Line.Breaks Char where
  isBreak c := c = '\n' ∨ c = '\r'
  cr := '\r'
  lf := '\n'

def lines (text : Text) : List Text := (Line.split lineEnds text).map (·.body)

/-- One value a line. -/
def joined (values : List Json) : Text := values.flatMap fun value => dumps value ++ ['\n']

theorem dumps_no_lineEnd {value : Json} (h : value.Writable) {c : Char} (hc : c ∈ dumps value) :
    lineEnds.isBreak c = false := by
  have hends : ∀ d, lineEnds.isBreak d = true → d.toNat < 0x20 := by
    intro d hd
    have hcases : d = '\n' ∨ d = '\r' := of_decide_eq_true hd
    rcases hcases with rfl | rfl <;> decide
  by_contra hbreak
  have hlow := hends c (by simpa using hbreak)
  rcases mem_encode _ (sorted_writable value h) hc with hplain | ⟨hhigh, _⟩
  · have := hplain.1
    omega
  · omega

/-- The lines of a file are the values that were written. -/
theorem lines_joined {values : List Json} (h : ∀ value ∈ values, value.Writable) :
    lines (joined values) = values.map dumps := by
  induction values with
  | nil => rfl
  | cons value rest ih =>
      have hsplit := Line.split_break lineEnds (dumps value) '\n' (joined rest)
        (fun c hc => dumps_no_lineEnd (h value List.mem_cons_self) hc) (by decide) (by decide)
      have hjoined : joined (value :: rest) = dumps value ++ '\n' :: joined rest := by
        simp [joined]
      rw [lines, hjoined, hsplit, List.map_cons, List.map_cons,
        ← ih fun other hother => h other (List.mem_cons_of_mem _ hother)]
      rfl

theorem joined_append (values more : List Json) :
    joined (values ++ more) = joined values ++ joined more :=
  List.flatMap_append

/-! ### Lengths -/

theorem length_flatMap_le {α β : Type} (f : α → List β) {bound : ℕ}
    (h : ∀ a, (f a).length ≤ bound) (items : List α) :
    (items.flatMap f).length ≤ bound * items.length := by
  induction items with
  | nil => simp
  | cons a rest ih =>
      have ha := h a
      rw [List.flatMap_cons, List.length_append, List.length_cons, Nat.mul_succ]
      omega

theorem quote_length_le (text : Text) : (quote text).length ≤ 6 * text.length + 2 := by
  have hescape : ∀ c, (escapeChar c).length ≤ 6 := by
    intro c
    unfold escapeChar
    split_ifs <;> simp
  have hbody := length_flatMap_le escapeChar hescape text
  rw [quote, List.length_cons, List.length_append, List.length_singleton]
  omega

theorem utf8_length_le (text : Text) : (Text.utf8 text).length ≤ 4 * text.length := by
  refine length_flatMap_le _ (fun c => ?_) text
  rw [String.length_utf8EncodeChar]
  exact Char.utf8Size_le_four c

theorem encodeMembers_length (members : List (Text × Json)) :
    (encodeMembers members).length =
      ((members.map (·.1)).map fun key => (quote key).length).sum +
        ((members.map (·.2)).map fun value => (encode value).length).sum + 2 * members.length + 1 := by
  induction members with
  | nil => rfl
  | cons member rest ih =>
      obtain ⟨key, value⟩ := member
      simp only [encodeMembers, List.map_cons, List.sum_cons, List.length_cons,
        List.length_append, ih]
      omega

theorem encode_obj_length {members : List (Text × Json)} {names : List Text} {values : List Json}
    (hnames : members.map (·.1) = names) (hvalues : members.map (·.2) = values) :
    (encode (.obj members)).length ≤ (names.map fun key => (quote key).length).sum +
      (values.map fun value => (encode value).length).sum + 2 * names.length + 2 := by
  subst hnames hvalues
  rw [List.length_map]
  cases members with
  | nil => simp [encode]
  | cons member rest =>
      obtain ⟨key, value⟩ := member
      simp only [encode, encodeMembers_length, List.map_cons, List.sum_cons, List.length_cons,
        List.length_append]
      omega

theorem length_le_quote (text : Text) : text.length ≤ (quote text).length := by
  have hescape : ∀ c, 1 ≤ (escapeChar c).length := by
    intro c
    unfold escapeChar
    split_ifs <;> simp
  have hbody : text.length ≤ (text.flatMap escapeChar).length := by
    induction text with
    | nil => simp
    | cons c rest ih =>
        have hc := hescape c
        rw [List.flatMap_cons, List.length_append, List.length_cons]
        omega
  rw [quote, List.length_cons, List.length_append, List.length_singleton]
  omega

theorem length_le_utf8 (text : Text) : text.length ≤ (Text.utf8 text).length := by
  induction text with
  | nil => simp [Text.utf8]
  | cons c rest ih =>
      have hc : 1 ≤ (String.utf8EncodeChar c).length := by
        rw [String.length_utf8EncodeChar]
        exact Char.utf8Size_pos c
      rw [Text.utf8] at ih ⊢
      rw [List.flatMap_cons, List.length_append, List.length_cons]
      omega

theorem encode_le_encodeItems {item : Json} {items : List Json} (h : item ∈ items) :
    (encode item).length ≤ (encodeItems items).length := by
  induction items with
  | nil => cases h
  | cons other rest ih =>
      rw [encodeItems, List.length_cons, List.length_append]
      rcases List.mem_cons.mp h with rfl | hrest
      · omega
      · have := ih hrest
        omega

/-- The text of an array is at least as long as that of each of its items. -/
theorem encode_le_arr {item : Json} {items : List Json} (h : item ∈ items) :
    (encode item).length ≤ (encode (.arr items)).length := by
  cases items with
  | nil => cases h
  | cons other rest =>
      rw [encode, List.length_cons, List.length_append]
      rcases List.mem_cons.mp h with rfl | hrest
      · omega
      · have := encode_le_encodeItems hrest
        omega

theorem encode_le_encodeMembers {key : Text} {value : Json} {members : List (Text × Json)}
    (h : (key, value) ∈ members) : (encode value).length ≤ (encodeMembers members).length := by
  induction members with
  | nil => cases h
  | cons other rest ih =>
      obtain ⟨otherKey, otherValue⟩ := other
      simp only [encodeMembers, List.length_cons, List.length_append]
      rcases List.mem_cons.mp h with hfirst | hrest
      · cases hfirst
        omega
      · have := ih hrest
        omega

/-- The text of an object is at least as long as that of each of its values. -/
theorem encode_le_obj {key : Text} {value : Json} {members : List (Text × Json)}
    (h : (key, value) ∈ members) : (encode value).length ≤ (encode (.obj members)).length := by
  cases members with
  | nil => cases h
  | cons other rest =>
      obtain ⟨otherKey, otherValue⟩ := other
      simp only [encode, List.length_cons, List.length_append]
      rcases List.mem_cons.mp h with hfirst | hrest
      · cases hfirst
        omega
      · have := encode_le_encodeMembers hrest
        omega

end QuantWorkbench.Lib.Json
