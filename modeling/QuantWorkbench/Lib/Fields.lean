import QuantWorkbench.Lib.IsoText
import QuantWorkbench.Lib.Fallible

/-!
Fields of records as the constructors of the source keep them: texts without blanks at
their ends, in capitals, bounded, and lists without a repetition. A value of such a type is
accepted unchanged when it is checked again. What the capital of a letter is comes from a
table of Unicode.
-/

namespace QuantWorkbench.Lib

/-! ### Capitals -/

/-- `str.upper`. -/
class CaseTable where
  upper : Text → Text
  upper_upper : ∀ t, upper (upper t) = upper t
  strip_upper : ∀ t, Text.strip t = t → Text.strip (upper t) = upper t
  upper_of_capitals : ∀ t : Text, (∀ c ∈ t, c.isUpper ∨ c = '_') → upper t = t

@[reducible] def CaseTable.caseless : CaseTable :=
  ⟨id, fun _ => rfl, fun _ h => h, fun _ _ => rfl⟩

/-! ### Texts -/

/-- A text that is not empty, without blanks at its ends. -/
@[ext] structure RequiredText where
  text : Text
  stripped : Text.strip text = text
  nonempty : text ≠ []

instance : DecidableEq RequiredText := fun _ _ => decidable_of_iff _ RequiredText.ext_iff.symm

def RequiredText.of (text : Text)
    (h : decide (Text.strip text = text ∧ text ≠ []) = true := by exact Eq.refl true) :
    RequiredText :=
  ⟨text, (of_decide_eq_true h).1, (of_decide_eq_true h).2⟩

def RequiredText.check (field : String) (raw : Text) : Except String RequiredText :=
  if h : Text.strip raw = [] then .error s!"{field} is required"
  else .ok ⟨Text.strip raw, Text.strip_strip raw, h⟩

@[simp] theorem RequiredText.check_text (field : String) (value : RequiredText) :
    check field value.text = .ok value := by
  obtain ⟨text, stripped, nonempty⟩ := value
  rw [check, dif_neg (by rwa [stripped])]
  simp only [stripped]

def RequiredText.ofText? (raw : Text) : Option RequiredText :=
  if h : Text.strip raw = [] then none else some ⟨Text.strip raw, Text.strip_strip raw, h⟩

@[simp] theorem RequiredText.ofText?_text (value : RequiredText) :
    ofText? value.text = some value := by
  obtain ⟨text, stripped, nonempty⟩ := value
  rw [ofText?, dif_neg (by rwa [stripped])]
  simp only [stripped]

/-- Such a text with a maximal length. -/
structure BoundedText (maximum : ℕ) extends RequiredText where
  bounded : text.length ≤ maximum
  deriving DecidableEq

def BoundedText.check (field : String) (maximum : ℕ) (raw : Text) :
    Except String (BoundedText maximum) := do
  let value ← RequiredText.check field raw
  if h : value.text.length ≤ maximum then .ok ⟨value, h⟩ else .error s!"{field} is too long"

@[simp] theorem BoundedText.check_text (field : String) {maximum : ℕ} (value : BoundedText maximum) :
    check field maximum value.text = .ok value := by
  obtain ⟨value, bounded⟩ := value
  rw [check, RequiredText.check_text]
  exact dif_pos bounded

/-- A text that is not empty, in capitals and without blanks at its ends. -/
structure Code [CaseTable] extends RequiredText where
  upper : CaseTable.upper text = text
  deriving DecidableEq

/-- `str(item).strip().upper()`, if it is not empty. -/
def Code.ofText? [CaseTable] (raw : Text) : Option Code :=
  if h : CaseTable.upper (Text.strip raw) = [] then none
  else some
    { text := CaseTable.upper (Text.strip raw)
      stripped := CaseTable.strip_upper _ (Text.strip_strip raw)
      nonempty := h
      upper := CaseTable.upper_upper _ }

@[simp] theorem Code.ofText?_text [CaseTable] (code : Code) : ofText? code.text = some code := by
  obtain ⟨⟨text, stripped, nonempty⟩, upper⟩ := code
  rw [ofText?, dif_neg (by rwa [stripped, upper])]
  simp only [stripped, upper]

/-! ### Lists without a repetition -/

section

variable {α : Type} [DecidableEq α]

/-- `dict.fromkeys`: the first occurrence of each item. -/
def fromKeys (items : List α) : List α := items.reverse.dedup.reverse

theorem nodup_fromKeys (items : List α) : (fromKeys items).Nodup :=
  List.nodup_reverse.mpr (List.nodup_dedup _)

@[simp] theorem mem_fromKeys {items : List α} {a : α} : a ∈ fromKeys items ↔ a ∈ items := by
  rw [fromKeys, List.mem_reverse, List.mem_dedup, List.mem_reverse]

theorem fromKeys_of_nodup {items : List α} (h : items.Nodup) : fromKeys items = items := by
  rw [fromKeys, (List.nodup_reverse.mpr h).dedup, List.reverse_reverse]

end

/-! ### Days -/

/-- What the source takes for a `date`: a `datetime` is one too. Its offset is given in
seconds, unless it has none. -/
inductive Day where
  | date (value : Date)
  | datetime (value : UtcDateTime) (offset : Option ℤ)
  deriving DecidableEq

namespace Day

def toordinal (d : Date) : ℤ :=
  let year : ℤ := d.year - 1
  365 * year + year / 4 - year / 100 + year / 400 +
    ((List.range (d.month - 1)).map fun month => daysInMonth d.year (month + 1)).sum + d.day

def instant (value : UtcDateTime) (offset : ℤ) : ℤ :=
  (((toordinal value.date * 24 + value.hour) * 60 + value.minute) * 60 + value.second - offset) *
    1000000 + value.microsecond

/-- Whether a day is after another one; days of different kinds cannot be compared. -/
def after? : Day → Day → Option Bool
  | date value, date other => some (other < value)
  | datetime value none, datetime other none => some (other < value)
  | datetime value (some offset), datetime other (some offset') =>
      some (instant other offset' < instant value offset)
  | _, _ => none

/-- What tells days apart: a `datetime` with an offset is known by its instant. -/
inductive Key where
  | date (value : Date)
  | naive (value : UtcDateTime)
  | instant (microseconds : ℤ)
  deriving DecidableEq

def key : Day → Key
  | date value => .date value
  | datetime value none => .naive value
  | datetime value (some offset) => .instant (instant value offset)

def offsetText : Option ℤ → Text
  | none => []
  | some offset =>
      let size := offset.natAbs
      (if offset < 0 then '-' else '+') :: (digitsText 2 (size / 3600) ++
        ':' :: (digitsText 2 (size / 60 % 60) ++
          if size % 60 = 0 then [] else ':' :: digitsText 2 (size % 60)))

def isoformat : Day → Text
  | date value => value.isoformat
  | datetime value offset =>
      value.date.isoformat ++ 'T' :: (value.timeText ++ offsetText offset)

/-- `date.fromisoformat`, which a `datetime` is not read back by. -/
def fromisoformat (text : Text) : Option Day := (Date.fromisoformat text).map date

def isDate : Day → Bool
  | date _ => true
  | datetime _ _ => false

theorem isDate_of_fromisoformat {text : Text} {day : Day} (h : fromisoformat text = some day) :
    day.isDate = true := by
  obtain ⟨_, _, rfl⟩ := Option.map_eq_some_iff.mp h
  rfl

theorem isDate_iff {day : Day} : day.isDate = true ↔ ∃ value, day = date value := by
  cases day with
  | date value => exact ⟨fun _ => ⟨value, rfl⟩, fun _ => rfl⟩
  | datetime value offset => exact ⟨(fun h => nomatch h), fun ⟨_, h⟩ => nomatch h⟩

theorem eq_of_key_eq {day other : Day} (h : day.key = other.key) (hday : day.isDate = true)
    (hother : other.isDate = true) : day = other := by
  obtain ⟨value, rfl⟩ := isDate_iff.mp hday
  obtain ⟨value', rfl⟩ := isDate_iff.mp hother
  cases h
  rfl

/-- Only days of one kind are compared. -/
theorem isDate_of_after? {day other : Day} {later : Bool} (h : day.after? other = some later)
    (hother : other.isDate = true) : day.isDate = true := by
  obtain ⟨value, rfl⟩ := isDate_iff.mp hother
  cases day with
  | date _ => rfl
  | datetime _ offset => cases offset <;> cases h

theorem fromisoformat_isoformat_of_isDate {day : Day} (h : day.isDate = true) :
    fromisoformat day.isoformat = some day := by
  obtain ⟨value, rfl⟩ := isDate_iff.mp h
  rw [fromisoformat, isoformat, value.fromisoformat_isoformat]
  rfl

theorem fromisoformat_isoformat (day : Day) :
    fromisoformat day.isoformat = if day.isDate = true then some day else none := by
  cases day with
  | date value =>
      rw [fromisoformat, isoformat, value.fromisoformat_isoformat]
      rfl
  | datetime value offset =>
      rw [fromisoformat, isoformat, Date.fromisoformat, Date.scan_isoformat]
      rfl

end Day

def UtcDateTime.microseconds (t : UtcDateTime) : ℤ := Day.instant t 0

end QuantWorkbench.Lib
