import QuantWorkbench.Lib.Text

/-!
Instrument identifiers. `normalizeSymbol` is the only way into the six-digit
form every other component works with, so that form is a type of its own.
-/

namespace QuantWorkbench.Data

open Lib

/-- `re.fullmatch(r"\d{6}", text)`. -/
def isSixDigits (text : Text) : Bool :=
  text.length == 6 && text.all Text.isDigit

/-- A normalized A-share identifier. -/
structure Symbol where
  text : Text
  sixDigits : isSixDigits text = true
  deriving DecidableEq

def Symbol.ofText? (text : Text) : Option Symbol :=
  if h : isSixDigits text = true then some ⟨text, h⟩ else none

/-- `re.fullmatch(r"[A-Z]{2}\d{6}", text)`, with the matched digits. -/
def exchangePrefixed? (text : Text) : Option Symbol :=
  match text with
  | a :: b :: digits =>
      if a.isUpper && b.isUpper then Symbol.ofText? digits else none
  | _ => none

/-- Only six digits are accepted, after an optional exchange prefix or suffix
is removed; `none` stands for `DataValidationError`. -/
def normalizeSymbol (value : Text) : Option Symbol :=
  let text := (Text.upper (Text.strip value)).filter (· ≠ ' ')
  let candidates := (text.splitOn '.').filter (· ≠ [])
  (candidates.findSome? Symbol.ofText?).or (exchangePrefixed? text)

private theorem isDigit_iff (c : Char) :
    Text.isDigit c = true ↔
      ∃ zero ∈ Text.digitZeros, zero ≤ c.val ∧ c.val < zero + 10 := by
  simp [Text.isDigit]

private theorem notSpace_of_isDigit {c : Char} (hc : Text.isDigit c = true) :
    Text.isSpace c = false := by
  have hfree : ∀ v ∈ ([0x9, 0xA, 0xB, 0xC, 0xD, 0x1C, 0x1D, 0x1E, 0x1F, 0x20, 0x85,
      0xA0, 0x1680, 0x2000, 0x2001, 0x2002, 0x2003, 0x2004, 0x2005, 0x2006, 0x2007,
      0x2008, 0x2009, 0x200A, 0x2028, 0x2029, 0x202F, 0x205F, 0x3000] : List UInt32),
      ¬ ∃ zero ∈ Text.digitZeros, zero ≤ v ∧ v < zero + 10 := by decide
  unfold Text.isSpace
  rw [decide_eq_false_iff_not]
  intro hmember
  exact hfree c.val hmember ((isDigit_iff c).mp hc)

private theorem upperChar_of_isDigit {c : Char} (hc : Text.isDigit c = true) :
    Text.upperChar c = [c] := by
  have hne : ∀ d : Char, Text.isDigit d = false → c ≠ d := by
    rintro d hd rfl
    rw [hc] at hd
    cases hd
  have hupper : c.toUpper = c := by
    unfold Char.toUpper
    rw [dif_neg]
    rintro ⟨hlow, hhigh⟩
    obtain ⟨zero, hmember, hzero, hbelow⟩ := (isDigit_iff c).mp hc
    have hfirst : ∀ z ∈ Text.digitZeros, z ≤ 'z'.val → z = 0x30 := by decide
    have hrow : zero = 0x30 := hfirst zero hmember (UInt32.le_trans hzero hhigh)
    subst hrow
    have hgap : ('a'.val).toNat ≤ c.val.toNat ∧ c.val.toNat < 0x3A := ⟨hlow, hbelow⟩
    have hvalue : ('a'.val).toNat = 0x61 := by decide
    omega
  unfold Text.upperChar
  rw [if_neg (hne _ (by decide)), if_neg (hne _ (by decide)),
    if_neg (hne _ (by decide)), if_neg (hne _ (by decide)),
    if_neg (hne _ (by decide)), if_neg (hne _ (by decide)),
    if_neg (hne _ (by decide)), if_neg (hne _ (by decide)),
    if_neg (by rintro (h | h) <;> exact hne _ (by decide) h), hupper]

theorem strip_of_all_isDigit {t : Text} (ht : ∀ c ∈ t, Text.isDigit c = true) :
    Text.strip t = t := by
  have hfree : ∀ c ∈ t, ¬ Text.isSpace c = true := by
    intro c hc
    simp [notSpace_of_isDigit (ht c hc)]
  have hleft : t.dropWhile Text.isSpace = t := by
    rw [List.dropWhile_eq_self_iff]
    intro hlength
    exact hfree _ (List.getElem_mem hlength)
  rw [Text.strip, hleft, List.rdropWhile_eq_self_iff]
  intro hne
  exact hfree _ (List.getLast_mem hne)

/-- Normalizing an identifier that is already normalized returns it. -/
@[simp] theorem normalizeSymbol_text (symbol : Symbol) :
    normalizeSymbol symbol.text = some symbol := by
  obtain ⟨t, hsix⟩ := symbol
  have hparts : t.length = 6 ∧ ∀ c ∈ t, Text.isDigit c = true := by
    simpa [isSixDigits, List.all_eq_true] using hsix
  obtain ⟨hlength, hdigits⟩ := hparts
  have hupper : Text.upper t = t := by
    have h : t.flatMap Text.upperChar = t.flatMap (fun c => [c]) :=
      List.flatMap_congr fun c hc => upperChar_of_isDigit (hdigits c hc)
    rw [Text.upper, h, List.flatMap_singleton']
  have hblank : t.filter (· ≠ ' ') = t := by
    rw [List.filter_eq_self]
    rintro c hc
    have h := notSpace_of_isDigit (hdigits c hc)
    simp only [ne_eq, decide_not, Bool.not_eq_eq_eq_not, Bool.not_true,
      decide_eq_false_iff_not]
    rintro rfl
    exact absurd h (by decide)
  have hdot : t.splitOn '.' = [t] := by
    apply List.splitOn_eq_singleton
    intro hmember
    exact absurd (hdigits _ hmember) (by decide)
  have hne : t ≠ [] := by
    rintro rfl
    simp at hlength
  simp only [normalizeSymbol, strip_of_all_isDigit hdigits, hupper]
  rw [hblank, hdot]
  simp [hne, Symbol.ofText?, hsix]

def checkSymbol (value : Text) : Except String Symbol :=
  match normalizeSymbol value with
  | some symbol => .ok symbol
  | none =>
      let shown := String.ofList value
      .error s!"invalid A-share symbol: '{shown}'"

@[simp] theorem checkSymbol_text (symbol : Symbol) : checkSymbol symbol.text = .ok symbol := by
  rw [checkSymbol, normalizeSymbol_text]

theorem Symbol.strip_text (symbol : Symbol) : Text.strip symbol.text = symbol.text := by
  have hsix := symbol.sixDigits
  rw [isSixDigits, Bool.and_eq_true, List.all_eq_true] at hsix
  exact strip_of_all_isDigit hsix.2

theorem Symbol.text_ne_nil (symbol : Symbol) : symbol.text ≠ [] := by
  have hsix := symbol.sixDigits
  intro hnil
  rw [hnil] at hsix
  cases hsix

end QuantWorkbench.Data
