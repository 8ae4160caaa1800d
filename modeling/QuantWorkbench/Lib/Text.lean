import Mathlib.Data.List.DropRight
import Mathlib.Data.Char
import Mathlib.Tactic

/-!
Character data as a list of Unicode scalar values, with the string operations
of the Python standard library that a text format depends on: which characters
count as blank, as a decimal digit or as the end of a line.
-/

namespace QuantWorkbench.Lib

abbrev Text := List Char

-- A quantifier over the characters of a text is decided by running through the
-- text, and not by running through every character there is.
attribute [instance (2000)] List.decidableBAll List.decidableBEx

instance : LawfulBEq Text := List.instLawfulBEq

namespace Text

/-- The characters for which `str.isspace` holds. -/
def isSpace (c : Char) : Bool :=
  c.val ∈ ([0x9, 0xA, 0xB, 0xC, 0xD, 0x1C, 0x1D, 0x1E, 0x1F, 0x20, 0x85, 0xA0,
    0x1680, 0x2000, 0x2001, 0x2002, 0x2003, 0x2004, 0x2005, 0x2006, 0x2007,
    0x2008, 0x2009, 0x200A, 0x2028, 0x2029, 0x202F, 0x205F, 0x3000] : List UInt32)

/-- The code points of the zeros of the decimal digit rows that `\d` matches;
each row holds ten consecutive digits. -/
def digitZeros : List UInt32 :=
  [0x30, 0x660, 0x6F0, 0x7C0, 0x966, 0x9E6, 0xA66, 0xAE6, 0xB66, 0xBE6, 0xC66,
    0xCE6, 0xD66, 0xDE6, 0xE50, 0xED0, 0xF20, 0x1040, 0x1090, 0x17E0, 0x1810,
    0x1946, 0x19D0, 0x1A80, 0x1A90, 0x1B50, 0x1BB0, 0x1C40, 0x1C50, 0xA620,
    0xA8D0, 0xA900, 0xA9D0, 0xA9F0, 0xAA50, 0xABF0, 0xFF10, 0x104A0, 0x10D30,
    0x11066, 0x110F0, 0x11136, 0x111D0, 0x112F0, 0x11450, 0x114D0, 0x11650,
    0x116C0, 0x11730, 0x118E0, 0x11950, 0x11C50, 0x11D50, 0x11DA0, 0x16A60,
    0x16AC0, 0x16B50, 0x1D7CE, 0x1D7D8, 0x1D7E2, 0x1D7EC, 0x1D7F6, 0x1E140,
    0x1E2F0, 0x1E950, 0x1FBF0]

def isDigit (c : Char) : Bool :=
  digitZeros.any fun zero => zero ≤ c.val && c.val < zero + 10

/-- `str.upper` as far as it yields ASCII. Besides `a`-`z` a few letters and
ligatures have ASCII capitals; the capital of any other character is outside
ASCII, and such a character is kept as it is. -/
def upperChar (c : Char) : Text :=
  if c = 'ß' then ['S', 'S']
  else if c = 'ı' then ['I']
  else if c = 'ſ' then ['S']
  else if c = 'ﬀ' then ['F', 'F']
  else if c = 'ﬁ' then ['F', 'I']
  else if c = 'ﬂ' then ['F', 'L']
  else if c = 'ﬃ' then ['F', 'F', 'I']
  else if c = 'ﬄ' then ['F', 'F', 'L']
  else if c = 'ﬅ' ∨ c = 'ﬆ' then ['S', 'T']
  else [c.toUpper]

def upper (t : Text) : Text :=
  t.flatMap upperChar

/-- `str.strip` without arguments. -/
def strip (t : Text) : Text :=
  (t.dropWhile isSpace).rdropWhile isSpace

def utf8 (t : Text) : List UInt8 :=
  t.flatMap String.utf8EncodeChar

@[simp] theorem strip_nil : strip [] = [] := rfl

/-- Stripping stops at the first and at the last character that is not blank,
so a second strip has nothing to remove. -/
@[simp] theorem strip_strip (t : Text) : strip (strip t) = strip t := by
  have hleft : (strip t).dropWhile isSpace = strip t := by
    rw [List.dropWhile_eq_self_iff]
    intro hlength
    have hkept : strip t <+: t.dropWhile isSpace := List.rdropWhile_prefix _ _
    have hlong : 0 < (t.dropWhile isSpace).length :=
      hlength.trans_le hkept.length_le
    rw [hkept.getElem hlength]
    exact (List.dropWhile_eq_self_iff.mp (List.dropWhile_idempotent _ _)) hlong
  rw [strip, hleft, strip, List.rdropWhile_idempotent]

theorem strip_cons_ne_nil {c : Char} (t : Text) (hc : isSpace c = false) :
    strip (c :: t) ≠ [] := by
  rw [strip, List.dropWhile_cons_of_neg (by simp [hc]), ne_eq, List.rdropWhile_eq_nil_iff]
  intro hall
  have hspace := hall c (by simp)
  rw [hc] at hspace
  cases hspace

theorem isSpace_head_of_strip {c : Char} {t : Text} (h : strip (c :: t) = c :: t) :
    isSpace c = false := by
  by_contra hspace
  have hdropped : (c :: t).dropWhile isSpace = t.dropWhile isSpace :=
    List.dropWhile_cons_of_pos (by simpa using hspace)
  have hshort : (strip (c :: t)).length ≤ t.length := by
    rw [strip, hdropped]
    exact (List.rdropWhile_prefix _ _).length_le.trans (List.dropWhile_suffix _).length_le
  rw [h, List.length_cons] at hshort
  omega

end Text

/-- One line of a text or of a byte string, apart from the characters that end
it; the last line may have none. -/
structure Line (α : Type*) where
  body : List α
  ending : List α
  deriving DecidableEq

namespace Line

variable {α : Type*} [DecidableEq α]

/-- The whole line, as `splitlines(keepends=True)` returns it. -/
def raw (line : Line α) : List α := line.body ++ line.ending

/-- Which units end a line. A `cr` directly followed by `lf` is one ending. -/
structure Breaks (α : Type*) where
  isBreak : α → Bool
  cr : α
  lf : α

/-- Put `c` in front of the first line. -/
def extendFirst (c : α) : List (Line α) → List (Line α)
  | [] => [⟨[c], []⟩]
  | line :: lines => ⟨c :: line.body, line.ending⟩ :: lines

/-- `splitlines`: no empty line is reported after a final ending. -/
def split (breaks : Breaks α) : List α → List (Line α)
  | [] => []
  | [c] => if breaks.isBreak c then [⟨[], [c]⟩] else [⟨[c], []⟩]
  | c :: d :: rest =>
      if breaks.isBreak c then
        if c = breaks.cr ∧ d = breaks.lf then ⟨[], [c, d]⟩ :: split breaks rest
        else ⟨[], [c]⟩ :: split breaks (d :: rest)
      else extendFirst c (split breaks (d :: rest))

/-- Text without any ending character is a single unfinished line. -/
theorem split_unbroken (breaks : Breaks α) (body : List α) (hne : body ≠ [])
    (hbody : ∀ c ∈ body, breaks.isBreak c = false) :
    split breaks body = [⟨body, []⟩] := by
  induction body with
  | nil => exact absurd rfl hne
  | cons c tail ih =>
      have hc := hbody c (by simp)
      cases tail with
      | nil => simp [split, hc]
      | cons d rest =>
          have htail := ih (by simp) (fun x hx => hbody x (by simp [hx]))
          simp [split, hc, htail, extendFirst]

/-- Up to its first ending character a text is one line, and the lines of the
remaining text follow. -/
theorem split_break (breaks : Breaks α) (body : List α) (c : α) (rest : List α)
    (hbody : ∀ x ∈ body, breaks.isBreak x = false)
    (hc : breaks.isBreak c = true) (hcr : c ≠ breaks.cr) :
    split breaks (body ++ c :: rest) = ⟨body, [c]⟩ :: split breaks rest := by
  induction body with
  | nil =>
      cases rest with
      | nil => simp [split, hc]
      | cons d tail => simp [split, hc, hcr]
  | cons x tail ih =>
      have hx := hbody x (by simp)
      have htail := ih (fun y hy => hbody y (by simp [hy]))
      have hstep : split breaks (x :: (tail ++ c :: rest)) =
          extendFirst x (split breaks (tail ++ c :: rest)) := by
        cases tail <;> simp [split, hx]
      rw [List.cons_append, hstep, htail, extendFirst]

end Line

/-! ### Lines of a text -/

namespace Text

/-- The line boundaries of `str.splitlines`. -/
def lineBreaks : Line.Breaks Char where
  isBreak c := c.val ∈ ([0xA, 0xB, 0xC, 0xD, 0x1C, 0x1D, 0x1E, 0x85, 0x2028, 0x2029] :
    List UInt32)
  cr := '\r'
  lf := '\n'

/-- `str.splitlines` without arguments. -/
def splitlines (t : Text) : List Text :=
  (Line.split lineBreaks t).map (·.body)

/-- What reading a file in text mode makes of its line ends. -/
def universalNewlines : Text → Text
  | [] => []
  | [c] => if c = '\r' then ['\n'] else [c]
  | c :: d :: rest =>
      if c = '\r' then
        if d = '\n' then '\n' :: universalNewlines rest
        else '\n' :: universalNewlines (d :: rest)
      else c :: universalNewlines (d :: rest)

theorem universalNewlines_of_no_cr {t : Text} (h : '\r' ∉ t) : universalNewlines t = t := by
  induction t with
  | nil => rfl
  | cons c rest ih =>
      have hc : c ≠ '\r' := by
        rintro rfl
        exact h (by simp)
      have hrest := ih fun hmem => h (by simp [hmem])
      cases rest with
      | nil => simp [universalNewlines, hc]
      | cons d tail => rw [universalNewlines, if_neg hc, hrest]

theorem splitlines_line {line : Text} (rest : Text)
    (h : ∀ c ∈ line, lineBreaks.isBreak c = false) :
    splitlines (line ++ '\n' :: rest) = line :: splitlines rest := by
  rw [splitlines, Line.split_break lineBreaks line '\n' rest h (by decide) (by decide)]
  rfl

/-- A text with a boundary in it is divided there. -/
theorem splitlines_broken {t : Text} (hcr : '\r' ∉ t)
    (h : ∃ c ∈ t, lineBreaks.isBreak c = true) :
    ∃ front c back, t = front ++ c :: back ∧ ∀ rest,
      splitlines (t ++ rest) = front :: splitlines (back ++ rest) := by
  cases hfind : t.find? lineBreaks.isBreak with
  | none =>
      obtain ⟨c, hmem, hc⟩ := h
      exact absurd hc (by simpa using List.find?_eq_none.mp hfind c hmem)
  | some c =>
      obtain ⟨hc, front, back, rfl, hfront⟩ := List.find?_eq_some_iff_append.mp hfind
      refine ⟨front, c, back, rfl, ?_⟩
      intro rest
      have hne : c ≠ lineBreaks.cr := by
        rintro rfl
        exact hcr (by simp [lineBreaks])
      have hplain : ∀ x ∈ front, lineBreaks.isBreak x = false := by
        intro x hx
        simpa using hfront x hx
      rw [List.append_assoc, List.cons_append, splitlines,
        Line.split_break lineBreaks front c _ hplain hc hne]
      rfl

end Text

end QuantWorkbench.Lib
