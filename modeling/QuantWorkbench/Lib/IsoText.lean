import QuantWorkbench.Lib.Calendar
import QuantWorkbench.Lib.JsonText

/-!
ISO texts of dates and instants: what `isoformat` writes, and `fromisoformat` on
texts of these shapes.
-/

namespace QuantWorkbench.Lib

/-! ### Fields of digits -/

/-- A number with leading zeros. -/
def digitsText : ℕ → ℕ → Text
  | 0, _ => []
  | width + 1, n => Nat.digitChar (n / 10 ^ width % 10) :: digitsText width n

/-- The number written in the next `width` characters, and the text after them. -/
def takeDigits (width : ℕ) (text : Text) : Option (ℕ × Text) :=
  if width ≤ text.length ∧ (text.take width).all Char.isDigit then
    some (Nat.ofDigitChars 10 (text.take width) 0, text.drop width)
  else none

/-- The text after the character it has to begin with. -/
def expect (c : Char) (text : Text) : Option Text :=
  if text.head? = some c then some text.tail else none

theorem digitsText_length (width n : ℕ) : (digitsText width n).length = width := by
  induction width with
  | zero => rfl
  | succ width ih => rw [digitsText, List.length_cons, ih]

theorem digitsText_all (width n : ℕ) : ∀ c ∈ digitsText width n, c.isDigit = true := by
  induction width with
  | zero => simp [digitsText]
  | succ width ih =>
      intro c hc
      rcases List.mem_cons.mp hc with rfl | hc
      · rw [Nat.isDigit_digitChar, decide_eq_true_eq]
        exact Nat.mod_lt _ (by decide)
      · exact ih c hc

theorem ofDigitChars_digitsText (width n start : ℕ) :
    Nat.ofDigitChars 10 (digitsText width n) start = start * 10 ^ width + n % 10 ^ width := by
  induction width generalizing start with
  | zero => simp [digitsText, Nat.mod_one]
  | succ width ih =>
      have hdigit : n / 10 ^ width % 10 < 10 := Nat.mod_lt _ (by decide)
      rw [digitsText, Nat.ofDigitChars_cons_digitChar_of_lt_ten hdigit, ih, pow_succ, Nat.mod_mul]
      ring

/-- A written field is read back. -/
theorem takeDigits_digitsText {width n : ℕ} (rest : Text) (hn : n < 10 ^ width) :
    takeDigits width (digitsText width n ++ rest) = some (n, rest) := by
  have hlength := digitsText_length width n
  have htake : (digitsText width n ++ rest).take width = digitsText width n :=
    List.take_left' hlength
  have hdrop : (digitsText width n ++ rest).drop width = rest := List.drop_left' hlength
  rw [takeDigits, htake, hdrop, if_pos, ofDigitChars_digitsText, Nat.mod_eq_of_lt hn]
  · simp
  · refine ⟨?_, List.all_eq_true.mpr (digitsText_all width n)⟩
    rw [List.length_append, hlength]
    omega

theorem expect_cons (c : Char) (rest : Text) : expect c (c :: rest) = some rest := by
  simp [expect]

theorem isPlain_digitsText (width n : ℕ) : ∀ c ∈ digitsText width n, Json.IsPlain c :=
  fun c hc => Json.isPlain_of_isNumberChar
    (Json.isNumberChar_of_isDigit (digitsText_all width n c hc))

/-! ### Dates -/

namespace Date

def ofParts? (year month day : ℕ) : Option Date :=
  if hyear : 1 ≤ year ∧ year ≤ 9999 then
    if hmonth : 1 ≤ month ∧ month ≤ 12 then
      if hday : 1 ≤ day ∧ day ≤ daysInMonth year month then
        some ⟨year, month, day, hyear, hmonth, hday⟩
      else none
    else none
  else none

theorem ofParts?_self (d : Date) : ofParts? d.year d.month d.day = some d := by
  rw [ofParts?, dif_pos d.year_range, dif_pos d.month_range, dif_pos d.day_range]

def isoformat (d : Date) : Text :=
  digitsText 4 d.year ++ '-' :: (digitsText 2 d.month ++ '-' :: digitsText 2 d.day)

/-- The date at the beginning of a text. -/
def scan (text : Text) : Option (Date × Text) := do
  let (year, text) ← takeDigits 4 text
  let text ← expect '-' text
  let (month, text) ← takeDigits 2 text
  let text ← expect '-' text
  let (day, text) ← takeDigits 2 text
  let date ← ofParts? year month day
  return (date, text)

/-- `date.fromisoformat` on calendar dates with separators. -/
def fromisoformat (text : Text) : Option Date :=
  (scan text).bind fun result => if result.2 = [] then some result.1 else none

theorem scan_isoformat (d : Date) (rest : Text) : scan (d.isoformat ++ rest) = some (d, rest) := by
  have hyear : d.year < 10 ^ 4 := by
    have := d.year_range.2
    omega
  have hmonth : d.month < 10 ^ 2 := by
    have := d.month_range.2
    omega
  have hday : d.day < 10 ^ 2 := by
    have hmax := daysInMonth_le d.year d.month
    have := d.day_range.2
    omega
  rw [isoformat, List.append_assoc, List.cons_append, List.append_assoc, List.cons_append, scan]
  simp only [takeDigits_digitsText _ hyear, takeDigits_digitsText _ hmonth,
    takeDigits_digitsText _ hday, expect_cons, ofParts?_self, Option.bind_eq_bind,
    Option.bind_some, Option.pure_def]

theorem fromisoformat_isoformat (d : Date) : fromisoformat d.isoformat = some d := by
  have hscan := scan_isoformat d []
  rw [List.append_nil] at hscan
  rw [fromisoformat, hscan]
  rfl

theorem isPlain_isoformat (d : Date) : ∀ c ∈ d.isoformat, Json.IsPlain c := by
  intro c hc
  simp only [isoformat, List.mem_append, List.mem_cons] at hc
  rcases hc with hc | rfl | hc | rfl | hc
  · exact isPlain_digitsText _ _ c hc
  · decide
  · exact isPlain_digitsText _ _ c hc
  · decide
  · exact isPlain_digitsText _ _ c hc

end Date

/-! ### Instants -/

namespace UtcDateTime

def timeText (t : UtcDateTime) : Text :=
  digitsText 2 t.hour ++ ':' :: (digitsText 2 t.minute ++ ':' :: (digitsText 2 t.second ++
    if t.microsecond = 0 then [] else '.' :: digitsText 6 t.microsecond))

def isoformat (t : UtcDateTime) : Text :=
  t.date.isoformat ++ 'T' :: (t.timeText ++ "+00:00".toList)

/-- The microseconds of a time, which need not be written. -/
def scanFraction (text : Text) : Option (ℕ × Text) :=
  match expect '.' text with
  | none => some (0, text)
  | some rest => takeDigits 6 rest

/-- The instant of checked parts. -/
def ofParts? (date : Date) (hour minute second microsecond : ℕ) : Option UtcDateTime :=
  if h : hour < 24 ∧ minute < 60 ∧ second < 60 ∧ microsecond < 1000000 then
    some ⟨date, ⟨hour, h.1⟩, ⟨minute, h.2.1⟩, ⟨second, h.2.2.1⟩, ⟨microsecond, h.2.2.2⟩⟩
  else none

/-- `datetime.fromisoformat` on instants in universal time. -/
def fromisoformat (text : Text) : Option UtcDateTime := do
  let (date, text) ← Date.scan text
  let text ← expect 'T' text
  let (hour, text) ← takeDigits 2 text
  let text ← expect ':' text
  let (minute, text) ← takeDigits 2 text
  let text ← expect ':' text
  let (second, text) ← takeDigits 2 text
  let (microsecond, text) ← scanFraction text
  if text = "+00:00".toList then ofParts? date hour minute second microsecond else none

theorem scanFraction_written (microsecond : Fin 1000000) :
    scanFraction ((if microsecond = 0 then [] else '.' :: digitsText 6 microsecond) ++
      "+00:00".toList) = some (microsecond.val, "+00:00".toList) := by
  split
  · rename_i hzero
    rw [hzero]
    decide
  · rw [List.cons_append, scanFraction, expect_cons]
    exact takeDigits_digitsText _ microsecond.isLt

theorem fromisoformat_isoformat (t : UtcDateTime) : fromisoformat t.isoformat = some t := by
  have hhour : t.hour.val < 10 ^ 2 := by
    have := t.hour.isLt
    omega
  have hminute : t.minute.val < 10 ^ 2 := by
    have := t.minute.isLt
    omega
  have hsecond : t.second.val < 10 ^ 2 := by
    have := t.second.isLt
    omega
  have hparts : ofParts? t.date t.hour t.minute t.second t.microsecond = some t := by
    rw [ofParts?, dif_pos ⟨t.hour.isLt, t.minute.isLt, t.second.isLt, t.microsecond.isLt⟩]
  rw [isoformat, timeText]
  simp only [List.append_assoc, List.cons_append]
  rw [fromisoformat]
  simp only [Date.scan_isoformat, takeDigits_digitsText _ hhour, takeDigits_digitsText _ hminute,
    takeDigits_digitsText _ hsecond, expect_cons, scanFraction_written, hparts,
    Option.bind_eq_bind, Option.bind_some, if_true]

theorem isPlain_timeText (t : UtcDateTime) : ∀ c ∈ t.timeText, Json.IsPlain c := by
  have hfraction : ∀ c ∈ (if t.microsecond = 0 then [] else '.' :: digitsText 6 t.microsecond),
      Json.IsPlain c := by
    intro c hc
    split at hc
    · simp at hc
    · rcases List.mem_cons.mp hc with rfl | hc
      · decide
      · exact isPlain_digitsText _ _ c hc
  intro c hc
  simp only [timeText, List.mem_append, List.mem_cons] at hc
  rcases hc with hc | rfl | hc | rfl | hc | hc
  · exact isPlain_digitsText _ _ c hc
  · decide
  · exact isPlain_digitsText _ _ c hc
  · decide
  · exact isPlain_digitsText _ _ c hc
  · exact hfraction c hc

theorem isPlain_isoformat (t : UtcDateTime) : ∀ c ∈ t.isoformat, Json.IsPlain c := by
  have hzone : ∀ c ∈ "+00:00".toList, Json.IsPlain c := by decide
  intro c hc
  simp only [isoformat, List.mem_append, List.mem_cons] at hc
  rcases hc with hc | rfl | hc | hc
  · exact t.date.isPlain_isoformat c hc
  · decide
  · exact t.isPlain_timeText c hc
  · exact hzone c hc

end UtcDateTime

end QuantWorkbench.Lib
