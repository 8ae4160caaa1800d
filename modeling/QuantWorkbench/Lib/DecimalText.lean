import QuantWorkbench.Lib.IsoText

/-!
Decimal numbers as text: `str` of a non-negative decimal with a fixed number of
places, and the value of the finite numbers that the decimal constructor reads.
-/

namespace QuantWorkbench.Lib.DecimalText

def digitValue (c : Char) : ℕ :=
  match Text.digitZeros.find? fun zero => zero ≤ c.val ∧ c.val < zero + 10 with
  | some zero => c.toNat - zero.toNat
  | none => 0

def digitsValue (digits : Text) : ℕ :=
  digits.foldl (fun value c => 10 * value + digitValue c) 0

/-- A text without the sign it may begin with. -/
def unsigned (text : Text) : Text :=
  if text.head? = some '-' ∨ text.head? = some '+' then text.tail else text

/-- The exponent after the mantissa, which may be missing. -/
def exponent? (text : Text) : Option ℤ :=
  match text with
  | [] => some 0
  | _ :: rest =>
      if unsigned rest ≠ [] ∧ (unsigned rest).all Text.isDigit then
        some (if rest.head? = some '-' then -digitsValue (unsigned rest)
          else digitsValue (unsigned rest))
      else none

/-- The value of a finite number. Blanks around it and underscores are ignored;
infinities and the rest, which are not finite, have none. -/
def parse (text : Text) : Option ℚ :=
  let plain := (Text.strip text).filter (· ≠ '_')
  let body := unsigned plain
  let mantissa := body.takeWhile fun c => c ≠ 'e' ∧ c ≠ 'E'
  let whole := mantissa.takeWhile (· ≠ '.')
  let fraction := (mantissa.dropWhile (· ≠ '.')).tail
  if whole ++ fraction ≠ [] ∧ (whole ++ fraction).all Text.isDigit then
    (exponent? (body.dropWhile fun c => c ≠ 'e' ∧ c ≠ 'E')).map fun exponent : ℤ =>
      let size : ℚ := digitsValue (whole ++ fraction) * 10 ^ (exponent - (fraction.length : ℤ))
      if plain.head? = some '-' then -size else size
  else none

/-- `str` of `coefficient` with the last `places` digits after the point. -/
def format (places coefficient : ℕ) : Text :=
  Nat.toDigits 10 (coefficient / 10 ^ places) ++ '.' :: digitsText places coefficient

private theorem ascii_digit {c : Char} (h : c.isDigit = true) :
    Text.isDigit c = true ∧ Text.isSpace c = false ∧
      digitValue c = c.toNat - '0'.toNat := by
  have hall : ∀ n : Fin 10, Text.isDigit (Nat.digitChar n) = true ∧
      Text.isSpace (Nat.digitChar n) = false ∧
      digitValue (Nat.digitChar n) = (Nat.digitChar n).toNat - '0'.toNat := by decide
  rw [Char.isDigit, Bool.and_eq_true, decide_eq_true_eq, decide_eq_true_eq] at h
  have hlow : 48 ≤ c.toNat := h.1
  have hhigh : c.toNat ≤ 57 := h.2
  have hc : c = Nat.digitChar (c.toNat - 48) := by
    rw [← Char.ofNat_toNat c]
    have hrange : c.toNat < 58 := by omega
    interval_cases c.toNat <;> rfl
  rw [hc]
  exact hall ⟨c.toNat - 48, by omega⟩

theorem digitsValue_ascii {digits : Text} (h : ∀ c ∈ digits, c.isDigit = true) :
    digitsValue digits = Nat.ofDigitChars 10 digits 0 := by
  have hfold : ∀ start, digits.foldl (fun value c => 10 * value + digitValue c) start =
      Nat.ofDigitChars 10 digits start := by
    induction digits with
    | nil => intro start; rfl
    | cons c rest ih =>
        intro start
        rw [List.foldl_cons, Nat.ofDigitChars_cons, (ascii_digit (h c (by simp))).2.2,
          ih (fun d hd => h d (by simp [hd]))]
  exact hfold 0

/-- A text without blanks is its own strip. -/
theorem strip_of_noSpace {text : Text} (h : ∀ c ∈ text, Text.isSpace c = false) :
    Text.strip text = text := by
  have hleft : text.dropWhile Text.isSpace = text := by
    rw [List.dropWhile_eq_self_iff]
    intro hlength
    simp [h _ (List.getElem_mem hlength)]
  rw [Text.strip, hleft, List.rdropWhile_eq_self_iff]
  intro hne
  simp [h _ (List.getLast_mem hne)]

private theorem digit_ne {c d : Char} (hc : c.isDigit = true) (hd : d.isDigit = false) :
    c ≠ d := by
  rintro rfl
  rw [hc] at hd
  cases hd

private theorem takeWhile_all {p : Char → Bool} {text : Text} (h : ∀ c ∈ text, p c = true) :
    text.takeWhile p = text ∧ text.dropWhile p = [] :=
  ⟨List.takeWhile_eq_self_iff.mpr h, List.dropWhile_eq_nil_iff.mpr h⟩

/-- The mantissa of a number without exponent is divided at its point. -/
private theorem split_point (whole fraction : Text) (hwhole : ∀ c ∈ whole, c.isDigit = true) :
    (whole ++ '.' :: fraction).takeWhile (· ≠ '.') = whole ∧
      ((whole ++ '.' :: fraction).dropWhile (· ≠ '.')).tail = fraction := by
  have hall : ∀ c ∈ whole, (decide (c ≠ '.')) = true := by
    intro c hc
    simpa using digit_ne (hwhole c hc) (by decide)
  rw [List.takeWhile_append_of_pos hall, List.dropWhile_append_of_pos hall]
  simp

/-- A written number is read back. -/
theorem parse_format (places coefficient : ℕ) :
    parse (format places coefficient) = some ((coefficient : ℚ) / 10 ^ places) := by
  have hwhole := Json.toDigits_all (coefficient / 10 ^ places)
  have hfraction := digitsText_all places coefficient
  have hvalue : digitsValue (Nat.toDigits 10 (coefficient / 10 ^ places) ++
      digitsText places coefficient) = coefficient := by
    rw [digitsValue_ascii, Nat.ofDigitChars_append, Nat.ofDigitChars_ten_toDigits,
      ofDigitChars_digitsText, Nat.div_add_mod']
    intro c hc
    rcases List.mem_append.mp hc with hc | hc
    · exact hwhole c hc
    · exact hfraction c hc
  have hlength := digitsText_length places coefficient
  have hne : Nat.toDigits 10 (coefficient / 10 ^ places) ≠ [] := Nat.toDigits_ne_nil
  unfold format
  generalize Nat.toDigits 10 (coefficient / 10 ^ places) = whole at hwhole hvalue hne ⊢
  generalize digitsText places coefficient = fraction at hfraction hvalue hlength ⊢
  have hchars : ∀ c ∈ whole ++ '.' :: fraction, c.isDigit = true ∨ c = '.' := by
    intro c hc
    rcases List.mem_append.mp hc with hc | hc
    · exact .inl (hwhole c hc)
    · rcases List.mem_cons.mp hc with rfl | hc
      · exact .inr rfl
      · exact .inl (hfraction c hc)
  have hother : ∀ d : Char, d.isDigit = false → d ≠ '.' → ∀ c ∈ whole ++ '.' :: fraction,
      c ≠ d := by
    intro d hd hpoint c hc
    rcases hchars c hc with hdigit | rfl
    · exact digit_ne hdigit hd
    · exact hpoint.symm
  have hstrip : Text.strip (whole ++ '.' :: fraction) = whole ++ '.' :: fraction := by
    apply strip_of_noSpace
    intro c hc
    rcases hchars c hc with hdigit | rfl
    · exact (ascii_digit hdigit).2.1
    · decide
  have hplain : (whole ++ '.' :: fraction).filter (· ≠ '_') = whole ++ '.' :: fraction := by
    rw [List.filter_eq_self]
    intro c hc
    simpa using hother '_' (by decide) (by decide) c hc
  have hsign : ∀ d : Char, d.isDigit = false → d ≠ '.' →
      (whole ++ '.' :: fraction).head? ≠ some d := by
    intro d hd hpoint hhead
    exact hother d hd hpoint d (List.mem_of_mem_head? hhead) rfl
  have hbody : unsigned (whole ++ '.' :: fraction) = whole ++ '.' :: fraction := by
    rw [unsigned, if_neg]
    rintro (hminus | hplus)
    · exact hsign '-' (by decide) (by decide) hminus
    · exact hsign '+' (by decide) (by decide) hplus
  have hnoExponent : ∀ c ∈ whole ++ '.' :: fraction, decide (c ≠ 'e' ∧ c ≠ 'E') = true := by
    intro c hc
    simpa using ⟨hother 'e' (by decide) (by decide) c hc,
      hother 'E' (by decide) (by decide) c hc⟩
  have hmantissa := takeWhile_all hnoExponent
  obtain ⟨hleft, hright⟩ := split_point whole fraction hwhole
  have hdigits : (whole ++ fraction).all Text.isDigit = true := by
    rw [List.all_eq_true]
    intro c hc
    rcases List.mem_append.mp hc with hc | hc
    · exact (ascii_digit (hwhole c hc)).1
    · exact (ascii_digit (hfraction c hc)).1
  have hnonempty : whole ++ fraction ≠ [] := by
    simp [hne]
  unfold parse
  simp only [hstrip, hplain, hbody, hmantissa.1, hmantissa.2, hleft, hright]
  rw [if_pos ⟨hnonempty, hdigits⟩, hvalue, hlength]
  rw [exponent?, Option.map_some, if_neg (hsign '-' (by decide) (by decide))]
  simp [zpow_neg, div_eq_mul_inv]

/-- A sign in front of plain digits. -/
theorem parse_neg {digits : Text} (h : ∀ c ∈ digits, c.isDigit = true ∨ c = '.') :
    parse ('-' :: digits) = (parse digits).map (-·) := by
  have hplain : ∀ c ∈ '-' :: digits, Text.isSpace c = false ∧ c ≠ '_' := by
    intro c hc
    rcases List.mem_cons.mp hc with rfl | hc
    · decide
    · rcases h c hc with hdigit | rfl
      · exact ⟨(ascii_digit hdigit).2.1, fun heq => by rw [heq] at hdigit; cases hdigit⟩
      · decide
  have hkept : ∀ text : Text, (∀ c ∈ text, Text.isSpace c = false ∧ c ≠ '_') →
      (Text.strip text).filter (· ≠ '_') = text := by
    intro text htext
    rw [strip_of_noSpace fun c hc => (htext c hc).1]
    exact List.filter_eq_self.mpr fun c hc => decide_eq_true (htext c hc).2
  have hsigned := hkept _ hplain
  have hunsigned := hkept digits fun c hc => hplain c (List.mem_cons_of_mem _ hc)
  have hhead : digits.head? ≠ some '-' ∧ digits.head? ≠ some '+' := by
    cases digits with
    | nil => exact ⟨nofun, nofun⟩
    | cons c rest =>
        constructor
        · rintro ⟨⟩
          rcases h '-' List.mem_cons_self with hdigit | heq
          · cases hdigit
          · cases heq
        · rintro ⟨⟩
          rcases h '+' List.mem_cons_self with hdigit | heq
          · cases hdigit
          · cases heq
  have hbody : unsigned ('-' :: digits) = digits := rfl
  have hsame : unsigned digits = digits :=
    if_neg (not_or.mpr hhead)
  simp only [parse, hsigned, hunsigned, hbody, hsame, hhead.1, List.head?_cons,
    if_true, if_false]
  split
  · rw [Option.map_map]
    rfl
  · rfl

theorem chars_format (places coefficient : ℕ) :
    ∀ c ∈ format places coefficient, c.isDigit = true ∨ c = '.' := by
  intro c hc
  rcases List.mem_append.mp hc with hc | hc
  · exact Or.inl (Json.toDigits_all _ c hc)
  · rcases List.mem_cons.mp hc with rfl | hc
    · exact Or.inr rfl
    · exact Or.inl (digitsText_all _ _ c hc)

end QuantWorkbench.Lib.DecimalText
