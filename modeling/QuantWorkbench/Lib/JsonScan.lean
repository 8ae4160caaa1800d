import QuantWorkbench.Lib.Json

/-!
Laws of the JSON scanner: the string literals, the numbers and the words, each
in front of any further text.
-/

namespace QuantWorkbench.Lib.Json

/-! ### Strings -/

/-- The scanner goes on after a character it accepts. -/
theorem scanString_step {state next : StringState} {c : Char} {char : Option Char}
    (rest : Text) (hcloses : state.closes c = false)
    (h : scanChar state c = some (char, next)) :
    scanString state (c :: rest) =
      (scanString next rest).map fun result => (char.toList ++ result.1, result.2) := by
  simp only [scanString, hcloses, Bool.false_eq_true, if_false, h]

/-- A character that completes nothing leaves what is read after it unchanged. -/
theorem scanString_silent {state next : StringState} {c : Char} (rest : Text)
    (hcloses : state.closes c = false) (h : scanChar state c = some (none, next)) :
    scanString state (c :: rest) = scanString next rest := by
  rw [scanString_step rest hcloses h]
  simp

/-- A character that completes one puts it in front of what is read after it. -/
theorem scanString_char {state next : StringState} {c char : Char} (rest : Text)
    (hcloses : state.closes c = false) (h : scanChar state c = some (some char, next)) :
    scanString state (c :: rest) =
      (scanString next rest).map fun result => (char :: result.1, result.2) :=
  scanString_step rest hcloses h

theorem hexValue_digitChar {n : ℕ} (hn : n < 16) : hexValue (Nat.digitChar n) = some n := by
  have hall : ∀ k : Fin 16, hexValue (Nat.digitChar k) = some k.val := by decide
  exact hall ⟨n, hn⟩

/-- A short escape is read as the character it stands for. -/
private theorem scanString_escape {c letter : Char} (rest : Text)
    (hletter : ofEscape letter = some c) (hu : letter ≠ 'u') :
    scanString .plain ('\\' :: letter :: rest) =
      (scanString .plain rest).map fun result => (c :: result.1, result.2) := by
  rw [scanString_silent _ (by decide) (by decide : _ = some (none, .escaped none))]
  apply scanString_char rest rfl
  simp [scanChar, hu, hletter]

/-- A control character is read back from its four hexadecimal digits. -/
private theorem scanString_control {c : Char} (rest : Text) (hc : c.toNat < 0x20) :
    scanString .plain ('\\' :: 'u' :: '0' :: '0' :: Nat.digitChar (c.toNat / 16) ::
        Nat.digitChar (c.toNat % 16) :: rest) =
      (scanString .plain rest).map fun result => (c :: result.1, result.2) := by
  have hhigh : hexValue (Nat.digitChar (c.toNat / 16)) = some (c.toNat / 16) :=
    hexValue_digitChar (by omega)
  have hlow : hexValue (Nat.digitChar (c.toNat % 16)) = some (c.toNat % 16) :=
    hexValue_digitChar (by omega)
  have hvalue : c.toNat / 16 * 16 + c.toNat % 16 = c.toNat := by omega
  have hunit : ofUnit none c.toNat = some (some c, .plain) := by
    have h1 : ¬ (0xD800 ≤ c.toNat ∧ c.toNat < 0xDC00) := by omega
    have h2 : ¬ (0xDC00 ≤ c.toNat ∧ c.toNat < 0xE000) := by omega
    simp only [ofUnit, if_neg h1, if_neg h2, Char.ofNat_toNat]
  rw [scanString_silent _ (by decide) (by decide : _ = some (none, .escaped none)),
    scanString_silent _ rfl (by decide : _ = some (none, .hex none 0 0)),
    scanString_silent _ rfl (by decide : _ = some (none, .hex none 1 0)),
    scanString_silent _ rfl (by decide : _ = some (none, .hex none 2 0))]
  have hthird : scanChar (.hex none 2 0) (Nat.digitChar (c.toNat / 16)) =
      some (none, .hex none 3 (c.toNat / 16)) := by
    simp [scanChar, hhigh]
  rw [scanString_silent _ rfl hthird]
  apply scanString_char rest rfl
  simp [scanChar, hlow, hvalue, hunit]

/-- The escape of a character is read as that character. -/
theorem scanString_escapeChar (c : Char) (rest : Text) :
    scanString .plain (escapeChar c ++ rest) =
      (scanString .plain rest).map fun result => (c :: result.1, result.2) := by
  have hcode : ∀ n : ℕ, c.val = UInt32.ofNat n → n < 0x20 → c = Char.ofNat n := by
    intro n hval hn
    have hnat : c.toNat = n := by
      change c.val.toNat = n
      rw [hval, UInt32.toNat_ofNat_of_lt']
      exact hn.trans (by decide)
    rw [← hnat, Char.ofNat_toNat]
  unfold escapeChar
  split_ifs with hquote hslash hnewline hreturn htab hback hfeed hcontrol
  · subst hquote
    exact scanString_escape rest (by decide) (by decide)
  · subst hslash
    exact scanString_escape rest (by decide) (by decide)
  · exact hnewline ▸ scanString_escape rest (by decide) (by decide)
  · exact hreturn ▸ scanString_escape rest (by decide) (by decide)
  · exact htab ▸ scanString_escape rest (by decide) (by decide)
  · rw [hcode 0x8 hback (by decide)]
    exact scanString_escape rest (by decide) (by decide)
  · rw [hcode 0xC hfeed (by decide)]
    exact scanString_escape rest (by decide) (by decide)
  · exact scanString_control rest hcontrol
  · apply scanString_char rest
    · simpa [StringState.closes] using hquote
    · simp only [scanChar, if_neg hslash, if_neg hcontrol]

/-- A quoted string is read back after its opening quote. -/
theorem scanString_quote (text rest : Text) :
    scanString .plain (text.flatMap escapeChar ++ '"' :: rest) = some (text, rest) := by
  induction text with
  | nil => rfl
  | cons c text ih =>
      rw [List.flatMap_cons, List.append_assoc, scanString_escapeChar, ih]
      rfl

/-- Reading a string looks no further than its closing quote. -/
theorem scanString_append {state : StringState} {text result rest : Text} (more : Text)
    (h : scanString state text = some (result, rest)) :
    scanString state (text ++ more) = some (result, rest ++ more) := by
  induction text generalizing state result with
  | nil => cases h
  | cons c tail ih =>
      rw [List.cons_append]
      unfold scanString at h ⊢
      split at h
      · rename_i hcloses
        cases h
        rw [if_pos hcloses]
      · rename_i hcloses
        rw [if_neg hcloses]
        cases hchar : scanChar state c with
        | none =>
            rw [hchar] at h
            cases h
        | some pair =>
            obtain ⟨char, next⟩ := pair
            rw [hchar] at h
            obtain ⟨⟨inner, rest'⟩, hinner, heq⟩ := Option.map_eq_some_iff.mp h
            cases heq
            simp only [ih hinner, Option.map_some]

/-! ### Numbers and words -/

/-- The text does not go on with a character of a number. -/
def Ends (rest : Text) : Prop := ∀ c ∈ rest.head?, isNumberChar c = false

theorem takeWhile_of_ends {rest : Text} (h : Ends rest) :
    rest.takeWhile isNumberChar = [] ∧ rest.dropWhile isNumberChar = rest := by
  cases rest with
  | nil => exact ⟨rfl, rfl⟩
  | cons c tail =>
      have hc := h c (by simp)
      simp [hc]

/-- A run of number characters is scanned as a whole. -/
theorem scanNumber_run {lexeme rest : Text} (hlexeme : lexeme.all isNumberChar = true)
    (hends : Ends rest) :
    scanNumber (lexeme ++ rest) = (ofNumberLexeme lexeme).map fun value => (value, rest) := by
  have hall : ∀ c ∈ lexeme, isNumberChar c = true := List.all_eq_true.mp hlexeme
  obtain ⟨htake, hdrop⟩ := takeWhile_of_ends hends
  rw [scanNumber, List.takeWhile_append_of_pos hall, List.dropWhile_append_of_pos hall, htake,
    hdrop, List.append_nil]

theorem isNumberChar_of_isDigit {c : Char} (h : c.isDigit = true) : isNumberChar c = true := by
  simp [isNumberChar, h]

theorem toDigits_all (n : ℕ) : ∀ c ∈ Nat.toDigits 10 n, c.isDigit = true :=
  fun _ hc => Nat.isDigit_of_mem_toDigits (by decide) (by decide) hc

/-- Decimal digits of a positive number do not begin with zero. -/
theorem toDigits_head {n : ℕ} (hn : 0 < n) : (Nat.toDigits 10 n).head? ≠ some '0' := by
  induction n using Nat.strongRecOn with
  | ind n ih =>
      rcases Nat.lt_or_ge n 10 with hsmall | hlarge
      · rw [Nat.toDigits_of_lt_base hsmall]
        simp
        omega
      · rw [Nat.toDigits_of_base_le (by decide) hlarge]
        have hrec := ih (n / 10) (by omega) (by omega)
        cases hdigits : Nat.toDigits 10 (n / 10) with
        | nil => exact absurd hdigits Nat.toDigits_ne_nil
        | cons c tail =>
            rw [hdigits] at hrec
            simpa using hrec

theorem toDigits_isWhole (n : ℕ) : isWhole (Nat.toDigits 10 n) = true := by
  simp only [isWhole, decide_eq_true_eq]
  refine ⟨Nat.toDigits_ne_nil, List.all_eq_true.mpr (toDigits_all n), ?_⟩
  intro hhead
  rcases Nat.eq_zero_or_pos n with rfl | hpos
  · rfl
  · exact absurd hhead (toDigits_head hpos)

theorem isWhole_cons {digits : Text} (h : isWhole digits = true) :
    ∃ c rest, digits = c :: rest ∧ c.isDigit = true := by
  simp only [isWhole, decide_eq_true_eq] at h
  cases digits with
  | nil => exact absurd rfl h.1
  | cons c rest => exact ⟨c, rest, rfl, List.all_eq_true.mp h.2.1 c (by simp)⟩

theorem unsigned_intText (value : ℤ) :
    unsigned (intText value) = Nat.toDigits 10 value.natAbs := by
  unfold intText
  split
  · rfl
  · obtain ⟨c, rest, hdigits, hc⟩ := isWhole_cons (toDigits_isWhole value.natAbs)
    have hne : c ≠ '-' := by
      rintro rfl
      cases hc
    rw [hdigits, unsigned, if_neg]
    simpa using hne

theorem intValue_intText (value : ℤ) : intValue (intText value) = value := by
  rw [intValue, unsigned_intText, Nat.ofDigitChars_ten_toDigits]
  unfold intText
  split
  · rw [List.head?_cons, if_pos rfl]
    omega
  · rw [if_neg]
    · omega
    · obtain ⟨c, rest, hdigits, hc⟩ := isWhole_cons (toDigits_isWhole value.natAbs)
      rw [hdigits]
      intro heq
      obtain rfl : c = '-' := by simpa using heq
      cases hc

theorem intText_all (value : ℤ) : (intText value).all isNumberChar = true := by
  have hdigits : ∀ c ∈ Nat.toDigits 10 value.natAbs, isNumberChar c = true :=
    fun c hc => isNumberChar_of_isDigit (toDigits_all _ c hc)
  unfold intText
  split
  · rw [List.all_cons, List.all_eq_true.mpr hdigits]
    rfl
  · exact List.all_eq_true.mpr hdigits

theorem ofNumberLexeme_intText (value : ℤ) :
    ofNumberLexeme (intText value) = some (.int value) := by
  rw [ofNumberLexeme, unsigned_intText, if_pos (toDigits_isWhole _), intValue_intText]

theorem isFloatLexeme_all {lexeme : Text} (h : isFloatLexeme lexeme = true) :
    lexeme.all isNumberChar = true := by
  simp only [isFloatLexeme, decide_eq_true_eq] at h
  exact h.2.2.2.2

/-- A number with a fraction or an exponent is no integer part. -/
theorem not_isWhole_of_float {lexeme : Text} (h : isFloatLexeme lexeme = true) :
    isWhole (unsigned lexeme) = false := by
  simp only [isFloatLexeme, decide_eq_true_eq] at h
  obtain ⟨-, -, -, hpart, -⟩ := h
  by_contra hwhole
  rw [Bool.not_eq_false] at hwhole
  simp only [isWhole, decide_eq_true_eq, List.all_eq_true] at hwhole
  have hplain : ∀ c ∈ unsigned lexeme, c ≠ 'e' ∧ c ≠ 'E' ∧ c ≠ '.' := by
    intro c hc
    have hdigit := hwhole.2.1 c hc
    refine ⟨?_, ?_, ?_⟩ <;>
    · rintro rfl
      cases hdigit
  have htake : (unsigned lexeme).takeWhile (fun c => c ≠ 'e' ∧ c ≠ 'E') = unsigned lexeme := by
    rw [List.takeWhile_eq_self_iff]
    intro c hc
    simpa using ⟨(hplain c hc).1, (hplain c hc).2.1⟩
  have hdrop : (unsigned lexeme).dropWhile (fun c => c ≠ 'e' ∧ c ≠ 'E') = [] := by
    rw [List.dropWhile_eq_nil_iff]
    intro c hc
    simpa using ⟨(hplain c hc).1, (hplain c hc).2.1⟩
  have hfraction : (unsigned lexeme).dropWhile (· ≠ '.') = [] := by
    rw [List.dropWhile_eq_nil_iff]
    intro c hc
    simpa using (hplain c hc).2.2
  rw [htake, hdrop, hfraction] at hpart
  simp at hpart

theorem ofNumberLexeme_float {lexeme : Text} (h : isFloatLexeme lexeme = true) :
    ofNumberLexeme lexeme = some (.float lexeme) := by
  rw [ofNumberLexeme, not_isWhole_of_float h, h]
  rfl

/-- Apart from a sign a number begins with a digit. -/
theorem ofNumberLexeme_cons {lexeme : Text} {value : Json}
    (h : ofNumberLexeme lexeme = some value) :
    ∃ c rest, unsigned lexeme = c :: rest ∧ c.isDigit = true := by
  unfold ofNumberLexeme at h
  split at h
  · rename_i hwhole
    exact isWhole_cons hwhole
  split at h
  · rename_i hfloat
    simp only [isFloatLexeme, decide_eq_true_eq] at hfloat
    obtain ⟨c, rest, hcons, hc⟩ := isWhole_cons hfloat.1
    -- The whole part is taken from the front of the unsigned number.
    have hfront : c :: rest <+: unsigned lexeme :=
      hcons ▸ (List.takeWhile_prefix _).trans (List.takeWhile_prefix _)
    obtain ⟨tail, htail⟩ := hfront
    exact ⟨c, rest ++ tail, htail.symm, hc⟩
  · cases h

theorem scanLiteral_ok {text : Text} {value : Json} {rest : Text}
    (h : scanLiteral text = some (value, rest)) :
    ∃ lexeme, (lexeme, value) ∈ literals ∧ text = lexeme ++ rest := by
  obtain ⟨literal, hmem, hfound⟩ := List.exists_of_findSome?_eq_some h
  obtain ⟨rest', hdrop, heq⟩ := Option.map_eq_some_iff.mp hfound
  cases heq
  obtain ⟨front, htext, hbeq⟩ := List.dropPrefix?_eq_some_iff.mp hdrop
  obtain rfl := eq_of_beq hbeq
  exact ⟨literal.1, hmem, htext⟩

/-- A word is read at the beginning of any text. -/
theorem scanLiteral_word {lexeme : Text} {value : Json} (rest : Text)
    (h : (lexeme, value) ∈ literals) :
    scanLiteral (lexeme ++ rest) = some (value, rest) := by
  simp only [literals, List.mem_cons, Prod.mk.injEq, List.not_mem_nil, or_false] at h
  rcases h with ⟨rfl, rfl⟩ | ⟨rfl, rfl⟩ | ⟨rfl, rfl⟩ | ⟨rfl, rfl⟩ | ⟨rfl, rfl⟩ | ⟨rfl, rfl⟩ <;>
    simp [scanLiteral, literals, List.dropPrefix?]

theorem scanLiteral_number {lexeme : Text} {value : Json} (rest : Text)
    (h : ofNumberLexeme lexeme = some value) : scanLiteral (lexeme ++ rest) = none := by
  obtain ⟨c, tail, hunsigned, hc⟩ := ofNumberLexeme_cons h
  cases hscan : scanLiteral (lexeme ++ rest) with
  | none => rfl
  | some result =>
      exfalso
      obtain ⟨word, hword, htext⟩ := scanLiteral_ok hscan
      have hdigit : ∀ d : Char, d.isDigit = false → c ≠ d := by
        rintro d hd rfl
        rw [hc] at hd
        cases hd
      unfold unsigned at hunsigned
      simp only [literals, List.mem_cons, Prod.mk.injEq, List.not_mem_nil, or_false] at hword
      split at hunsigned
      · rename_i hsign
        cases lexeme with
        | nil => cases hsign
        | cons d lexeme' =>
            obtain rfl : d = '-' := by simpa using hsign
            rw [List.tail_cons] at hunsigned
            subst hunsigned
            rcases hword with ⟨rfl, -⟩ | ⟨rfl, -⟩ | ⟨rfl, -⟩ | ⟨rfl, -⟩ | ⟨rfl, -⟩ | ⟨rfl, -⟩ <;>
              simp at htext
            exact hdigit 'I' (by decide) htext.1
      · subst hunsigned
        rcases hword with ⟨rfl, -⟩ | ⟨rfl, -⟩ | ⟨rfl, -⟩ | ⟨rfl, -⟩ | ⟨rfl, -⟩ | ⟨rfl, -⟩ <;>
          simp at htext
        · exact hdigit 'n' (by decide) htext.1
        · exact hdigit 't' (by decide) htext.1
        · exact hdigit 'f' (by decide) htext.1
        · exact hdigit 'N' (by decide) htext.1
        · exact hdigit 'I' (by decide) htext.1
        · exact hdigit '-' (by decide) htext.1

/-- A scalar begins with a number character or the first letter of a word. -/
theorem scanScalar_head {c : Char} {rest : Text} {result : Json × Text}
    (h : scanScalar (c :: rest) = some result) :
    isNumberChar c = true ∨ c ∈ ['n', 't', 'f', 'N', 'I'] := by
  rcases Option.or_eq_some_iff.mp h with hword | ⟨-, hnumber⟩
  · obtain ⟨word, hmem, htext⟩ := scanLiteral_ok hword
    simp only [literals, List.mem_cons, Prod.mk.injEq, List.not_mem_nil, or_false] at hmem
    rcases hmem with ⟨rfl, -⟩ | ⟨rfl, -⟩ | ⟨rfl, -⟩ | ⟨rfl, -⟩ | ⟨rfl, -⟩ | ⟨rfl, -⟩ <;>
      simp at htext <;> simp [htext.1, isNumberChar]
  · left
    obtain ⟨value, hvalue, -⟩ := Option.map_eq_some_iff.mp hnumber
    obtain ⟨d, tail, hunsigned, -⟩ := ofNumberLexeme_cons hvalue
    by_contra hc
    rw [List.takeWhile_cons_of_neg hc] at hunsigned
    cases hunsigned

theorem ne_of_scalarHead {c : Char}
    (h : isNumberChar c = true ∨ c ∈ ['n', 't', 'f', 'N', 'I']) {d : Char}
    (hnumber : isNumberChar d = false) (hword : d ∉ ['n', 't', 'f', 'N', 'I']) : c ≠ d := by
  rintro rfl
  rcases h with h | h
  · rw [h] at hnumber
    cases hnumber
  · exact hword h

theorem parseValue_scalar {text : Text} {result : Json × Text} (fuel : ℕ)
    (h : scanScalar text = some result) : parseValue (fuel + 1) text = some result := by
  cases text with
  | nil => cases h
  | cons c rest =>
      have hhead := scanScalar_head h
      have hquote : c ≠ '"' := ne_of_scalarHead hhead (by decide) (by decide)
      have hbrace : c ≠ '{' := ne_of_scalarHead hhead (by decide) (by decide)
      have hbracket : c ≠ '[' := ne_of_scalarHead hhead (by decide) (by decide)
      rw [parseValue, if_neg hquote, if_neg hbrace, if_neg hbracket]
      exact h

end QuantWorkbench.Lib.Json
