import QuantWorkbench.Lib.JsonRecords

/-!
`json.dumps` with an indentation of two blanks and only ASCII characters, and its round trip. A text
that is read as a value is put together from those of its parts, with any blanks between them.
-/

namespace QuantWorkbench.Lib

/-! ### ASCII only -/

def unitEscape (unit : ℕ) : Text :=
  '\\' :: 'u' :: (List.range 4).map fun i => Nat.digitChar (unit / 16 ^ (3 - i) % 16)

/-- What `json.dumps` writes where only ASCII is allowed. -/
def asciiOnly (text : Text) : Text :=
  text.flatMap fun c =>
    if c.toNat < 0x7F then [c]
    else if c.toNat < 0x10000 then unitEscape c.toNat
    else unitEscape (0xD800 + (c.toNat - 0x10000) / 0x400) ++
      unitEscape (0xDC00 + (c.toNat - 0x10000) % 0x400)

@[simp] theorem asciiOnly_append (text more : Text) :
    asciiOnly (text ++ more) = asciiOnly text ++ asciiOnly more :=
  List.flatMap_append

theorem asciiOnly_of_ascii {text : Text} (h : ∀ c ∈ text, c.toNat < 0x7F) :
    asciiOnly text = text := by
  induction text with
  | nil => rfl
  | cons c rest ih =>
      obtain ⟨hc, hrest⟩ := List.forall_mem_cons.mp h
      rw [asciiOnly, List.flatMap_cons, if_pos hc]
      exact congrArg (c :: ·) (ih hrest)

theorem asciiOnly_cons {c : Char} (h : c.toNat < 0x7F) (text : Text) :
    asciiOnly (c :: text) = c :: asciiOnly text := by
  rw [asciiOnly, List.flatMap_cons, if_pos h]
  rfl

namespace Json

theorem scanString_unitEscape {unit : ℕ} {high : Option ℕ} {char : Option Char}
    {next : StringState} (rest : Text) (hunit : unit < 0x10000)
    (h : ofUnit high unit = some (char, next)) :
    scanString (.escaped high) ((unitEscape unit).tail ++ rest) =
      (scanString next rest).map fun result => (char.toList ++ result.1, result.2) := by
  have hdigit : ∀ n : ℕ, hexValue (Nat.digitChar (n % 16)) = some (n % 16) := fun n =>
    hexValue_digitChar (Nat.mod_lt n (by decide))
  have hu : scanChar (.escaped high) 'u' = some (none, .hex high 0 0) := rfl
  have hstep : ∀ digits value n, digits < 3 →
      scanChar (.hex high digits value) (Nat.digitChar (n % 16)) =
        some (none, .hex high (digits + 1) (value * 16 + n % 16)) := by
    intro digits value n hdigits
    simp only [scanChar, hdigit, if_pos hdigits]
  have hlast : ∀ value n, scanChar (.hex high 3 value) (Nat.digitChar (n % 16)) =
      ofUnit high (value * 16 + n % 16) := by
    intro value n
    simp only [scanChar, hdigit]
    rfl
  have hvalue : (((0 * 16 + unit / 16 ^ 3 % 16) * 16 + unit / 16 ^ 2 % 16) * 16 +
      unit / 16 ^ 1 % 16) * 16 + unit / 16 ^ 0 % 16 = unit := by
    omega
  change scanString (.escaped high) ('u' :: Nat.digitChar (unit / 16 ^ 3 % 16) ::
    Nat.digitChar (unit / 16 ^ 2 % 16) :: Nat.digitChar (unit / 16 ^ 1 % 16) ::
      Nat.digitChar (unit / 16 ^ 0 % 16) :: rest) = _
  rw [scanString_silent _ rfl hu, scanString_silent _ rfl (hstep 0 0 _ (by decide)),
    scanString_silent _ rfl (hstep 1 _ _ (by decide)),
    scanString_silent _ rfl (hstep 2 _ _ (by decide))]
  refine scanString_step rest rfl ?_
  rw [hlast, hvalue, h]

/-- A character that is not ASCII is read back from the escapes of its code units. -/
theorem scanString_asciiOnly_char {c : Char} (h : ¬ c.toNat < 0x7F) (rest : Text) :
    scanString .plain (asciiOnly [c] ++ rest) =
      (scanString .plain rest).map fun result => (c :: result.1, result.2) := by
  have hescape : ∀ (high : Option ℕ) (state : StringState) (unit : ℕ) (char : Option Char)
      (next : StringState) (more : Text), unit < 0x10000 → state.closes '\\' = false →
      scanChar state '\\' = some (none, .escaped high) → ofUnit high unit = some (char, next) →
        scanString state (unitEscape unit ++ more) =
          (scanString next more).map fun result => (char.toList ++ result.1, result.2) := by
    intro high state unit char next more hunit hcloses hslash hchar
    rw [← scanString_unitEscape more hunit hchar]
    exact scanString_silent _ hcloses hslash
  have hvalid := c.valid
  rw [asciiOnly, List.flatMap_singleton, if_neg h]
  by_cases hsmall : c.toNat < 0x10000
  · rw [if_pos hsmall]
    have hchar : ofUnit none c.toNat = some (some c, .plain) := by
      have hhigh : ¬ (0xD800 ≤ c.toNat ∧ c.toNat < 0xDC00) := by
        rcases hvalid with hlow | ⟨hhigh, _⟩
        · exact fun hsurrogate => absurd hlow (by change ¬ c.toNat < _; omega)
        · exact fun hsurrogate => absurd hhigh (by change ¬ _ < c.toNat; omega)
      have hlow : ¬ (0xDC00 ≤ c.toNat ∧ c.toNat < 0xE000) := by
        rcases hvalid with hlow | ⟨hhigh, _⟩
        · exact fun hsurrogate => absurd hlow (by change ¬ c.toNat < _; omega)
        · exact fun hsurrogate => absurd hhigh (by change ¬ _ < c.toNat; omega)
      simp only [ofUnit, if_neg hhigh, if_neg hlow, Char.ofNat_toNat]
    exact hescape none .plain c.toNat (some c) .plain rest hsmall rfl rfl hchar
  · rw [if_neg hsmall, List.append_assoc]
    have hmax : c.toNat < 0x110000 := by
      rcases hvalid with hlow | ⟨_, hhigh⟩
      · exact absurd hlow (by change ¬ c.toNat < _; omega)
      · exact hhigh
    have hfirst : ofUnit none (0xD800 + (c.toNat - 0x10000) / 0x400) =
        some (none, .afterHigh (0xD800 + (c.toNat - 0x10000) / 0x400)) := by
      rw [ofUnit, if_pos ⟨by omega, by omega⟩]
    have hsecond : ofUnit (some (0xD800 + (c.toNat - 0x10000) / 0x400))
        (0xDC00 + (c.toNat - 0x10000) % 0x400) = some (some c, .plain) := by
      have hcode : 0x10000 + (0xD800 + (c.toNat - 0x10000) / 0x400 - 0xD800) * 0x400 +
          (0xDC00 + (c.toNat - 0x10000) % 0x400 - 0xDC00) = c.toNat := by
        omega
      rw [ofUnit]
      simp only [hcode, Char.ofNat_toNat]
      rw [if_pos ⟨by omega, by omega⟩]
    rw [hescape none .plain _ none _ _ (by omega) rfl rfl hfirst,
      hescape (some _) (.afterHigh _) _ (some c) .plain rest (by omega) rfl rfl hsecond,
      Option.map_map]
    rfl

theorem scanString_asciiOnly_escapeChar (c : Char) (rest : Text) :
    scanString .plain (asciiOnly (escapeChar c) ++ rest) =
      (scanString .plain rest).map fun result => (c :: result.1, result.2) := by
  by_cases hascii : c.toNat < 0x7F
  · rw [asciiOnly_of_ascii, scanString_escapeChar]
    intro d hd
    rcases mem_escapeChar hd with hplain | ⟨rfl, _⟩
    · exact hplain.2
    · exact hascii
  · have hself : escapeChar c = [c] := by
      unfold escapeChar
      have hne : ∀ d : Char, d.toNat < 0x7F → c ≠ d := by
        rintro d hd rfl
        exact hascii hd
      have hval : ∀ n : ℕ, n < 0x7F → c.val ≠ UInt32.ofNat n := by
        intro n hn heq
        apply hascii
        change c.val.toNat < 0x7F
        rw [heq, UInt32.toNat_ofNat_of_lt' (hn.trans (by decide))]
        exact hn
      have hcontrol : ¬ c.val < 0x20 := fun hlow => hascii (by
        have hnat : c.toNat < 32 := hlow
        omega)
      have hback : c.val ≠ 0x8 := hval 8 (by decide)
      have hfeed : c.val ≠ 0xC := hval 12 (by decide)
      rw [if_neg (hne _ (by decide)), if_neg (hne _ (by decide)), if_neg (hne _ (by decide)),
        if_neg (hne _ (by decide)), if_neg (hne _ (by decide)), if_neg hback, if_neg hfeed,
        if_neg hcontrol]
    rw [hself]
    exact scanString_asciiOnly_char hascii rest

/-- A string is read back from its ASCII characters. -/
theorem scanString_asciiOnly (text rest : Text) :
    scanString .plain (asciiOnly (text.flatMap escapeChar) ++ '"' :: rest) = some (text, rest) := by
  induction text with
  | nil => rfl
  | cons c text ih =>
      rw [List.flatMap_cons, asciiOnly_append, List.append_assoc, scanString_asciiOnly_escapeChar,
        ih]
      rfl

/-! ### Texts that are read as values -/

/-- The text is read as the value wherever no number goes on after it. -/
structure ReadAs (text : Text) (value : Json) : Prop where
  starts : ∃ c rest, text = c :: rest ∧ isBlank c = false ∧ c ≠ ']'
  parses : ∀ rest fuel, Ends rest → 2 * text.length < fuel →
    parseValue fuel (text ++ rest) = some (value, rest)

/-- The text is read as further items, up to the closing bracket. -/
structure ReadAsItems (text : Text) (items : List Json) : Prop where
  ends : ∀ rest, Ends (text ++ rest)
  parses : ∀ rest fuel, 2 * text.length < fuel →
    parseItems fuel (skipBlank (text ++ rest)) = some (items, rest)

/-- The text is read as further members, up to the closing brace. -/
structure ReadAsMembers (text : Text) (members : List (Text × Json)) : Prop where
  ends : ∀ rest, Ends (text ++ rest)
  parses : ∀ rest fuel, 2 * text.length < fuel →
    parseMembers fuel (skipBlank (text ++ rest)) = some (members, rest)

/-- The text between the quotes of a key or a string. -/
def SpellsText (body text : Text) : Prop :=
  ∀ rest, scanString .plain (body ++ '"' :: rest) = some (text, rest)

def Blank (text : Text) : Prop := ∀ c ∈ text, isBlank c = true

theorem skipBlank_blanks {blanks : Text} (h : Blank blanks) (rest : Text) :
    skipBlank (blanks ++ rest) = skipBlank rest :=
  List.dropWhile_append_of_pos h

theorem ReadAs.skipBlank {text : Text} {value : Json} (h : ReadAs text value) {blanks : Text}
    (hblanks : Blank blanks) (rest : Text) :
    skipBlank (blanks ++ (text ++ rest)) = text ++ rest := by
  obtain ⟨c, tail, rfl, hblank, _⟩ := h.starts
  rw [skipBlank_blanks hblanks, List.cons_append, skipBlank_cons _ hblank]

theorem ends_blank {blanks rest : Text} (h : Blank blanks) (hrest : Ends rest) :
    Ends (blanks ++ rest) := by
  cases blanks with
  | nil => exact hrest
  | cons c tail =>
      apply ends_cons
      have hc : isBlank c = true := h c List.mem_cons_self
      simp only [isBlank, decide_eq_true_eq] at hc
      rcases hc with rfl | rfl | rfl | rfl <;> rfl

theorem readAs_str {body text : Text} (h : SpellsText body text) :
    ReadAs ('"' :: (body ++ ['"'])) (.str text) where
  starts := ⟨'"', _, rfl, rfl, by decide⟩
  parses rest fuel _ hfuel := by
    obtain ⟨fuel, rfl⟩ : ∃ n, fuel = n + 1 := ⟨fuel - 1, by omega⟩
    rw [List.cons_append, List.append_assoc, List.singleton_append, parseValue, if_pos rfl, h]
    rfl

/-! ### Arrays -/

theorem readAs_nil : ReadAs ['[', ']'] (.arr []) where
  starts := ⟨'[', _, rfl, rfl, by decide⟩
  parses rest fuel _ hfuel := by
    obtain ⟨fuel, rfl⟩ : ∃ n, fuel = n + 2 := ⟨fuel - 2, by simp at hfuel; omega⟩
    simp [parseValue, parseArray, skipBlank, isBlank]

theorem readAsItems_nil {blanks : Text} (h : Blank blanks) :
    ReadAsItems (blanks ++ [']']) [] where
  ends rest := by
    rw [List.append_assoc]
    exact ends_blank h (ends_cons rfl)
  parses rest fuel hfuel := by
    obtain ⟨fuel, rfl⟩ : ∃ n, fuel = n + 1 := ⟨fuel - 1, by omega⟩
    rw [List.append_assoc, skipBlank_blanks h, List.singleton_append, skipBlank_cons _ rfl,
      parseItems, if_pos rfl]

theorem readAsItems_cons {blanks text others : Text} {item : Json} {items : List Json}
    (hblanks : Blank blanks) (hitem : ReadAs text item) (hitems : ReadAsItems others items) :
    ReadAsItems (',' :: (blanks ++ (text ++ others))) (item :: items) where
  ends rest := ends_cons rfl
  parses rest fuel hfuel := by
    obtain ⟨fuel, rfl⟩ : ∃ n, fuel = n + 1 := ⟨fuel - 1, by omega⟩
    simp only [List.length_cons, List.length_append] at hfuel
    have hsplit : ',' :: (blanks ++ (text ++ others)) ++ rest =
        ',' :: (blanks ++ (text ++ (others ++ rest))) := by simp
    rw [hsplit, skipBlank_cons _ rfl, parseItems, if_neg (by decide), if_pos rfl,
      hitem.skipBlank hblanks, hitem.parses _ fuel (hitems.ends rest) (by omega)]
    simp only [Option.bind_some, hitems.parses rest fuel (by omega), Option.map_some]

theorem readAs_arr {blanks text others : Text} {item : Json} {items : List Json}
    (hblanks : Blank blanks) (hitem : ReadAs text item) (hitems : ReadAsItems others items) :
    ReadAs ('[' :: (blanks ++ (text ++ others))) (.arr (item :: items)) where
  starts := ⟨'[', _, rfl, rfl, by decide⟩
  parses rest fuel _ hfuel := by
    obtain ⟨fuel, rfl⟩ : ∃ n, fuel = n + 2 := ⟨fuel - 2, by simp at hfuel; omega⟩
    simp only [List.length_cons, List.length_append] at hfuel
    obtain ⟨c, tail, htext, hblank, hclose⟩ := hitem.starts
    have hsplit : '[' :: (blanks ++ (text ++ others)) ++ rest =
        '[' :: (blanks ++ (text ++ (others ++ rest))) := by simp
    have hparse := hitem.parses (others ++ rest) fuel (hitems.ends rest) (by omega)
    rw [hsplit, parseValue, if_neg (by decide), if_neg (by decide), if_pos rfl,
      hitem.skipBlank hblanks]
    rw [htext, List.cons_append] at hparse ⊢
    rw [parseArray, if_neg hclose, hparse]
    simp only [Option.bind_some, hitems.parses rest fuel (by omega), Option.map_some]

/-! ### Objects -/

theorem readAs_empty : ReadAs ['{', '}'] (.obj []) where
  starts := ⟨'{', _, rfl, rfl, by decide⟩
  parses rest fuel _ hfuel := by
    obtain ⟨fuel, rfl⟩ : ∃ n, fuel = n + 2 := ⟨fuel - 2, by simp at hfuel; omega⟩
    simp [parseValue, parseObject, skipBlank, isBlank]

theorem readAsMembers_nil {blanks : Text} (h : Blank blanks) :
    ReadAsMembers (blanks ++ ['}']) [] where
  ends rest := by
    rw [List.append_assoc]
    exact ends_blank h (ends_cons rfl)
  parses rest fuel hfuel := by
    obtain ⟨fuel, rfl⟩ : ∃ n, fuel = n + 1 := ⟨fuel - 1, by omega⟩
    rw [List.append_assoc, skipBlank_blanks h, List.singleton_append, skipBlank_cons _ rfl,
      parseMembers, if_pos rfl]

def memberText (body blanks text : Text) : Text := '"' :: (body ++ '"' :: ':' :: (blanks ++ text))

theorem parseMember_text {body key blanks text rest : Text} {value : Json} {fuel : ℕ}
    (hkey : SpellsText body key) (hblanks : Blank blanks) (hvalue : ReadAs text value)
    (hends : Ends rest) (hfuel : 2 * text.length < fuel) :
    parseMember (fuel + 1) (body ++ '"' :: ':' :: (blanks ++ (text ++ rest))) =
      some ((key, value), rest) := by
  rw [parseMember, hkey]
  simp only [Option.bind_some, skipBlank_cons _ (by decide : isBlank ':' = false), if_true,
    hvalue.skipBlank hblanks, hvalue.parses rest fuel hends hfuel, Option.map_some]

theorem readAsMembers_cons {start body key blanks text others : Text} {value : Json}
    {members : List (Text × Json)} (hstart : Blank start) (hkey : SpellsText body key)
    (hblanks : Blank blanks) (hvalue : ReadAs text value)
    (hmembers : ReadAsMembers others members) :
    ReadAsMembers (',' :: (start ++ (memberText body blanks text ++ others)))
      ((key, value) :: members) where
  ends rest := ends_cons rfl
  parses rest fuel hfuel := by
    simp only [memberText, List.length_cons, List.length_append] at hfuel
    obtain ⟨fuel, rfl⟩ : ∃ n, fuel = n + 2 := ⟨fuel - 2, by omega⟩
    have hsplit : ',' :: (start ++ (memberText body blanks text ++ others)) ++ rest =
        ',' :: (start ++ '"' ::
          (body ++ '"' :: ':' :: (blanks ++ (text ++ (others ++ rest))))) := by
      simp [memberText]
    rw [hsplit, skipBlank_cons _ rfl, parseMembers, if_neg (by decide), if_pos rfl,
      skipBlank_blanks hstart, skipBlank_cons _ rfl]
    simp only [if_true, parseMember_text hkey hblanks hvalue (hmembers.ends rest)
      (by omega : 2 * text.length < fuel), Option.bind_some,
      hmembers.parses rest (fuel + 1) (by omega), Option.map_some]

theorem readAs_obj {start body key blanks text others : Text} {value : Json}
    {members : List (Text × Json)} (hstart : Blank start) (hkey : SpellsText body key)
    (hblanks : Blank blanks) (hvalue : ReadAs text value) (hmembers : ReadAsMembers others members)
    (hnodup : (((key, value) :: members).map (·.1)).Nodup) :
    ReadAs ('{' :: (start ++ (memberText body blanks text ++ others)))
      (.obj ((key, value) :: members)) where
  starts := ⟨'{', _, rfl, rfl, by decide⟩
  parses rest fuel _ hfuel := by
    simp only [memberText, List.length_cons, List.length_append] at hfuel
    obtain ⟨fuel, rfl⟩ : ∃ n, fuel = n + 3 := ⟨fuel - 3, by omega⟩
    have hsplit : '{' :: (start ++ (memberText body blanks text ++ others)) ++ rest =
        '{' :: (start ++ '"' ::
          (body ++ '"' :: ':' :: (blanks ++ (text ++ (others ++ rest))))) := by
      simp [memberText]
    rw [hsplit, parseValue, if_neg (by decide), if_pos rfl, skipBlank_blanks hstart,
      skipBlank_cons _ rfl, parseObject, if_neg (by decide), if_pos rfl,
      parseMember_text hkey hblanks hvalue (hmembers.ends rest) (by omega)]
    simp only [Option.bind_some, hmembers.parses rest (fuel + 1) (by omega), Option.map_some,
      ofPairs_of_nodup hnodup]

theorem loads_of_readAs {text : Text} {value : Json} (h : ReadAs text value) :
    loads text = some value := by
  have hends : Ends [] := by simp [Ends]
  have hblank : Blank [] := fun _ hc => absurd hc List.not_mem_nil
  have hparse := h.parses [] (2 * text.length + 1) hends (by omega)
  have hskip := h.skipBlank hblank []
  rw [List.nil_append] at hskip
  rw [List.append_nil] at hparse hskip
  rw [loads, hskip, hparse]
  rfl

/-! ### Indented texts -/

def newline (depth : ℕ) : Text := '\n' :: List.replicate (2 * depth) ' '

mutual

def indented (depth : ℕ) : Json → Text
  | .arr (item :: items) =>
      '[' :: (newline (depth + 1) ++ (indented (depth + 1) item ++ indentedItems depth items))
  | .obj ((key, value) :: members) =>
      '{' :: (newline (depth + 1) ++ (quote key ++ ':' :: ' ' ::
        (indented (depth + 1) value ++ indentedMembers depth members)))
  | value => encode value

def indentedItems (depth : ℕ) : List Json → Text
  | [] => newline depth ++ [']']
  | item :: items =>
      ',' :: (newline (depth + 1) ++ (indented (depth + 1) item ++ indentedItems depth items))

def indentedMembers (depth : ℕ) : List (Text × Json) → Text
  | [] => newline depth ++ ['}']
  | (key, value) :: members =>
      ',' :: (newline (depth + 1) ++ (quote key ++ ':' :: ' ' ::
        (indented (depth + 1) value ++ indentedMembers depth members)))

end

def dumpsIndented (value : Json) : Text := asciiOnly (indented 0 value.sorted)

theorem blank_newline (depth : ℕ) : Blank (newline depth) := by
  intro c hc
  rcases List.mem_cons.mp hc with rfl | hspace
  · rfl
  · rw [List.eq_of_mem_replicate hspace]
    rfl

theorem blank_space : Blank [' '] := by
  intro c hc
  rw [List.mem_singleton.mp hc]
  rfl

theorem asciiOnly_newline (depth : ℕ) : asciiOnly (newline depth) = newline depth := by
  apply asciiOnly_of_ascii
  intro c hc
  rcases List.mem_cons.mp hc with rfl | hspace
  · decide
  · rw [List.eq_of_mem_replicate hspace]
    decide

theorem asciiOnly_quote (text : Text) :
    asciiOnly (quote text) = '"' :: (asciiOnly (text.flatMap escapeChar) ++ ['"']) := by
  rw [quote, asciiOnly_cons (by decide), asciiOnly_append]
  rfl

/-- A value that is written without the text of a string. -/
theorem readAs_scalar {value : Json} (hwritable : value.Writable)
    (hscalar : (∃ b, value = .bool b) ∨ value = .null ∨ (∃ n, value = .int n) ∨
      ∃ lexeme, value = .float lexeme) : ReadAs (asciiOnly (encode value)) value := by
  have hascii : asciiOnly (encode value) = encode value := by
    apply asciiOnly_of_ascii
    intro c hc
    rcases mem_encode value hwritable hc with hplain | ⟨_, text, htext, _⟩
    · exact hplain.2
    · rcases hscalar with ⟨b, rfl⟩ | rfl | ⟨n, rfl⟩ | ⟨lexeme, rfl⟩ <;> cases htext
  rw [hascii]
  refine ⟨encode_cons hwritable, fun rest fuel hends hfuel => ?_⟩
  obtain ⟨fuel, rfl⟩ : ∃ n, fuel = n + 1 := ⟨fuel - 1, by omega⟩
  exact parseValue_scalar fuel (scanScalar_encode hwritable hends hscalar)

theorem asciiOnly_member (key text others : Text) :
    asciiOnly (quote key ++ ':' :: ' ' :: (text ++ others)) =
      memberText (asciiOnly (key.flatMap escapeChar)) [' '] (asciiOnly text) ++
        asciiOnly others := by
  rw [asciiOnly_append, asciiOnly_quote, asciiOnly_cons (by decide), asciiOnly_cons (by decide),
    asciiOnly_append]
  simp [memberText]

mutual

theorem readAs_indented (depth : ℕ) (value : Json) (h : value.Writable) :
    ReadAs (asciiOnly (indented depth value)) value := by
  cases value with
  | null => exact readAs_scalar h (.inr (.inl rfl))
  | bool b => exact readAs_scalar h (.inl ⟨b, rfl⟩)
  | int n => exact readAs_scalar h (.inr (.inr (.inl ⟨n, rfl⟩)))
  | float lexeme => exact readAs_scalar h (.inr (.inr (.inr ⟨lexeme, rfl⟩)))
  | str text =>
      rw [indented, encode, asciiOnly_quote]
      · exact readAs_str (scanString_asciiOnly text)
      all_goals simp
  | arr items =>
      cases items with
      | nil => exact readAs_nil
      | cons item items =>
          rw [Writable, WritableItems] at h
          rw [indented, asciiOnly_cons (by decide), asciiOnly_append, asciiOnly_append,
            asciiOnly_newline]
          exact readAs_arr (blank_newline _) (readAs_indented _ item h.1)
            (readAsItems_indented depth items h.2)
  | obj members =>
      cases members with
      | nil => exact readAs_empty
      | cons member members =>
          obtain ⟨key, value⟩ := member
          rw [Writable, WritableMembers] at h
          obtain ⟨hkeys, hvalue, hmembers⟩ := h
          rw [indented, asciiOnly_cons (by decide), asciiOnly_append, asciiOnly_newline,
            asciiOnly_member]
          exact readAs_obj (blank_newline _) (scanString_asciiOnly key) blank_space
            (readAs_indented _ value hvalue) (readAsMembers_indented depth members hmembers) hkeys

theorem readAsItems_indented (depth : ℕ) (items : List Json) (h : WritableItems items) :
    ReadAsItems (asciiOnly (indentedItems depth items)) items := by
  cases items with
  | nil =>
      rw [indentedItems, asciiOnly_append, asciiOnly_newline]
      exact readAsItems_nil (blank_newline depth)
  | cons item items =>
      rw [WritableItems] at h
      rw [indentedItems, asciiOnly_cons (by decide), asciiOnly_append, asciiOnly_append,
        asciiOnly_newline]
      exact readAsItems_cons (blank_newline _) (readAs_indented _ item h.1)
        (readAsItems_indented depth items h.2)

theorem readAsMembers_indented (depth : ℕ) (members : List (Text × Json))
    (h : WritableMembers members) :
    ReadAsMembers (asciiOnly (indentedMembers depth members)) members := by
  cases members with
  | nil =>
      rw [indentedMembers, asciiOnly_append, asciiOnly_newline]
      exact readAsMembers_nil (blank_newline depth)
  | cons member members =>
      obtain ⟨key, value⟩ := member
      rw [WritableMembers] at h
      rw [indentedMembers, asciiOnly_cons (by decide), asciiOnly_append, asciiOnly_newline,
        asciiOnly_member]
      exact readAsMembers_cons (blank_newline _) (scanString_asciiOnly key) blank_space
        (readAs_indented _ value h.1) (readAsMembers_indented depth members h.2)

end

theorem loads_dumpsIndented {value : Json} (h : value.Canonical) :
    loads (dumpsIndented value) = some value := by
  rw [dumpsIndented, h.sorted]
  exact loads_of_readAs (readAs_indented 0 value h.writable)

end Json

end QuantWorkbench.Lib
