import QuantWorkbench.Lib.Text

/-!
JSON as the Python standard library reads and writes it: `dumps` with
`ensure_ascii=False`, `sort_keys=True` and separators without blanks, and
`loads`. A number with a fraction or an exponent is kept as its text, since such
a number is written by `repr` and that text is read back as the same number.
-/

namespace QuantWorkbench.Lib

inductive Json where
  | null
  | bool (value : Bool)
  | int (value : ℤ)
  | float (lexeme : Text)
  | str (value : Text)
  | arr (items : List Json)
  | obj (members : List (Text × Json))

namespace Json

/-! ### Numbers -/

def isNumberChar (c : Char) : Bool :=
  c.isDigit ∨ c ∈ ['-', '+', '.', 'e', 'E']

/-- An integer part: no zero stands in front of another digit. -/
def isWhole (digits : Text) : Bool :=
  digits ≠ [] ∧ digits.all Char.isDigit ∧ (digits.head? = some '0' → digits = ['0'])

/-- The part from the decimal point on, if any. -/
def isFraction : Text → Bool
  | [] => true
  | c :: digits => c = '.' ∧ digits ≠ [] ∧ digits.all Char.isDigit

def isExponent : Text → Bool
  | [] => true
  | c :: rest =>
      let digits := if rest.head? = some '-' ∨ rest.head? = some '+' then rest.tail else rest
      (c = 'e' ∨ c = 'E') ∧ digits ≠ [] ∧ digits.all Char.isDigit

def unsigned (lexeme : Text) : Text :=
  if lexeme.head? = some '-' then lexeme.tail else lexeme

def isFloatLexeme (lexeme : Text) : Bool :=
  let mantissa := (unsigned lexeme).takeWhile fun c => c ≠ 'e' ∧ c ≠ 'E'
  let exponent := (unsigned lexeme).dropWhile fun c => c ≠ 'e' ∧ c ≠ 'E'
  let whole := mantissa.takeWhile (· ≠ '.')
  let fraction := mantissa.dropWhile (· ≠ '.')
  isWhole whole ∧ isFraction fraction ∧ isExponent exponent ∧
    (fraction ≠ [] ∨ exponent ≠ []) ∧ lexeme.all isNumberChar

def intValue (lexeme : Text) : ℤ :=
  let size : ℤ := Nat.ofDigitChars 10 (unsigned lexeme) 0
  if lexeme.head? = some '-' then -size else size

def intText (value : ℤ) : Text :=
  if value < 0 then '-' :: Nat.toDigits 10 value.natAbs else Nat.toDigits 10 value.natAbs

/-- Which number a run of number characters is. A run that is none of them also
fails in the source, where the characters left over are no separator. -/
def ofNumberLexeme (lexeme : Text) : Option Json :=
  if isWhole (unsigned lexeme) then some (.int (intValue lexeme))
  else if isFloatLexeme lexeme then some (.float lexeme)
  else none

/-! ### Writing -/

/-- The escape of one character of a string. -/
def escapeChar (c : Char) : Text :=
  if c = '"' then ['\\', '"']
  else if c = '\\' then ['\\', '\\']
  else if c = '\n' then ['\\', 'n']
  else if c = '\r' then ['\\', 'r']
  else if c = '\t' then ['\\', 't']
  else if c.val = 0x8 then ['\\', 'b']
  else if c.val = 0xC then ['\\', 'f']
  else if c.val < 0x20 then
    ['\\', 'u', '0', '0', Nat.digitChar (c.toNat / 16), Nat.digitChar (c.toNat % 16)]
  else [c]

def quote (text : Text) : Text :=
  '"' :: (text.flatMap escapeChar ++ ['"'])

mutual

def encode : Json → Text
  | .null => "null".toList
  | .bool true => "true".toList
  | .bool false => "false".toList
  | .int value => intText value
  | .float lexeme => lexeme
  | .str text => quote text
  | .arr [] => ['[', ']']
  | .arr (item :: items) => '[' :: (encode item ++ encodeItems items)
  | .obj [] => ['{', '}']
  | .obj ((key, value) :: members) =>
      '{' :: (quote key ++ ':' :: (encode value ++ encodeMembers members))

/-- The items after the first one, and the closing bracket. -/
def encodeItems : List Json → Text
  | [] => [']']
  | item :: items => ',' :: (encode item ++ encodeItems items)

/-- The members after the first one, and the closing brace. -/
def encodeMembers : List (Text × Json) → Text
  | [] => ['}']
  | (key, value) :: members =>
      ',' :: (quote key ++ ':' :: (encode value ++ encodeMembers members))

end

def inKeyOrder (a b : Text × Json) : Prop := a.1 ≤ b.1

instance : DecidableRel inKeyOrder := fun a b => inferInstanceAs (Decidable (a.1 ≤ b.1))

mutual

/-- The value with the members of every object in the order of their keys. -/
def sorted : Json → Json
  | .null => .null
  | .bool value => .bool value
  | .int value => .int value
  | .float lexeme => .float lexeme
  | .str text => .str text
  | .arr items => .arr (sortedItems items)
  | .obj members => .obj ((sortedMembers members).insertionSort inKeyOrder)

def sortedItems : List Json → List Json
  | [] => []
  | item :: items => sorted item :: sortedItems items

def sortedMembers : List (Text × Json) → List (Text × Json)
  | [] => []
  | (key, value) :: members => (key, sorted value) :: sortedMembers members

end

/-- `json.dumps` with sorted keys and compact separators. -/
def dumps (value : Json) : Text := encode value.sorted

/-! ### Reading -/

def isBlank (c : Char) : Bool := c = ' ' ∨ c = '\t' ∨ c = '\n' ∨ c = '\r'

def skipBlank (text : Text) : Text := text.dropWhile isBlank

def hexValue (c : Char) : Option ℕ :=
  if c.isDigit then some (c.toNat - '0'.toNat)
  else if 'a' ≤ c ∧ c ≤ 'f' then some (c.toNat - 'a'.toNat + 10)
  else if 'A' ≤ c ∧ c ≤ 'F' then some (c.toNat - 'A'.toNat + 10)
  else none

/-- Where in a string literal the scanner is. `hex` has read some of the four
digits of a code unit; a high surrogate waits for its low one. -/
inductive StringState where
  | plain
  | escaped (high : Option ℕ)
  | hex (high : Option ℕ) (digits : ℕ) (value : ℕ)
  | afterHigh (high : ℕ)
  deriving DecidableEq

def StringState.closes : StringState → Char → Bool
  | .plain, c => c = '"'
  | _, _ => false

/-- The character of a complete code unit. A surrogate without partner is no
character; text with one could not be written in the first place. -/
def ofUnit (high : Option ℕ) (unit : ℕ) : Option (Option Char × StringState) :=
  match high with
  | some h =>
      if 0xDC00 ≤ unit ∧ unit < 0xE000 then
        some (some (Char.ofNat (0x10000 + (h - 0xD800) * 0x400 + (unit - 0xDC00))), .plain)
      else none
  | none =>
      if 0xD800 ≤ unit ∧ unit < 0xDC00 then some (none, .afterHigh unit)
      else if 0xDC00 ≤ unit ∧ unit < 0xE000 then none
      else some (some (Char.ofNat unit), .plain)

/-- The character an escape with one letter stands for. -/
def ofEscape (c : Char) : Option Char :=
  if c = '"' ∨ c = '\\' ∨ c = '/' then some c
  else if c = 'n' then some '\n'
  else if c = 'r' then some '\r'
  else if c = 't' then some '\t'
  else if c = 'b' then some (Char.ofNat 0x8)
  else if c = 'f' then some (Char.ofNat 0xC)
  else none

/-- One character of a string literal other than the closing quote: the
character it completes, if any, and the state after it. -/
def scanChar (state : StringState) (c : Char) : Option (Option Char × StringState) :=
  match state with
  | .plain =>
      if c = '\\' then some (none, .escaped none)
      else if c.val < 0x20 then none
      else some (some c, .plain)
  | .escaped high =>
      if c = 'u' then some (none, .hex high 0 0)
      else if high.isSome then none
      else (ofEscape c).map fun char => (some char, .plain)
  | .hex high digits value =>
      match hexValue c with
      | none => none
      | some digit =>
          if digits < 3 then some (none, .hex high (digits + 1) (value * 16 + digit))
          else ofUnit high (value * 16 + digit)
  | .afterHigh high => if c = '\\' then some (none, .escaped (some high)) else none

/-- A string literal after its opening quote, and the text after it. -/
def scanString : StringState → Text → Option (Text × Text)
  | _, [] => none
  | state, c :: rest =>
      if state.closes c then some ([], rest)
      else
        match scanChar state c with
        | none => none
        | some (char, next) =>
            (scanString next rest).map fun result => (char.toList ++ result.1, result.2)

def literals : List (Text × Json) :=
  [("null".toList, .null), ("true".toList, .bool true), ("false".toList, .bool false),
    ("NaN".toList, .float "NaN".toList), ("Infinity".toList, .float "Infinity".toList),
    ("-Infinity".toList, .float "-Infinity".toList)]

def scanLiteral (text : Text) : Option (Json × Text) :=
  literals.findSome? fun literal =>
    (text.dropPrefix? literal.1).map fun rest => (literal.2, rest)

def scanNumber (text : Text) : Option (Json × Text) :=
  (ofNumberLexeme (text.takeWhile isNumberChar)).map fun value =>
    (value, text.dropWhile isNumberChar)

/-- A key that occurs twice keeps its first place and its last value. -/
def setMember (members : List (Text × Json)) (member : Text × Json) : List (Text × Json) :=
  if members.any fun other => other.1 = member.1 then
    members.map fun other => if other.1 = member.1 then member else other
  else members ++ [member]

/-- The dictionary of the pairs of an object. -/
def ofPairs (pairs : List (Text × Json)) : Json :=
  .obj (pairs.foldl setMember [])

/-- A value that is neither a string nor a container. -/
def scanScalar (text : Text) : Option (Json × Text) :=
  (scanLiteral text).or (scanNumber text)

mutual

def parseValue : ℕ → Text → Option (Json × Text)
  | 0, _ => none
  | _ + 1, [] => none
  | fuel + 1, c :: rest =>
      if c = '"' then (scanString .plain rest).map fun result => (.str result.1, result.2)
      else if c = '{' then parseObject fuel (skipBlank rest)
      else if c = '[' then parseArray fuel (skipBlank rest)
      else scanScalar (c :: rest)

/-- An object after its opening brace. -/
def parseObject : ℕ → Text → Option (Json × Text)
  | 0, _ => none
  | _ + 1, [] => none
  | fuel + 1, c :: rest =>
      if c = '}' then some (.obj [], rest)
      else if c = '"' then
        (parseMember fuel rest).bind fun first =>
          (parseMembers fuel (skipBlank first.2)).map fun others =>
            (ofPairs (first.1 :: others.1), others.2)
      else none

/-- An array after its opening bracket. -/
def parseArray : ℕ → Text → Option (Json × Text)
  | 0, _ => none
  | _ + 1, [] => none
  | fuel + 1, c :: rest =>
      if c = ']' then some (.arr [], rest)
      else
        (parseValue fuel (c :: rest)).bind fun first =>
          (parseItems fuel (skipBlank first.2)).map fun others =>
            (.arr (first.1 :: others.1), others.2)

/-- The items after the first one, up to the closing bracket. -/
def parseItems : ℕ → Text → Option (List Json × Text)
  | 0, _ => none
  | _ + 1, [] => none
  | fuel + 1, c :: rest =>
      if c = ']' then some ([], rest)
      else if c = ',' then
        (parseValue fuel (skipBlank rest)).bind fun item =>
          (parseItems fuel (skipBlank item.2)).map fun others =>
            (item.1 :: others.1, others.2)
      else none

/-- A member after the opening quote of its key. -/
def parseMember : ℕ → Text → Option ((Text × Json) × Text)
  | 0, _ => none
  | fuel + 1, text =>
      (scanString .plain text).bind fun key =>
        match skipBlank key.2 with
        | [] => none
        | c :: rest =>
            if c = ':' then
              (parseValue fuel (skipBlank rest)).map fun value =>
                ((key.1, value.1), value.2)
            else none

/-- The members after the first one, up to the closing brace. -/
def parseMembers : ℕ → Text → Option (List (Text × Json) × Text)
  | 0, _ => none
  | _ + 1, [] => none
  | fuel + 1, c :: rest =>
      if c = '}' then some ([], rest)
      else if c = ',' then
        match skipBlank rest with
        | [] => none
        | d :: rest' =>
            if d = '"' then
              (parseMember fuel rest').bind fun member =>
                (parseMembers fuel (skipBlank member.2)).map fun others =>
                  (member.1 :: others.1, others.2)
            else none
      else none

end

/-- `json.loads`. Each character is the reason for at most two nested calls. -/
def loads (text : Text) : Option Json :=
  match parseValue (2 * text.length + 1) (skipBlank text) with
  | none => none
  | some (value, rest) => if skipBlank rest = [] then some value else none

/-! ### Access -/

def member? (key : Text) : Json → Option Json
  | .obj members => (members.find? fun member => member.1 = key).map (·.2)
  | _ => none

def keys : Json → List Text
  | .obj members => members.map (·.1)
  | _ => []

/-- The value is an object with these keys and no others. -/
def hasKeys (required : List Text) (value : Json) : Bool :=
  (required.all fun key => key ∈ value.keys) && value.keys.all fun key => key ∈ required

end Json

end QuantWorkbench.Lib
