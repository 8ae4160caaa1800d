import Mathlib.Data.Rat.Defs
import QuantWorkbench.Lib.JsonRecords

/-!
Cells of a data frame as its rows hand them out: nothing, a whole number of any size, a
floating-point number, which may be infinite or not a number, or a text. How whole numbers and
texts become floating-point numbers is a parameter.
-/

namespace QuantWorkbench.Lib

/-- What a floating-point number stands for. -/
inductive Number where
  | nan
  | infinite (negative : Bool)
  | finite (value : ℚ)
  deriving DecidableEq

namespace Number

def zero : Number := finite 0

def IsFinite : Number → Prop
  | finite _ => True
  | _ => False

instance : DecidablePred IsFinite := fun x => by
  cases x with
  | finite value => exact isTrue trivial
  | nan => exact isFalse id
  | infinite negative => exact isFalse id

/-- `<`, which nothing that is not a number is or has. -/
def less : Number → Number → Bool
  | nan, _ => false
  | _, nan => false
  | infinite a, infinite b => a && !b
  | infinite a, finite _ => a
  | finite _, infinite b => !b
  | finite a, finite b => decide (a < b)

/-- `<=`. -/
def atMost : Number → Number → Bool
  | nan, _ => false
  | _, nan => false
  | a, b => !less b a

end Number

/-- Floating-point numbers as cells hold them. -/
class CellFloats (F : Type) where
  number : F → Number
  /-- `float` of a whole number; `none` is its `OverflowError`. -/
  ofInt? : ℤ → Option F
  /-- `float` of a text; `none` is its `ValueError`. -/
  ofText? : Text → Option F
  /-- `str` of a floating-point number. -/
  repr : F → Text

/-!
Floating-point numbers as records keep them: each finite one has an exact value and a text that
it is read back from. The format itself, with its rounding, is a parameter. Where the source
takes what `float` converts, a record keeps the number, truth value or text it was given.
-/

/-- The finite floating-point numbers. -/
class FloatFormat (F : Type) where
  value : F → ℚ
  repr : F → Text
  /-- `float` of an integer, which may be too large. -/
  ofInt? : ℤ → Option F
  /-- `float` of a text, if it is finite. -/
  ofText? : Text → Option F
  repr_lexeme : ∀ x, Json.isFloatLexeme (repr x) = true
  ofText?_repr : ∀ x, ofText? (repr x) = some x

/-- What `float` converts. -/
inductive Scalar (F : Type) where
  | int (value : ℤ)
  | float (value : F)
  | bool (value : Bool)
  | text (value : Text)
  deriving DecidableEq

namespace Scalar

variable {F : Type} [FloatFormat F]

def float? : Scalar F → Option F
  | int value => FloatFormat.ofInt? value
  | float value => some value
  | bool value => FloatFormat.ofInt? value.toNat
  | text value => FloatFormat.ofText? value

def toJson : Scalar F → Json
  | int value => .int value
  | float value => .float (FloatFormat.repr value)
  | bool value => .bool value
  | text value => .str value

def ofJson? : Json → Option (Scalar F)
  | .int value => some (int value)
  | .float lexeme => (FloatFormat.ofText? lexeme).map float
  | .bool value => some (bool value)
  | .str value => some (text value)
  | _ => none

@[simp] theorem ofJson?_toJson (scalar : Scalar F) : ofJson? scalar.toJson = some scalar := by
  cases scalar with
  | float value => rw [toJson, ofJson?, FloatFormat.ofText?_repr, Option.map_some]
  | _ => rfl

theorem toJson_canonical (scalar : Scalar F) : scalar.toJson.Canonical := by
  cases scalar with
  | int value => exact .int value
  | float value => exact .float (FloatFormat.repr_lexeme value)
  | bool value => exact .bool value
  | text value => exact .str value

end Scalar

/-!
Floating-point numbers as JSON has them, the infinities and what is no number among them. A
measure is what `float` converts, kept as it was given.
-/

class JsonFloats (F : Type) extends CellFloats F where
  lexeme : F → Text
  ofLexeme? : Text → Option F
  lexeme_written : ∀ x, Json.isFloatLexeme (lexeme x) = true ∨
    (lexeme x, Json.float (lexeme x)) ∈ Json.literals
  ofLexeme?_lexeme : ∀ x, ofLexeme? (lexeme x) = some x

/-- The number one alone. -/
@[reducible] def JsonFloats.one : JsonFloats Unit where
  number _ := .finite 1
  ofInt? n := if n = 1 then some () else none
  ofText? text := if text = "1.0".toList then some () else none
  repr _ := "1.0".toList
  lexeme _ := "1.0".toList
  ofLexeme? text := if text = "1.0".toList then some () else none
  lexeme_written _ := Or.inl (by decide)
  ofLexeme?_lexeme _ := rfl

namespace Measure

variable {F : Type} [JsonFloats F]

/-- `float` of a number, a truth value or a text; `none` where it raises. -/
def float? : Scalar F → Option Number
  | .int value => (CellFloats.ofInt? value : Option F).map CellFloats.number
  | .float value => some (CellFloats.number value)
  | .bool value => (CellFloats.ofInt? value.toNat : Option F).map CellFloats.number
  | .text value => (CellFloats.ofText? value : Option F).map CellFloats.number

/-- What is compared with a number; a text raises. -/
def number? : Scalar F → Option Number
  | .int value => some (.finite value)
  | .float value => some (CellFloats.number value)
  | .bool value => some (.finite value.toNat)
  | .text _ => none

/-- The measure is a number that does not equal itself. -/
def isNan : Scalar F → Bool
  | .float value => CellFloats.number value = .nan
  | _ => false

def toJson : Scalar F → Json
  | .int value => .int value
  | .float value => .float (JsonFloats.lexeme value)
  | .bool value => .bool value
  | .text value => .str value

def ofJson? : Json → Option (Scalar F)
  | .int value => some (.int value)
  | .float lexeme => (JsonFloats.ofLexeme? lexeme).map .float
  | .bool value => some (.bool value)
  | .str value => some (.text value)
  | _ => none

@[simp] theorem ofJson?_toJson (measure : Scalar F) : ofJson? (toJson measure) = some measure := by
  cases measure with
  | float value => rw [toJson, ofJson?, JsonFloats.ofLexeme?_lexeme, Option.map_some]
  | _ => rfl

theorem toJson_canonical (measure : Scalar F) : (toJson measure).Canonical := by
  cases measure with
  | int value => exact .int value
  | float value => exact ⟨JsonFloats.lexeme_written value, by rw [toJson, Json.sorted]⟩
  | bool value => exact .bool value
  | text value => exact .str value

end Measure

/-! ### Values whose numbers have been read -/

namespace Json

variable (F : Type) [JsonFloats F]

mutual

/-- The value with every floating-point number written as the one it is read as. -/
def floatsRead : Json → Json
  | .null => .null
  | .bool value => .bool value
  | .int value => .int value
  | .float lexeme => .float (((JsonFloats.ofLexeme? lexeme : Option F).map JsonFloats.lexeme).getD
      lexeme)
  | .str text => .str text
  | .arr items => .arr (floatsReadItems items)
  | .obj members => .obj (floatsReadMembers members)

def floatsReadItems : List Json → List Json
  | [] => []
  | item :: items => floatsRead item :: floatsReadItems items

def floatsReadMembers : List (Text × Json) → List (Text × Json)
  | [] => []
  | (key, value) :: members => (key, floatsRead value) :: floatsReadMembers members

end

/-- Every number of the value is written as it is read. -/
def AsRead (value : Json) : Prop := floatsRead F value = value

variable {F}

theorem AsRead.null : AsRead F .null := by rw [AsRead, floatsRead]

theorem AsRead.bool (value : Bool) : AsRead F (.bool value) := by rw [AsRead, floatsRead]

theorem AsRead.int (value : ℤ) : AsRead F (.int value) := by rw [AsRead, floatsRead]

theorem AsRead.str (text : Text) : AsRead F (.str text) := by rw [AsRead, floatsRead]

theorem AsRead.arr {items : List Json} (h : ∀ item ∈ items, AsRead F item) :
    AsRead F (.arr items) := by
  rw [AsRead, floatsRead]
  congr 1
  induction items with
  | nil => rw [floatsReadItems]
  | cons item rest ih =>
      obtain ⟨hitem, hrest⟩ := List.forall_mem_cons.mp h
      rw [floatsReadItems, ih hrest, show floatsRead F item = item from hitem]

theorem AsRead.obj {members : List (Text × Json)} (h : ∀ member ∈ members, AsRead F member.2) :
    AsRead F (.obj members) := by
  rw [AsRead, floatsRead]
  congr 1
  induction members with
  | nil => rw [floatsReadMembers]
  | cons member rest ih =>
      obtain ⟨hmember, hrest⟩ := List.forall_mem_cons.mp h
      rw [floatsReadMembers, ih hrest, show floatsRead F member.2 = member.2 from hmember]

theorem AsRead.measure (measure : Scalar F) : AsRead F (Measure.toJson measure) := by
  cases measure with
  | int value => exact AsRead.int value
  | float value =>
      rw [AsRead, Measure.toJson, floatsRead, JsonFloats.ofLexeme?_lexeme]
      rfl
  | bool value => exact AsRead.bool value
  | text value => exact AsRead.str value

end Json

end QuantWorkbench.Lib
