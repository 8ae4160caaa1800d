import QuantWorkbench.Account.RecordText
import QuantWorkbench.Lib.JsonLines

/-!
The initialization metadata of `workbench/advisory_service.py`: a small JSON file
beside the durable ledger that records the initial cash of the account. It is
replaced as a whole, so a write that fails leaves the file as it was.
-/

namespace QuantWorkbench.Workbench

open Lib Account

/-- Amounts from here on do not fit the 28 digits of a quantized decimal. -/
def cashLimit : ℕ := 10 ^ 26

/-- An amount of money with its two decimals. -/
def cashText (cash : ℚ) : Text :=
  DecimalText.format 2 (Rounding.halfUp (cash * moneyScale)).toNat

def initializationPayload (cash : ℚ) : Json :=
  .obj [("format_version".toList, .int 1), ("initial_cash".toList, .str (cashText cash))]

/-- The content that `_write_initialization_metadata` writes. -/
def initializationText (cash : ℚ) : Text := Json.dumps (initializationPayload cash) ++ ['\n']

def isFormatVersion : Json → Bool
  | .int value => value = 1
  | .bool value => value
  | .float lexeme => DecimalText.parse lexeme = some 1
  | _ => false

/-- `_load_initialization_metadata` on the content of the file; without a result it
raises `account initialization metadata is invalid`. -/
def parseInitialization (content : Text) : Option ℚ :=
  if content = [] ∨ 4096 < (Text.utf8 content).length then none
  else do
    let payload ← Json.loads content
    let version ← payload.member? "format_version".toList
    let encoded ← textField payload "initial_cash"
    let parsed ← (DecimalText.parse encoded).map money
    if payload.hasKeys ["format_version".toList, "initial_cash".toList] ∧
        isFormatVersion version ∧ 0 < parsed ∧ parsed < cashLimit ∧
        encoded = cashText parsed then
      some parsed
    else none

/-! ### Round trip -/

theorem cents_eq {cash : ℚ} (hmoney : IsMoney cash) (hnonneg : 0 ≤ cash) :
    (((Rounding.halfUp (cash * moneyScale)).toNat : ℕ) : ℚ) = cash * moneyScale := by
  obtain ⟨cents, hcents⟩ := hmoney
  have hvalue : cash * moneyScale = (cents : ℚ) := by
    rw [hcents]
    norm_num [moneyScale]
  have hcents_nonneg : 0 ≤ cents := by
    have hscaled : 0 ≤ cash * moneyScale := mul_nonneg hnonneg (by norm_num [moneyScale])
    rw [hvalue] at hscaled
    exact_mod_cast hscaled
  rw [hvalue, Rounding.halfUp_intCast]
  exact_mod_cast Int.toNat_of_nonneg hcents_nonneg

theorem parse_cashText {cash : ℚ} (hmoney : IsMoney cash) (hnonneg : 0 ≤ cash) :
    DecimalText.parse (cashText cash) = some cash := by
  rw [cashText, DecimalText.parse_format, cents_eq hmoney hnonneg]
  norm_num [moneyScale]

/-- Twenty-six digits, the point and two decimals at most. -/
theorem cashText_length {cash : ℚ} (hmoney : IsMoney cash) (hnonneg : 0 ≤ cash)
    (hlimit : cash < cashLimit) : (cashText cash).length ≤ 29 := by
  have hcents := cents_eq hmoney hnonneg
  have hbound : (Rounding.halfUp (cash * moneyScale)).toNat < 10 ^ 28 := by
    have hscaled : cash * moneyScale < cashLimit * moneyScale :=
      mul_lt_mul_of_pos_right hlimit (by norm_num [moneyScale])
    rw [← hcents] at hscaled
    have hnat : (Rounding.halfUp (cash * moneyScale)).toNat < cashLimit * moneyScale := by
      exact_mod_cast hscaled
    simpa [cashLimit, moneyScale] using hnat
  have hwhole : (Rounding.halfUp (cash * moneyScale)).toNat / 10 ^ 2 < 10 ^ 26 := by
    omega
  have hdigits := (Nat.length_toDigits_le_iff (b := 10) (k := 26) (by decide) (by decide)).mpr
    hwhole
  rw [cashText, DecimalText.format, List.length_append, List.length_cons, digitsText_length]
  omega

theorem initializationPayload_sorted (cash : ℚ) :
    (initializationPayload cash).sorted = initializationPayload cash := rfl

theorem initializationText_length (cash : ℚ) :
    (initializationText cash).length = (Json.quote (cashText cash)).length + 37 := by
  have hkeys : (Json.quote "format_version".toList).length = 16 ∧
      (Json.quote "initial_cash".toList).length = 14 ∧ (Json.intText 1).length = 1 := by decide
  rw [initializationText, Json.dumps, initializationPayload_sorted]
  simp only [initializationPayload, Json.encode, Json.encodeMembers, List.length_append,
    List.length_cons, List.length_nil, hkeys]
  omega

/-- Written metadata is read back. -/
theorem parseInitialization_initializationText {cash : ℚ} (hmoney : IsMoney cash)
    (hpos : 0 < cash) (hlimit : cash < cashLimit) :
    parseInitialization (initializationText cash) = some cash := by
  have hsize : ¬ (initializationText cash = [] ∨
      4096 < (Text.utf8 (initializationText cash)).length) := by
    have hcash := cashText_length hmoney hpos.le hlimit
    have hquote := Json.quote_length_le (cashText cash)
    have hlength := initializationText_length cash
    have hbytes := Json.utf8_length_le (initializationText cash)
    rintro (hempty | hlong)
    · rw [hempty, List.length_nil] at hlength
      omega
    · omega
  have hwritable : (initializationPayload cash).Writable := by
    refine ⟨?_, by simp [Json.WritableMembers, Json.Writable]⟩
    change ["format_version".toList, "initial_cash".toList].Nodup
    decide
  have hloads : Json.loads (initializationText cash) = some (initializationPayload cash) := by
    rw [initializationText, Json.loads_dumps_newline hwritable, initializationPayload_sorted]
  have hversion : (initializationPayload cash).member? "format_version".toList =
      some (.int 1) := rfl
  have hencoded : textField (initializationPayload cash) "initial_cash" =
      some (cashText cash) := rfl
  have hkeys : (initializationPayload cash).hasKeys
      ["format_version".toList, "initial_cash".toList] = true := by
    rw [← initializationPayload_sorted]
    exact Json.hasKeys_sorted rfl
  rw [parseInitialization, if_neg hsize]
  simp only [hloads, hversion, hencoded, parse_cashText hmoney hpos.le, Option.map_some,
    money_of_isMoney hmoney, Option.bind_eq_bind, Option.bind_some, hkeys, hpos, hlimit,
    isFormatVersion, decide_true, and_self, if_true]

end QuantWorkbench.Workbench
