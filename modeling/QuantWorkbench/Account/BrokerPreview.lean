import QuantWorkbench.Account.Importer
import QuantWorkbench.Lib.RowPartition

/-!
Which broker rows end the preview. The handler takes what the checks of a row raise, and not what
decimal arithmetic signals: a quantity that is no number, and a price with too many digits.
-/

namespace QuantWorkbench.Account

open Lib Data

section Decimals

variable {D : Type} {cell : BrokerCell D}

theorem asDecimal_not_invalid : asDecimal cell ≠ .error .invalidOperation := by
  intro h
  cases (orRaise_eq_error_iff.mp h).2

theorem asDecimal_eq_ok_iff {value : ℚ} :
    asDecimal cell = .ok value ↔ decimal? cell.str = some (.finite value) := by
  unfold asDecimal
  rw [orRaise_eq_ok_iff, Option.bind_eq_some_iff]
  simp only [Decimal.finite?_eq_some_iff]
  constructor
  · rintro ⟨_, h, hvalue⟩
    exact hvalue ▸ h
  · exact fun h => ⟨_, h, rfl⟩

/-- The cell is a number with more digits than `quantize` keeps. -/
def TooManyDigits (scale : ℕ) (cell : BrokerCell D) : Prop :=
  ∃ value, decimal? cell.str = some (.finite value) ∧
    10 ^ DecimalContext.default.precision ≤ |Rounding.halfUp (value * scale)|

theorem quantize_invalid_iff {scale : ℕ} {value : ℚ} :
    quantize scale value = .error .invalidOperation ↔
      10 ^ DecimalContext.default.precision ≤ |Rounding.halfUp (value * scale)| := by
  unfold quantize
  split
  · rename_i h
    exact ⟨fun _ => h, fun _ => rfl⟩
  · rename_i h
    exact ⟨(fun hok => nomatch hok), fun hlarge => absurd hlarge h⟩

private theorem quantized_invalid_iff {scale : ℕ} :
    (asDecimal cell >>= quantize scale) = .error .invalidOperation ↔ TooManyDigits scale cell := by
  rw [bind_eq_error_iff, or_iff_right asDecimal_not_invalid]
  simp only [asDecimal_eq_ok_iff, quantize_invalid_iff]
  rfl

theorem priceOf_invalid_iff :
    priceOf cell = .error .invalidOperation ↔ TooManyDigits priceScale cell :=
  quantized_invalid_iff

theorem wholeNumber_invalid_iff {refused : ℚ → Bool} :
    wholeNumber refused cell = .error .invalidOperation ↔ decimal? cell.str = none := by
  unfold wholeNumber
  split
  · rename_i h
    exact ⟨fun _ => h, fun _ => rfl⟩
  · rename_i value h
    rw [h]
    constructor
    · intro hinvalid
      split at hinvalid <;> cases hinvalid
    · intro hnone
      cases hnone
  · rename_i h
    exact ⟨(fun hvalue => nomatch hvalue), fun hnone => absurd hnone (by rw [h]; simp)⟩

end Decimals

section Cells

variable {D : Type} {row : BrokerRow D} {column : Text}

theorem cell_not_invalid : row.cell column ≠ .error .invalidOperation := by
  intro h
  cases (orRaise_eq_error_iff.mp h).2

theorem cell_eq_ok_iff {cell : BrokerCell D} :
    row.cell column = .ok cell ↔ row.lookup column = some cell := orRaise_eq_ok_iff

theorem symbol_not_invalid : row.symbol column ≠ .error .invalidOperation := by
  unfold BrokerRow.symbol
  intro h
  rcases bind_eq_error_iff.mp h with h | ⟨_, _, h⟩
  · exact cell_not_invalid h
  · cases (orRaise_eq_error_iff.mp h).2

theorem parseTradeSide_not_invalid {cell : BrokerCell D} :
    parseTradeSide cell ≠ .error .invalidOperation := by
  unfold parseTradeSide
  dsimp only
  split
  · exact fun h => nomatch h
  · split
    · exact fun h => nomatch h
    · split <;> exact fun h => nomatch h

theorem parseTradeDate_not_invalid [DateText D] {cell : BrokerCell D} {default : D} :
    parseTradeDate cell default ≠ .error .invalidOperation := by
  unfold parseTradeDate
  split
  · exact fun h => nomatch h
  · split
    · exact fun h => nomatch h
    · intro h
      cases (orRaise_eq_error_iff.mp h).2

end Cells

section Fills

variable {D : Type} [DateText D] {source : PreviewSource D} {row : BrokerRow D}

/-- The rows that end the preview: side and symbol are read, and the quantity is no decimal number,
or it is a positive integer and the price has too many digits. -/
inductive BrokerRowBreaks (mapping : BrokerMapping) (row : BrokerRow D) : Prop
  | quantity (side : TradeSide) (hside : parseTradeSide (row.optional mapping.side) = .ok side)
      (symbol : Symbol) (hsymbol : row.symbol mapping.symbol = .ok symbol) (cell : BrokerCell D)
      (hcell : row.lookup mapping.quantity = some cell) (hdecimal : decimal? cell.str = none)
  | price (side : TradeSide) (hside : parseTradeSide (row.optional mapping.side) = .ok side)
      (symbol : Symbol) (hsymbol : row.symbol mapping.symbol = .ok symbol)
      (quantityCell : BrokerCell D)
      (hquantityCell : row.lookup mapping.quantity = some quantityCell)
      (quantity : ℤ) (hquantity : positiveInteger quantityCell = .ok quantity)
      (cell : BrokerCell D) (hcell : row.lookup mapping.price = some cell)
      (hdigits : TooManyDigits priceScale cell)

omit [DateText D] in
theorem fillEvent_not_invalid {rowNumber : ℕ} {side : TradeSide} {symbol : Symbol}
    {quantity priceTicks : ℤ} {tradeDate : D} {name : Text} :
    source.fillEvent rowNumber side symbol quantity priceTicks tradeDate name ≠
      .error .invalidOperation := by
  unfold PreviewSource.fillEvent
  split <;> exact fun h => nomatch h

theorem rowToEvent_invalid_iff {rowNumber : ℕ} :
    source.rowToEvent rowNumber row = .error .invalidOperation ↔
      BrokerRowBreaks source.mapping row := by
  unfold PreviewSource.rowToEvent
  constructor
  · intro h
    rcases bind_eq_error_iff.mp h with h | ⟨side, hside, h⟩
    · exact absurd h parseTradeSide_not_invalid
    rcases bind_eq_error_iff.mp h with h | ⟨symbol, hsymbol, h⟩
    · exact absurd h symbol_not_invalid
    rcases bind_eq_error_iff.mp h with h | ⟨quantityCell, hquantityCell, h⟩
    · exact absurd h cell_not_invalid
    have hquantityCell := cell_eq_ok_iff.mp hquantityCell
    rcases bind_eq_error_iff.mp h with h | ⟨quantity, hquantity, h⟩
    · exact .quantity side hside symbol hsymbol quantityCell hquantityCell
        (wholeNumber_invalid_iff.mp h)
    rcases bind_eq_error_iff.mp h with h | ⟨cell, hcell, h⟩
    · exact absurd h cell_not_invalid
    rcases bind_eq_error_iff.mp h with h | ⟨priceTicks, hprice, h⟩
    · exact .price side hside symbol hsymbol quantityCell hquantityCell quantity hquantity cell
        (cell_eq_ok_iff.mp hcell) (priceOf_invalid_iff.mp h)
    rcases bind_eq_error_iff.mp h with h | ⟨_, _, h⟩
    · cases (require_eq_error_iff.mp h).2
    rcases bind_eq_error_iff.mp h with h | ⟨tradeDate, _, h⟩
    · exact absurd h parseTradeDate_not_invalid
    rcases bind_eq_error_iff.mp h with h | ⟨_, _, h⟩
    · cases (require_eq_error_iff.mp h).2
    · exact absurd h fillEvent_not_invalid
  · intro h
    cases h with
    | quantity side hside symbol hsymbol cell hcell hdecimal =>
        rw [hside]
        refine bind_eq_error_iff.mpr (.inr ⟨side, rfl, ?_⟩)
        refine bind_eq_error_iff.mpr (.inr ⟨symbol, hsymbol, ?_⟩)
        refine bind_eq_error_iff.mpr (.inr ⟨cell, cell_eq_ok_iff.mpr hcell, ?_⟩)
        exact bind_eq_error_iff.mpr (.inl (wholeNumber_invalid_iff.mpr hdecimal))
    | price side hside symbol hsymbol quantityCell hquantityCell quantity hquantity cell hcell
        hdigits =>
        refine bind_eq_error_iff.mpr (.inr ⟨side, hside, ?_⟩)
        refine bind_eq_error_iff.mpr (.inr ⟨symbol, hsymbol, ?_⟩)
        refine bind_eq_error_iff.mpr (.inr ⟨quantityCell, cell_eq_ok_iff.mpr hquantityCell, ?_⟩)
        refine bind_eq_error_iff.mpr (.inr ⟨quantity, hquantity, ?_⟩)
        refine bind_eq_error_iff.mpr (.inr ⟨cell, cell_eq_ok_iff.mpr hcell, ?_⟩)
        exact bind_eq_error_iff.mpr (.inl (priceOf_invalid_iff.mpr hdigits))

theorem handled_of_ne {error : RowError} (h : error ≠ .invalidOperation) :
    error.handled = true := by
  cases error with
  | invalidOperation => exact absurd rfl h
  | keyError => rfl
  | valueError => rfl

/-- Rows of which none ends the preview are partitioned into fills and rejected rows. -/
theorem triage_partitioned {rowNumber : ℕ} {rows : List (BrokerRow D)}
    (h : ∀ row ∈ rows, ¬ BrokerRowBreaks source.mapping row) :
    ∃ candidates rejected, triage source rowNumber rows = .ok (candidates, rejected) ∧
      PartitionedFrom (fun number row event => source.rowToEvent number row = .ok event)
        rowNumber rows candidates (rejected.map (·.rowNumber)) := by
  induction rows generalizing rowNumber with
  | nil => exact ⟨[], [], rfl, partitionedFrom_nil⟩
  | cons row rest ih =>
      obtain ⟨hrow, hrest⟩ := List.forall_mem_cons.mp h
      obtain ⟨candidates, rejected, hloop, hpartitioned⟩ := @ih (rowNumber + 1) hrest
      rw [triage]
      cases hread : source.rowToEvent rowNumber row with
      | ok event =>
          dsimp only
          rw [hloop]
          exact ⟨event :: candidates, rejected, rfl, hpartitioned.accept hread⟩
      | error error =>
          have hhandled : error.handled = true := by
            apply handled_of_ne
            rintro rfl
            exact hrow (rowToEvent_invalid_iff.mp hread)
          dsimp only
          rw [if_pos hhandled, hloop]
          exact ⟨candidates, validationError rowNumber :: rejected, rfl, hpartitioned.reject⟩

theorem triage_raises {rowNumber : ℕ} {rows : List (BrokerRow D)}
    (h : ∃ row ∈ rows, BrokerRowBreaks source.mapping row) :
    triage source rowNumber rows = .error .invalidOperation := by
  induction rows generalizing rowNumber with
  | nil =>
      obtain ⟨_, hnone, _⟩ := h
      cases hnone
  | cons row rest ih =>
      rw [triage]
      by_cases hrow : BrokerRowBreaks source.mapping row
      · rw [rowToEvent_invalid_iff.mpr hrow]
        rfl
      · have hrest := @ih (rowNumber + 1)
          ((List.exists_mem_cons_iff _ _ _).mp h |>.resolve_left hrow)
        cases hread : source.rowToEvent rowNumber row with
        | ok event =>
            dsimp only
            rw [hrest]
            rfl
        | error error =>
            have hhandled : error.handled = true := by
              apply handled_of_ne
              rintro rfl
              exact hrow (rowToEvent_invalid_iff.mp hread)
            dsimp only
            rw [if_pos hhandled, hrest]
            rfl

def FillsPartitioned (source : PreviewSource D) (rows : List (BrokerRow D)) : Prop :=
  ∃ preview, previewBrokerRows source rows = .ok preview ∧
    PartitionedFrom (fun number row event => source.rowToEvent number row = .ok event) 1 rows
      preview.candidateEvents (preview.rejectedRows.map (·.rowNumber))

theorem fillsPartitioned_iff {rows : List (BrokerRow D)} :
    FillsPartitioned source rows ↔ ∀ row ∈ rows, ¬ BrokerRowBreaks source.mapping row := by
  constructor
  · rintro ⟨preview, hpreview, _⟩ row hrow hbreaks
    unfold previewBrokerRows at hpreview
    rw [triage_raises ⟨row, hrow, hbreaks⟩] at hpreview
    cases hpreview
  · intro h
    obtain ⟨candidates, rejected, hloop, hpartitioned⟩ := triage_partitioned h
    unfold FillsPartitioned previewBrokerRows
    rw [hloop]
    exact ⟨_, rfl, hpartitioned⟩

end Fills

end QuantWorkbench.Account
