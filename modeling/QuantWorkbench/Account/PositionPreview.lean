import QuantWorkbench.Account.BrokerPreview
import QuantWorkbench.Account.ImportInbox

/-!
Which position rows end the preview or come out twice. A row whose position has joined the preview
is rejected on top of it when its cash or its date cannot be read.
-/

namespace QuantWorkbench.Account

open Lib Data

section Cells

variable {D : Type} {mapping : PositionMapping} {row : BrokerRow D}

def NoDecimal (cell : Option (BrokerCell D)) : Prop :=
  ∃ filled, cell = some filled ∧ decimal? filled.str = none

theorem quantityOr_invalid_iff {cell : Option (BrokerCell D)} {other : ℤ} :
    quantityOr cell other = .error .invalidOperation ↔ NoDecimal cell := by
  cases cell with
  | none => exact ⟨(fun h => nomatch h), fun ⟨_, h, _⟩ => nomatch h⟩
  | some cell =>
      refine wholeNumber_invalid_iff.trans ⟨fun h => ⟨cell, rfl, h⟩, ?_⟩
      rintro ⟨_, hcell, h⟩
      cases hcell
      exact h

/-- The rows whose quantities end the preview: the first of them that is read without a refusal
of its value is no decimal number. -/
inductive QuantitiesBreak (mapping : PositionMapping) (row : BrokerRow D) : Prop
  | total (cell : BrokerCell D) (hcell : row.lookup mapping.totalQuantity = some cell)
      (hdecimal : decimal? cell.str = none)
  | available (cell : BrokerCell D) (hcell : row.lookup mapping.totalQuantity = some cell)
      (total : ℤ) (htotal : nonNegativeInteger cell = .ok total)
      (hdecimal : NoDecimal (row.filled mapping.availableQuantity))
  | frozen (cell : BrokerCell D) (hcell : row.lookup mapping.totalQuantity = some cell)
      (total : ℤ) (htotal : nonNegativeInteger cell = .ok total) (available : ℤ)
      (havailable : quantityOr (row.filled mapping.availableQuantity) total = .ok available)
      (hdecimal : NoDecimal (row.filled mapping.frozenQuantity))

theorem readQuantities_invalid_iff :
    readQuantities mapping row = .error .invalidOperation ↔ QuantitiesBreak mapping row := by
  unfold readQuantities
  constructor
  · intro h
    rcases bind_eq_error_iff.mp h with h | ⟨cell, hcell, h⟩
    · exact absurd h cell_not_invalid
    have hcell := cell_eq_ok_iff.mp hcell
    rcases bind_eq_error_iff.mp h with h | ⟨total, htotal, h⟩
    · exact .total cell hcell (wholeNumber_invalid_iff.mp h)
    rcases bind_eq_error_iff.mp h with h | ⟨available, havailable, h⟩
    · exact .available cell hcell total htotal (quantityOr_invalid_iff.mp h)
    rcases bind_eq_error_iff.mp h with h | ⟨frozen, hfrozen, h⟩
    · exact .frozen cell hcell total htotal available havailable (quantityOr_invalid_iff.mp h)
    rcases bind_eq_error_iff.mp h with h | ⟨_, _, h⟩
    · cases (require_eq_error_iff.mp h).2
    · cases h
  · intro h
    cases h with
    | total cell hcell hdecimal =>
        refine bind_eq_error_iff.mpr (.inr ⟨cell, cell_eq_ok_iff.mpr hcell, ?_⟩)
        exact bind_eq_error_iff.mpr (.inl (wholeNumber_invalid_iff.mpr hdecimal))
    | available cell hcell total htotal hdecimal =>
        refine bind_eq_error_iff.mpr (.inr ⟨cell, cell_eq_ok_iff.mpr hcell, ?_⟩)
        refine bind_eq_error_iff.mpr (.inr ⟨total, htotal, ?_⟩)
        exact bind_eq_error_iff.mpr (.inl (quantityOr_invalid_iff.mpr hdecimal))
    | frozen cell hcell total htotal available havailable hdecimal =>
        refine bind_eq_error_iff.mpr (.inr ⟨cell, cell_eq_ok_iff.mpr hcell, ?_⟩)
        refine bind_eq_error_iff.mpr (.inr ⟨total, htotal, ?_⟩)
        refine bind_eq_error_iff.mpr (.inr ⟨available, havailable, ?_⟩)
        exact bind_eq_error_iff.mpr (.inl (quantityOr_invalid_iff.mpr hdecimal))

/-- The rows whose position ends the preview: by their quantities, or by a cost with too many
digits. -/
inductive PositionBreaks (mapping : PositionMapping) (row : BrokerRow D) : Prop
  | quantities (h : QuantitiesBreak mapping row)
  | cost (quantities : Quantities) (hquantities : readQuantities mapping row = .ok quantities)
      (cell : BrokerCell D) (hcell : row.lookup mapping.averageCost = some cell)
      (hdigits : TooManyDigits priceScale cell)

theorem make_not_invalid {symbol : Symbol} {name : Text} {total available frozen costTicks : ℤ} :
    ImportedPosition.make symbol name total available frozen costTicks ≠
      .error .invalidOperation := by
  unfold ImportedPosition.make
  split
  · exact fun h => nomatch h
  · split
    · exact fun h => nomatch h
    · split
      · exact fun h => nomatch h
      · split <;> exact fun h => nomatch h

theorem readPosition_invalid_iff {symbol : Symbol} :
    readPosition mapping symbol row = .error .invalidOperation ↔ PositionBreaks mapping row := by
  unfold readPosition
  constructor
  · intro h
    rcases bind_eq_error_iff.mp h with h | ⟨quantities, hquantities, h⟩
    · exact .quantities (readQuantities_invalid_iff.mp h)
    rcases bind_eq_error_iff.mp h with h | ⟨cell, hcell, h⟩
    · exact absurd h cell_not_invalid
    rcases bind_eq_error_iff.mp h with h | ⟨costTicks, _, h⟩
    · exact .cost quantities hquantities cell (cell_eq_ok_iff.mp hcell)
        (priceOf_invalid_iff.mp h)
    rcases bind_eq_error_iff.mp h with h | ⟨_, _, h⟩
    · cases (require_eq_error_iff.mp h).2
    · exact absurd h make_not_invalid
  · intro h
    cases h with
    | quantities h => exact bind_eq_error_iff.mpr (.inl (readQuantities_invalid_iff.mpr h))
    | cost quantities hquantities cell hcell hdigits =>
        refine bind_eq_error_iff.mpr (.inr ⟨quantities, hquantities, ?_⟩)
        refine bind_eq_error_iff.mpr (.inr ⟨cell, cell_eq_ok_iff.mpr hcell, ?_⟩)
        exact bind_eq_error_iff.mpr (.inl (priceOf_invalid_iff.mpr hdigits))

end Cells

section Rows

variable {D : Type} [DateText D] {mapping : PositionMapping} {default : D}

def symbolsOf (mapping : PositionMapping) (rows : List (BrokerRow D)) : List Symbol :=
  rows.filterMap fun row => (row.symbol mapping.symbol).toOption

def FreshSymbol (mapping : PositionMapping) (earlier : List (BrokerRow D)) (row : BrokerRow D)
    (symbol : Symbol) : Prop :=
  row.symbol mapping.symbol = .ok symbol ∧ symbol ∉ symbolsOf mapping earlier

def CashUnread (mapping : PositionMapping) (row : BrokerRow D) : Prop :=
  ∃ cell, row.filled mapping.cash = some cell ∧ Raised (moneyOf cell)

def AsOfUnread (mapping : PositionMapping) (default : D) (row : BrokerRow D) : Prop :=
  ∃ cell, row.filled mapping.asOf = some cell ∧ Raised (parseDate cell default)

/-- The rows that end the preview or come out twice. -/
inductive PositionRowBreaks (mapping : PositionMapping) (default : D)
    (earlier : List (BrokerRow D)) (row : BrokerRow D) : Prop
  | ends (symbol : Symbol) (hsymbol : FreshSymbol mapping earlier row symbol)
      (h : PositionBreaks mapping row)
  | twice (symbol : Symbol) (hsymbol : FreshSymbol mapping earlier row symbol)
      (position : ImportedPosition) (hposition : readPosition mapping symbol row = .ok position)
      (h : CashUnread mapping row ∨ AsOfUnread mapping default row)

def ValidRow (mapping : PositionMapping) (default : D) (position : ImportedPosition)
    (cash : Option ℤ) (asOf : Option D) (earlier : List (BrokerRow D)) (row : BrokerRow D) : Prop :=
  ∃ symbol, FreshSymbol mapping earlier row symbol ∧
    readPosition mapping symbol row = .ok position ∧ readCash mapping row = .ok cash ∧
    readAsOf mapping default row = .ok asOf

omit [DateText D] in
theorem raised_readCash_iff {row : BrokerRow D} :
    Raised (readCash mapping row) ↔ CashUnread mapping row := by
  unfold readCash CashUnread
  cases hcell : row.filled mapping.cash with
  | none => exact ⟨fun h => absurd h (not_raised_ok _), fun ⟨_, h, _⟩ => nomatch h⟩
  | some cell =>
      dsimp only
      rw [raised_bind_iff, or_iff_left fun ⟨_, _, h⟩ => not_raised_ok _ h]
      refine ⟨fun h => ⟨cell, rfl, h⟩, ?_⟩
      rintro ⟨_, hsame, h⟩
      cases hsame
      exact h

theorem raised_readAsOf_iff {row : BrokerRow D} :
    Raised (readAsOf mapping default row) ↔ AsOfUnread mapping default row := by
  unfold readAsOf AsOfUnread
  cases hcell : row.filled mapping.asOf with
  | none => exact ⟨fun h => absurd h (not_raised_ok _), fun ⟨_, h, _⟩ => nomatch h⟩
  | some cell =>
      dsimp only
      rw [raised_bind_iff, or_iff_left fun ⟨_, _, h⟩ => not_raised_ok _ h]
      refine ⟨fun h => ⟨cell, rfl, h⟩, ?_⟩
      rintro ⟨_, hsame, h⟩
      cases hsame
      exact h

omit [DateText D] in
theorem mem_symbolsOf_append {earlier : List (BrokerRow D)} {row : BrokerRow D} {symbol : Symbol} :
    symbol ∈ symbolsOf mapping (earlier ++ [row]) ↔
      symbol ∈ symbolsOf mapping earlier ∨ row.symbol mapping.symbol = .ok symbol := by
  unfold symbolsOf
  rw [List.filterMap_append, List.mem_append]
  refine or_congr_right ?_
  rw [List.mem_filterMap]
  simp [toOption_eq_some_iff]

theorem ValidRow.not_breaks {position : ImportedPosition} {cash : Option ℤ} {asOf : Option D}
    {earlier : List (BrokerRow D)} {row : BrokerRow D}
    (h : ValidRow mapping default position cash asOf earlier row) :
    ¬ PositionRowBreaks mapping default earlier row := by
  obtain ⟨symbol, hsymbol, hposition, hcash, hasOf⟩ := h
  intro hbreaks
  cases hbreaks with
  | ends other hother hends =>
      have hsame : symbol = other := Except.ok.inj (hsymbol.1.symm.trans hother.1)
      have hinvalid : readPosition mapping symbol row = .error .invalidOperation :=
        readPosition_invalid_iff.mpr hends
      rw [hposition] at hinvalid
      cases hinvalid
  | twice _ _ _ _ hunread =>
      rcases hunread with hunread | hunread
      · have hraised := raised_readCash_iff.mpr hunread
        rw [hcash] at hraised
        exact not_raised_ok _ hraised
      · have hraised := raised_readAsOf_iff.mpr hunread
        rw [hasOf] at hraised
        exact not_raised_ok _ hraised

end Rows

section Scan

variable {D : Type} [DecidableEq D] [DateText D] {mapping : PositionMapping} {default : D}
  {scan : PositionScan D} {rowNumber : ℕ} {earlier : List (BrokerRow D)} {row : BrokerRow D}

def PositionScan.HasSeen (mapping : PositionMapping) (scan : PositionScan D)
    (rows : List (BrokerRow D)) : Prop :=
  ∀ symbol, symbol ∈ scan.seenSymbols ↔ symbol ∈ symbolsOf mapping rows

/-- What one row does to the scan. -/
inductive RowOutcome (mapping : PositionMapping) (default : D) (scan : PositionScan D)
    (rowNumber : ℕ) (earlier : List (BrokerRow D)) (row : BrokerRow D) :
    Except RowError (PositionScan D) → Prop
  | accepted (next : PositionScan D) (hseen : next.HasSeen mapping (earlier ++ [row]))
      (position : ImportedPosition) (cash : Option ℤ) (asOf : Option D)
      (hvalid : ValidRow mapping default position cash asOf earlier row)
      (hpositions : next.positions = scan.positions ++ [position])
      (hrejected : next.rejected = scan.rejected)
      (hcash : next.cashValues =
        cash.elim scan.cashValues fun value => scan.cashValues.insert value)
      (hasOf : next.asOfValues =
        asOf.elim scan.asOfValues fun value => scan.asOfValues.insert value) :
      RowOutcome mapping default scan rowNumber earlier row (.ok next)
  | rejected (next : PositionScan D) (hseen : next.HasSeen mapping (earlier ++ [row]))
      (hinvalid : ∀ position cash asOf, ¬ ValidRow mapping default position cash asOf earlier row)
      (hbreaks : ¬ PositionRowBreaks mapping default earlier row)
      (hpositions : next.positions = scan.positions)
      (hrejected : next.rejected = scan.rejected ++ [validationError rowNumber])
      (hcash : next.cashValues = scan.cashValues) (hasOf : next.asOfValues = scan.asOfValues) :
      RowOutcome mapping default scan rowNumber earlier row (.ok next)
  | twice (next : PositionScan D) (hseen : next.HasSeen mapping (earlier ++ [row]))
      (hbreaks : PositionRowBreaks mapping default earlier row) (position : ImportedPosition)
      (hpositions : next.positions = scan.positions ++ [position])
      (hrejected : next.rejected = scan.rejected ++ [validationError rowNumber]) :
      RowOutcome mapping default scan rowNumber earlier row (.ok next)
  | ends (hbreaks : PositionRowBreaks mapping default earlier row) (error : RowError) :
      RowOutcome mapping default scan rowNumber earlier row (.error error)

omit [DecidableEq D] [DateText D] in
theorem hasSeen_of_unread (hseen : scan.HasSeen mapping earlier) {error : RowError}
    (hsymbol : row.symbol mapping.symbol = .error error) :
    scan.HasSeen mapping (earlier ++ [row]) := by
  intro symbol
  rw [mem_symbolsOf_append, hsymbol, hseen symbol]
  exact (or_iff_left fun h => nomatch h).symm

omit [DecidableEq D] [DateText D] in
theorem hasSeen_of_read (hseen : scan.HasSeen mapping earlier) {symbol : Symbol}
    (hsymbol : row.symbol mapping.symbol = .ok symbol) :
    (scan.seen symbol).HasSeen mapping (earlier ++ [row]) := by
  intro other
  rw [mem_symbolsOf_append, hsymbol, ← hseen other]
  change other ∈ symbol :: scan.seenSymbols ↔ _
  rw [List.mem_cons, or_comm]
  exact or_congr_right ⟨fun h => by rw [h], fun h => (Except.ok.inj h).symm⟩

theorem row_unlisted (scan : PositionScan D) (error : RowError) {next : PositionScan D}
    (hseen : next.HasSeen mapping (earlier ++ [row]))
    (hpositions : next.positions = scan.positions) (hrejected : next.rejected = scan.rejected)
    (hcash : next.cashValues = scan.cashValues) (hasOf : next.asOfValues = scan.asOfValues)
    (hunread : ∀ symbol, FreshSymbol mapping earlier row symbol →
      readPosition mapping symbol row = .error error)
    (hinvalid : error = .invalidOperation → ∃ symbol, FreshSymbol mapping earlier row symbol) :
    RowOutcome mapping default scan rowNumber earlier row (next.reject rowNumber error) := by
  unfold PositionScan.reject
  split
  · rename_i hhandled
    refine .rejected _ hseen ?_ ?_ hpositions (by rw [hrejected]) hcash hasOf
    · rintro position cash asOf ⟨symbol, hsymbol, hposition, _⟩
      rw [hunread symbol hsymbol] at hposition
      cases hposition
    · intro hbreaks
      cases hbreaks with
      | ends symbol hsymbol hends =>
          rw [← readPosition_invalid_iff, hunread symbol hsymbol] at hends
          cases hends
          cases hhandled
      | twice symbol hsymbol position hposition =>
          rw [hunread symbol hsymbol] at hposition
          cases hposition
  · rename_i hhandled
    have herror : error = .invalidOperation := by
      by_contra hne
      exact hhandled (handled_of_ne hne)
    obtain ⟨symbol, hsymbol⟩ := hinvalid herror
    refine .ends (.ends symbol hsymbol ?_) error
    rw [← readPosition_invalid_iff, hunread symbol hsymbol, herror]

/-- A row whose position has joined when an error comes. -/
theorem row_listed (scan next : PositionScan D)
    (hseen : next.HasSeen mapping (earlier ++ [row]))
    {symbol : Symbol} (hsymbol : FreshSymbol mapping earlier row symbol)
    {position : ImportedPosition} (hposition : readPosition mapping symbol row = .ok position)
    (hpositions : next.positions = scan.positions ++ [position])
    (hrejected : next.rejected = scan.rejected)
    (hunread : CashUnread mapping row ∨ AsOfUnread mapping default row) (error : RowError) :
    RowOutcome mapping default scan rowNumber earlier row (next.reject rowNumber error) := by
  have hbreaks : PositionRowBreaks mapping default earlier row :=
    .twice symbol hsymbol position hposition hunread
  unfold PositionScan.reject
  split
  · exact .twice _ hseen hbreaks position hpositions (by rw [hrejected])
  · exact .ends hbreaks error

theorem row_outcome (hseen : scan.HasSeen mapping earlier) :
    RowOutcome mapping default scan rowNumber earlier row
      (scan.row mapping default rowNumber row) := by
  unfold PositionScan.row
  cases hsymbol : row.symbol mapping.symbol with
  | error error =>
      have hnone (symbol : Symbol) : ¬ FreshSymbol mapping earlier row symbol := by
        intro hfresh
        cases hsymbol.symm.trans hfresh.1
      refine row_unlisted scan error (hasSeen_of_unread hseen hsymbol) rfl rfl rfl rfl
        (fun symbol hfresh => absurd hfresh (hnone symbol)) ?_
      rintro rfl
      exact absurd hsymbol symbol_not_invalid
  | ok symbol =>
      dsimp only
      split
      · rename_i hknown
        refine row_unlisted scan .valueError ?_ rfl rfl rfl rfl ?_ (fun h => nomatch h)
        · intro other
          rw [mem_symbolsOf_append, hsymbol, hseen other]
          refine (or_iff_left_of_imp fun hsame => ?_).symm
          cases hsame
          exact (hseen symbol).mp hknown
        · intro other hfresh
          have hsame : symbol = other := Except.ok.inj (hsymbol.symm.trans hfresh.1)
          exact absurd ((hseen symbol).mp hknown) (hsame ▸ hfresh.2)
      · rename_i hnew
        have hfresh : FreshSymbol mapping earlier row symbol :=
          ⟨hsymbol, fun hmember => hnew ((hseen symbol).mpr hmember)⟩
        have hread := hasSeen_of_read hseen hsymbol
        cases hposition : readPosition mapping symbol row with
        | error error =>
            refine row_unlisted scan error hread rfl rfl rfl rfl ?_ (fun _ => ⟨symbol, hfresh⟩)
            intro other hother
            have hsame : symbol = other := Except.ok.inj (hsymbol.symm.trans hother.1)
            exact hsame ▸ hposition
        | ok position =>
            dsimp only
            cases hcash : readCash mapping row with
            | error error =>
                exact row_listed scan ((scan.seen symbol).append position) hread hfresh hposition
                  rfl rfl (.inl (raised_readCash_iff.mp ⟨error, hcash⟩)) error
            | ok cash =>
                dsimp only
                cases hasOf : readAsOf mapping default row with
                | error error =>
                    exact row_listed scan (((scan.seen symbol).append position).addCash cash)
                      hread hfresh hposition rfl rfl
                      (.inr (raised_readAsOf_iff.mp ⟨error, hasOf⟩)) error
                | ok asOf =>
                    exact .accepted _ hread position cash asOf
                      ⟨symbol, hfresh, hposition, hcash, hasOf⟩ rfl rfl rfl rfl

def ListedFrom (mapping : PositionMapping) (row : BrokerRow D) (position : ImportedPosition) :
    Prop :=
  ∃ symbol, row.symbol mapping.symbol = .ok symbol ∧
    readPosition mapping symbol row = .ok position

/-- What a scan of rows of which none breaks it gathers. -/
structure Scanned (mapping : PositionMapping) (default : D) (scan : PositionScan D)
    (rowNumber : ℕ) (earlier rows : List (BrokerRow D)) (final : PositionScan D)
    (made : List ImportedPosition) (rejected : List ImportIssue) : Prop where
  positions : final.positions = scan.positions ++ made
  rejectedRows : final.rejected = scan.rejected ++ rejected
  partitioned : PartitionedFrom (fun _ row position => ListedFrom mapping row position) rowNumber
    rows made (rejected.map (·.rowNumber))
  valid : ∀ position cash asOf,
    AmongRows (ValidRow mapping default position cash asOf) earlier rows → position ∈ made
  cash : ∀ value ∈ final.cashValues, value ∈ scan.cashValues ∨
    ∃ position asOf, AmongRows (ValidRow mapping default position (some value) asOf) earlier rows
  cashNodup : scan.cashValues.Nodup → final.cashValues.Nodup
  asOf : ∀ value ∈ final.asOfValues, value ∈ scan.asOfValues ∨
    ∃ position cash, AmongRows (ValidRow mapping default position cash (some value)) earlier rows
  asOfNodup : scan.asOfValues.Nodup → final.asOfValues.Nodup

theorem mem_elim_insert {α : Type} [DecidableEq α] {values : List α} {added : Option α} {value : α}
    (h : value ∈ added.elim values fun new => values.insert new) :
    value ∈ values ∨ added = some value := by
  cases added with
  | none => exact .inl h
  | some new =>
      rcases List.mem_insert_iff.mp h with rfl | h
      · exact .inr rfl
      · exact .inl h

theorem nodup_elim_insert {α : Type} [DecidableEq α] {values : List α} (added : Option α)
    (h : values.Nodup) : (added.elim values fun new => values.insert new).Nodup := by
  cases added with
  | none => exact h
  | some new => exact h.insert

theorem rows_scanned (rowNumber : ℕ) (hseen : scan.HasSeen mapping earlier)
    {rows : List (BrokerRow D)}
    (h : ¬ AmongRows (PositionRowBreaks mapping default) earlier rows) :
    ∃ final made rejected, scan.rows mapping default rowNumber rows = .ok final ∧
      Scanned mapping default scan rowNumber earlier rows final made rejected := by
  induction rows generalizing scan rowNumber earlier with
  | nil =>
      refine ⟨scan, [], [], rfl, ?_⟩
      exact {
        positions := (List.append_nil _).symm
        rejectedRows := (List.append_nil _).symm
        partitioned := partitionedFrom_nil
        valid := fun _ _ _ hvalid => absurd hvalid not_amongRows_nil
        cash := fun _ hvalue => .inl hvalue
        cashNodup := id
        asOf := fun _ hvalue => .inl hvalue
        asOfNodup := id }
  | cons row rest ih =>
      rw [amongRows_cons, not_or] at h
      obtain ⟨hrow, hrest⟩ := h
      have houtcome : RowOutcome mapping default scan rowNumber earlier row
          (scan.row mapping default rowNumber row) := row_outcome hseen
      unfold PositionScan.rows
      cases hnext : scan.row mapping default rowNumber row with
      | error error =>
          rw [hnext] at houtcome
          cases houtcome with
          | ends hbreaks => exact absurd hbreaks hrow
      | ok next =>
          rw [hnext] at houtcome
          cases houtcome with
          | twice _ _ hbreaks => exact absurd hbreaks hrow
          | accepted _ hseen' position cash asOf hvalid hpositions hrejected hcash hasOf =>
              obtain ⟨final, made, rejected, hrun, hscanned⟩ := ih (rowNumber + 1) hseen' hrest
              refine ⟨final, position :: made, rejected, hrun, ?_⟩
              obtain ⟨symbol, hsymbol, hposition, hread⟩ := hvalid
              exact {
                positions := by rw [hscanned.positions, hpositions, List.append_assoc]; rfl
                rejectedRows := by rw [hscanned.rejectedRows, hrejected]
                partitioned := hscanned.partitioned.accept ⟨symbol, hsymbol.1, hposition⟩
                valid := by
                  intro other cash' asOf' hother
                  rcases amongRows_cons.mp hother with ⟨symbol', hsymbol', hposition', _⟩ | hother
                  · have hsame : symbol = symbol' :=
                      Except.ok.inj (hsymbol.1.symm.trans hsymbol'.1)
                    rw [← hsame, hposition] at hposition'
                    cases hposition'
                    exact List.mem_cons_self
                  · exact List.mem_cons_of_mem _ (hscanned.valid _ _ _ hother)
                cash := by
                  intro value hvalue
                  rcases hscanned.cash value hvalue with hvalue | ⟨other, asOf', hother⟩
                  · rw [hcash] at hvalue
                    rcases mem_elim_insert hvalue with hvalue | rfl
                    · exact .inl hvalue
                    · exact .inr ⟨position, asOf, amongRows_cons.mpr
                        (.inl ⟨symbol, hsymbol, hposition, hread⟩)⟩
                  · exact .inr ⟨other, asOf', amongRows_cons.mpr (.inr hother)⟩
                cashNodup := by
                  intro hnodup
                  apply hscanned.cashNodup
                  rw [hcash]
                  exact nodup_elim_insert cash hnodup
                asOf := by
                  intro value hvalue
                  rcases hscanned.asOf value hvalue with hvalue | ⟨other, cash', hother⟩
                  · rw [hasOf] at hvalue
                    rcases mem_elim_insert hvalue with hvalue | rfl
                    · exact .inl hvalue
                    · exact .inr ⟨position, cash, amongRows_cons.mpr
                        (.inl ⟨symbol, hsymbol, hposition, hread⟩)⟩
                  · exact .inr ⟨other, cash', amongRows_cons.mpr (.inr hother)⟩
                asOfNodup := by
                  intro hnodup
                  apply hscanned.asOfNodup
                  rw [hasOf]
                  exact nodup_elim_insert asOf hnodup }
          | rejected _ hseen' hinvalid _ hpositions hrejected hcash hasOf =>
              obtain ⟨final, made, rejected, hrun, hscanned⟩ := ih (rowNumber + 1) hseen' hrest
              refine ⟨final, made, validationError rowNumber :: rejected, hrun, ?_⟩
              exact {
                positions := by rw [hscanned.positions, hpositions]
                rejectedRows := by
                  rw [hscanned.rejectedRows, hrejected, List.append_assoc]
                  rfl
                partitioned := hscanned.partitioned.reject
                valid := by
                  intro position cash asOf hposition
                  rcases amongRows_cons.mp hposition with hposition | hposition
                  · exact absurd hposition (hinvalid _ _ _)
                  · exact hscanned.valid _ _ _ hposition
                cash := by
                  intro value hvalue
                  rw [← hcash]
                  refine (hscanned.cash value hvalue).imp_right ?_
                  exact fun ⟨position, asOf, h⟩ => ⟨position, asOf, amongRows_cons.mpr (.inr h)⟩
                cashNodup := by
                  intro hnodup
                  apply hscanned.cashNodup
                  rwa [hcash]
                asOf := by
                  intro value hvalue
                  rw [← hasOf]
                  refine (hscanned.asOf value hvalue).imp_right ?_
                  exact fun ⟨position, cash, h⟩ => ⟨position, cash, amongRows_cons.mpr (.inr h)⟩
                asOfNodup := by
                  intro hnodup
                  apply hscanned.asOfNodup
                  rwa [hasOf] }

/-- How many entries a scan holds, positions and rejected rows together. -/
def PositionScan.entries (scan : PositionScan D) : ℕ :=
  scan.positions.length + scan.rejected.length

/-- Each row gives the scan an entry, and one that breaks it ends the scan or gives it two. -/
theorem entries_rows (hseen : scan.HasSeen mapping earlier) {rows : List (BrokerRow D)}
    {final : PositionScan D} (hrun : scan.rows mapping default rowNumber rows = .ok final) :
    scan.entries + rows.length ≤ final.entries ∧
      (AmongRows (PositionRowBreaks mapping default) earlier rows →
        scan.entries + rows.length < final.entries) := by
  induction rows generalizing scan rowNumber earlier with
  | nil =>
      cases hrun
      exact ⟨le_rfl, fun h => absurd h not_amongRows_nil⟩
  | cons row rest ih =>
      have houtcome : RowOutcome mapping default scan rowNumber earlier row
          (scan.row mapping default rowNumber row) := row_outcome hseen
      unfold PositionScan.rows at hrun
      obtain ⟨next, hnext, hrun⟩ := bind_eq_ok_iff.mp hrun
      rw [hnext] at houtcome
      rw [amongRows_cons, List.length_cons]
      unfold PositionScan.entries at ih ⊢
      cases houtcome with
      | accepted _ hseen' position _ _ hvalid hpositions hrejected _ _ =>
          obtain ⟨hle, hlt⟩ := ih hseen' hrun
          rw [hpositions, hrejected, List.length_append, List.length_singleton] at hle hlt
          refine ⟨by omega, ?_⟩
          rintro (hbreaks | hbreaks)
          · exact absurd hbreaks hvalid.not_breaks
          · have hmore := hlt hbreaks
            omega
      | rejected _ hseen' _ hbreaks hpositions hrejected _ _ =>
          obtain ⟨hle, hlt⟩ := ih hseen' hrun
          rw [hpositions, hrejected, List.length_append, List.length_singleton] at hle hlt
          refine ⟨by omega, ?_⟩
          rintro (hbroken | hbroken)
          · exact absurd hbroken hbreaks
          · have hmore := hlt hbroken
            omega
      | twice _ hseen' _ position hpositions hrejected =>
          obtain ⟨hle, _⟩ := ih hseen' hrun
          rw [hpositions, hrejected, List.length_append, List.length_append,
            List.length_singleton, List.length_singleton] at hle
          exact ⟨by omega, fun _ => by omega⟩

end Scan

section Preview

variable {D : Type} [DecidableEq D] [DateText D] {file : PositionFile} {default : D}
  {rows : List (BrokerRow D)}

/-- There is a valid row, and the valid rows agree on the cash and on the date. -/
structure ConsistentRows (mapping : PositionMapping) (default : D) (rows : List (BrokerRow D)) :
    Prop where
  valid : ∃ position cash asOf, AmongRows (ValidRow mapping default position cash asOf) [] rows
  cash : ∀ position asOf value position' asOf' value',
    AmongRows (ValidRow mapping default position (some value) asOf) [] rows →
    AmongRows (ValidRow mapping default position' (some value') asOf') [] rows → value = value'
  asOf : ∀ position cash value position' cash' value',
    AmongRows (ValidRow mapping default position cash (some value)) [] rows →
    AmongRows (ValidRow mapping default position' cash' (some value')) [] rows → value = value'

def PositionsPartitioned (file : PositionFile) (default : D) (rows : List (BrokerRow D)) : Prop :=
  ∃ preview, positionPreview file default rows = .ok preview ∧
    PartitionedFrom (fun _ row position => ListedFrom file.mapping row position) 1 rows
      preview.positions (preview.rejectedRows.map (·.rowNumber))

omit [DecidableEq D] [DateText D] in
theorem hasSeen_empty {mapping : PositionMapping} :
    (PositionScan.empty : PositionScan D).HasSeen mapping [] := fun _ => Iff.rfl

theorem length_le_one {α : Type} {values : List α} (hnodup : values.Nodup)
    (hsame : ∀ a ∈ values, ∀ b ∈ values, a = b) : ¬ 1 < values.length := by
  rw [not_lt]
  cases values with
  | nil => exact Nat.zero_le _
  | cons a rest =>
      cases rest with
      | nil => exact le_rfl
      | cons b others =>
          have hab := hsame a List.mem_cons_self b (List.mem_cons_of_mem _ List.mem_cons_self)
          subst hab
          exact absurd List.mem_cons_self (List.nodup_cons.mp hnodup).1

theorem positionsPartitioned_iff (hconsistent : ConsistentRows file.mapping default rows) :
    PositionsPartitioned file default rows ↔
      ¬ AmongRows (PositionRowBreaks file.mapping default) [] rows := by
  constructor
  · rintro ⟨preview, hpreview, hpartitioned⟩ hbreaks
    obtain ⟨final, hrun, hpreview⟩ := bind_eq_ok_iff.mp hpreview
    have hentries := (entries_rows hasSeen_empty hrun).2 hbreaks
    have hlength := hpartitioned.length
    rw [List.length_map] at hlength
    split at hpreview
    · cases hpreview
    · split at hpreview
      · cases hpreview
      · split at hpreview
        · cases hpreview
        · cases hpreview
          have hempty : (PositionScan.empty : PositionScan D).entries = 0 := rfl
          have hfinal : final.entries = rows.length := hlength
          omega
  · intro hbreaks
    obtain ⟨final, made, rejected, hrun, hscanned⟩ :=
      rows_scanned 1 hasSeen_empty hbreaks
    have hpositions : final.positions = made := hscanned.positions
    have hrejected : final.rejected = rejected := hscanned.rejectedRows
    have hmade : final.positions ≠ [] := by
      obtain ⟨position, cash, asOf, hvalid⟩ := hconsistent.valid
      rw [hpositions]
      exact List.ne_nil_of_mem (hscanned.valid _ _ _ hvalid)
    have hcash : ¬ 1 < final.cashValues.length := by
      refine length_le_one (hscanned.cashNodup List.nodup_nil) fun a ha b hb => ?_
      obtain ⟨_, _, ha⟩ := (hscanned.cash a ha).resolve_left List.not_mem_nil
      obtain ⟨_, _, hb⟩ := (hscanned.cash b hb).resolve_left List.not_mem_nil
      exact hconsistent.cash _ _ _ _ _ _ ha hb
    have hasOf : ¬ 1 < final.asOfValues.length := by
      refine length_le_one (hscanned.asOfNodup List.nodup_nil) fun a ha b hb => ?_
      obtain ⟨_, _, ha⟩ := (hscanned.asOf a ha).resolve_left List.not_mem_nil
      obtain ⟨_, _, hb⟩ := (hscanned.asOf b hb).resolve_left List.not_mem_nil
      exact hconsistent.asOf _ _ _ _ _ _ ha hb
    have hpartitioned := hscanned.partitioned
    rw [← hpositions, ← hrejected] at hpartitioned
    unfold PositionsPartitioned positionPreview
    rw [hrun]
    change ∃ preview, (if h : final.positions = [] then _ else _) = _ ∧ _
    rw [dif_neg hmade, if_neg hcash, if_neg hasOf]
    exact ⟨_, rfl, hpartitioned⟩

end Preview

instance : DateText Date where
  fromisoformat := Date.fromisoformat
  isoformat := Date.isoformat

def previewDay : Date := .of 2026 8 11

/-- Rows of the columns `code`, `shares` and `paid`. -/
def shortSource : PreviewSource Date where
  mapping := {
    symbol := "code".toList
    quantity := "shares".toList
    price := "paid".toList
    side := none
    tradeDate := none
    name := none
    required := by decide }
  defaultTradeDate := previewDay
  sourceBytes := []
  now := fun _ => ⟨previewDay, 0, 0, 0, 0⟩

/-- A row that ends after its first cell. -/
def shortRow : BrokerRow Date :=
  [("code".toList, .object "600000".toList true), ("shares".toList, .none), ("paid".toList, .none)]

end QuantWorkbench.Account
