import QuantWorkbench.Backtest.ReferenceEngine

/-!
The weights of a day with an event. What a symbol is held with afterwards follows from its order:
the target if there is none or if it was filled or too small for a lot, the old weight if it was
blocked by its bar, and nothing in place of a weight up to the tolerance.
-/

namespace QuantWorkbench.Backtest

open Lib

/-- What is held of a weight. -/
def kept (weight : ℚ) : ℚ := if tolerance < weight then weight else 0

theorem tolerance_pos : 0 < tolerance := by
  unfold tolerance
  positivity

theorem kept_zero : kept 0 = 0 := if_neg tolerance_pos.le.not_gt

namespace Weights

theorem weight_of_mem {weights : Weights} {entry : Text × ℚ} (h : entry ∈ weights.values) :
    weights.weight entry.1 = entry.2 := by
  rw [weight, Keyed.get?_eq_some_iff.mpr ⟨h, rfl⟩]
  rfl

theorem weight_of_not_mem {weights : Weights} {symbol : Text} (h : symbol ∉ weights.keys) :
    weights.weight symbol = 0 := by
  rw [weight, Keyed.get?_eq_none_iff.mpr h]
  rfl

theorem weight_put (weights : Weights) (entry : Text × ℚ) (symbol : Text) :
    Weights.weight (weights.put entry) symbol =
      if symbol = entry.1 then entry.2 else weights.weight symbol := by
  by_cases hsame : symbol = entry.1
  · rw [if_pos hsame, hsame, weight, Keyed.get?_put]
    rfl
  · rw [if_neg hsame, weight, weight, Keyed.get?_put_of_ne _ hsame]

theorem weight_heldWeights (weights : Weights) (symbol : Text) :
    Weights.weight (ReferenceLoop.heldWeights weights) symbol = kept (weights.weight symbol) := by
  by_cases hmem : symbol ∈ weights.keys
  · obtain ⟨entry, hentry, rfl⟩ := Keyed.mem_keys.mp hmem
    rw [weight_of_mem hentry, kept]
    split
    · rename_i hlarge
      exact weight_of_mem (Keyed.mem_values_filter.mpr ⟨hentry, decide_eq_true hlarge⟩)
    · rename_i hsmall
      refine weight_of_not_mem fun hheld => ?_
      obtain ⟨other, hother, hsame⟩ := Keyed.mem_keys.mp hheld
      obtain ⟨hother, hlarge⟩ := Keyed.mem_values_filter.mp hother
      rw [Keyed.eq_of_key_eq hother hentry hsame] at hlarge
      exact hsmall (of_decide_eq_true hlarge)
  · rw [weight_of_not_mem hmem, kept_zero]
    refine weight_of_not_mem fun hheld => ?_
    obtain ⟨other, hother, rfl⟩ := Keyed.mem_keys.mp hheld
    exact hmem (Keyed.mem_keys.mpr ⟨other, (Keyed.mem_values_filter.mp hother).1, rfl⟩)

/-- The total is the sum of the weights of any distinct symbols that cover those held. -/
theorem total_eq {weights : Weights} {symbols : List Text} (hnodup : symbols.Nodup)
    (hcover : ∀ symbol ∈ weights.keys, symbol ∈ symbols) :
    weights.total = (symbols.map weights.weight).sum := by
  have hkeys : weights.keys.map weights.weight = weights.values.map Prod.snd := by
    rw [Keyed.keys, List.map_map]
    exact List.map_congr_left fun entry hentry => weight_of_mem hentry
  have hinside : (symbols.filter fun symbol => symbol ∈ weights.keys).Perm weights.keys := by
    refine (List.perm_ext_iff_of_nodup (hnodup.filter _) weights.nodup).mpr fun symbol => ?_
    rw [List.mem_filter, decide_eq_true_iff]
    exact ⟨fun h => h.2, fun h => ⟨hcover symbol h, h⟩⟩
  have houtside : ((symbols.filter fun symbol => symbol ∉ weights.keys).map
      weights.weight).sum = 0 := by
    refine List.sum_eq_zero fun value hvalue => ?_
    obtain ⟨symbol, hsymbol, rfl⟩ := List.mem_map.mp hvalue
    exact weight_of_not_mem (of_decide_eq_true (List.mem_filter.mp hsymbol).2)
  have hsplit := List.filter_append_perm (fun symbol => decide (symbol ∈ weights.keys)) symbols
  rw [total, ← hkeys, ← (hinside.map weights.weight).sum_eq, ← (hsplit.map weights.weight).sum_eq,
    List.map_append, List.sum_append]
  have hother : symbols.filter (fun symbol => !decide (symbol ∈ weights.keys)) =
      symbols.filter fun symbol => symbol ∉ weights.keys := by
    refine List.filter_congr fun symbol _ => ?_
    rw [decide_not]
  rw [hother, houtside, add_zero]

end Weights

/-! ### Orders -/

namespace ReferenceLoop

variable (b : ReferenceLoop)

def barBlocks (day : Date) (event : Event) (held : Weights) (symbol : Text) : Bool :=
  match b.barOn day symbol with
  | .ok bar => (barRejection event.execution bar (delta event held symbol)).isSome
  | .error _ => false

/-- The capital buys less than one lot at the bar. -/
def belowLot (day : Date) (event : Event) (held : Weights) (nav : ℚ) (symbol : Text) : Prop :=
  ∃ model initialCapital bar price, b.capital = some (model, initialCapital) ∧
    b.barOn day symbol = .ok (some bar) ∧ bar.open = some price ∧
    |delta event held symbol| * (nav * initialCapital) / price < model.lotSize

variable {b}

theorem barRejection_ne_belowLotSize {execution : Execution} {bar : Option ReferenceBar}
    {delta : ℚ} {reason : Rejection} (h : barRejection execution bar delta = some reason) :
    reason ≠ .belowLotSize := by
  cases bar with
  | none =>
      cases h
      decide
  | some bar =>
      unfold barRejection at h
      dsimp only at h
      split_ifs at h <;> cases h <;> decide

/-- No lot is filled exactly if the quantity is below one. -/
theorem fillableQuantity_nonpos {model : CostModel} {quantity : ℚ} {filled : ℤ}
    (h : model.fillableQuantity quantity = .ok filled) : filled ≤ 0 ↔ quantity < model.lotSize := by
  obtain ⟨_, _, h⟩ := bind_eq_ok_iff.mp h
  cases h
  have hlot : (0 : ℤ) < model.lotSize := Int.ofNat_lt.mpr model.lotSize_pos
  have hlotQ : (0 : ℚ) < model.lotSize := Nat.cast_pos.mpr model.lotSize_pos
  constructor
  · intro hfilled
    have hfloor : ⌊quantity / model.lotSize⌋ ≤ 0 := by
      by_contra hpos
      exact absurd hfilled (mul_pos (not_le.mp hpos) hlot).not_ge
    have hlt : quantity / model.lotSize < 1 := by
      have := Int.floor_lt.mp (Int.lt_add_one_of_le hfloor)
      simpa using this
    rwa [div_lt_one hlotQ] at hlt
  · intro hquantity
    have hlt : quantity / model.lotSize < 1 := (div_lt_one hlotQ).mpr hquantity
    have hfloor : ⌊quantity / model.lotSize⌋ ≤ 0 := by
      refine Int.le_of_lt_add_one (Int.floor_lt.mpr ?_)
      simpa using hlt
    exact mul_nonpos_of_nonpos_of_nonneg hfloor hlot.le

/-- An order that its bar lets through is filled, unless the capital buys less than a lot. -/
theorem fill_eq_ok {execution : Execution} {nav delta : ℚ} {price : Option ℚ} {fill : Fill}
    (h : b.fill execution nav delta price = .ok fill) :
    fill.rejectionReason = none ∧ (¬ ∃ model initialCapital price', b.capital =
        some (model, initialCapital) ∧ price = some price' ∧
        |delta| * (nav * initialCapital) / price' < model.lotSize) ∨
      fill.rejectionReason = some .belowLotSize ∧ ∃ model initialCapital price', b.capital =
        some (model, initialCapital) ∧ price = some price' ∧
        |delta| * (nav * initialCapital) / price' < model.lotSize := by
  unfold ReferenceLoop.fill at h
  split at h
  · rename_i hcapital
    cases h
    refine Or.inl ⟨rfl, ?_⟩
    rintro ⟨_, _, _, hsome, _⟩
    rw [hcapital] at hsome
    cases hsome
  · rename_i model initialCapital hcapital
    obtain ⟨price', hprice, h⟩ := bind_eq_ok_iff.mp h
    obtain ⟨_, _, h⟩ := bind_eq_ok_iff.mp h
    obtain ⟨filled, hfilled, h⟩ := bind_eq_ok_iff.mp h
    have hprice' := orRaise_eq_ok_iff.mp hprice
    have hlots := fillableQuantity_nonpos hfilled
    unfold fillLots at h
    split at h
    · rename_i hnone
      cases h
      exact Or.inr ⟨rfl, model, initialCapital, price', hcapital, hprice', hlots.mp hnone⟩
    · rename_i hsome
      obtain ⟨fees, _, h⟩ := bind_eq_ok_iff.mp h
      cases h
      refine Or.inl ⟨rfl, ?_⟩
      rintro ⟨model', initialCapital', other, hcapital', hother, hless⟩
      rw [hcapital] at hcapital'
      cases hcapital'
      rw [hprice'] at hother
      cases hother
      exact hsome (hlots.mpr hless)

/-- What the order of a symbol says of it. -/
structure OrderFor (b : ReferenceLoop) (day : Date) (event : Event) (held : Weights) (nav : ℚ)
    (symbol : Text) (row : OrderRow) : Prop where
  dated : row.date = day
  named : row.symbol = symbol
  previousWeight : row.previousWeight = held.weight symbol
  targetWeight : row.targetWeight = event.targets.weight symbol
  side : row.side = if 0 < delta event held symbol then .buy else .sell
  executionPrice : ∃ bar, b.barOn day symbol = .ok bar ∧
    row.executionPrice = bar.bind ReferenceBar.open
  blocked : row.blocked = b.barBlocks day event held symbol
  filled : row.filled = true ↔
    b.barBlocks day event held symbol = false ∧ ¬ b.belowLot day event held nav symbol

theorem orderRow_eq_ok {day : Date} {event : Event} {held : Weights} {nav : ℚ} {symbol : Text}
    {row : OrderRow} (h : b.orderRow day event held nav symbol = .ok row) :
    b.OrderFor day event held nav symbol row := by
  obtain ⟨bar, hbar, h⟩ := bind_eq_ok_iff.mp h
  obtain ⟨fill, hfill, h⟩ := bind_eq_ok_iff.mp h
  cases h
  have hblocks : b.barBlocks day event held symbol =
      (barRejection event.execution bar (delta event held symbol)).isSome := by
    unfold barBlocks
    rw [hbar]
  have hreason : fill.rejectionReason.any (fun reason => reason ≠ .belowLotSize) =
        b.barBlocks day event held symbol ∧
      (fill.rejectionReason.isNone = true ↔ b.barBlocks day event held symbol = false ∧
        ¬ b.belowLot day event held nav symbol) := by
    unfold blockOrFill at hfill
    split at hfill
    · rename_i reason hrejection
      cases hfill
      rw [hblocks, hrejection]
      have hne := barRejection_ne_belowLotSize hrejection
      exact ⟨by simp [hne], by simp⟩
    · rename_i hthrough
      have hunblocked : b.barBlocks day event held symbol = false := by
        rw [hblocks, hthrough]
        rfl
      have hsome : ∃ first, bar = some first := by
        cases bar with
        | none => cases hthrough
        | some first => exact ⟨first, rfl⟩
      obtain ⟨first, rfl⟩ := hsome
      have hlot : b.belowLot day event held nav symbol ↔ ∃ model initialCapital price',
          b.capital = some (model, initialCapital) ∧
          (some first).bind ReferenceBar.open = some price' ∧
          |delta event held symbol| * (nav * initialCapital) / price' < model.lotSize := by
        constructor
        · rintro ⟨model, initialCapital, other, price, hcapital, hother, hprice, hless⟩
          rw [hbar] at hother
          cases hother
          exact ⟨model, initialCapital, price, hcapital, hprice, hless⟩
        · rintro ⟨model, initialCapital, price, hcapital, hprice, hless⟩
          exact ⟨model, initialCapital, first, price, hcapital, hbar, hprice, hless⟩
      rw [hunblocked, hlot]
      rcases fill_eq_ok hfill with ⟨hnone, hcan⟩ | ⟨hsome, hless⟩
      · rw [hnone]
        exact ⟨rfl, fun _ => ⟨rfl, hcan⟩, fun _ => rfl⟩
      · rw [hsome]
        exact ⟨by simp, fun hfilled => (nomatch hfilled), fun h => absurd hless h.2⟩
  exact {
    dated := rfl
    named := rfl
    previousWeight := rfl
    targetWeight := rfl
    side := rfl
    executionPrice := ⟨bar, hbar, rfl⟩
    blocked := hreason.1
    filled := hreason.2 }

/-- The orders of an event: one for each symbol whose weight is to change. -/
structure EventOrders (b : ReferenceLoop) (day : Date) (event : Event) (held : Weights) (nav : ℚ)
    (orders : List OrderRow) : Prop where
  ofRow : ∀ row ∈ orders, tolerance < |delta event held row.symbol| ∧
    b.OrderFor day event held nav row.symbol row
  ofSymbol : ∀ symbol, tolerance < |delta event held symbol| → ∃ row ∈ orders, row.symbol = symbol

theorem mem_eventSymbols {held targets : Weights} {symbol : Text} :
    symbol ∈ eventSymbols held targets ↔ symbol ∈ held.keys ∨ symbol ∈ targets.keys := by
  rw [eventSymbols, List.mem_append, List.mem_filter, decide_eq_true_iff]
  constructor
  · rintro (hheld | ⟨htarget, _⟩)
    · exact Or.inl hheld
    · exact Or.inr htarget
  · rintro (hheld | htarget)
    · exact Or.inl hheld
    · by_cases hheld : symbol ∈ held.keys
      · exact Or.inl hheld
      · exact Or.inr ⟨htarget, hheld⟩

theorem nodup_eventSymbols (held targets : Weights) : (eventSymbols held targets).Nodup := by
  refine List.Nodup.append held.nodup (targets.nodup.filter _) ?_
  intro symbol hheld htarget
  exact of_decide_eq_true (List.mem_filter.mp htarget).2 hheld

theorem ordersOf_eq_ok {day : Date} {event : Event} {held : Weights} {nav : ℚ}
    {orders : List OrderRow} (h : b.ordersOf day event held nav = .ok orders) :
    b.EventOrders day event held nav orders := by
  obtain ⟨made, hmade, h⟩ := bind_eq_ok_iff.mp h
  cases h
  have horder : ∀ {symbol : Text} {row : OrderRow},
      b.orderOf day event held nav symbol = .ok (some row) →
        tolerance < |delta event held symbol| ∧ b.OrderFor day event held nav symbol row := by
    intro symbol row hrow
    unfold orderOf at hrow
    split at hrow
    · cases hrow
    · rename_i hlarge
      cases hmake : b.orderRow day event held nav symbol with
      | error error => rw [hmake] at hrow; cases hrow
      | ok made =>
          rw [hmake] at hrow
          cases hrow
          exact ⟨not_le.mp hlarge, orderRow_eq_ok hmake⟩
  constructor
  · intro row hrow
    obtain ⟨cell, hcell, hsome⟩ := List.mem_filterMap.mp hrow
    obtain ⟨symbol, _, hsymbol⟩ := mem_of_mapM_ok hmade hcell
    obtain rfl : cell = some row := hsome
    obtain ⟨hlarge, hfor⟩ := horder hsymbol
    rw [hfor.named]
    exact ⟨hlarge, hfor⟩
  · intro symbol hlarge
    have hmem : symbol ∈ eventSymbols held event.targets := by
      by_contra hnone
      rw [mem_eventSymbols, not_or] at hnone
      have hzero : delta event held symbol = 0 := by
        rw [delta, Weights.weight_of_not_mem hnone.1, Weights.weight_of_not_mem hnone.2, sub_zero]
      rw [hzero, abs_zero] at hlarge
      exact absurd hlarge tolerance_pos.not_gt
    obtain ⟨cell, hcell, hvalue⟩ := exists_mem_of_mapM_ok hmade hmem
    cases cell with
    | none =>
        unfold orderOf at hvalue
        rw [if_neg hlarge.not_ge] at hvalue
        cases hmake : b.orderRow day event held nav symbol with
        | error error => rw [hmake] at hvalue; cases hvalue
        | ok made => rw [hmake] at hvalue; cases hvalue
    | some row =>
        exact ⟨row, List.mem_filterMap.mpr ⟨some row, hcell, rfl⟩, (horder hvalue).2.named⟩

/-! ### Weights after an event -/

theorem weight_foldl_put (previous : Text → ℚ) {rows : List OrderRow} (weights : Weights)
    (h : ∀ row ∈ rows, row.previousWeight = previous row.symbol) (symbol : Text) :
    Weights.weight (rows.foldl (fun weights row =>
        weights.put (row.symbol, row.previousWeight)) weights) symbol =
      if symbol ∈ rows.map OrderRow.symbol then previous symbol else weights.weight symbol := by
  induction rows generalizing weights with
  | nil => rfl
  | cons row rest ih =>
      rw [List.foldl_cons, ih _ fun other hother => h other (List.mem_cons_of_mem row hother),
        Weights.weight_put, h row List.mem_cons_self, List.map_cons]
      by_cases hrest : symbol ∈ rest.map OrderRow.symbol
      · rw [if_pos hrest, if_pos (List.mem_cons_of_mem _ hrest)]
      · rw [if_neg hrest]
        by_cases hsame : symbol = row.symbol
        · rw [if_pos hsame, if_pos (by rw [hsame]; exact List.mem_cons_self), hsame]
        · rw [if_neg hsame, if_neg (by rw [List.mem_cons, not_or]; exact ⟨hsame, hrest⟩)]

def weightAfter (b : ReferenceLoop) (day : Date) (event : Event) (held : Weights)
    (symbol : Text) : ℚ :=
  kept (if tolerance < |delta event held symbol| ∧ b.barBlocks day event held symbol then
    held.weight symbol else event.targets.weight symbol)

theorem weight_after {day : Date} {event : Event} {held : Weights} {nav : ℚ}
    {orders : List OrderRow} (h : b.EventOrders day event held nav orders) (symbol : Text) :
    Weights.weight (heldWeights (effectiveWeights event.targets orders)) symbol =
      b.weightAfter day event held symbol := by
  have hprevious : ∀ row ∈ orders.filter OrderRow.blocked,
      row.previousWeight = held.weight row.symbol := by
    intro row hrow
    exact (h.ofRow row (List.mem_of_mem_filter hrow)).2.previousWeight
  have hblocked : symbol ∈ (orders.filter OrderRow.blocked).map OrderRow.symbol ↔
      tolerance < |delta event held symbol| ∧ b.barBlocks day event held symbol := by
    constructor
    · intro hmem
      obtain ⟨row, hrow, rfl⟩ := List.mem_map.mp hmem
      obtain ⟨hrow, hblocked⟩ := List.mem_filter.mp hrow
      obtain ⟨hlarge, hfor⟩ := h.ofRow row hrow
      exact ⟨hlarge, hfor.blocked.symm.trans hblocked⟩
    · rintro ⟨hlarge, hblocks⟩
      obtain ⟨row, hrow, rfl⟩ := h.ofSymbol symbol hlarge
      have hfor := (h.ofRow row hrow).2
      exact List.mem_map_of_mem (List.mem_filter.mpr ⟨hrow, hfor.blocked.trans hblocks⟩)
  rw [Weights.weight_heldWeights, effectiveWeights, weight_foldl_put held.weight _ hprevious,
    weightAfter]
  simp only [hblocked]

theorem keys_after {day : Date} {event : Event} {held : Weights} {nav : ℚ}
    {orders : List OrderRow} (h : b.EventOrders day event held nav orders) :
    ∀ symbol ∈ Keyed.keys (heldWeights (effectiveWeights event.targets orders)),
      symbol ∈ eventSymbols held event.targets := by
  intro symbol hmem
  by_contra hnone
  rw [mem_eventSymbols, not_or] at hnone
  obtain ⟨entry, hentry, rfl⟩ := Keyed.mem_keys.mp hmem
  have hweight := Weights.weight_of_mem hentry
  have hlarge := of_decide_eq_true (Keyed.mem_values_filter.mp hentry).2
  rw [weight_after h, weightAfter, Weights.weight_of_not_mem hnone.1,
    Weights.weight_of_not_mem hnone.2, ite_self, kept_zero] at hweight
  rw [← hweight] at hlarge
  exact absurd hlarge tolerance_pos.not_gt

end ReferenceLoop

end QuantWorkbench.Backtest
