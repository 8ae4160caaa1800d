import QuantWorkbench.Experiments.Evaluator

/-!
What the sales and the purchases of a day do: which positions stay and which are added, at which
bars they are traded, and that neither takes more cash than there is.
-/

namespace QuantWorkbench.Experiments

open Lib
open Data (Symbol)

namespace Evaluation

variable (e : Evaluation)

/-! ### Last known closes -/

def lastClose (symbol : Symbol) (day : Date) : ℚ :=
  (((e.calendar.filter fun earlier => earlier ≤ day).reverse.findSome?
    (e.barLookup symbol)).map EvaluationBar.close).getD 0

variable {e}

theorem barLookup_mem {symbol : Symbol} {day : Date} {row : EvaluationBar}
    (h : e.barLookup symbol day = some row) :
    row ∈ e.bars ∧ row.symbol = symbol ∧ row.date = day := by
  unfold barLookup at h
  have hkey : row.symbol = symbol ∧ row.date = day := by simpa using List.find?_some h
  exact ⟨List.mem_reverse.mp (List.mem_of_find?_eq_some h), hkey.1, hkey.2⟩

theorem lastClose_eq {symbol : Symbol} {day : Date} {row : EvaluationBar}
    (h : e.barLookup symbol day = some row) : e.lastClose symbol day = row.close := by
  have hday : day ∈ e.calendar := by
    obtain ⟨hmem, _, rfl⟩ := barLookup_mem h
    exact mem_sortedSet.mpr (List.mem_map_of_mem hmem)
  have hsorted : ((e.calendar.filter fun earlier => earlier ≤ day).reverse).Pairwise
      fun a b => b < a :=
    List.pairwise_reverse.mpr ((increasing_sortedSet _).filter _)
  have hmem : day ∈ (e.calendar.filter fun earlier => earlier ≤ day).reverse :=
    List.mem_reverse.mpr (List.mem_filter.mpr ⟨hday, decide_eq_true le_rfl⟩)
  -- the day is the last of the days up to it
  have hfirst : ∃ rest, (e.calendar.filter fun earlier => earlier ≤ day).reverse = day :: rest := by
    cases hdays : (e.calendar.filter fun earlier => earlier ≤ day).reverse with
    | nil => rw [hdays] at hmem; cases hmem
    | cons last rest =>
        rw [hdays] at hsorted hmem
        rcases List.mem_cons.mp hmem with rfl | hrest
        · exact ⟨rest, rfl⟩
        · have hlast : last ∈ (e.calendar.filter fun earlier => earlier ≤ day).reverse := by
            rw [hdays]
            exact List.mem_cons_self
          have hle := of_decide_eq_true (List.mem_filter.mp (List.mem_reverse.mp hlast)).2
          exact absurd hle ((List.pairwise_cons.mp hsorted).1 day hrest).not_ge
  obtain ⟨rest, hrest⟩ := hfirst
  rw [lastClose, hrest, List.findSome?_cons, h]
  rfl

/-- If every position has a bar of the day, the market value is the value at the last closes. -/
theorem markToMarket_eq {cash : ℚ} {positions : List Holding} {day : Date}
    (h : ∀ holding ∈ positions, (e.barLookup holding.symbol day).isSome) :
    e.markToMarket cash positions day EvaluationBar.close =
      cash + (positions.map fun holding =>
        holding.quantity * e.lastClose holding.symbol day).sum := by
  have hvalues : (positions.map fun holding =>
        ((e.barLookup holding.symbol day).map fun row => holding.quantity * row.close).getD 0) =
      positions.map fun holding => holding.quantity * e.lastClose holding.symbol day := by
    refine List.map_congr_left fun holding hholding => ?_
    obtain ⟨row, hrow⟩ := Option.isSome_iff_exists.mp (h holding hholding)
    rw [hrow, lastClose_eq hrow]
    rfl
  rw [markToMarket, hvalues]

/-! ### Sales -/

/-- What the sales of a day do to a simulation. -/
structure Sold (e : Evaluation) (day : Date) (target : List (Symbol × ℚ)) (holdings : List Holding)
    (sim sim' : Simulation) : Prop where
  positions : sim'.positions = sim.positions ++
    holdings.filter fun holding => (e.saleBar day target holding).isNone
  equityRows : sim'.equityRows = sim.equityRows
  trades : ∀ row ∈ sim'.tradeRows, row ∈ sim.tradeRows ∨
    row.executionDate = day ∧ row.side = .sell ∧
      ∃ holding ∈ holdings, holding.symbol = row.symbol ∧
        (e.saleBar day target holding).isSome
  cash : (∀ row ∈ e.bars, 0 < row.open) → (∀ holding ∈ holdings, 0 ≤ holding.quantity) →
    ((∃ holding ∈ holdings, (e.saleBar day target holding).isSome) →
      0 ≤ (1 - e.config.slippage) * (1 - e.config.saleRate)) →
    sim.cash ≤ sim'.cash

theorem saleBar_eq_some {day : Date} {target : List (Symbol × ℚ)} {holding : Holding}
    {row : EvaluationBar} (h : e.saleBar day target holding = some row) :
    e.barLookup holding.symbol day = some row ∧ row.canSell = true ∧ holding.entryDate < day := by
  unfold saleBar at h
  split at h
  · cases h
  · obtain ⟨hrow, hsale⟩ := Option.filter_eq_some_iff.mp h
    rw [Bool.and_eq_true, decide_eq_true_iff] at hsale
    exact ⟨hrow, hsale⟩

theorem foldl_sell (day : Date) (target : List (Symbol × ℚ)) (holdings : List Holding)
    (sim : Simulation) :
    e.Sold day target holdings sim (holdings.foldl (e.sell day target) sim) := by
  induction holdings generalizing sim with
  | nil =>
      exact {
        positions := (List.append_nil _).symm
        equityRows := rfl
        trades := fun row hrow => Or.inl hrow
        cash := fun _ _ _ => le_rfl }
  | cons holding rest ih =>
      rw [List.foldl_cons]
      have hrest := ih (e.sell day target sim holding)
      cases hbar : e.saleBar day target holding with
      | none =>
          have hkept : e.sell day target sim holding =
              { sim with positions := sim.positions ++ [holding] } := by
            unfold sell
            rw [hbar]
          rw [hkept] at hrest ⊢
          constructor
          · rw [hrest.positions, List.append_assoc, List.singleton_append,
              List.filter_cons_of_pos (by simp [hbar])]
          · exact hrest.equityRows
          · intro row hrow
            rcases hrest.trades row hrow with hold | ⟨hdate, hside, sold, hsold, hnew⟩
            · exact Or.inl hold
            · exact Or.inr ⟨hdate, hside, sold, List.mem_cons_of_mem holding hsold, hnew⟩
          · intro hopen hquantity hpays
            exact hrest.cash hopen (fun other hother =>
              hquantity other (List.mem_cons_of_mem holding hother)) fun hsale => by
                obtain ⟨other, hother, hsome⟩ := hsale
                exact hpays ⟨other, List.mem_cons_of_mem holding hother, hsome⟩
      | some row =>
          obtain ⟨hlookup, _, _⟩ := saleBar_eq_some hbar
          constructor
          · rw [hrest.positions, List.filter_cons_of_neg (by simp [hbar])]
            unfold sell
            rw [hbar]
          · rw [hrest.equityRows]
            unfold sell
            rw [hbar]
          · intro trade htrade
            rcases hrest.trades trade htrade with hold | ⟨hdate, hside, sold, hsold, hnew⟩
            · unfold sell at hold
              rw [hbar] at hold
              rcases List.mem_append.mp hold with hold | hnew
              · exact Or.inl hold
              · obtain rfl := List.mem_singleton.mp hnew
                exact Or.inr ⟨rfl, rfl, holding, List.mem_cons_self, rfl, by simp [hbar]⟩
            · exact Or.inr ⟨hdate, hside, sold, List.mem_cons_of_mem holding hsold, hnew⟩
          · intro hopen hquantity hpays
            have hfactor := hpays ⟨holding, List.mem_cons_self, by simp [hbar]⟩
            have hstep : sim.cash ≤ (e.sell day target sim holding).cash := by
              have hcash : (e.sell day target sim holding).cash = sim.cash +
                  holding.quantity * row.open *
                    ((1 - e.config.slippage) * (1 - e.config.saleRate)) := by
                unfold sell EvaluationConfig.sellPosition
                rw [hbar]
                ring
              have hvalue : 0 ≤ holding.quantity * row.open :=
                mul_nonneg (hquantity holding List.mem_cons_self)
                  (hopen row (barLookup_mem hlookup).1).le
              rw [hcash]
              exact le_add_of_nonneg_right (mul_nonneg hvalue hfactor)
            refine hstep.trans (hrest.cash hopen (fun other hother =>
              hquantity other (List.mem_cons_of_mem holding hother)) fun _ => hfactor)

/-! ### Purchases -/

/-- What the purchases of a day do to a simulation. -/
structure Bought (e : Evaluation) (day : Date) (targets : List (Symbol × ℚ))
    (sim sim' : Simulation) (bought : List Holding) : Prop where
  positions : sim'.positions = sim.positions ++ bought
  equityRows : sim'.equityRows = sim.equityRows
  entered : ∀ holding ∈ bought, holding.entryDate = day ∧ 0 < holding.quantity ∧
    ∃ row, e.barLookup holding.symbol day = some row ∧ row.canBuy = true
  count : bought.length ≤
    (targets.filter fun target => (e.purchaseBar day sim.positions target.1).isSome).length
  trades : ∀ row ∈ sim'.tradeRows, row ∈ sim.tradeRows ∨
    row.executionDate = day ∧ row.side = .buy ∧ ∃ holding ∈ bought, holding.symbol = row.symbol
  cash : ((∃ target ∈ targets, (e.purchaseBar day sim.positions target.1).isSome) →
    0 < e.config.costRate) → 0 ≤ sim.cash → 0 ≤ sim'.cash

theorem purchaseBar_eq_some {day : Date} {positions : List Holding} {symbol : Symbol}
    {row : EvaluationBar} (h : e.purchaseBar day positions symbol = some row) :
    symbol ∉ positions.map Holding.symbol ∧ e.barLookup symbol day = some row ∧
      row.canBuy = true := by
  unfold purchaseBar at h
  split at h
  · cases h
  · rename_i hnew
    exact ⟨hnew, Option.filter_eq_some_iff.mp h⟩

/-- What can be bought with more positions can be bought with fewer. -/
theorem purchaseBar_of_append {day : Date} {positions added : List Holding} {symbol : Symbol}
    (h : (e.purchaseBar day (positions ++ added) symbol).isSome) :
    (e.purchaseBar day positions symbol).isSome := by
  obtain ⟨bar, hbar⟩ := Option.isSome_iff_exists.mp h
  obtain ⟨hnew, hlookup, hbuy⟩ := purchaseBar_eq_some hbar
  rw [List.map_append, List.mem_append, not_or] at hnew
  rw [purchaseBar, if_neg hnew.1, hlookup]
  simp [hbuy]

theorem buyPosition_eq_ok {config : EvaluationConfig} {desired cash price quantity spent fees : ℚ}
    (h : config.buyPosition desired cash price = .ok (quantity, spent, fees)) :
    config.costRate ≠ 0 ∧ spent = min desired (cash / config.costRate) ∧
      fees = spent * (config.costRate - 1) := by
  unfold EvaluationConfig.buyPosition at h
  obtain ⟨_, hcost, h⟩ := bind_eq_ok_iff.mp h
  obtain ⟨_, _, h⟩ := bind_eq_ok_iff.mp h
  cases h
  exact ⟨require_eq_ok_iff.mp hcost, rfl, rfl⟩

/-- One target is left, or bought at its bar. -/
theorem buy_eq_ok {day : Date} {account : ℚ} {sim sim' : Simulation} {target : Symbol × ℚ}
    (h : e.buy day account sim target = .ok sim') :
    sim' = sim ∨ ∃ row quantity spent fees, e.purchaseBar day sim.positions target.1 = some row ∧
      e.config.buyPosition (account * target.2) sim.cash row.open = .ok (quantity, spent, fees) ∧
      0 < quantity ∧ sim' = { sim with
        cash := sim.cash - (spent + fees)
        positions := sim.positions ++ [⟨target.1, quantity, day⟩]
        tradeNotional := sim.tradeNotional + spent
        tradeRows := sim.tradeRows ++ [⟨day, .buy, target.1, spent, target.2, fees⟩] } := by
  unfold buy at h
  cases hbar : e.purchaseBar day sim.positions target.1 with
  | none =>
      rw [hbar] at h
      cases h
      exact Or.inl rfl
  | some row =>
      rw [hbar] at h
      obtain ⟨⟨quantity, spent, fees⟩, hposition, h⟩ := bind_eq_ok_iff.mp h
      dsimp only at h
      split at h
      · cases h
        exact Or.inl rfl
      · rename_i hquantity
        cases h
        exact Or.inr ⟨row, quantity, spent, fees, rfl, hposition, not_le.mp hquantity, rfl⟩

theorem foldlM_buy {day : Date} {account : ℚ} {targets : List (Symbol × ℚ)}
    {sim sim' : Simulation} (h : targets.foldlM (e.buy day account) sim = .ok sim') :
    ∃ bought, e.Bought day targets sim sim' bought := by
  induction targets generalizing sim with
  | nil =>
      cases h
      exact ⟨[], {
        positions := (List.append_nil _).symm
        equityRows := rfl
        entered := fun _ hmem => nomatch hmem
        count := le_rfl
        trades := fun row hrow => Or.inl hrow
        cash := fun _ hcash => hcash }⟩
  | cons target rest ih =>
      rw [List.foldlM_cons] at h
      obtain ⟨next, hnext, hrest⟩ := bind_eq_ok_iff.mp h
      rcases buy_eq_ok hnext with
        rfl | ⟨row, quantity, spent, fees, hbar, hposition, hquantity, rfl⟩
      · obtain ⟨bought, hbought⟩ := ih hrest
        refine ⟨bought, { hbought with count := hbought.count.trans ?_, cash := ?_ }⟩
        · exact ((List.sublist_cons_self target rest).filter _).length_le
        · exact fun hcost => hbought.cash fun ⟨other, hother, hsome⟩ =>
            hcost ⟨other, List.mem_cons_of_mem target hother, hsome⟩
      · obtain ⟨hnew, hlookup, hbuy⟩ := purchaseBar_eq_some hbar
        obtain ⟨_, hspent, hfees⟩ := buyPosition_eq_ok hposition
        obtain ⟨bought, hbought⟩ := ih hrest
        refine ⟨⟨target.1, quantity, day⟩ :: bought, ?_⟩
        constructor
        · rw [hbought.positions, List.append_assoc, List.singleton_append]
        · exact hbought.equityRows
        · intro holding hholding
          rcases List.mem_cons.mp hholding with rfl | hholding
          · exact ⟨rfl, hquantity, row, hlookup, hbuy⟩
          · exact hbought.entered holding hholding
        · have hfilter : (rest.filter fun other => (e.purchaseBar day
              (sim.positions ++ [⟨target.1, quantity, day⟩]) other.1).isSome).length ≤
              (rest.filter fun other =>
                (e.purchaseBar day sim.positions other.1).isSome).length := by
            rw [← List.countP_eq_length_filter, ← List.countP_eq_length_filter]
            exact List.countP_mono_left fun other _ => purchaseBar_of_append
          rw [List.filter_cons_of_pos (by simp [hbar]), List.length_cons, List.length_cons]
          exact Nat.succ_le_succ (hbought.count.trans hfilter)
        · intro trade htrade
          rcases hbought.trades trade htrade with hold | ⟨hdate, hside, holding, hholding, hsame⟩
          · rcases List.mem_append.mp hold with hold | hnew
            · exact Or.inl hold
            · obtain rfl := List.mem_singleton.mp hnew
              exact Or.inr ⟨rfl, rfl, _, List.mem_cons_self, rfl⟩
          · exact Or.inr ⟨hdate, hside, holding, List.mem_cons_of_mem _ hholding, hsame⟩
        · intro hcost _
          have hpositive := hcost ⟨target, List.mem_cons_self, by rw [hbar]; rfl⟩
          refine hbought.cash (fun ⟨other, hother, hsome⟩ =>
            hcost ⟨other, List.mem_cons_of_mem target hother, purchaseBar_of_append hsome⟩) ?_
          -- the fees are part of what cash allows
          have hbound : spent * e.config.costRate ≤ sim.cash := by
            rw [← le_div_iff₀ hpositive, hspent]
            exact min_le_right _ _
          have htotal : spent + fees = spent * e.config.costRate := by
            rw [hfees]
            ring
          change 0 ≤ sim.cash - (spent + fees)
          rw [htotal]
          exact sub_nonneg.mpr hbound

/-- The purchases of a day end, if their prices are not zero. -/
theorem foldlM_buy_ends {day : Date} (account : ℚ) (targets : List (Symbol × ℚ))
    (sim : Simulation) (hopen : ∀ row ∈ e.bars, 0 < row.open)
    (hcost : (∃ target ∈ targets, (e.purchaseBar day sim.positions target.1).isSome) →
      e.config.costRate ≠ 0 ∧ 1 + e.config.slippage ≠ 0) :
    ∃ sim', targets.foldlM (e.buy day account) sim = .ok sim' := by
  induction targets generalizing sim with
  | nil => exact ⟨sim, rfl⟩
  | cons target rest ih =>
      have hstep : ∃ next, e.buy day account sim target = .ok next := by
        unfold buy
        cases hbar : e.purchaseBar day sim.positions target.1 with
        | none => exact ⟨sim, rfl⟩
        | some row =>
            obtain ⟨_, hlookup, _⟩ := purchaseBar_eq_some hbar
            obtain ⟨hrate, hslippage⟩ := hcost ⟨target, List.mem_cons_self, by rw [hbar]; rfl⟩
            have hprice : row.open * (1 + e.config.slippage) ≠ 0 :=
              mul_ne_zero (hopen row (barLookup_mem hlookup).1).ne' hslippage
            have hposition : ∃ position, e.config.buyPosition (account * target.2) sim.cash
                row.open = .ok position := by
              unfold EvaluationConfig.buyPosition require
              simp only [if_pos hrate, if_pos hprice]
              exact ⟨_, rfl⟩
            obtain ⟨⟨quantity, spent, fees⟩, hposition⟩ := hposition
            simp only [hposition]
            by_cases hquantity : quantity ≤ 0
            · exact ⟨sim, if_pos hquantity⟩
            · exact ⟨_, if_neg hquantity⟩
      obtain ⟨next, hnext⟩ := hstep
      have hrest : (∃ other ∈ rest, (e.purchaseBar day next.positions other.1).isSome) →
          e.config.costRate ≠ 0 ∧ 1 + e.config.slippage ≠ 0 := by
        rintro ⟨other, hother, hsome⟩
        refine hcost ⟨other, List.mem_cons_of_mem target hother, ?_⟩
        rcases buy_eq_ok hnext with rfl | ⟨_, _, _, _, _, _, _, rfl⟩
        · exact hsome
        · exact purchaseBar_of_append hsome
      obtain ⟨sim', hsim'⟩ := ih next hrest
      exact ⟨sim', by rw [List.foldlM_cons, hnext]; exact hsim'⟩

end Evaluation

end QuantWorkbench.Experiments
