import QuantWorkbench.Experiments.EvaluationTrades
import QuantWorkbench.Lib.Runs

/-!
The constraints of the evaluated portfolio. Cash, the number of positions and the reported equity
stay within them on every day on which no position is without a bar and the sales that are blocked
leave room for the targets; the trades keep to suspensions and limits on every day.
-/

namespace QuantWorkbench.Experiments

open Lib
open Data (Symbol)

namespace Evaluation

variable {e : Evaluation}

/-! ### Days -/

/-- The positions that the sales of a day leave. -/
def keptPositions (e : Evaluation) (day : Date) (group : List Prediction) (sim : Simulation) :
    List Holding :=
  sim.positions.filter fun holding =>
    (e.saleBar day (targetWeights group e.config) holding).isNone

/-- A position that may be sold on the day. -/
def Sellable (e : Evaluation) (day : Date) (holding : Holding) : Prop :=
  ∃ row, e.barLookup holding.symbol day = some row ∧ row.canSell = true ∧ holding.entryDate < day

/-- The trades of a day keep to suspensions, limits and entry dates. -/
structure FairTrades (e : Evaluation) (day : Date) (sim sim' : Simulation) : Prop where
  sold : ∀ holding ∈ sim.positions, holding ∉ sim'.positions → e.Sellable day holding
  bought : ∀ holding ∈ sim'.positions, holding ∉ sim.positions → holding.entryDate = day ∧
    ∃ row, e.barLookup holding.symbol day = some row ∧ row.canBuy = true
  rows : ∀ row ∈ sim'.tradeRows, row ∉ sim.tradeRows → row.executionDate = day ∧
    (row.side = .sell ∧ (∃ holding ∈ sim.positions, holding.symbol = row.symbol ∧
        e.Sellable day holding) ∨
      row.side = .buy ∧
        ∃ bar, e.barLookup row.symbol day = some bar ∧ bar.canBuy = true)

/-- A day on which every position has a bar, the positions that stay leave room for the targets
that can be bought, and no fee exceeds what it is taken from. -/
structure Unhindered (e : Evaluation) (day : Date) (sim : Simulation) : Prop where
  covered : ∀ holding ∈ sim.positions, (e.barLookup holding.symbol day).isSome
  room : ∀ group, e.event day = some group →
    ((e.keptPositions day group sim).length +
      ((targetWeights group e.config).filter fun target =>
        (e.purchaseBar day (e.keptPositions day group sim) target.1).isSome).length : ℤ) ≤
      e.config.maxPositions
  sales : ∀ group, e.event day = some group →
    (∃ holding ∈ sim.positions,
      (e.saleBar day (targetWeights group e.config) holding).isSome) →
    0 ≤ (1 - e.config.slippage) * (1 - e.config.saleRate)
  purchases : ∀ group, e.event day = some group →
    (∃ target ∈ targetWeights group e.config,
      (e.purchaseBar day (e.keptPositions day group sim) target.1).isSome) →
    0 < e.config.costRate ∧ 1 + e.config.slippage ≠ 0

theorem rebalance_eq_ok {day : Date} {group : List Prediction} (sim : Simulation)
    {sim' : Simulation}
    (h : e.rebalance day group sim = .ok sim') :
    ∃ sold bought, e.Sold day (targetWeights group e.config) sim.positions
        { sim with positions := [] } sold ∧
      sold.positions = e.keptPositions day group sim ∧
      e.Bought day (targetWeights group e.config) sold sim' bought := by
  unfold rebalance at h
  have hsold := foldl_sell (e := e) day (targetWeights group e.config) sim.positions
    { sim with positions := [] }
  obtain ⟨bought, hbought⟩ := foldlM_buy h
  exact ⟨_, bought, hsold, hsold.positions, hbought⟩

theorem trade_fair {day : Date} {sim sim' : Simulation} (h : e.trade day sim = .ok sim') :
    e.FairTrades day sim sim' := by
  unfold trade at h
  cases hevent : e.event day with
  | none =>
      rw [hevent] at h
      cases h
      exact {
        sold := fun holding hmem hgone => absurd hmem hgone
        bought := fun holding hmem hnew => absurd hmem hnew
        rows := fun row hmem hnew => absurd hmem hnew }
  | some group =>
      rw [hevent] at h
      obtain ⟨sold, bought, hsold, hkept, hbought⟩ := rebalance_eq_ok _ h
      constructor
      · intro holding hmem hgone
        rw [hbought.positions, hkept, List.mem_append, not_or] at hgone
        cases hbar : e.saleBar day (targetWeights group e.config) holding with
        | none => exact absurd (List.mem_filter.mpr ⟨hmem, by simp [hbar]⟩) hgone.1
        | some row => exact ⟨row, saleBar_eq_some hbar⟩
      · intro holding hmem hnew
        rw [hbought.positions, hkept] at hmem
        rcases List.mem_append.mp hmem with hmem | hmem
        · exact absurd (List.mem_of_mem_filter hmem) hnew
        · obtain ⟨hdate, _, hbar⟩ := hbought.entered holding hmem
          exact ⟨hdate, hbar⟩
      · intro row hmem hnew
        rcases hbought.trades row hmem with hmem | ⟨hdate, hside, holding, hholding, hsame⟩
        · rcases hsold.trades row hmem with hold | ⟨hdate, hside, holding, hholding, hsame, hsome⟩
          · exact absurd hold hnew
          · obtain ⟨bar, hbar⟩ := Option.isSome_iff_exists.mp hsome
            exact ⟨hdate, Or.inl ⟨hside, holding, hholding, hsame, bar, saleBar_eq_some hbar⟩⟩
        · obtain ⟨_, _, hbar⟩ := hbought.entered holding hholding
          rw [hsame] at hbar
          exact ⟨hdate, Or.inr ⟨hside, hbar⟩⟩

/-- What holds at the end of a day. -/
structure Sound (e : Evaluation) (sim : Simulation) : Prop where
  cash : 0 ≤ sim.cash
  quantity : ∀ holding ∈ sim.positions, 0 < holding.quantity
  count : (sim.positions.length : ℤ) ≤ e.config.maxPositions
  equity : ∀ row, sim.equityRows.getLast? = some row →
    row.equity = sim.cash + (sim.positions.map fun holding =>
      holding.quantity * e.lastClose holding.symbol row.date).sum

/-- The trades of an unhindered day end within the constraints, with a bar for each position. -/
theorem trade_ends {day : Date} {sim : Simulation} (hopen : ∀ row ∈ e.bars, 0 < row.open)
    (hsim : e.Sound sim) (hday : e.Unhindered day sim) :
    ∃ sim', e.trade day sim = .ok sim' ∧ 0 ≤ sim'.cash ∧
      (∀ holding ∈ sim'.positions, 0 < holding.quantity ∧
        (e.barLookup holding.symbol day).isSome) ∧
      (sim'.positions.length : ℤ) ≤ e.config.maxPositions := by
  unfold trade
  cases hevent : e.event day with
  | none =>
      exact ⟨_, rfl, hsim.cash, fun holding hmem =>
        ⟨hsim.quantity holding hmem, hday.covered holding hmem⟩, hsim.count⟩
  | some group =>
      have hpositions : ((sim.positions.foldl (e.sell day (targetWeights group e.config))
          { sim with positions := [], tradeNotional := 0 }).positions) =
          e.keptPositions day group sim :=
        (foldl_sell (e := e) day (targetWeights group e.config) sim.positions _).positions
      have hends := foldlM_buy_ends (e.markToMarket sim.cash sim.positions day
        EvaluationBar.open) (targetWeights group e.config) _ hopen (by
          rw [hpositions]
          intro hsome
          obtain ⟨hrate, hslippage⟩ := hday.purchases group hevent hsome
          exact ⟨hrate.ne', hslippage⟩)
      obtain ⟨sim', hsim'⟩ := hends
      obtain ⟨sold, bought, hsold, hkept, hbought⟩ := rebalance_eq_ok
        { sim with tradeNotional := 0 } hsim'
      refine ⟨sim', hsim', ?_, ?_, ?_⟩
      · have hcash := hsold.cash hopen (fun holding hmem => (hsim.quantity holding hmem).le)
          (hday.sales group hevent)
        refine hbought.cash (fun hsome => ?_) (hsim.cash.trans hcash)
        rw [hkept] at hsome
        exact (hday.purchases group hevent hsome).1
      · intro holding hmem
        rw [hbought.positions, hkept] at hmem
        rcases List.mem_append.mp hmem with hmem | hmem
        · have hold := List.mem_of_mem_filter hmem
          exact ⟨hsim.quantity holding hold, hday.covered holding hold⟩
        · obtain ⟨_, hquantity, bar, hbar, _⟩ := hbought.entered holding hmem
          exact ⟨hquantity, by rw [hbar]; rfl⟩
      · have hroom := hday.room group hevent
        have hcount := hbought.count
        rw [hkept] at hcount
        rw [hbought.positions, hkept, List.length_append]
        push_cast
        have hle : (bought.length : ℤ) ≤ (((targetWeights group e.config).filter fun target =>
            (e.purchaseBar day (e.keptPositions day group sim) target.1).isSome).length : ℤ) :=
          Int.ofNat_le.mpr hcount
        exact (add_le_add_right hle _).trans hroom

theorem close_ends {day : Date} {sim : Simulation}
    (hbenchmark : (e.barLookup e.benchmark day).isSome) (hcash : 0 ≤ sim.cash)
    (hpositions : ∀ holding ∈ sim.positions, 0 < holding.quantity ∧
      (e.barLookup holding.symbol day).isSome)
    (hcount : (sim.positions.length : ℤ) ≤ e.config.maxPositions) :
    ∃ sim', e.close day sim = .ok sim' ∧ e.Sound sim' := by
  obtain ⟨row, hrow⟩ := Option.isSome_iff_exists.mp hbenchmark
  have hlookup : orRaise (e.barLookup e.benchmark day) "KeyError" =
      (.ok row : Except String EvaluationBar) := by
    rw [hrow]
    rfl
  unfold close
  simp only [hlookup]
  refine ⟨_, rfl, hcash, fun holding hmem => (hpositions holding hmem).1, hcount, ?_⟩
  intro last hlast
  obtain rfl := Option.some.inj ((List.getLast?_concat ..).symm.trans hlast)
  exact markToMarket_eq fun holding hmem => (hpositions holding hmem).2

/-! ### Runs -/

/-- The run has not raised, and its last day ended within the constraints. -/
def RunSound (e : Evaluation) (run : Except String Simulation) : Prop :=
  ∃ sim, run = .ok sim ∧ e.Sound sim

def RunUnhindered (e : Evaluation) (run : Except String Simulation) (day : Date) : Prop :=
  ∀ sim, run = .ok sim → e.Unhindered day sim

def RunFair (e : Evaluation) (run : Except String Simulation) (day : Date) : Prop :=
  ∀ sim sim', run = .ok sim → e.step run day = .ok sim' → e.FairTrades day sim sim'

theorem start_sound (h : 0 ≤ e.config.maxPositions) : e.Sound Simulation.start where
  cash := zero_le_one
  quantity := fun _ hmem => nomatch hmem
  count := h
  equity := fun _ hlast => nomatch hlast

theorem step_fair (run : Except String Simulation) (day : Date) : e.RunFair run day := by
  rintro sim sim' rfl hstep
  obtain ⟨traded, htraded, hclose⟩ := bind_eq_ok_iff.mp (show e.day sim day = .ok sim' from hstep)
  have hfair := trade_fair htraded
  unfold close at hclose
  obtain ⟨row, _, hclose⟩ := bind_eq_ok_iff.mp hclose
  cases hclose
  exact ⟨hfair.sold, hfair.bought, hfair.rows⟩

theorem step_sound {run : Except String Simulation} {day : Date}
    (hopen : ∀ row ∈ e.bars, 0 < row.open) (hbenchmark : (e.barLookup e.benchmark day).isSome)
    (hrun : e.RunSound run) (hday : e.RunUnhindered run day) : e.RunSound (e.step run day) := by
  obtain ⟨sim, rfl, hsim⟩ := hrun
  obtain ⟨traded, htraded, hcash, hpositions, hcount⟩ := trade_ends hopen hsim (hday sim rfl)
  obtain ⟨sim', hclose, hsound⟩ := close_ends hbenchmark hcash hpositions hcount
  refine ⟨sim', ?_, hsound⟩
  change e.day sim day = .ok sim'
  rw [Evaluation.day, htraded]
  exact hclose

/-- A simulation whose days are all unhindered ends each of them within its constraints, with an
equity at the last known closes. Its trades keep to suspensions, limits and entry dates on every
day, hindered or not. -/
theorem simulate_respects (e : Evaluation) (hprices : ∀ row ∈ e.bars, 0 < row.open ∧ 0 < row.close)
    (hbenchmark : ∀ day ∈ e.calendar, (e.barLookup e.benchmark day).isSome) :
    (0 ≤ e.config.maxPositions →
        Runs.StepsMeet e.step e.RunUnhindered (.ok Simulation.start) e.calendar →
        Runs.Always e.step e.RunSound (.ok Simulation.start) e.calendar) ∧
      Runs.StepsMeet e.step e.RunFair (.ok Simulation.start) e.calendar := by
  constructor
  · intro hmax hmeet
    refine Runs.always_of_stepsMeet e.step e.RunSound ?_ _ e.calendar
      ⟨_, rfl, start_sound hmax⟩ (hmeet.and_forall e.step hbenchmark)
    intro run day hrun hday
    exact step_sound (fun row hrow => (hprices row hrow).1) hday.2 hrun hday.1
  · exact Runs.stepsMeet_of_forall e.step step_fair _ _

end Evaluation

section Sample

def sampleStock : Symbol := ⟨"000001".toList, Eq.refl true⟩

def sampleNext : Symbol := ⟨"000002".toList, Eq.refl true⟩

def sampleIndex : Symbol := ⟨"000300".toList, Eq.refl true⟩

def evaluationDay (i : Fin 3) : Date := .daysFrom 2026 3 2 i

def sampleBar (symbol : Symbol) (i : Fin 3) : EvaluationBar where
  symbol := symbol
  date := evaluationDay i
  «open» := 10
  close := 10
  isSuspended := false
  isLimitUp := false
  isLimitDown := false

/-- One position is allowed, and the first stock has no bar when the second one is bought. -/
def hinderedEvaluation : Evaluation where
  config := { maxPositions := 1 }
  positiveHorizon := by decide
  positiveDelay := by decide
  predictions := [⟨evaluationDay 0, sampleStock, 1⟩, ⟨evaluationDay 1, sampleNext, 1⟩]
  bars := [sampleBar sampleStock 0, sampleBar sampleStock 1, sampleBar sampleNext 0,
    sampleBar sampleNext 1, sampleBar sampleNext 2, sampleBar sampleIndex 0,
    sampleBar sampleIndex 1, sampleBar sampleIndex 2]
  benchmark := sampleIndex

/-- A position without a bar stays, is not counted and leaves its place to another one. -/
theorem hinderedEvaluation_unsound :
    (∀ row ∈ hinderedEvaluation.bars, 0 < row.open ∧ 0 < row.close) ∧
      (∀ day ∈ hinderedEvaluation.calendar,
        (hinderedEvaluation.barLookup hinderedEvaluation.benchmark day).isSome) ∧
      ¬ Runs.Always hinderedEvaluation.step hinderedEvaluation.RunSound (.ok Simulation.start)
        hinderedEvaluation.calendar := by
  refine ⟨by decide +kernel, by decide +kernel, fun halways => ?_⟩
  obtain ⟨sim, hsim, hsound⟩ := halways.last
  have htwo : ((hinderedEvaluation.calendar.foldl hinderedEvaluation.step
      (.ok Simulation.start)).toOption.map fun sim => sim.positions.length) = some 2 := by
    decide +kernel
  rw [hsim] at htwo
  have hlength : sim.positions.length = 2 := Option.some.inj htwo
  have hcount := hsound.count
  rw [hlength] at hcount
  exact absurd hcount (by decide)

/-- One stock with a bar on every day. -/
def plainEvaluation : Evaluation where
  config := {}
  positiveHorizon := by decide
  positiveDelay := by decide
  predictions := [⟨evaluationDay 0, sampleStock, 1⟩]
  bars := [sampleBar sampleStock 0, sampleBar sampleStock 1, sampleBar sampleIndex 0,
    sampleBar sampleIndex 1]
  benchmark := sampleIndex

theorem plainEvaluation_sound :
    Runs.Always plainEvaluation.step plainEvaluation.RunSound (.ok Simulation.start)
      plainEvaluation.calendar := by
  have h := Evaluation.simulate_respects plainEvaluation (by decide +kernel) (by decide +kernel)
  have hcalendar : plainEvaluation.calendar = [evaluationDay 0, evaluationDay 1] := by
    decide +kernel
  -- nothing is held before the day of the purchase
  have hempty : ∀ {day : Date} {sim : Simulation}, sim.positions = [] →
      (∀ group, plainEvaluation.event day = some group →
        (targetWeights group plainEvaluation.config).length ≤ 1) →
      plainEvaluation.Unhindered day sim := by
    intro day sim hpositions htargets
    constructor
    · intro holding hmem
      rw [hpositions] at hmem
      cases hmem
    · intro group hgroup
      have hkept : plainEvaluation.keptPositions day group sim = [] := by
        rw [Evaluation.keptPositions, hpositions, List.filter_nil]
      have hone := (List.length_filter_le (fun target => (plainEvaluation.purchaseBar day
        (plainEvaluation.keptPositions day group sim) target.1).isSome)
        (targetWeights group plainEvaluation.config)).trans (htargets group hgroup)
      have hmax : plainEvaluation.config.maxPositions = 10 := rfl
      rw [hmax]
      rw [hkept] at hone ⊢
      rw [List.length_nil]
      omega
    · rintro group hgroup ⟨holding, hmem, _⟩
      rw [hpositions] at hmem
      cases hmem
    · intro group hgroup _
      exact ⟨by decide +kernel, by decide +kernel⟩
  refine h.1 (by decide) ?_
  rw [hcalendar]
  refine ⟨?_, ?_, trivial⟩
  · rintro sim hsim
    cases hsim
    refine hempty rfl fun group hgroup => ?_
    have hnone : (plainEvaluation.event (evaluationDay 0)).isNone = true := by decide +kernel
    rw [hgroup] at hnone
    cases hnone
  · intro sim hsim
    refine hempty ?_ fun group hgroup => ?_
    · have hpositions : ((plainEvaluation.step (.ok Simulation.start)
          (evaluationDay 0)).toOption.map Simulation.positions) = some [] := by decide +kernel
      rw [hsim] at hpositions
      exact Option.some.inj hpositions
    · have htargets : ((plainEvaluation.event (evaluationDay 1)).map fun group =>
          (targetWeights group plainEvaluation.config).length) = some 1 := by decide +kernel
      rw [hgroup] at htargets
      exact (Option.some.inj htargets).le

end Sample

end QuantWorkbench.Experiments
