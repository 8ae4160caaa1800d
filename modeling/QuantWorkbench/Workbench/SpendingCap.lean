import QuantWorkbench.Workbench.AgentRequests

/-!
The spending caps of the optional analysis: whatever the tasks of any number of processes do on
one ledger, what the provider charges stays within the budget of each day, of each task, and
within the limit of an experiment from the moment that it is durable. A request holds the smaller
of what was reserved for it and what it was settled with. The provider charges no more than that,
and the ledger never counts less.
-/

namespace QuantWorkbench.Workbench

open Lib

/-! ### Costs -/

/-- The smallest step of an amount, as the prices are. -/
def costScale : ℕ := 100000000

/-- Amounts of the smallest step up to a million milliards keep their digits. -/
theorem representable_of_onGrid {x : ℚ} (hgrid : Rounding.OnGrid costScale x)
    (hbound : |x| ≤ 10 ^ 15) : DecimalContext.default.Representable x := by
  obtain ⟨steps, rfl⟩ := hgrid
  have hscale : ((costScale : ℕ) : ℚ) = 10 ^ 8 := by norm_num [costScale]
  rw [hscale] at hbound ⊢
  apply DecimalContext.default_representable steps 8 (by norm_num)
  rw [abs_div, abs_of_pos (by positivity : (0 : ℚ) < 10 ^ 8), div_le_iff₀ (by positivity)] at hbound
  have hsteps : |(steps : ℚ)| < 10 ^ 28 := hbound.trans_lt (by norm_num)
  exact_mod_cast hsteps

theorem le_of_result {lower x total : ℚ} (hresult : DecimalContext.default.result? x = some total)
    (hgrid : Rounding.OnGrid costScale lower) (hnonneg : 0 ≤ lower) (hbound : lower ≤ 10 ^ 15)
    (h : lower ≤ x) : lower ≤ total := by
  apply DecimalContext.le_of_result? _ hnonneg (by norm_num [DecimalContext.default]) h hresult
  exact representable_of_onGrid hgrid (by rwa [abs_of_nonneg hnonneg])

theorem result_of_onGrid {x : ℚ} (hgrid : Rounding.OnGrid costScale x) (hbound : |x| ≤ 10 ^ 15) :
    DecimalContext.default.result? x = some x :=
  DecimalContext.result?_of_representable (representable_of_onGrid hgrid hbound)

namespace TokenPrice

/-- Prices in whole hundredths. -/
def InHundredths (price : TokenPrice) : Prop :=
  ∃ input output : ℕ, price = ⟨input / 100, output / 100⟩ ∧
    1 ≤ input ∧ input ≤ 1000 ∧ 1 ≤ output ∧ output ≤ 1000

theorem usd_inHundredths : usd.InHundredths :=
  ⟨30, 120, rfl, by norm_num, by norm_num, by norm_num, by norm_num⟩

theorem cny_inHundredths : cny.InHundredths :=
  ⟨200, 800, rfl, by norm_num, by norm_num, by norm_num, by norm_num⟩

theorem exactCost_nonneg {price : TokenPrice} (h : price.InHundredths) (input output : ℕ) :
    0 ≤ price.exactCost input output := by
  obtain ⟨p, q, rfl, -⟩ := h
  unfold exactCost
  positivity

theorem exactCost_onGrid {price : TokenPrice} (h : price.InHundredths) (input output : ℕ) :
    Rounding.OnGrid costScale (price.exactCost input output) := by
  obtain ⟨p, q, rfl, -⟩ := h
  refine ⟨input * p + output * q, ?_⟩
  unfold exactCost costScale
  push_cast
  ring

def manyTokens : ℕ := 1000000000000

/-- The cost of some tokens at a price in hundredths of a currency for each. -/
theorem onGrid_tokens (tokens price : ℕ) :
    Rounding.OnGrid costScale ((tokens : ℚ) * (price / 100)) := by
  refine ⟨tokens * price * 1000000, ?_⟩
  unfold costScale
  push_cast
  ring

theorem tokens_le {tokens price : ℕ} (hmany : tokens ≤ manyTokens) (hprice : price ≤ 1000) :
    (tokens : ℚ) * (price / 100) ≤ 10 ^ 13 := by
  have htokens : (tokens : ℚ) ≤ 10 ^ 12 := by
    calc (tokens : ℚ) ≤ (manyTokens : ℕ) := by exact_mod_cast hmany
      _ = 10 ^ 12 := by norm_num [manyTokens]
  have hhundredths : (price : ℚ) / 100 ≤ 10 := by
    have hcast : (price : ℚ) ≤ 1000 := by exact_mod_cast hprice
    linarith
  calc (tokens : ℚ) * (price / 100) ≤ 10 ^ 12 * 10 := by gcongr
    _ = 10 ^ 13 := by norm_num

theorem tokens_nonneg (tokens price : ℕ) : (0 : ℚ) ≤ tokens * (price / 100) := by positivity

/-- Each step of the computation is at least what it is for fewer tokens. -/
theorem exactCost_le_cost {price : TokenPrice} (h : price.InHundredths)
    {input output input' output' : ℕ} {cost : ℚ} (hcost : price.cost input output = .ok cost)
    (hinput : input' ≤ input) (houtput : output' ≤ output) (hmany : input' ≤ manyTokens)
    (hmany' : output' ≤ manyTokens) : price.exactCost input' output' ≤ cost := by
  have hgrid := exactCost_onGrid h input' output'
  have hnonneg := exactCost_nonneg h input' output'
  obtain ⟨p, q, rfl, -, hp, -, hq⟩ := h
  simp only [TokenPrice.cost, bind_eq_ok_iff, orRaise_eq_ok_iff, Budget.add_eq_ok_iff] at hcost
  obtain ⟨inputCost, hinputCost, outputCost, houtputCost, sum, hsum, hresult⟩ := hcost
  have hinputLe : (input' : ℚ) * (p / 100) ≤ inputCost := by
    apply le_of_result hinputCost (onGrid_tokens input' p) (tokens_nonneg input' p)
    · linarith [tokens_le hmany hp]
    · gcongr
  have houtputLe : (output' : ℚ) * (q / 100) ≤ outputCost := by
    apply le_of_result houtputCost (onGrid_tokens output' q) (tokens_nonneg output' q)
    · linarith [tokens_le hmany' hq]
    · gcongr
  have hsumLe : (input' : ℚ) * (p / 100) + output' * (q / 100) ≤ sum := by
    apply le_of_result hsum ((onGrid_tokens input' p).add (onGrid_tokens output' q))
    · linarith [tokens_nonneg input' p, tokens_nonneg output' q]
    · linarith [tokens_le hmany hp, tokens_le hmany' hq]
    · linarith
  apply le_of_result hresult hgrid hnonneg
  · unfold exactCost
    linarith [tokens_le hmany hp, tokens_le hmany' hq]
  · unfold exactCost
    exact div_le_div_of_nonneg_right hsumLe (by norm_num)

theorem cost_exact {price : TokenPrice} (h : price.InHundredths) {input output : ℕ}
    (hmany : input ≤ manyTokens) (hmany' : output ≤ manyTokens) :
    price.cost input output = .ok (price.exactCost input output) := by
  have hgrid := exactCost_onGrid h input output
  have hnonneg := exactCost_nonneg h input output
  obtain ⟨p, q, rfl, -, hp, -, hq⟩ := h
  have hinputLe := tokens_le hmany hp
  have houtputLe := tokens_le hmany' hq
  have hinputCost := result_of_onGrid (onGrid_tokens input p)
    (by rw [abs_of_nonneg (tokens_nonneg input p)]; linarith)
  have houtputCost := result_of_onGrid (onGrid_tokens output q)
    (by rw [abs_of_nonneg (tokens_nonneg output q)]; linarith)
  have hsum := result_of_onGrid ((onGrid_tokens input p).add (onGrid_tokens output q)) (by
    rw [abs_of_nonneg (add_nonneg (tokens_nonneg input p) (tokens_nonneg output q))]
    linarith)
  have hresult := result_of_onGrid hgrid (by
    rw [abs_of_nonneg hnonneg]
    unfold exactCost
    linarith)
  simp only [TokenPrice.cost, bind_eq_ok_iff, orRaise_eq_ok_iff, Budget.add_eq_ok_iff]
  exact ⟨_, hinputCost, _, houtputCost, _, hsum, hresult⟩

/-- Computed costs are exact, or too large for any budget. -/
theorem cost_cases {price : TokenPrice} (h : price.InHundredths) {input output : ℕ} {cost : ℚ}
    (hcost : price.cost input output = .ok cost) :
    cost = price.exactCost input output ∨ 10000 ≤ cost := by
  by_cases hmany : input ≤ manyTokens ∧ output ≤ manyTokens
  · rw [cost_exact h hmany.1 hmany.2] at hcost
    exact .inl (Except.ok.inj hcost).symm
  right
  have hlarge : (10000 : ℚ) ≤
      price.exactCost (min input manyTokens) (min output manyTokens) := by
    obtain ⟨p, q, rfl, hp, -, hq, -⟩ := h
    have hpCast : (1 : ℚ) ≤ p := by exact_mod_cast hp
    have hqCast : (1 : ℚ) ≤ q := by exact_mod_cast hq
    unfold exactCost
    rcases not_and_or.mp hmany with hinput | houtput
    · rw [min_eq_right (by omega : manyTokens ≤ input)]
      have hrest := tokens_nonneg (min output manyTokens) q
      norm_num [manyTokens] at hrest ⊢
      linarith
    · rw [min_eq_right (by omega : manyTokens ≤ output)]
      have hrest := tokens_nonneg (min input manyTokens) p
      norm_num [manyTokens] at hrest ⊢
      linarith
  exact hlarge.trans (exactCost_le_cost h hcost (min_le_left _ _) (min_le_left _ _)
    (min_le_right _ _) (min_le_right _ _))

/-- The same tokens cost twenty thirds as much in the other currency. -/
theorem exactCost_cny (input output : ℕ) :
    cny.exactCost input output = 20 / 3 * usd.exactCost input output := by
  unfold exactCost cny usd AgentRuntimeConfig.inputUsdPerMillion
    AgentRuntimeConfig.outputUsdPerMillion AgentRuntimeConfig.inputCnyPerMillion
    AgentRuntimeConfig.outputCnyPerMillion
  ring

end TokenPrice

/-! ### What a request holds -/

namespace Reservation

/-- The part of the reservation that the request still holds. -/
def held (reservation : Reservation) : ℚ := min reservation.reserved reservation.counted

def heldCny (reservation : Reservation) : ℚ :=
  min (valueCny reservation.reservedCny) reservation.countedCny

theorem held_of_open {reservation : Reservation} (h : reservation.settled = none) :
    reservation.held = reservation.reserved := by
  rw [held, counted, h]
  exact min_self _

theorem heldCny_of_open {reservation : Reservation} (h : reservation.settled = none) :
    reservation.heldCny = valueCny reservation.reservedCny := by
  rw [heldCny, countedCny, h]
  exact min_self _

end Reservation

namespace AgentRequest

/-- What the requests of a selection hold, and what they are charged. -/
def heldBy (select : AgentRequest → Bool) (request : AgentRequest) : ℚ :=
  if select request then request.reservation.held else 0

def chargedBy (select : AgentRequest → Bool) (request : AgentRequest) : ℚ :=
  if select request then (request.bill.map Bill.usd).getD 0 else 0

def chargeCny (request : AgentRequest) : ℚ := (request.bill.map Bill.cny).getD 0

def onDay (day : Date) (request : AgentRequest) : Bool := decide (request.reservation.day = day)

def ofTask (task : ℕ) (request : AgentRequest) : Bool := decide (request.task = task)

/-- An amount of the smallest step that is not negative. -/
structure Amount (value : ℚ) : Prop where
  grid : Rounding.OnGrid costScale value
  nonneg : 0 ≤ value

theorem Amount.min {x y : ℚ} (hx : Amount x) (hy : Amount y) : Amount (min x y) := by
  rcases min_choice x y with h | h
  · rw [h]
    exact hx
  · rw [h]
    exact hy

theorem Amount.add {x y : ℚ} (hx : Amount x) (hy : Amount y) : Amount (x + y) :=
  ⟨hx.grid.add hy.grid, add_nonneg hx.nonneg hy.nonneg⟩

/-- A request was reserved for with the cost of its bound, and is charged no more than it holds. -/
structure Sound (request : AgentRequest) : Prop where
  reserved : request.reservation.reserved =
    TokenPrice.usd.exactCost request.inputBound request.maxOutput
  reservedCny : request.reservation.reservedCny =
    some (.finite (TokenPrice.cny.exactCost request.inputBound request.maxOutput))
  small : request.reservation.reserved < 1
  amount : Amount request.reservation.held
  amountCny : Amount request.reservation.heldCny
  bill : ∀ bill ∈ request.bill, bill.usd ≤ request.reservation.held ∧
    bill.cny ≤ request.reservation.heldCny

theorem Sound.chargedBy_le {request : AgentRequest} (h : request.Sound)
    (select : AgentRequest → Bool) : request.chargedBy select ≤ request.heldBy select := by
  unfold chargedBy heldBy
  split
  · cases hbill : request.bill with
    | none => exact h.amount.nonneg
    | some bill => exact (h.bill bill hbill).1
  · exact le_rfl

theorem Sound.chargeCny_le {request : AgentRequest} (h : request.Sound) :
    request.chargeCny ≤ request.reservation.heldCny := by
  unfold chargeCny
  cases hbill : request.bill with
  | none => exact h.amountCny.nonneg
  | some bill => exact (h.bill bill hbill).2

theorem Sound.heldBy_amount {request : AgentRequest} (h : request.Sound)
    (select : AgentRequest → Bool) : Amount (request.heldBy select) := by
  unfold heldBy
  split
  · exact h.amount
  · exact ⟨Rounding.onGrid_zero costScale, le_rfl⟩

end AgentRequest

section Totals

variable {α : Type}

theorem totalOf_le {weight other : α → ℚ} {items : List α}
    (h : ∀ item ∈ items, weight item ≤ other item) : totalOf weight items ≤ totalOf other items :=
  List.sum_le_sum h

theorem totalOf_amount {weight : α → ℚ} {items : List α}
    (h : ∀ item ∈ items, AgentRequest.Amount (weight item)) :
    AgentRequest.Amount (totalOf weight items) := by
  constructor
  · exact Rounding.OnGrid.sum weight items fun item hitem => (h item hitem).grid
  · apply List.sum_nonneg
    intro value hvalue
    obtain ⟨item, hitem, rfl⟩ := List.mem_map.mp hvalue
    exact (h item hitem).nonneg

/-- The items after the first ones weigh no more than all of them. -/
theorem totalOf_drop_le {weight : α → ℚ} {items : List α} (count : ℕ)
    (h : ∀ item ∈ items, 0 ≤ weight item) :
    totalOf weight (items.drop count) ≤ totalOf weight items := by
  have hsplit : totalOf weight items =
      totalOf weight (items.take count) + totalOf weight (items.drop count) := by
    rw [totalOf, totalOf, totalOf, ← List.sum_append, ← List.map_append, List.take_append_drop]
  have hfirst : 0 ≤ totalOf weight (items.take count) := by
    apply List.sum_nonneg
    intro value hvalue
    obtain ⟨item, hitem, rfl⟩ := List.mem_map.mp hvalue
    exact h item (List.mem_of_mem_take hitem)
  linarith

/-- One item weighs no more than all of them. -/
theorem le_totalOf (weight : α → ℚ) {items : List α} {index : ℕ} {item : α}
    (hindex : items[index]? = some item) (h : ∀ item ∈ items, 0 ≤ weight item) :
    weight item ≤ totalOf weight items := by
  apply List.single_le_sum
  · intro value hvalue
    obtain ⟨other, hother, rfl⟩ := List.mem_map.mp hvalue
    exact h other hother
  · exact List.mem_map_of_mem (List.mem_of_getElem? hindex)

end Totals

namespace AgentSystem

open AgentRequest

variable {cfg : AgentRuntimeConfig}

/-- What the tasks and the provider keep to: each task has the budgets of the configuration, no
request is billed above the cost of its bound, nor above the cost of the usage that its reply
reports. -/
def Assumed (cfg : AgentRuntimeConfig) (system : AgentSystem) : AgentEvent → Prop
  | .start other _ => other.dailyBudgetUsd = cfg.dailyBudgetUsd ∧
      other.taskBudgetUsd = cfg.taskBudgetUsd
  | .send index bill => ∀ task position request, system.tasks[index]? = some task →
      task.phase = .reserved position → system.requests[position]? = some request →
        bill.usd ≤ TokenPrice.usd.exactCost request.inputBound request.maxOutput ∧
          bill.cny ≤ TokenPrice.cny.exactCost request.inputBound request.maxOutput
  | .reply index usage _ _ => ∀ task position request bill input output,
      system.tasks[index]? = some task → task.phase = .sent position →
        system.requests[position]? = some request → request.bill = some bill →
          usage.bind Usage.valid? = some (input, output) →
            bill.usd ≤ TokenPrice.usd.exactCost input output ∧
              bill.cny ≤ TokenPrice.cny.exactCost input output
  | _ => True

/-- What holds at every moment. -/
structure Capped (cfg : AgentRuntimeConfig) (system : AgentSystem) : Prop where
  /-- A request that is sent has a reservation that covers its bound. -/
  covered : ∀ request ∈ system.requests, request.bill.isSome →
    TokenPrice.usd.exactCost request.inputBound request.maxOutput ≤ request.reservation.reserved ∧
      TokenPrice.cny.exactCost request.inputBound request.maxOutput ≤
        Reservation.valueCny request.reservation.reservedCny
  /-- The ledger file has what the requests of a day hold. -/
  durable : ∀ day, totalOf (heldBy (onDay day)) system.requests ≤ system.ledger.spentOn day
  daily : ∀ day, totalOf (chargedBy (onDay day)) system.requests ≤ cfg.dailyBudgetUsd
  task : ∀ task, totalOf (chargedBy (ofTask task)) system.requests ≤ cfg.taskBudgetUsd

/-- The invariant of the tasks, their requests and the ledger. -/
structure Inv (cfg : AgentRuntimeConfig) (system : AgentSystem) : Prop where
  sound : ∀ request ∈ system.requests, request.Sound
  owned : ∀ request ∈ system.requests, request.task < system.tasks.length
  recorded : ∀ day, totalOf (heldBy (onDay day)) system.requests ≤ system.ledger.spentOn day
  daily : ∀ day, totalOf (heldBy (onDay day)) system.requests ≤ cfg.dailyBudgetUsd
  task : ∀ task, totalOf (heldBy (ofTask task)) system.requests ≤ cfg.taskBudgetUsd
  counted : ∀ (index : ℕ) (task : AgentTask), system.tasks[index]? = some task →
    totalOf (heldBy (ofTask index)) system.requests ≤ task.taskCost
  experiment : system.ledger.experiment = none → system.requests = []
  charged : ∀ trial, system.ledger.experiment = some trial →
    totalOf (fun request => request.reservation.heldCny) system.requests ≤ trial.reservedAndSpent
  limited : ∀ trial, system.ledger.experiment = some trial → 0 ≤ trial.limit
  within : totalOf (fun request => request.reservation.heldCny) system.requests ≤ 3
  phases : ∀ (index : ℕ) (task : AgentTask) (position : ℕ), system.tasks[index]? = some task →
    task.phase = .reserved position ∨ task.phase = .sent position →
      ∃ request, system.requests[position]? = some request ∧ request.task = index ∧
        request.reservation.settled = none
  configs : ∀ task ∈ system.tasks, Ready task.cfg ∧
    task.cfg.dailyBudgetUsd = cfg.dailyBudgetUsd ∧ task.cfg.taskBudgetUsd = cfg.taskBudgetUsd

theorem Inv.capped {system : AgentSystem} (h : system.Inv cfg) : system.Capped cfg where
  covered request hrequest _ := by
    have hsound := h.sound request hrequest
    rw [hsound.reserved, hsound.reservedCny]
    exact ⟨le_rfl, le_rfl⟩
  durable := h.recorded
  daily day := (totalOf_le fun request hrequest =>
    (h.sound request hrequest).chargedBy_le (onDay day)).trans (h.daily day)
  task task := (totalOf_le fun request hrequest =>
    (h.sound request hrequest).chargedBy_le (ofTask task)).trans (h.task task)

theorem inv_start : start.Inv cfg where
  sound _ h := (List.not_mem_nil h).elim
  owned _ h := (List.not_mem_nil h).elim
  recorded _ := le_rfl
  daily _ := cfg.daily_nonneg
  task _ := cfg.task_nonneg
  counted _ _ h := nomatch h
  experiment _ := rfl
  charged _ h := nomatch h
  limited _ h := nomatch h
  within := by norm_num [start]
  phases _ _ _ h := nomatch h
  configs _ h := (List.not_mem_nil h).elim

/-- A task that waits for no request takes the place of one with the same settings and cost. -/
theorem Inv.withTask {system : AgentSystem} (h : system.Inv cfg) {index : ℕ} {task new : AgentTask}
    (hindex : system.tasks[index]? = some task) (hcfg : new.cfg = task.cfg)
    (hcost : new.taskCost = task.taskCost)
    (hphase : ∀ position, ¬ (new.phase = .reserved position ∨ new.phase = .sent position)) :
    (system.withTask index new).Inv cfg := by
  obtain ⟨hlt, -⟩ := List.getElem?_eq_some_iff.mp hindex
  exact
    { h with
      owned := fun request hrequest => by
        rw [AgentSystem.withTask, List.length_set]
        exact h.owned request hrequest
      counted := fun other found hfound => by
        rw [AgentSystem.withTask] at hfound
        by_cases hother : other = index
        · subst hother
          rw [List.getElem?_set_self hlt] at hfound
          cases hfound
          rw [hcost]
          exact h.counted other task hindex
        · rw [List.getElem?_set_ne (Ne.symm hother)] at hfound
          exact h.counted other found hfound
      phases := fun other found position hfound hwaits => by
        rw [AgentSystem.withTask] at hfound
        by_cases hother : other = index
        · subst hother
          rw [List.getElem?_set_self hlt] at hfound
          cases hfound
          exact (hphase position hwaits).elim
        · rw [List.getElem?_set_ne (Ne.symm hother)] at hfound
          exact h.phases other found position hfound hwaits
      configs := fun found hfound => by
        rcases List.mem_or_eq_of_mem_set hfound with hold | rfl
        · exact h.configs found hold
        · rw [hcfg]
          exact h.configs task (List.mem_of_getElem? hindex) }

/-- How the experiment and the requests go on in a step: a new request fits in the limit together
with all others, and otherwise no request holds more than before. -/
structure Follows (system next : AgentSystem) : Prop where
  limit : ∀ trial, system.ledger.experiment = some trial →
    ∃ kept, next.ledger.experiment = some kept ∧ kept.limit ≤ trial.limit
  requests : (∃ new trial, next.requests = system.requests ++ [new] ∧
      next.ledger.experiment = some trial ∧
      totalOf (fun request => request.reservation.heldCny) next.requests ≤ trial.limit) ∨
    (next.requests.length = system.requests.length ∧ ∀ count,
      totalOf (fun request => request.reservation.heldCny) (next.requests.drop count) ≤
        totalOf (fun request => request.reservation.heldCny) (system.requests.drop count))

theorem follows_of_same {system next : AgentSystem}
    (hlimit : ∀ trial, system.ledger.experiment = some trial →
      ∃ kept, next.ledger.experiment = some kept ∧ kept.limit ≤ trial.limit)
    (hrequests : next.requests = system.requests) : system.Follows next := by
  refine ⟨hlimit, .inr ⟨?_, fun count => ?_⟩⟩
  · rw [hrequests]
  · rw [hrequests]

theorem follows_withTask (system : AgentSystem) (index : ℕ) (task : AgentTask) :
    system.Follows (system.withTask index task) :=
  follows_of_same (fun trial htrial => ⟨trial, htrial, le_rfl⟩) rfl

theorem follows_of_set {system : AgentSystem} {ledger : Budget} {tasks : List AgentTask}
    {position : ℕ} {request new : AgentRequest}
    (hrequest : system.requests[position]? = some request)
    (hheldCny : new.reservation.heldCny ≤ request.reservation.heldCny)
    (hlimit : ∀ trial, system.ledger.experiment = some trial →
      ∃ kept, ledger.experiment = some kept ∧ kept.limit ≤ trial.limit) :
    system.Follows ⟨ledger, system.requests.set position new, tasks⟩ := by
  refine ⟨hlimit, .inr ⟨List.length_set, fun count => ?_⟩⟩
  rw [List.drop_set]
  split
  · exact le_rfl
  · rename_i hposition
    have hdropped : (system.requests.drop count)[position - count]? = some request := by
      rw [List.getElem?_drop, Nat.add_sub_cancel' (not_lt.mp hposition)]
      exact hrequest
    rw [totalOf_set _ hdropped]
    linarith

theorem le_add {x y total lower : ℚ} (hsum : Budget.add x y = .ok total) (hlower : Amount lower)
    (hbound : lower ≤ 100000) (h : lower ≤ x + y) : lower ≤ total :=
  le_of_result (Budget.add_eq_ok_iff.mp hsum) hlower.grid hlower.nonneg
    (hbound.trans (by norm_num)) h

theorem le_sub {x y total lower : ℚ} (hsum : Budget.sub x y = .ok total) (hlower : Amount lower)
    (hbound : lower ≤ 100000) (h : lower ≤ x - y) : lower ≤ total :=
  le_of_result (Budget.sub_eq_ok_iff.mp hsum) hlower.grid hlower.nonneg
    (hbound.trans (by norm_num)) h

theorem amount_natCast (value : ℕ) : Amount value :=
  ⟨⟨value * costScale, by norm_num [costScale]⟩, Nat.cast_nonneg value⟩

theorem amount_exactCost {price : TokenPrice} (h : price.InHundredths) (input output : ℕ) :
    Amount (price.exactCost input output) :=
  ⟨TokenPrice.exactCost_onGrid h input output, TokenPrice.exactCost_nonneg h input output⟩

/-- An amount that is added to what is not negative is at most the sum. -/
theorem lt_of_add_lt {x y total : ℚ} (bound : ℕ) (hsum : Budget.add x y = .ok total) (hx : 0 ≤ x)
    (hbound : (bound : ℚ) ≤ 100000) (htotal : total < bound) : y < bound := by
  by_contra hy
  have hle := le_add hsum (amount_natCast bound) hbound (by linarith [not_lt.mp hy])
  linarith

theorem Inv.heldCny_amount {system : AgentSystem} (h : system.Inv cfg) :
    Amount (totalOf (fun request => request.reservation.heldCny) system.requests) :=
  totalOf_amount fun request hrequest => (h.sound request hrequest).amountCny

theorem Inv.heldBy_amount {system : AgentSystem} (h : system.Inv cfg)
    (select : AgentRequest → Bool) : Amount (totalOf (heldBy select) system.requests) :=
  totalOf_amount fun request hrequest => (h.sound request hrequest).heldBy_amount select

/-- The experiment that a charge goes to has at least what the requests hold. -/
theorem Inv.trialOf {system : AgentSystem} (h : system.Inv cfg) (limit : ℚ) :
    totalOf (fun request => request.reservation.heldCny) system.requests ≤
      (system.ledger.trialOf limit).reservedAndSpent := by
  unfold Budget.trialOf
  cases htrial : system.ledger.experiment with
  | none =>
      rw [h.experiment htrial]
      exact le_rfl
  | some trial => exact h.charged trial htrial

theorem ready_charges {task : AgentTask} (h : Ready task.cfg) (ledger : Budget) :
    ledger.Charges task.cfg :=
  .inl (task.cfg.generation h.1 h.2.1 h.2.2)

/-- What the reservation of a request of a task has established. -/
structure Reserves (system : AgentSystem) (task : AgentTask) (day : Date) (messages : Json)
    (ledger : Budget) (reservation : Reservation) (total totalCny taskTotal limit : ℚ) : Prop where
  made : reservation = ⟨day,
    TokenPrice.usd.exactCost (inputBound messages) task.cfg.maxOutputTokens,
    some (.finite (TokenPrice.cny.exactCost (inputBound messages) task.cfg.maxOutputTokens)),
    true, none⟩
  small : reservation.reserved < 1
  sum : Budget.add (system.ledger.spentOn day) reservation.reserved = .ok total
  within : total ≤ task.cfg.dailyBudgetUsd
  taskSum : Budget.add task.taskCost reservation.reserved = .ok taskTotal
  taskWithin : taskTotal ≤ task.cfg.taskBudgetUsd
  spentOn : ledger.spentOn day = total
  spentOn_of_ne : ∀ other, other ≠ day → ledger.spentOn other = system.ledger.spentOn other
  sumCny : Budget.add (system.ledger.trialOf task.cfg.experimentBudgetCny).reservedAndSpent
    (Reservation.valueCny reservation.reservedCny) = .ok totalCny
  withinCny : totalCny ≤ limit
  limit_eq : limit = min task.cfg.experimentBudgetCny
    (system.ledger.trialOf task.cfg.experimentBudgetCny).limit
  experiment : ledger.experiment = some ⟨limit, totalCny⟩

theorem Inv.reserves {system : AgentSystem} (h : system.Inv cfg) {task : AgentTask}
    (htask : Ready task.cfg) {day : Date} {messages : Json} {written : Bool} {ledger : Budget}
    {reservation : Reservation}
    (hok : system.reservation task day messages written = .ok (ledger, reservation)) :
    ∃ total totalCny taskTotal limit, system.Reserves task day messages ledger reservation total
      totalCny taskTotal limit := by
  simp only [AgentSystem.reservation, bind_eq_ok_iff, Spending.replaced_eq_ok_iff] at hok
  obtain ⟨reserved, hcost, reservedCny, hcostCny, next, ⟨hreserve, -⟩, hresult⟩ := hok
  obtain ⟨rfl, rfl⟩ := Prod.mk.inj (Except.ok.inj hresult)
  obtain ⟨charged, value, spent, total, taskTotal, hreserved⟩ :=
    Budget.reserve_eq_ok_iff.mp hreserve
  cases hreserved.finite
  cases hreserved.taskFinite
  have hcharges := ready_charges htask system.ledger
  obtain ⟨valueCny, totalCny, hcharge⟩ :=
    (Budget.chargeExperiment_eq_ok_iff hcharges).mp hreserved.charge
  cases hcharge.finite
  have hsmall : reserved < 1 := by
    have hlt := lt_of_add_lt 1 hreserved.sum hreserved.notNegative (by norm_num) (by
      push_cast
      linarith [hreserved.within, task.cfg.daily_le])
    exact_mod_cast hlt
  have hsmallCny : reservedCny < 10000 := by
    have hnonneg := h.heldCny_amount.nonneg.trans (h.trialOf task.cfg.experimentBudgetCny)
    have hlt := lt_of_add_lt 10000 hcharge.sum hnonneg (by norm_num) (by
      push_cast
      have hle := hcharge.within.trans (min_le_left _ _)
      linarith [task.cfg.experiment_le])
    exact_mod_cast hlt
  have hexact : reserved = _ :=
    (TokenPrice.cost_cases TokenPrice.usd_inHundredths hcost).resolve_right (by linarith)
  have hexactCny : reservedCny = _ :=
    (TokenPrice.cost_cases TokenPrice.cny_inHundredths hcostCny).resolve_right (by linarith)
  refine ⟨total, totalCny, taskTotal, _, ?_, hsmall, hreserved.sum, hreserved.within,
    hreserved.taskSum, hreserved.taskWithin, ?_, ?_, hcharge.sum, hcharge.within, rfl, ?_⟩
  · rw [← hexact, ← hexactCny, decide_eq_true hcharges]
  · rw [hreserved.result, Budget.spentOn_setDay]
  · intro other hother
    rw [hreserved.result, Budget.spentOn_setDay_of_ne charged total hother, Budget.spentOn,
      Budget.chargeExperiment_days hreserved.charge, ← Budget.spentOn]
  · rw [hreserved.result, Budget.experiment_setDay, hcharge.result]

def requested (index : ℕ) (task : AgentTask) (messages : Json) (reservation : Reservation) :
    AgentRequest :=
  ⟨index, inputBound messages, task.cfg.maxOutputTokens, reservation, none⟩

theorem Reserves.sound {system : AgentSystem} {task : AgentTask} {day : Date} {messages : Json}
    {ledger : Budget} {reservation : Reservation} {total totalCny taskTotal limit : ℚ}
    (h : system.Reserves task day messages ledger reservation total totalCny taskTotal limit)
    (index : ℕ) : (requested index task messages reservation).Sound := by
  have hopen : reservation.settled = none := by rw [h.made]
  refine ⟨?_, ?_, h.small, ?_, ?_, fun bill hbill => nomatch hbill⟩
  · change reservation.reserved = _
    rw [h.made]
    rfl
  · change reservation.reservedCny = _
    rw [h.made]
    rfl
  · change Amount reservation.held
    rw [Reservation.held_of_open hopen, h.made]
    exact amount_exactCost TokenPrice.usd_inHundredths _ _
  · change Amount reservation.heldCny
    rw [Reservation.heldCny_of_open hopen, h.made]
    exact amount_exactCost TokenPrice.cny_inHundredths _ _

theorem Reserves.held {system : AgentSystem} {task : AgentTask} {day : Date} {messages : Json}
    {ledger : Budget} {reservation : Reservation} {total totalCny taskTotal limit : ℚ}
    (h : system.Reserves task day messages ledger reservation total totalCny taskTotal limit) :
    reservation.held = reservation.reserved ∧
      reservation.heldCny = Reservation.valueCny reservation.reservedCny ∧
      reservation.heldCny < 7 := by
  have hopen : reservation.settled = none := by rw [h.made]
  refine ⟨Reservation.held_of_open hopen, Reservation.heldCny_of_open hopen, ?_⟩
  have hsmall := h.small
  rw [Reservation.heldCny_of_open hopen]
  rw [h.made] at hsmall ⊢
  rw [Reservation.valueCny_finite, TokenPrice.exactCost_cny]
  linarith

/-- The system once the reservation of a task is durable. -/
def afterReserve (system : AgentSystem) (index : ℕ) (task : AgentTask) (messages : Json)
    (ledger : Budget) (reservation : Reservation) (taskTotal : ℚ) : AgentSystem where
  ledger := ledger
  requests := system.requests ++ [requested index task messages reservation]
  tasks := system.tasks.set index
    ⟨task.cfg, taskTotal, task.requests + 1, .reserved system.requests.length⟩

theorem Inv.total_afterReserve {system : AgentSystem} (h : system.Inv cfg) (index : ℕ)
    {task : AgentTask} {day : Date} {messages : Json} {ledger : Budget} {reservation : Reservation}
    {total totalCny taskTotal limit : ℚ}
    (hreserves : system.Reserves task day messages ledger reservation total totalCny taskTotal
      limit) :
    totalOf (fun request => request.reservation.heldCny)
      (system.afterReserve index task messages ledger reservation taskTotal).requests ≤ totalCny := by
  have hsound := hreserves.sound index
  obtain ⟨-, hheldCny, hheldSmall⟩ := hreserves.held
  rw [AgentSystem.afterReserve, totalOf_append]
  apply le_add hreserves.sumCny (h.heldCny_amount.add hsound.amountCny)
  · change _ + reservation.heldCny ≤ _
    linarith [h.within]
  · rw [← hheldCny]
    exact add_le_add (h.trialOf _) le_rfl

theorem Inv.afterReserve {system : AgentSystem} (h : system.Inv cfg) {index : ℕ} {task : AgentTask}
    (hindex : system.tasks[index]? = some task) {day : Date} {messages : Json} {ledger : Budget}
    {reservation : Reservation} {total totalCny taskTotal limit : ℚ}
    (hreserves : system.Reserves task day messages ledger reservation total totalCny taskTotal
      limit) :
    (system.afterReserve index task messages ledger reservation taskTotal).Inv cfg := by
  have hconfig := h.configs task (List.mem_of_getElem? hindex)
  have hsound := hreserves.sound index
  obtain ⟨hheld, hheldCny, hheldSmall⟩ := hreserves.held
  obtain ⟨hlt, -⟩ := List.getElem?_eq_some_iff.mp hindex
  have hday : (requested index task messages reservation).reservation.day = day := by
    change reservation.day = day
    rw [hreserves.made]
  -- what a selection holds together with the new request
  have hsum : ∀ (select : AgentRequest → Bool) (spent total : ℚ),
      Budget.add spent reservation.reserved = .ok total →
        totalOf (heldBy select) system.requests ≤ spent →
          totalOf (heldBy select) system.requests ≤ 1 →
            totalOf (heldBy select) system.requests + reservation.reserved ≤ total := by
    intro select spent total hadd hle hbound
    apply le_add hadd ((h.heldBy_amount select).add (hheld ▸ hsound.amount))
    · linarith [hreserves.small]
    · linarith
  have hdayTotal : totalOf (heldBy (onDay day)) system.requests + reservation.reserved ≤ total :=
    hsum _ _ _ hreserves.sum (h.recorded day) (by linarith [h.daily day, cfg.daily_le])
  have htaskTotal : totalOf (heldBy (ofTask index)) system.requests + reservation.reserved ≤
      taskTotal :=
    hsum _ _ _ hreserves.taskSum (h.counted index task hindex)
      (by linarith [h.task index, cfg.task_le])
  have htotalCny := h.total_afterReserve index hreserves
  have honDay : ∀ other, heldBy (onDay other) (requested index task messages reservation) =
      if day = other then reservation.reserved else 0 := by
    intro other
    rw [heldBy, onDay, hday]
    change (if decide (day = other) = true then reservation.held else 0) = _
    rw [hheld]
    simp only [decide_eq_true_eq]
  have hofTask : ∀ other, heldBy (ofTask other) (requested index task messages reservation) =
      if index = other then reservation.reserved else 0 := by
    intro other
    change (if decide (index = other) = true then reservation.held else 0) = _
    rw [hheld]
    simp only [decide_eq_true_eq]
  refine ⟨?_, ?_, ?_, ?_, ?_, ?_, ?_, ?_, ?_, ?_, ?_, ?_⟩
  · intro request hrequest
    rcases List.mem_append.mp hrequest with hold | hnew
    · exact h.sound request hold
    · rw [List.mem_singleton.mp hnew]
      exact hsound
  · intro request hrequest
    rw [AgentSystem.afterReserve, List.length_set]
    rcases List.mem_append.mp hrequest with hold | hnew
    · exact h.owned request hold
    · rw [List.mem_singleton.mp hnew]
      exact hlt
  · intro other
    rw [AgentSystem.afterReserve, totalOf_append, honDay]
    change _ ≤ ledger.spentOn other
    by_cases hother : day = other
    · subst hother
      rw [if_pos rfl, hreserves.spentOn]
      exact hdayTotal
    · rw [if_neg hother, add_zero, hreserves.spentOn_of_ne other (Ne.symm hother)]
      exact h.recorded other
  · intro other
    rw [AgentSystem.afterReserve, totalOf_append, honDay]
    by_cases hother : day = other
    · subst hother
      rw [if_pos rfl]
      exact hdayTotal.trans (hreserves.within.trans hconfig.2.1.le)
    · rw [if_neg hother, add_zero]
      exact h.daily other
  · intro other
    rw [AgentSystem.afterReserve, totalOf_append, hofTask]
    by_cases hother : index = other
    · subst hother
      rw [if_pos rfl]
      exact htaskTotal.trans (hreserves.taskWithin.trans hconfig.2.2.le)
    · rw [if_neg hother, add_zero]
      exact h.task other
  · intro other found hfound
    rw [AgentSystem.afterReserve] at hfound ⊢
    rw [totalOf_append, hofTask]
    by_cases hother : index = other
    · subst hother
      rw [List.getElem?_set_self hlt] at hfound
      cases hfound
      rw [if_pos rfl]
      exact htaskTotal
    · rw [List.getElem?_set_ne hother] at hfound
      rw [if_neg hother, add_zero]
      exact h.counted other found hfound
  · intro hnone
    rw [AgentSystem.afterReserve, hreserves.experiment] at hnone
    cases hnone
  · intro trial htrial
    rw [AgentSystem.afterReserve, hreserves.experiment] at htrial
    cases htrial
    exact htotalCny
  · intro trial htrial
    rw [AgentSystem.afterReserve, hreserves.experiment] at htrial
    cases htrial
    rw [AgentSystem.afterReserve, totalOf_append] at htotalCny
    have hnonneg := (h.heldCny_amount.add hsound.amountCny).nonneg
    exact hnonneg.trans (htotalCny.trans hreserves.withinCny)
  · have hlimit : limit ≤ 3 := by
      rw [hreserves.limit_eq]
      exact (min_le_left _ _).trans task.cfg.experiment_le
    exact htotalCny.trans (hreserves.withinCny.trans hlimit)
  · intro other found position hfound hwaits
    rw [AgentSystem.afterReserve] at hfound
    by_cases hother : index = other
    · subst hother
      rw [List.getElem?_set_self hlt] at hfound
      cases hfound
      have hposition : position = system.requests.length := by
        rcases hwaits with hreserved | hsent
        · exact (TaskPhase.reserved.inj hreserved).symm
        · cases hsent
      subst hposition
      refine ⟨requested index task messages reservation, ?_, rfl, ?_⟩
      · exact List.getElem?_concat_length
      · change reservation.settled = none
        rw [hreserves.made]
    · rw [List.getElem?_set_ne hother] at hfound
      obtain ⟨request, hrequest, htask, hopen⟩ := h.phases other found position hfound hwaits
      obtain ⟨hposition, -⟩ := List.getElem?_eq_some_iff.mp hrequest
      refine ⟨request, ?_, htask, hopen⟩
      rw [AgentSystem.afterReserve, List.getElem?_append_left hposition]
      exact hrequest
  · intro found hfound
    rcases List.mem_or_eq_of_mem_set hfound with hold | rfl
    · exact h.configs found hold
    · exact hconfig

theorem Inv.follows_afterReserve {system : AgentSystem} (h : system.Inv cfg) (index : ℕ)
    {task : AgentTask} {day : Date} {messages : Json} {ledger : Budget} {reservation : Reservation}
    {total totalCny taskTotal limit : ℚ}
    (hreserves : system.Reserves task day messages ledger reservation total totalCny taskTotal
      limit) :
    system.Follows (system.afterReserve index task messages ledger reservation taskTotal) := by
  constructor
  · intro trial htrial
    refine ⟨_, hreserves.experiment, ?_⟩
    rw [hreserves.limit_eq, Budget.trialOf, htrial]
    exact min_le_right _ _
  · exact .inl ⟨_, _, rfl, hreserves.experiment,
      (h.total_afterReserve index hreserves).trans hreserves.withinCny⟩

theorem Inv.reserve {system : AgentSystem} (h : system.Inv cfg) {index : ℕ} {task : AgentTask}
    (hindex : system.tasks[index]? = some task) (day : Date) (messages : Json) (written : Bool) :
    (system.reserve index task day messages written).Inv cfg ∧
      system.Follows (system.reserve index task day messages written) := by
  have hready := (h.configs task (List.mem_of_getElem? hindex)).1
  have hends : (system.withTask index { task with phase := .finished }).Inv cfg ∧
      system.Follows (system.withTask index { task with phase := .finished }) :=
    ⟨h.withTask hindex rfl rfl fun position hwaits => (by rcases hwaits with hw | hw <;> cases hw),
      follows_withTask system index _⟩
  unfold AgentSystem.reserve
  split
  · cases hok : system.reservation task day messages written with
    | error e => exact hends
    | ok made =>
        obtain ⟨total, totalCny, taskTotal, limit, hreserves⟩ := h.reserves hready hok
        have hnext := h.afterReserve hindex hreserves
        have hfollows := h.follows_afterReserve index hreserves
        simp only [AgentTask.advance, hreserves.taskSum]
        exact ⟨hnext, hfollows⟩
  · exact hends

/-- A request of a task is replaced by one that holds no more, in a ledger that has at least what is
then held. -/
theorem Inv.replace {system : AgentSystem} (h : system.Inv cfg) {index position : ℕ}
    {task newTask : AgentTask} {request new : AgentRequest} {ledger : Budget}
    (hindex : system.tasks[index]? = some task)
    (hrequest : system.requests[position]? = some request) (howner : request.task = index)
    (hsound : new.Sound) (htask : new.task = request.task)
    (hday : new.reservation.day = request.reservation.day)
    (hheld : new.reservation.held ≤ request.reservation.held)
    (hheldCny : new.reservation.heldCny ≤ request.reservation.heldCny)
    (hrecorded : totalOf (heldBy (onDay request.reservation.day)) system.requests -
      request.reservation.held + new.reservation.held ≤ ledger.spentOn request.reservation.day)
    (hdays : ∀ other, other ≠ request.reservation.day →
      ledger.spentOn other = system.ledger.spentOn other)
    (hexperiment : ledger.experiment = none → system.ledger.experiment = none)
    (hcharged : ∀ trial, ledger.experiment = some trial →
      totalOf (fun request => request.reservation.heldCny) system.requests -
        request.reservation.heldCny + new.reservation.heldCny ≤ trial.reservedAndSpent)
    (hlimited : ∀ trial, ledger.experiment = some trial → 0 ≤ trial.limit)
    (hcfg : newTask.cfg = task.cfg)
    (hcounted : totalOf (heldBy (ofTask index)) system.requests -
      request.reservation.held + new.reservation.held ≤ newTask.taskCost)
    (hphase : ∀ waited, newTask.phase = .reserved waited ∨ newTask.phase = .sent waited →
      waited = position ∧ new.reservation.settled = none) :
    Inv cfg ⟨ledger, system.requests.set position new, system.tasks.set index newTask⟩ := by
  obtain ⟨hlt, -⟩ := List.getElem?_eq_some_iff.mp hindex
  obtain ⟨hpositionLt, -⟩ := List.getElem?_eq_some_iff.mp hrequest
  have hweight : ∀ select : AgentRequest → Bool, select new = select request →
      totalOf (heldBy select) (system.requests.set position new) =
        totalOf (heldBy select) system.requests -
          (if select request then request.reservation.held else 0) +
          (if select request then new.reservation.held else 0) := by
    intro select hselect
    rw [totalOf_set _ hrequest, heldBy, heldBy, hselect]
  have hless : ∀ select : AgentRequest → Bool, select new = select request →
      totalOf (heldBy select) (system.requests.set position new) ≤
        totalOf (heldBy select) system.requests := by
    intro select hselect
    rw [hweight select hselect]
    split <;> linarith
  have honDay : ∀ day, onDay day new = onDay day request := fun day => by rw [onDay, onDay, hday]
  have hofTask : ∀ other, ofTask other new = ofTask other request :=
    fun other => by rw [ofTask, ofTask, htask]
  have hmem : ∀ found ∈ system.requests.set position new, found.Sound ∧
      found.task < system.tasks.length := by
    intro found hfound
    rcases List.mem_or_eq_of_mem_set hfound with hold | rfl
    · exact ⟨h.sound found hold, h.owned found hold⟩
    · exact ⟨hsound, by rw [htask, howner]; exact hlt⟩
  refine ⟨fun found hfound => (hmem found hfound).1, ?_, ?_, ?_, ?_, ?_, ?_, ?_, hlimited, ?_, ?_, ?_⟩
  · intro found hfound
    rw [List.length_set]
    exact (hmem found hfound).2
  · intro day
    by_cases hsame : request.reservation.day = day
    · subst hsame
      rw [hweight _ (honDay _), onDay, decide_eq_true rfl, if_pos rfl, if_pos rfl]
      exact hrecorded
    · rw [hdays day (Ne.symm hsame)]
      exact (hless _ (honDay day)).trans (h.recorded day)
  · exact fun day => (hless _ (honDay day)).trans (h.daily day)
  · exact fun other => (hless _ (hofTask other)).trans (h.task other)
  · intro other found hfound
    by_cases hother : index = other
    · subst hother
      rw [List.getElem?_set_self hlt] at hfound
      cases hfound
      rw [hweight _ (hofTask _), ofTask, decide_eq_true howner, if_pos rfl, if_pos rfl]
      exact hcounted
    · rw [List.getElem?_set_ne hother] at hfound
      exact (hless _ (hofTask other)).trans (h.counted other found hfound)
  · intro hnone
    have hempty := h.experiment (hexperiment hnone)
    rw [hempty] at hpositionLt
    exact (Nat.not_lt_zero _ hpositionLt).elim
  · intro trial htrial
    rw [totalOf_set _ hrequest]
    exact hcharged trial htrial
  · rw [totalOf_set _ hrequest]
    linarith [h.within]
  · intro other found waited hfound hwaits
    by_cases hother : index = other
    · subst hother
      rw [List.getElem?_set_self hlt] at hfound
      cases hfound
      obtain ⟨rfl, hopen⟩ := hphase waited hwaits
      exact ⟨new, List.getElem?_set_self hpositionLt, htask.trans howner, hopen⟩
    · rw [List.getElem?_set_ne hother] at hfound
      obtain ⟨awaited, hawaited, hawaitedTask, hopen⟩ := h.phases other found waited hfound hwaits
      -- the request belongs to another task
      have hdifferent : position ≠ waited := by
        rintro rfl
        rw [hrequest] at hawaited
        cases hawaited
        exact hother (howner.symm.trans hawaitedTask)
      refine ⟨awaited, ?_, hawaitedTask, hopen⟩
      rw [List.getElem?_set_ne hdifferent]
      exact hawaited
  · intro found hfound
    rcases List.mem_or_eq_of_mem_set hfound with hold | rfl
    · exact h.configs found hold
    · rw [hcfg]
      exact h.configs task (List.mem_of_getElem? hindex)

theorem Inv.send {system : AgentSystem} (h : system.Inv cfg) {index position : ℕ}
    {task : AgentTask} {request : AgentRequest} {bill : Bill}
    (hindex : system.tasks[index]? = some task) (hphase : task.phase = .reserved position)
    (hrequest : system.requests[position]? = some request)
    (hbill : bill.usd ≤ TokenPrice.usd.exactCost request.inputBound request.maxOutput ∧
      bill.cny ≤ TokenPrice.cny.exactCost request.inputBound request.maxOutput) :
    (system.send index task request position bill).Inv cfg ∧
      system.Follows (system.send index task request position bill) := by
  obtain ⟨found, hfound, howner, hopen⟩ := h.phases index task position hindex (.inl hphase)
  cases hfound.symm.trans hrequest
  have hsound := h.sound request (List.mem_of_getElem? hrequest)
  have hbillHeld : bill.usd ≤ request.reservation.held ∧
      bill.cny ≤ request.reservation.heldCny := by
    rw [Reservation.held_of_open hopen, Reservation.heldCny_of_open hopen, hsound.reserved,
      hsound.reservedCny]
    exact hbill
  refine ⟨?_, follows_of_set hrequest le_rfl fun trial htrial => ⟨trial, htrial, le_rfl⟩⟩
  have hbilled : ({ request with bill := some bill } : AgentRequest).Sound :=
    { hsound with bill := fun other hother => by cases hother; exact hbillHeld }
  apply h.replace hindex hrequest howner hbilled rfl rfl le_rfl le_rfl
  · rw [sub_add_cancel]
    exact h.recorded _
  · exact fun _ _ => rfl
  · exact fun hnone => hnone
  · intro trial htrial
    rw [sub_add_cancel]
    exact h.charged trial htrial
  · exact h.limited
  · rfl
  · rw [sub_add_cancel]
    exact h.counted index task hindex
  · intro waited hwaits
    rcases hwaits with hreserved | hsent
    · cases hreserved
    · exact ⟨(TaskPhase.sent.inj hsent).symm, hopen⟩

def settledWith (request : AgentRequest) (actual actualCny : ℚ) : AgentRequest :=
  { request with reservation := { request.reservation with
      settled := some ⟨actual, some (.finite actualCny)⟩ } }

/-- A computed cost and a reserved amount: the smaller one is an amount of the smallest step, and
bounds whatever is at most the reserved amount and the cost of the usage. -/
theorem amount_min_cost {price : TokenPrice} (hprice : price.InHundredths) {input output : ℕ}
    {reserved actual : ℚ} (hcost : price.cost input output = .ok actual) (hreserved : Amount reserved)
    (hsmall : reserved ≤ 10000) :
    0 ≤ actual ∧ Amount (min reserved actual) ∧
      ∀ billed ≤ reserved, billed ≤ price.exactCost input output → billed ≤ min reserved actual := by
  rcases TokenPrice.cost_cases hprice hcost with rfl | hlarge
  · have hamount := amount_exactCost hprice input output
    exact ⟨hamount.nonneg, hreserved.min hamount, fun billed hle hcharge => le_min hle hcharge⟩
  · refine ⟨by linarith, ?_⟩
    rw [min_eq_left (hsmall.trans hlarge)]
    exact ⟨hreserved, fun billed hle _ => hle⟩

theorem Inv.reserved_le {system : AgentSystem} (h : system.Inv cfg) {position : ℕ}
    {request : AgentRequest} (hrequest : system.requests[position]? = some request)
    (select : AgentRequest → Bool) (hselect : select request = true) :
    Amount (totalOf (heldBy select) system.requests - request.reservation.held) := by
  have hsound := h.sound request (List.mem_of_getElem? hrequest)
  have hle := le_totalOf (heldBy select) hrequest
    fun other hother => ((h.sound other hother).heldBy_amount select).nonneg
  rw [heldBy, if_pos hselect] at hle
  exact ⟨(h.heldBy_amount select).grid.sub hsound.amount.grid, sub_nonneg.mpr hle⟩

theorem Inv.reservedCny_le {system : AgentSystem} (h : system.Inv cfg) {position : ℕ}
    {request : AgentRequest} (hrequest : system.requests[position]? = some request) :
    Amount (totalOf (fun request => request.reservation.heldCny) system.requests -
      request.reservation.heldCny) := by
  have hsound := h.sound request (List.mem_of_getElem? hrequest)
  have hle := le_totalOf (fun request : AgentRequest => request.reservation.heldCny)
    hrequest fun other hother => (h.sound other hother).amountCny.nonneg
  exact ⟨h.heldCny_amount.grid.sub hsound.amountCny.grid, sub_nonneg.mpr hle⟩

/-- Taking a reservation out and putting the actual amount in leaves at least what is then held. -/
theorem le_of_settled {x reserved actual rest total held : ℚ}
    (htaken : Budget.sub x reserved = .ok rest) (hput : Budget.add rest actual = .ok total)
    (hrest : Amount (held - reserved)) (hmin : Amount (min reserved actual)) (hle : held ≤ x)
    (hheld : held ≤ 10) : held - reserved + min reserved actual ≤ total := by
  have hnonneg := hmin.nonneg.trans (min_le_left _ _)
  have hrestLe : held - reserved ≤ rest := le_sub htaken hrest (by linarith) (by linarith)
  apply le_add hput (hrest.add hmin)
  · linarith [min_le_left reserved actual]
  · exact add_le_add hrestLe (min_le_right _ _)

/-- The counter of a task has at least what its requests hold after a settlement. -/
theorem le_advanced {taskCost reserved actual difference cost held : ℚ} {price : TokenPrice}
    (hprice : price.InHundredths) {input output : ℕ}
    (hcost : price.cost input output = .ok actual)
    (hdifference : Budget.sub actual reserved = .ok difference)
    (hsum : Budget.add taskCost difference = .ok cost) (hreserved : Amount reserved)
    (hsmall : reserved ≤ 10) (hrest : Amount (held - reserved))
    (hmin : Amount (min reserved actual)) (hle : held ≤ taskCost) (hheld : held ≤ 10) :
    held - reserved + min reserved actual ≤ cost := by
  apply le_add hsum (hrest.add hmin)
  · linarith [min_le_left reserved actual, hreserved.nonneg]
  by_cases hless : actual < reserved
  · -- a smaller amount is exact, and so is the difference
    have hexact : actual = price.exactCost input output :=
      (TokenPrice.cost_cases hprice hcost).resolve_right (by linarith)
    have hamount : Amount actual := hexact ▸ amount_exactCost hprice input output
    have hkept := result_of_onGrid (hamount.grid.sub hreserved.grid) (by
      rw [abs_le]
      constructor <;> linarith [hamount.nonneg, hreserved.nonneg])
    have hsame : difference = actual - reserved :=
      Option.some.inj ((Budget.sub_eq_ok_iff.mp hdifference).symm.trans hkept)
    rw [hsame, min_eq_right hless.le]
    linarith
  · have hnonneg : 0 ≤ difference := by
      have hzero := le_sub hdifference (amount_natCast 0) (by norm_num) (by
        push_cast
        linarith [not_lt.mp hless])
      exact_mod_cast hzero
    rw [min_eq_left (not_lt.mp hless)]
    linarith

/-- What a request that is not settled holds: the costs of its bound. -/
structure Outstanding (request : AgentRequest) : Prop where
  held : request.reservation.held = request.reservation.reserved
  heldCny : request.reservation.heldCny = Reservation.valueCny request.reservation.reservedCny
  amount : Amount request.reservation.reserved
  amountCny : Amount (Reservation.valueCny request.reservation.reservedCny)
  small : request.reservation.reserved ≤ 10
  smallCny : Reservation.valueCny request.reservation.reservedCny ≤ 10

theorem outstanding {request : AgentRequest} (h : request.Sound)
    (hopen : request.reservation.settled = none) : Outstanding request := by
  have hheld := Reservation.held_of_open hopen
  have hheldCny := Reservation.heldCny_of_open hopen
  refine ⟨hheld, hheldCny, hheld ▸ h.amount, hheldCny ▸ h.amountCny, by linarith [h.small], ?_⟩
  rw [h.reservedCny, Reservation.valueCny_finite, TokenPrice.exactCost_cny, ← h.reserved]
  linarith [h.small]

/-- What a settlement has established: the amounts it used, and that the ledger still has what is
held then. -/
structure Settles (system : AgentSystem) (request : AgentRequest) (input output : ℕ)
    (ledger : Budget) (actual actualCny : ℚ) : Prop where
  cost : TokenPrice.usd.cost input output = .ok actual
  sound : (settledWith request actual actualCny).Sound
  less : (settledWith request actual actualCny).reservation.held ≤ request.reservation.held
  lessCny : (settledWith request actual actualCny).reservation.heldCny ≤ request.reservation.heldCny
  amount : Amount (min request.reservation.reserved actual)
  recorded : totalOf (heldBy (onDay request.reservation.day)) system.requests -
    request.reservation.held + (settledWith request actual actualCny).reservation.held ≤
      ledger.spentOn request.reservation.day
  days : ∀ other, other ≠ request.reservation.day →
    ledger.spentOn other = system.ledger.spentOn other
  experiment : ledger.experiment = none → system.ledger.experiment = none
  limit : ∀ trial, system.ledger.experiment = some trial →
    ∃ kept, ledger.experiment = some kept ∧ kept.limit ≤ trial.limit
  charged : ∀ trial, ledger.experiment = some trial →
    totalOf (fun request => request.reservation.heldCny) system.requests -
      request.reservation.heldCny + (settledWith request actual actualCny).reservation.heldCny ≤
        trial.reservedAndSpent
  limited : ∀ trial, ledger.experiment = some trial → 0 ≤ trial.limit

theorem Inv.settles {system : AgentSystem} (h : system.Inv cfg) {position : ℕ}
    {request : AgentRequest} (hrequest : system.requests[position]? = some request)
    (hopen : request.reservation.settled = none) {input output : ℕ} {written : Bool}
    {ledger : Budget} {actual actualCny : ℚ}
    (hok : system.settlement request input output written = .ok (ledger, actual, actualCny))
    (hbill : ∀ bill ∈ request.bill, bill.usd ≤ TokenPrice.usd.exactCost input output ∧
      bill.cny ≤ TokenPrice.cny.exactCost input output) :
    system.Settles request input output ledger actual actualCny := by
  simp only [settlement, bind_eq_ok_iff, Spending.replaced_eq_ok_iff] at hok
  obtain ⟨_, hcost, _, hcostCny, _, ⟨hsettle, -⟩, hresult⟩ := hok
  cases hresult
  obtain ⟨refunded, _, _, spent, rest, total, hsettled⟩ := Budget.settle_eq_ok_iff.mp hsettle
  cases hsettled.reservedFinite
  cases hsettled.actualFinite
  have hsound := h.sound request (List.mem_of_getElem? hrequest)
  have hout := outstanding hsound hopen
  obtain ⟨-, hmin, hbilled⟩ := amount_min_cost TokenPrice.usd_inHundredths hcost hout.amount
    (hout.small.trans (by norm_num))
  obtain ⟨-, hminCny, hbilledCny⟩ := amount_min_cost TokenPrice.cny_inHundredths hcostCny
    hout.amountCny (hout.smallCny.trans (by norm_num))
  have hheld : (settledWith request actual actualCny).reservation.held =
      min request.reservation.reserved actual := rfl
  have hheldCny : (settledWith request actual actualCny).reservation.heldCny =
      min (Reservation.valueCny request.reservation.reservedCny) actualCny := rfl
  refine ⟨hcost, ⟨hsound.reserved, hsound.reservedCny, hsound.small, hmin, hminCny, ?_⟩, ?_, ?_,
    hmin, ?_, ?_, ?_, ?_, ?_, ?_⟩
  · intro bill hmem
    have hold := hsound.bill bill hmem
    rw [hout.held, hout.heldCny] at hold
    exact ⟨hbilled _ hold.1 (hbill bill hmem).1, hbilledCny _ hold.2 (hbill bill hmem).2⟩
  · rw [hheld, hout.held]
    exact min_le_left _ _
  · rw [hheldCny, hout.heldCny]
    exact min_le_left _ _
  · have hrest := h.reserved_le hrequest (onDay request.reservation.day) (decide_eq_true rfl)
    have hspent : system.ledger.spentOn request.reservation.day = spent := by
      rw [Budget.spentOn, hsettled.present, Option.getD_some]
    rw [hout.held] at hrest ⊢
    rw [hheld, hsettled.result, Budget.spentOn_setDay]
    apply le_of_settled hsettled.taken hsettled.put hrest hmin
    · rw [← hspent]
      exact h.recorded _
    · linarith [h.daily request.reservation.day, cfg.daily_le]
  · intro other hother
    rw [hsettled.result, Budget.spentOn_setDay_of_ne refunded total hother, Budget.spentOn,
      Budget.refundExperiment_days hsettled.refund, ← Budget.spentOn]
  · intro hnone
    rcases Spending.settled_experiment hsettled with ⟨hbefore, _⟩ | ⟨_, _, _, _, _, _, _, hsome⟩
    · exact hbefore
    · rw [hsome] at hnone
      cases hnone
  · intro trial htrial
    rcases Spending.settled_experiment hsettled with
      ⟨hnone, _⟩ | ⟨before, _, _, _, _, hbefore, _, hsome⟩
    · rw [htrial] at hnone
      cases hnone
    · cases htrial.symm.trans hbefore
      exact ⟨_, hsome, le_rfl⟩
  · intro trial htrial
    rcases Spending.settled_experiment hsettled with
      ⟨_, hnone⟩ | ⟨before, value, _, restCny, totalCny, hbefore, hrefund, hsome⟩
    · rw [hnone] at htrial
      cases htrial
    · rw [hsome] at htrial
      cases htrial
      cases hrefund.actualFinite
      have hrestCny := h.reservedCny_le hrequest
      rw [hheldCny]
      rw [hout.heldCny, hrefund.reservedFinite, Reservation.valueCny_finite] at hrestCny ⊢
      rw [hrefund.reservedFinite, Reservation.valueCny_finite] at hminCny
      exact le_of_settled hrefund.taken hrefund.put hrestCny hminCny (h.charged before hbefore)
        (by linarith [h.within])
  · intro trial htrial
    rcases Spending.settled_experiment hsettled with
      ⟨_, hnone⟩ | ⟨before, _, _, _, _, hbefore, _, hsome⟩
    · rw [hnone] at htrial
      cases htrial
    · rw [hsome] at htrial
      cases htrial
      exact h.limited before hbefore

theorem Inv.reply {system : AgentSystem} (h : system.Inv cfg) {index position : ℕ}
    {task : AgentTask} {request : AgentRequest} {usage : Option Usage} {written continues : Bool}
    (hindex : system.tasks[index]? = some task) (hphase : task.phase = .sent position)
    (hrequest : system.requests[position]? = some request)
    (hbill : ∀ bill input output, request.bill = some bill →
      usage.bind Usage.valid? = some (input, output) →
        bill.usd ≤ TokenPrice.usd.exactCost input output ∧
          bill.cny ≤ TokenPrice.cny.exactCost input output) :
    (system.reply index task request position usage written continues).Inv cfg ∧
      system.Follows (system.reply index task request position usage written continues) := by
  obtain ⟨found, hfound, howner, hopen⟩ := h.phases index task position hindex (.inr hphase)
  cases hfound.symm.trans hrequest
  have hout := outstanding (h.sound request (List.mem_of_getElem? hrequest)) hopen
  have hnoWait : ∀ phase : TaskPhase, phase = .ready ∨ phase = .finished → ∀ waited,
      ¬ (phase = .reserved waited ∨ phase = .sent waited) := by
    rintro phase (rfl | rfl) waited (hw | hw) <;> cases hw
  have hnext : nextPhase continues = .ready ∨ nextPhase continues = .finished := by
    cases continues <;> simp [nextPhase]
  unfold AgentSystem.reply
  cases husage : usage.bind Usage.valid? with
  | none => exact ⟨h.withTask hindex rfl rfl (hnoWait _ hnext), follows_withTask system index _⟩
  | some tokens =>
      obtain ⟨input, output⟩ := tokens
      simp only
      cases hok : system.settlement request input output written with
      | error e =>
          exact ⟨h.withTask hindex rfl rfl (hnoWait _ (.inr rfl)), follows_withTask system index _⟩
      | ok settled =>
          obtain ⟨ledger, actual, actualCny⟩ := settled
          have hsettles := h.settles hrequest hopen hok
            fun bill hmem => hbill bill input output hmem husage
          have hcounted : totalOf (heldBy (ofTask index)) system.requests -
              request.reservation.held +
                (settledWith request actual actualCny).reservation.held ≤ task.taskCost := by
            linarith [h.counted index task hindex, hsettles.less]
          have hreplace : ∀ (taskCost : ℚ) (phase : TaskPhase),
              (phase = .ready ∨ phase = .finished) →
              totalOf (heldBy (ofTask index)) system.requests - request.reservation.held +
                (settledWith request actual actualCny).reservation.held ≤ taskCost →
              Inv cfg ⟨ledger, system.requests.set position (settledWith request actual actualCny),
                system.tasks.set index ⟨task.cfg, taskCost, task.requests, phase⟩⟩ ∧
              system.Follows ⟨ledger,
                system.requests.set position (settledWith request actual actualCny),
                system.tasks.set index ⟨task.cfg, taskCost, task.requests, phase⟩⟩ :=
            fun taskCost phase hwaits hle => ⟨h.replace hindex hrequest howner hsettles.sound rfl
              rfl hsettles.less hsettles.lessCny hsettles.recorded hsettles.days
              hsettles.experiment hsettles.charged hsettles.limited rfl hle
              fun waited hw => (hnoWait phase hwaits waited hw).elim,
              follows_of_set hrequest hsettles.lessCny hsettles.limit⟩
          simp only
          split
          · exact hreplace task.taskCost .finished (.inr rfl) hcounted
          · unfold AgentTask.advance
            split
            · rename_i cost hadvance
              obtain ⟨difference, hdifference, hsum⟩ := bind_eq_ok_iff.mp hadvance
              have hrest := h.reserved_le hrequest (ofTask index) (decide_eq_true howner)
              apply hreplace cost (nextPhase continues) hnext
              rw [hout.held] at hrest ⊢
              exact le_advanced TokenPrice.usd_inHundredths hsettles.cost hdifference hsum
                hout.amount hout.small hrest hsettles.amount (h.counted index task hindex)
                (by linarith [h.task index, cfg.task_le])
            · exact hreplace task.taskCost .finished (.inr rfl) hcounted

theorem Inv.startTask {system : AgentSystem} (h : system.Inv cfg) {task : AgentTask}
    (hready : Ready task.cfg) (hdaily : task.cfg.dailyBudgetUsd = cfg.dailyBudgetUsd)
    (htask : task.cfg.taskBudgetUsd = cfg.taskBudgetUsd) (hcost : task.taskCost = 0)
    (hphase : task.phase = .ready) : Inv cfg { system with tasks := system.tasks ++ [task] } where
  sound := h.sound
  owned request hrequest := by
    rw [List.length_append]
    exact (h.owned request hrequest).trans_le (Nat.le_add_right _ _)
  recorded := h.recorded
  daily := h.daily
  task := h.task
  counted index found hfound := by
    rcases Nat.lt_or_ge index system.tasks.length with hold | hnew
    · rw [List.getElem?_append_left hold] at hfound
      exact h.counted index found hfound
    · -- no request belongs to the new task
      have hnone : totalOf (heldBy (ofTask index)) system.requests ≤ 0 := by
        apply le_of_eq
        apply List.sum_eq_zero
        intro value hvalue
        obtain ⟨request, hrequest, rfl⟩ := List.mem_map.mp hvalue
        have hother : request.task ≠ index := by
          have := h.owned request hrequest
          omega
        rw [heldBy, ofTask, decide_eq_false hother]
        rfl
      rw [List.getElem?_append_right hnew] at hfound
      rw [List.mem_singleton.mp (List.mem_of_getElem? hfound), hcost]
      exact hnone
  experiment := h.experiment
  charged := h.charged
  limited := h.limited
  within := h.within
  phases index found position hfound hwaits := by
    rcases Nat.lt_or_ge index system.tasks.length with hold | hnew
    · rw [List.getElem?_append_left hold] at hfound
      exact h.phases index found position hfound hwaits
    · rw [List.getElem?_append_right hnew] at hfound
      rw [List.mem_singleton.mp (List.mem_of_getElem? hfound), hphase] at hwaits
      rcases hwaits with hw | hw <;> cases hw
  configs found hfound := by
    rcases List.mem_append.mp hfound with hold | hnew
    · exact h.configs found hold
    · rw [List.mem_singleton.mp hnew]
      exact ⟨hready, hdaily, htask⟩

theorem Inv.approve {system : AgentSystem} (h : system.Inv cfg) {limit : Decimal} {ledger : Budget}
    (hok : system.ledger.approveExperiment limit = .ok ledger) :
    Inv cfg { system with ledger } ∧ system.Follows { system with ledger } := by
  obtain ⟨value, -, ⟨hvalue, -⟩, -, rfl⟩ := Budget.approveExperiment_eq_ok_iff.mp hok
  constructor
  · exact
      { h with
        experiment := fun hnone => nomatch hnone
        charged := fun trial htrial => by
          cases htrial
          exact h.trialOf value
        limited := fun trial htrial => by
          cases htrial
          apply le_min hvalue.le
          unfold Budget.trialOf
          cases hbefore : system.ledger.experiment with
          | none => exact hvalue.le
          | some before => exact h.limited before hbefore }
  · refine follows_of_same (fun trial htrial => ⟨_, rfl, ?_⟩) rfl
    rw [Budget.trialOf, htrial, Option.getD_some]
    exact min_le_right _ _

theorem inv_step {system : AgentSystem} {event : AgentEvent} (h : system.Inv cfg)
    (hassumed : system.Assumed cfg event) :
    (system.step event).Inv cfg ∧ system.Follows (system.step event) := by
  have hstays : system.Inv cfg ∧ system.Follows system :=
    ⟨h, follows_of_same (fun trial htrial => ⟨trial, htrial, le_rfl⟩) rfl⟩
  cases event with
  | start other research =>
      simp only [step]
      split
      · rename_i hready
        refine ⟨h.startTask ?_ ?_ ?_ rfl rfl,
          follows_of_same (fun trial htrial => ⟨trial, htrial, le_rfl⟩) rfl⟩
        · cases research <;> exact hready
        · cases research <;> exact hassumed.1
        · cases research <;> exact hassumed.2
      · exact hstays
  | reserve index day messages written =>
      simp only [step]
      cases hindex : system.tasks[index]? with
      | none => exact hstays
      | some task =>
          simp only
          split
          · exact h.reserve hindex day messages written
          · exact hstays
  | send index bill =>
      simp only [step]
      cases hindex : system.tasks[index]? with
      | none => exact hstays
      | some task =>
          cases hphase : task.phase with
          | reserved position =>
              cases hrequest : system.requests[position]? with
              | none => simpa only [hphase, hrequest] using hstays
              | some request =>
                  simp only [hphase, hrequest]
                  exact h.send hindex hphase hrequest
                    (hassumed task position request hindex hphase hrequest)
          | _ => simpa only [hphase] using hstays
  | reply index usage written continues =>
      simp only [step]
      cases hindex : system.tasks[index]? with
      | none => exact hstays
      | some task =>
          cases hphase : task.phase with
          | sent position =>
              cases hrequest : system.requests[position]? with
              | none => simpa only [hphase, hrequest] using hstays
              | some request =>
                  simp only [hphase, hrequest]
                  exact h.reply hindex hphase hrequest fun bill input output hbill husage =>
                    hassumed task position request bill input output hindex hphase hrequest hbill
                      husage
          | _ => simpa only [hphase] using hstays
  | stop index =>
      simp only [step]
      cases hindex : system.tasks[index]? with
      | none => exact hstays
      | some task =>
          refine ⟨h.withTask hindex rfl rfl fun position hwaits => ?_,
            follows_withTask system index _⟩
          rcases hwaits with hw | hw <;> cases hw
  | approveExperiment limit written =>
      simp only [step]
      cases hok : Spending.replaced written (system.ledger.approveExperiment limit) with
      | error e => exact hstays
      | ok ledger => exact h.approve (Spending.replaced_eq_ok_iff.mp hok).1

/-- From some moment on the experiment has a limit, and the requests reserved since then hold no
more than it. -/
structure Since (count : ℕ) (limit : ℚ) (system : AgentSystem) : Prop where
  trial : ∃ trial, system.ledger.experiment = some trial ∧ trial.limit ≤ limit
  reached : count ≤ system.requests.length
  held : totalOf (fun request => request.reservation.heldCny) (system.requests.drop count) ≤ limit

theorem Since.follows {count : ℕ} {limit : ℚ} {system next : AgentSystem}
    (h : system.Since count limit) (hnext : next.Inv cfg) (hfollows : system.Follows next) :
    next.Since count limit := by
  obtain ⟨trial, htrial, hlimit⟩ := h.trial
  obtain ⟨kept, hkept, hless⟩ := hfollows.limit trial htrial
  refine ⟨⟨kept, hkept, hless.trans hlimit⟩, ?_, ?_⟩
  · rcases hfollows.requests with ⟨new, _, happend, _⟩ | ⟨hlength, _⟩
    · rw [happend, List.length_append]
      exact h.reached.trans (Nat.le_add_right _ _)
    · rw [hlength]
      exact h.reached
  · rcases hfollows.requests with ⟨_, current, _, hcurrent, htotal⟩ | ⟨_, hdrop⟩
    · cases hkept.symm.trans hcurrent
      have hnonneg : ∀ request ∈ next.requests, 0 ≤ request.reservation.heldCny :=
        fun request hrequest => (hnext.sound request hrequest).amountCny.nonneg
      exact (totalOf_drop_le count hnonneg).trans (htotal.trans (hless.trans hlimit))
    · exact (hdrop count).trans h.held

/-- What the requests reserved since some moment are charged in yuan. -/
def chargedSince (system : AgentSystem) (count : ℕ) : ℚ :=
  totalOf chargeCny (system.requests.drop count)

theorem Since.charged {count : ℕ} {limit : ℚ} {system : AgentSystem} (hinv : system.Inv cfg)
    (h : system.Since count limit) : system.chargedSince count ≤ limit := by
  apply (totalOf_le fun request hrequest => ?_).trans h.held
  exact (hinv.sound request (List.mem_of_mem_drop hrequest)).chargeCny_le

theorem inv_run {system : AgentSystem} (h : system.Inv cfg) {events : List AgentEvent}
    (hassumed : Runs.StepsMeet step (Assumed cfg) system events) :
    Runs.Always step (Inv cfg) system events :=
  Runs.always_of_stepsMeet step (Inv cfg) (fun _ _ hs hmet => (inv_step hs hmet).1) system events h
    hassumed

theorem Since.run {count : ℕ} {limit : ℚ} {system : AgentSystem} (hinv : system.Inv cfg)
    (h : system.Since count limit) {events : List AgentEvent}
    (hassumed : Runs.StepsMeet step (Assumed cfg) system events) :
    (events.foldl step system).chargedSince count ≤ limit := by
  have hboth := Runs.always_of_stepsMeet step (fun s => s.Inv cfg ∧ s.Since count limit)
    (fun s event hs hmet => ⟨(inv_step hs.1 hmet).1,
      hs.2.follows (inv_step hs.1 hmet).1 (inv_step hs.1 hmet).2⟩) system events ⟨hinv, h⟩ hassumed
  exact hboth.last.2.charged hboth.last.1

/-- At every moment of every run each request that was sent is covered by a durable reservation,
the charges of a day and of a task are within their budgets, and from any moment at which an
experiment has a limit, the charges of the requests reserved since are within it. -/
theorem spending_capped (cfg : AgentRuntimeConfig) (events : List AgentEvent)
    (hassumed : Runs.StepsMeet step (Assumed cfg) start events) :
    Runs.Always step (Capped cfg) start events ∧
      ∀ earlier later, events = earlier ++ later →
        ∀ trial, (earlier.foldl step start).ledger.experiment = some trial →
          (events.foldl step start).chargedSince (earlier.foldl step start).requests.length ≤
            trial.limit := by
  constructor
  · exact (inv_run inv_start hassumed).imp step fun _ h => h.capped
  · rintro earlier later rfl trial htrial
    obtain ⟨hearlier, hlater⟩ := (Runs.stepsMeet_append step).mp hassumed
    have hmoment := (inv_run inv_start hearlier).last
    rw [List.foldl_append]
    refine Since.run hmoment ⟨⟨trial, htrial, le_rfl⟩, le_rfl, ?_⟩ hlater
    rw [List.drop_length, totalOf_nil]
    exact hmoment.limited trial htrial

section Sample

def budgetConfig : AgentRuntimeConfig := Spending.sampleConfig 3 (by norm_num)

/-- Settings that authorize three tenths of a cent a day and a task. -/
def authorizedConfig : AgentRuntimeConfig :=
  { budgetConfig with
    generationAuthorized := true
    dailyBudgetUsd := 3 / 1000
    taskBudgetUsd := 3 / 1000
    daily_nonneg := by norm_num
    daily_le := by norm_num
    task_nonneg := by norm_num
    task_le := by norm_num
    payment _ _ := ⟨rfl, by norm_num, by norm_num [budgetConfig, Spending.sampleConfig]⟩
    generation _ _ _ := by norm_num [budgetConfig, Spending.sampleConfig] }

/-- A task that has sent its first request. -/
def firstRequest : List AgentEvent :=
  [.start authorizedConfig false, .reserve 0 Spending.sampleDay (.arr []) true,
    .send 0 ⟨2 / 1000, 1 / 100⟩]

def firstReserved : AgentSystem :=
  (start.step (.start authorizedConfig false)).step
    (.reserve 0 Spending.sampleDay (.arr []) true)

/-- The reply says that the request used what it is billed for. -/
def honestReply : AgentEvent := .reply 0 (some ⟨some 6000, some 200⟩) true true

/-- The reply reports no usage. -/
def emptyReply : AgentEvent := .reply 0 (some ⟨some 0, some 0⟩) true true

/-- The same task reserves and sends again. -/
def secondRequest : List AgentEvent :=
  [.reserve 0 Spending.sampleDay (.arr []) true, .send 0 ⟨2 / 1000, 1 / 100⟩]

/-- The bounds that the requests of a state were reserved with. -/
def bounds (system : AgentSystem) : List (ℕ × ℕ) :=
  system.requests.map fun request => (request.inputBound, request.maxOutput)

/-- Every request of the state may be billed the sample amount. -/
theorem billed_within {system : AgentSystem} (h : ∀ bound ∈ system.bounds, bound = (5557, 512))
    {position : ℕ} {request : AgentRequest}
    (hrequest : system.requests[position]? = some request) :
    (2 / 1000 : ℚ) ≤ TokenPrice.usd.exactCost request.inputBound request.maxOutput ∧
      (1 / 100 : ℚ) ≤ TokenPrice.cny.exactCost request.inputBound request.maxOutput := by
  obtain ⟨hinput, houtput⟩ := Prod.mk.inj (h (request.inputBound, request.maxOutput)
    (List.mem_map_of_mem (List.mem_of_getElem? hrequest)))
  rw [hinput, houtput]
  decide +kernel

/-- What the two runs come to: the bounds before each request is sent, the bill of the first one,
and the charges of the day after the second. -/
theorem sample_runs :
    (∀ bound ∈ firstReserved.bounds, bound = (5557, 512)) ∧
    (∀ bound ∈ (((firstReserved.step (.send 0 ⟨2 / 1000, 1 / 100⟩)).step emptyReply).step
      (.reserve 0 Spending.sampleDay (.arr []) true)).bounds, bound = (5557, 512)) ∧
    (∀ sent ∈ (firstReserved.step (.send 0 ⟨2 / 1000, 1 / 100⟩)).requests,
      sent.bill.map Bill.usd = some (2 / 1000) ∧ sent.bill.map Bill.cny = some (1 / 100)) ∧
    totalOf (chargedBy (onDay Spending.sampleDay))
      ((firstRequest ++ emptyReply :: secondRequest).foldl step start).requests = 4 / 1000 := by
  decide +kernel

/-- A task whose provider bills what it reports. -/
theorem honest_capped :
    Runs.Always step (Capped authorizedConfig) start (firstRequest ++ [honestReply]) ∧
      ∀ earlier later, firstRequest ++ [honestReply] = earlier ++ later →
        ∀ trial, (earlier.foldl step start).ledger.experiment = some trial →
          ((firstRequest ++ [honestReply]).foldl step start).chargedSince
            (earlier.foldl step start).requests.length ≤ trial.limit := by
  refine spending_capped authorizedConfig _ ⟨⟨rfl, rfl⟩, trivial, ?_, ?_, trivial⟩
  · intro task position request _ _ hrequest
    exact billed_within sample_runs.1 hrequest
  · intro task position request bill input output _ _ hrequest hbill husage
    cases husage
    obtain ⟨husd, hcny⟩ := sample_runs.2.2.1 request (List.mem_of_getElem? hrequest)
    rw [hbill] at husd hcny
    rw [Option.some.inj husd, Option.some.inj hcny]
    decide +kernel

/-- What the provider keeps to as far as its bills are concerned. -/
def BillsWithinBound (system : AgentSystem) (event : AgentEvent) : Prop :=
  match event with
  | .send _ _ => system.Assumed authorizedConfig event
  | _ => True

/-- A reply that reports no usage for a request that is billed releases what was reserved for it:
with the next request the task and the day are charged more than their budgets. -/
theorem unreported_not_capped :
    Runs.StepsMeet step BillsWithinBound start (firstRequest ++ emptyReply :: secondRequest) ∧
    ¬ Runs.Always step (Capped authorizedConfig) start
      (firstRequest ++ emptyReply :: secondRequest) := by
  constructor
  · refine ⟨trivial, trivial, ?_, trivial, trivial, ?_, trivial⟩
    · intro task position request _ _ hrequest
      exact billed_within sample_runs.1 hrequest
    · intro task position request _ _ hrequest
      exact billed_within sample_runs.2.1 hrequest
  · intro h
    have hday := h.last.daily Spending.sampleDay
    rw [sample_runs.2.2.2] at hday
    norm_num [authorizedConfig] at hday

end Sample

end AgentSystem

end QuantWorkbench.Workbench
