import QuantWorkbench.Lib.Runs
import QuantWorkbench.Runtime.HoldingPlans

/-!
The protection price of a holding over a sequence of refreshes. It never falls as long as the
engine accepts the bars of each day and computes a protection price that is not lower than the
one before, since the plan before is not looked at.
-/

namespace QuantWorkbench.Runtime

open Lib Data Advisory QuantWorkbench.Storage

def HoldingOf (symbol : Symbol) (memory : GuidanceMemory) (plan : PriceGuidancePlan) : Prop :=
  plan ∈ memory.plans.values ∧ plan.planType = .holding ∧ plan.symbol = symbol

/-- The symbol has a plan of its holding, and each of them protects at this price or above. -/
structure Protects (symbol : Symbol) (price : Price) (memory : GuidanceMemory) : Prop where
  present : ∃ plan, HoldingOf symbol memory plan
  atLeast : ∀ plan, HoldingOf symbol memory plan →
    ∃ protection ∈ plan.protectionPrice, price.cents ≤ protection.cents

/-- A protection price is kept or goes up. -/
def Ratchets (symbol : Symbol) (before after : GuidanceMemory) : Prop :=
  ∀ plan, HoldingOf symbol before plan → ∀ price ∈ plan.protectionPrice, Protects symbol price after

def OneHolding (symbol : Symbol) (memory : GuidanceMemory) : Prop :=
  ∀ plan other, HoldingOf symbol memory plan → HoldingOf symbol memory other → plan = other

theorem Ratchets.refl {symbol : Symbol} {memory : GuidanceMemory} (h : OneHolding symbol memory) :
    Ratchets symbol memory memory := by
  intro plan hplan price hprice
  refine ⟨⟨plan, hplan⟩, fun other hother => ?_⟩
  cases h plan other hplan hother
  exact ⟨price, hprice, Nat.le_refl _⟩

theorem Ratchets.trans {symbol : Symbol} {first second third : GuidanceMemory}
    (h : Ratchets symbol first second) (h' : Ratchets symbol second third) :
    Ratchets symbol first third := by
  intro plan hplan price hprice
  obtain ⟨⟨middle, hmiddle⟩, hatLeast⟩ := h plan hplan price hprice
  obtain ⟨protection, hprotection, hle⟩ := hatLeast middle hmiddle
  obtain ⟨hpresent, hlater⟩ := h' middle hmiddle protection hprotection
  refine ⟨hpresent, fun later hlaterPlan => ?_⟩
  obtain ⟨last, hlast, hle'⟩ := hlater later hlaterPlan
  exact ⟨last, hlast, hle.trans hle'⟩

/-! ### The plan of a holding -/

theorem check_replaceFirst (planId : RequiredText) (old new : Text) {c : Char} {rest : Text}
    (hnew : new = c :: rest) (hc : Text.isSpace c = false) :
    ∃ changed, RequiredText.check "plan_id" (replaceFirst old new planId.text) = .ok changed := by
  obtain ⟨text, hstripped, hne⟩ := planId
  cases text with
  | nil => exact absurd rfl hne
  | cons first others =>
      have hnonempty : Text.strip (replaceFirst old new (first :: others)) ≠ [] := by
        rw [replaceFirst]
        split
        · rw [hnew]
          exact Text.strip_cons_ne_nil _ hc
        · exact Text.strip_cons_ne_nil _ (Text.isSpace_head_of_strip hstripped)
      exact ⟨_, dif_neg hnonempty⟩

theorem asHoldingPlan_ok (plan : PriceGuidancePlan) : ∃ planId,
    asHoldingPlan plan (plan.reasonCodes.map RequiredText.text) =
      .ok { plan with planId, planType := .holding } := by
  obtain ⟨planId, hplanId⟩ :=
    check_replaceFirst plan.planId "price-".toList "price-holding-".toList rfl (by decide)
  exact ⟨planId, plan.create_again hplanId .holding⟩

section

variable {B : Type} [PriceBars B]

theorem tryPlan_holding {frame : B} (symbol : Symbol) {calculation validFor : Date}
    (hcurrent : PriceBars.latestDate frame = some calculation) {features : PriceFeatures}
    (hfeatures : PriceBars.features frame calculation = .ok features) {made : PriceGuidancePlan}
    (hmade : candidatePlan features false none calculation validFor = .ok made) : ∃ planId,
    tryPlan (some frame) (some ⟨symbol, none⟩) true .holding calculation validFor =
      .ok { made with planId, planType := .holding } := by
  obtain ⟨planId, hholding⟩ := asHoldingPlan_ok made
  refine ⟨planId, ?_⟩
  have hresult := planError_eq_ok_iff.mpr hholding
  simpa [tryPlan, orRaise, require, hcurrent, hfeatures, Except.mapError, bind, Except.bind,
    hmade] using hresult

theorem tryPlan_holding_protection {bars : Option B} {symbol : Symbol}
    {calculation validFor : Date} {plan : PriceGuidancePlan}
    (h : tryPlan bars (some ⟨symbol, none⟩) true .holding calculation validFor = .ok plan) :
    ∃ frame ∈ bars, ∃ features, PriceBars.features frame calculation = .ok features ∧
      plan.planType = .holding ∧ plan.symbol = features.symbol ∧
        ∃ protection ∈ plan.protectionPrice, protection.value = structuralProtection features := by
  obtain ⟨frame, hframe, h⟩ := bind_eq_ok_iff.mp h
  obtain ⟨_, hcurrent, h⟩ := bind_eq_ok_iff.mp h
  obtain ⟨features, hfeatures, h⟩ := bind_eq_ok_iff.mp h
  obtain ⟨made, hmade, h⟩ := bind_eq_ok_iff.mp h
  have hfeatures : PriceBars.features frame calculation = .ok features := by
    cases hresult : PriceBars.features frame calculation with
    | error message => rw [hresult] at hfeatures; cases hfeatures
    | ok other => rw [hresult] at hfeatures; cases hfeatures; rfl
  have hmade : candidatePlan features false none calculation validFor = .ok made := by
    simpa using hmade
  obtain ⟨hsymbol, hprotection⟩ := candidatePlan_protection hmade
  obtain ⟨planId, hholding⟩ := asHoldingPlan_ok made
  have hplan : plan = { made with planId, planType := .holding } := by
    have hagain := planError_eq_ok_iff.mp h
    simp only [Option.bind_some, ne_eq, not_true_eq_false, false_and, decide_false,
      Bool.false_eq_true, if_false, List.append_nil, hholding] at hagain
    exact (Except.ok.inj hagain).symm
  subst hplan
  exact ⟨frame, orRaise_eq_ok_iff.mp hframe, features, hfeatures, rfl, hsymbol, hprotection⟩

/-! ### The plans of a refresh -/

omit [PriceBars B] in
theorem unavailablePlan_symbol {symbol : Symbol} {planType : PricePlanType}
    {calculation validFor : Date} {reasons : List Text} {plan : PriceGuidancePlan}
    (h : unavailablePlan symbol planType calculation validFor reasons = .ok plan) :
    plan.symbol = symbol := by
  have hsymbol := (PriceGuidancePlan.create_madeFrom h).symbol
  rw [checkSymbol_text] at hsymbol
  exact (Except.ok.inj hsymbol).symm

def OwnBars (bars : Symbol → Option B) (calculation : Date) (symbol : Symbol) : Prop :=
  ∀ frame ∈ bars symbol, ∀ features,
    PriceBars.features frame calculation = .ok features → features.symbol = symbol

theorem guidancePlan_symbol {bars : Symbol → Option B} {symbol : Symbol}
    {calculation validFor : Date} (hown : OwnBars bars calculation symbol)
    {plan : PriceGuidancePlan}
    (h : guidancePlan (bars symbol) (some ⟨symbol, none⟩) true symbol .holding calculation
      validFor = .ok plan) : plan.symbol = symbol := by
  unfold guidancePlan at h
  split at h
  · rename_i made hmade
    cases h
    obtain ⟨frame, hframe, features, hfeatures, _, hsymbol, _⟩ :=
      tryPlan_holding_protection hmade
    exact hsymbol.trans (hown frame hframe features hfeatures)
  · exact unavailablePlan_symbol h
  · exact unavailablePlan_symbol h

theorem mem_requestedPlans_holding {candidateSymbols : List Symbol}
    {positions : List HoldingPosition} {symbol : Symbol} : (symbol, .holding) ∈ requestedPlans candidateSymbols positions ↔
      ∃ position ∈ positions, position.symbol = symbol := by
  simp [requestedPlans]

theorem find_position {holdings : List Symbol} {symbol : Symbol} (h : symbol ∈ holdings) :
    ((holdings.map fun held => (⟨held, none⟩ : HoldingPosition)).reverse.find? fun position =>
      position.symbol = symbol) = some ⟨symbol, none⟩ := by
  cases hfound : ((holdings.map fun held => (⟨held, none⟩ : HoldingPosition)).reverse.find?
      fun position => position.symbol = symbol) with
  | none =>
      have hnone := List.find?_eq_none.mp hfound ⟨symbol, none⟩
        (List.mem_reverse.mpr (List.mem_map_of_mem h))
      simp at hnone
  | some position =>
      have hmem := List.mem_reverse.mp (List.mem_of_find?_eq_some hfound)
      have hsymbol : position.symbol = symbol := by simpa using List.find?_some hfound
      obtain ⟨held, _, rfl⟩ := List.mem_map.mp hmem
      rw [← hsymbol]

section Generated

variable {bars : Symbol → Option B} {candidateSymbols holdings : List Symbol}
  {calculation validFor : Date} {plans : List PriceGuidancePlan}

theorem generatePlans_holding
    (h : generatePlans bars candidateSymbols (holdings.map fun symbol => ⟨symbol, none⟩) true
      calculation validFor = .ok plans) {plan : PriceGuidancePlan} (hplan : plan ∈ plans)
    (hholding : plan.planType = .holding) : ∃ symbol ∈ holdings,
      guidancePlan (bars symbol) (some ⟨symbol, none⟩) true symbol .holding calculation validFor =
        .ok plan := by
  obtain ⟨_, _, h⟩ := bind_eq_ok_iff.mp h
  obtain ⟨⟨symbol, planType⟩, hrequest, hmade⟩ := mem_of_mapM_ok h hplan
  cases planType with
  | dailyCandidate =>
      rw [guidancePlan_candidate hmade] at hholding
      cases hholding
  | holding =>
      obtain ⟨position, hposition, hsymbol⟩ := mem_requestedPlans_holding.mp hrequest
      obtain ⟨held, hheld, rfl⟩ := List.mem_map.mp hposition
      cases hsymbol
      rw [find_position hheld] at hmade
      exact ⟨held, hheld, hmade⟩

theorem generatePlans_held
    (h : generatePlans bars candidateSymbols (holdings.map fun symbol => ⟨symbol, none⟩) true
      calculation validFor = .ok plans) {symbol : Symbol} (hheld : symbol ∈ holdings) :
    ∃ plan ∈ plans,
      guidancePlan (bars symbol) (some ⟨symbol, none⟩) true symbol .holding calculation validFor =
        .ok plan := by
  obtain ⟨_, _, h⟩ := bind_eq_ok_iff.mp h
  have hrequest : (symbol, PricePlanType.holding) ∈
      requestedPlans candidateSymbols (holdings.map fun symbol => ⟨symbol, none⟩) :=
    mem_requestedPlans_holding.mpr ⟨⟨symbol, none⟩, List.mem_map_of_mem hheld, rfl⟩
  obtain ⟨plan, hplan, hmade⟩ := exists_mem_of_mapM_ok h hrequest
  simp only [find_position hheld] at hmade
  exact ⟨plan, hplan, hmade⟩

end Generated

/-! ### One refresh -/

/-- A daily refresh, with the symbols that are held where it is told them. -/
structure DailyRefresh (B : Type) where
  request : RefreshRequest B
  holdings : Option (List Symbol)

/-- The content that a refresh leaves. -/
def refreshed (memory : GuidanceMemory) (refresh : DailyRefresh B) : GuidanceMemory :=
  (refreshStates memory refresh.request refresh.holdings).getLastD memory

/-- The refresh gets to write these plans. -/
structure Writes (refresh : DailyRefresh B) (calculation : Date) (plans : List PriceGuidancePlan) :
    Prop where
  latest : calculation ∈ refresh.request.calculation?
  made : refreshPlans refresh.request refresh.holdings calculation = .ok (some plans)
  few : plans.length ≤ 5000
  distinct : (plans.map PriceGuidancePlan.planId).Nodup
  written : refresh.request.firstFault = none

/-- A symbol whose plan has a protection price is held, and the engine makes a plan of its bars
whose protection price is not lower. -/
structure Recomputed (symbol : Symbol) (memory : GuidanceMemory) (request : RefreshRequest B)
    (holdings : List Symbol) (calculation : Date) : Prop where
  ownBars : ∀ held ∈ holdings, OwnBars request.bars calculation held
  notLower : ∀ plan, HoldingOf symbol memory plan → ∀ price ∈ plan.protectionPrice,
    symbol ∈ holdings ∧ ∃ frame ∈ request.bars symbol,
      PriceBars.latestDate frame = some calculation ∧ ∃ features,
        PriceBars.features frame calculation = .ok features ∧ Acceptable features ∧
          price.value ≤ structuralProtection features

/-- The plans of the holdings can be written back next to the ones of the candidates. -/
structure WrittenBack (memory : GuidanceMemory) (request : RefreshRequest B)
    (plans : List PriceGuidancePlan) : Prop where
  few : (plans ++ holdingPlans memory).length ≤ 5000
  distinct : ((plans ++ holdingPlans memory).map PriceGuidancePlan.planId).Nodup
  written : request.secondFault = none

/-- A refresh that gets to write keeps the protection price up. -/
def KeepsUp (symbol : Symbol) (memory : GuidanceMemory) (refresh : DailyRefresh B) : Prop :=
  ∀ calculation plans, Writes refresh calculation plans →
    match refresh.holdings with
    | some holdings => Recomputed symbol memory refresh.request holdings calculation
    | none => WrittenBack memory refresh.request plans

theorem refreshed_plans (memory : GuidanceMemory) (refresh : DailyRefresh B) :
    refreshed memory refresh = memory ∨ ∃ calculation plans, Writes refresh calculation plans ∧
      ((refreshed memory refresh).plans.values = plans ∧
          (refresh.holdings = none → WrittenBack memory refresh.request plans →
            holdingPlans memory = []) ∨
        refresh.holdings = none ∧
          (refreshed memory refresh).plans.values = plans ++ holdingPlans memory) := by
  unfold refreshed refreshStates
  split
  · exact Or.inl rfl
  · rename_i calculation hcalculation
    split
    · exact Or.inl rfl
    · exact Or.inl rfl
    · rename_i plans hplans
      split
      · exact Or.inl rfl
      · rename_i replaced hreplaced
        obtain ⟨hfew, hdistinct, hwritten, hvalues⟩ := storePlans_eq_ok hreplaced
        refine Or.inr ⟨calculation, plans, ⟨hcalculation, hplans, hfew, hdistinct, hwritten⟩, ?_⟩
        split
        · rename_i hback
          split
          · rename_i error hfault
            refine Or.inl ⟨hvalues, fun _ hwrittenBack => ?_⟩
            obtain ⟨restored, hrestored⟩ :=
              storePlans_ok replaced hwrittenBack.few hwrittenBack.distinct
            rw [hwrittenBack.written, hrestored] at hfault
            cases hfault
          · rename_i restored hrestored
            exact Or.inr ⟨hback.2, (storePlans_eq_ok hrestored).2.2.2⟩
        · rename_i hback
          refine Or.inl ⟨hvalues, fun hnone _ => ?_⟩
          by_contra hholding
          exact hback ⟨hholding, hnone⟩

omit [PriceBars B] in
theorem holdingOf_iff {symbol : Symbol} {memory : GuidanceMemory} {plan : PriceGuidancePlan} :
    HoldingOf symbol memory plan ↔ plan ∈ holdingPlans memory ∧ plan.symbol = symbol := by
  have hmem : plan ∈ memory.planList ↔ plan ∈ memory.plans.values := memory.planList_perm.mem_iff
  simp [HoldingOf, holdingPlans, hmem, and_assoc]

/-- What a refresh that computes the plans of the holdings was given. -/
theorem Writes.generated {request : RefreshRequest B} {holdings : List Symbol} {calculation : Date}
    {plans : List PriceGuidancePlan} (h : Writes ⟨request, some holdings⟩ calculation plans) :
    ∃ validFor, generatePlans request.bars request.candidateSymbols
      (holdings.map fun symbol => ⟨symbol, none⟩) true calculation validFor = .ok plans := by
  obtain ⟨validFor, _, h⟩ := bind_eq_ok_iff.mp h.made
  cases hload : request.loadFault with
  | some error =>
      rw [hload] at h
      cases h
  | none =>
      simp only [hload, reduceCtorEq, false_and, if_false] at h
      obtain ⟨generated, hgenerated, h⟩ := bind_eq_ok_iff.mp h
      cases h
      exact ⟨validFor, hgenerated⟩

theorem Writes.holdingOf {request : RefreshRequest B} {holdings : List Symbol} {calculation : Date}
    {plans : List PriceGuidancePlan} (h : Writes ⟨request, some holdings⟩ calculation plans)
    (hown : ∀ held ∈ holdings, OwnBars request.bars calculation held) (symbol : Symbol) :
    ∃ validFor, calculation < validFor ∧ (∀ plan ∈ plans, plan.planType = .holding →
        plan.symbol = symbol → guidancePlan (request.bars symbol) (some ⟨symbol, none⟩) true symbol
          .holding calculation validFor = .ok plan) ∧
      (symbol ∈ holdings → ∃ plan ∈ plans, guidancePlan (request.bars symbol)
        (some ⟨symbol, none⟩) true symbol .holding calculation validFor = .ok plan) := by
  obtain ⟨validFor, hgenerated⟩ := h.generated
  obtain ⟨_, hvalid, _⟩ := bind_eq_ok_iff.mp hgenerated
  refine ⟨validFor, require_eq_ok_iff.mp hvalid, ?_, generatePlans_held hgenerated⟩
  intro plan hplan hholding hsymbol
  obtain ⟨held, hheld, hmade⟩ := generatePlans_holding hgenerated hplan hholding
  rw [guidancePlan_symbol (hown held hheld) hmade] at hsymbol
  subst hsymbol
  exact hmade

/-- A holding after a refresh at startup was there before. -/
theorem Writes.candidates {request : RefreshRequest B} {calculation : Date}
    {plans : List PriceGuidancePlan} (h : Writes ⟨request, none⟩ calculation plans) :
    ∀ plan ∈ plans, plan.planType = .dailyCandidate := by
  obtain ⟨_, _, _, _, hgenerated⟩ := refreshPlans_eq_ok_iff.mp h.made
  exact generatePlans_candidates hgenerated

variable {symbol : Symbol} {memory : GuidanceMemory} {refresh : DailyRefresh B}

theorem oneHolding_refreshed (h : OneHolding symbol memory)
    (hkeeps : KeepsUp symbol memory refresh) : OneHolding symbol (refreshed memory refresh) := by
  obtain hsame | ⟨calculation, plans, hwrites, hvalues⟩ := refreshed_plans memory refresh
  · rwa [hsame]
  · have hkeeps := hkeeps calculation plans hwrites
    obtain ⟨request, holdings⟩ := refresh
    cases holdings with
    | some holdings =>
        obtain ⟨hvalues, _⟩ | ⟨hnone, _⟩ := hvalues
        · obtain ⟨validFor, _, hmade, _⟩ := hwrites.holdingOf hkeeps.ownBars symbol
          rintro plan other ⟨hplan, hholding, hsymbol⟩ ⟨hother, hholding', hsymbol'⟩
          rw [hvalues] at hplan hother
          have hone := hmade plan hplan hholding hsymbol
          rw [hmade other hother hholding' hsymbol'] at hone
          exact (Except.ok.inj hone).symm
        · cases hnone
    | none =>
        have hbefore : ∀ plan, HoldingOf symbol (refreshed memory ⟨request, none⟩) plan →
            HoldingOf symbol memory plan := by
          rintro plan ⟨hplan, hholding, hsymbol⟩
          have hnew : plan ∉ plans := fun hmem => by
            rw [hwrites.candidates plan hmem] at hholding
            cases hholding
          obtain ⟨hvalues, _⟩ | ⟨_, hvalues⟩ := hvalues
          · rw [hvalues] at hplan
            exact absurd hplan hnew
          · rw [hvalues, List.mem_append] at hplan
            exact holdingOf_iff.mpr ⟨hplan.resolve_left hnew, hsymbol⟩
        intro plan other hplan hother
        exact h plan other (hbefore plan hplan) (hbefore other hother)

/-- Where a plan with a protection price is computed again, it is a plan with one that is not
lower. -/
theorem Recomputed.notBelow {request : RefreshRequest B} {holdings : List Symbol}
    {calculation validFor : Date} (h : Recomputed symbol memory request holdings calculation)
    (hvalid : calculation < validFor) {plan : PriceGuidancePlan}
    (hplan : HoldingOf symbol memory plan) {price : Price} (hprice : price ∈ plan.protectionPrice)
    {made : PriceGuidancePlan}
    (hmade : guidancePlan (request.bars symbol) (some ⟨symbol, none⟩) true symbol .holding
      calculation validFor = .ok made) :
    made.planType = .holding ∧ made.symbol = symbol ∧
      ∃ protection ∈ made.protectionPrice, price.cents ≤ protection.cents := by
  obtain ⟨hheld, frame, hframe, hcurrent, features, hfeatures, haccept, hle⟩ :=
    h.notLower plan hplan price hprice
  obtain ⟨candidate, hcandidate⟩ := candidatePlan_ok haccept hvalid
  obtain ⟨planId, htry⟩ := tryPlan_holding symbol hcurrent hfeatures hcandidate
  obtain ⟨hsymbol, protection, hprotection, hvalue⟩ := candidatePlan_protection hcandidate
  rw [guidancePlan, hframe, htry] at hmade
  cases hmade
  refine ⟨rfl, hsymbol.trans (h.ownBars symbol hheld frame hframe features hfeatures), protection,
    hprotection, ?_⟩
  rw [← hvalue, Price.value, Price.value] at hle
  have hcents : (price.cents : ℚ) ≤ protection.cents := by linarith
  exact_mod_cast hcents

/-- One refresh that keeps up does not lower the protection price. -/
theorem ratchets_refreshed (h : OneHolding symbol memory) (hkeeps : KeepsUp symbol memory refresh) :
    Ratchets symbol memory (refreshed memory refresh) := by
  obtain hsame | ⟨calculation, plans, hwrites, hvalues⟩ := refreshed_plans memory refresh
  · rw [hsame]
    exact .refl h
  · have hone := oneHolding_refreshed h hkeeps
    have hrecomputed := hkeeps calculation plans hwrites
    obtain ⟨request, holdings⟩ := refresh
    intro plan hplan price hprice
    cases holdings with
    | some holdings =>
        obtain ⟨hvalues, _⟩ | ⟨hnone, _⟩ := hvalues
        · obtain ⟨validFor, hvalid, hmade, hheld⟩ := hwrites.holdingOf hrecomputed.ownBars symbol
          constructor
          · obtain ⟨made, hmem, hmade⟩ := hheld (hrecomputed.notLower plan hplan price hprice).1
            obtain ⟨hholding, hsymbol, _⟩ := hrecomputed.notBelow hvalid hplan hprice hmade
            exact ⟨made, hvalues ▸ hmem, hholding, hsymbol⟩
          · rintro made ⟨hmem, hholding, hsymbol⟩
            rw [hvalues] at hmem
            exact (hrecomputed.notBelow hvalid hplan hprice
              (hmade made hmem hholding hsymbol)).2.2
        · cases hnone
    | none =>
        obtain ⟨hheld, hsymbol⟩ := holdingOf_iff.mp hplan
        obtain ⟨_, hnone⟩ | ⟨_, hvalues⟩ := hvalues
        · rw [hnone rfl hrecomputed] at hheld
          cases hheld
        · have hkept : HoldingOf symbol (refreshed memory ⟨request, none⟩) plan :=
            ⟨hvalues ▸ List.mem_append_right _ hheld, hplan.2⟩
          exact Ratchets.refl hone plan hkept price hprice

end

section Sample

/-- The features of a symbol that rose by a hundredth each day up to ten. -/
def risen : PriceFeatures where
  symbol := heldSymbol
  cutoff := .of 2026 1 5
  rawClose := 10
  atr14 := 4 / 10
  ma20 := 9905 / 1000
  ma60 := 9705 / 1000
  support20 := 961 / 100
  adjustmentFactor := 1
  dataVersion := "lake".toList
  featureVersion := "price-features-v1".toList

/-- The features after it closed at 9.80 on the day that followed. -/
def fallen : PriceFeatures :=
  { risen with
    cutoff := .of 2026 1 6
    rawClose := 98 / 10
    ma20 := 99045 / 10000
    ma60 := 97115 / 10000
    support20 := 96 / 10 }

@[reducible] def knownFeatures : PriceBars PriceFeatures where
  latestDate features := some features.cutoff
  features features _ := .ok features

attribute [local instance] knownFeatures

def heldDay (features : PriceFeatures) : DailyRefresh PriceFeatures where
  request := ⟨[⟨heldSymbol, features.cutoff⟩], fun _ => some features, none, none, none⟩
  holdings := some [heldSymbol]

theorem risen_acceptable : Acceptable risen where
  supported := by decide
  traded := by decide
  boundaries := by decide +kernel
  distance := by decide +kernel
  positive := by decide +kernel
  bounded := by decide +kernel
  reduce := by decide +kernel
  featureVersion := by decide
  dataVersion := by decide

theorem heldMemory_holdingOf {plan : PriceGuidancePlan} (h : HoldingOf heldSymbol heldMemory plan) :
    plan = heldPlan :=
  List.mem_singleton.mp h.1

/-- The prices that the plans protect at, in hundredths. -/
def protections (memory : GuidanceMemory) : List (PricePlanType × Symbol × Option ℕ) :=
  memory.plans.values.map fun plan =>
    (plan.planType, plan.symbol, plan.protectionPrice.map Price.cents)

end Sample

end QuantWorkbench.Runtime
