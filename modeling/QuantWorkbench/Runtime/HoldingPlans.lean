import QuantWorkbench.Runtime.PriceGuidance

/-!
What a refresh at startup leaves of the plans of holdings and of their observations. The refresh
puts the plans of the candidates first and writes the plans of the holdings back after that.
-/

namespace QuantWorkbench.Runtime

open Lib Data Advisory QuantWorkbench.Storage

def KeepsHoldings (memory state : GuidanceMemory) : Prop :=
  ∀ plan ∈ memory.plans.values, plan.planType = .holding →
    plan ∈ state.plans.values ∧
      ∀ observation ∈ memory.observations.values, observation.planId = plan.planId →
        observation ∈ state.observations.values

theorem KeepsHoldings.refl (memory : GuidanceMemory) : KeepsHoldings memory memory :=
  fun _ hplan _ => ⟨hplan, fun _ hobservation _ => hobservation⟩

section

variable {B : Type} [PriceBars B]

/-- The refresh gets to write: a session follows, the lake has bars of a candidate, the plans are
neither too many nor of one identity, and the first write does not fail. -/
def FirstWrite (request : RefreshRequest B) : Prop :=
  ∃ calculation ∈ request.calculation?, ∃ validFor plans,
    Market.nextSession calculation = .ok validFor ∧ request.loadFault = none ∧
      (∃ symbol ∈ request.candidateSymbols, (request.bars symbol).isSome) ∧
      generatePlans request.bars request.candidateSymbols [] false calculation validFor =
        .ok plans ∧
      plans.length ≤ 5000 ∧ (plans.map PriceGuidancePlan.planId).Nodup ∧ request.firstFault = none

/-! ### The plans of candidates -/

omit [PriceBars B] in
theorem candidatePlan_planType {features : PriceFeatures} {promoted : Bool}
    {previousProtection : Option ℚ} {calculation validFor : Date} {plan : PriceGuidancePlan}
    (h : candidatePlan features promoted previousProtection calculation validFor = .ok plan) :
    plan.planType = .dailyCandidate := by
  obtain ⟨_, _, h⟩ := bind_eq_ok_iff.mp h
  obtain ⟨_, _, h⟩ := bind_eq_ok_iff.mp h
  obtain ⟨_, _, h⟩ := bind_eq_ok_iff.mp h
  exact (PriceGuidancePlan.create_madeFrom (planError_eq_ok_iff.mp h)).planType

omit [PriceBars B] in
theorem unavailablePlan_planType {symbol : Symbol} {planType : PricePlanType}
    {calculation validFor : Date} {reasons : List Text} {plan : PriceGuidancePlan}
    (h : unavailablePlan symbol planType calculation validFor reasons = .ok plan) :
    plan.planType = planType :=
  (PriceGuidancePlan.create_madeFrom h).planType

theorem tryPlan_candidate {bars : Option B} {position : Option HoldingPosition}
    {requireCurrentSession : Bool} {calculation validFor : Date} {plan : PriceGuidancePlan}
    (h : tryPlan bars position requireCurrentSession .dailyCandidate calculation validFor =
      .ok plan) : plan.planType = .dailyCandidate := by
  obtain ⟨_, _, h⟩ := bind_eq_ok_iff.mp h
  obtain ⟨_, _, h⟩ := bind_eq_ok_iff.mp h
  obtain ⟨_, _, h⟩ := bind_eq_ok_iff.mp h
  obtain ⟨made, hmade, h⟩ := bind_eq_ok_iff.mp h
  cases h
  exact candidatePlan_planType hmade

theorem guidancePlan_candidate {bars : Option B} {position : Option HoldingPosition}
    {requireCurrentSession : Bool} {symbol : Symbol} {calculation validFor : Date}
    {plan : PriceGuidancePlan}
    (h : guidancePlan bars position requireCurrentSession symbol .dailyCandidate calculation
      validFor = .ok plan) : plan.planType = .dailyCandidate := by
  unfold guidancePlan at h
  split at h
  · rename_i made hmade
    cases h
    exact tryPlan_candidate hmade
  · exact unavailablePlan_planType h
  · exact unavailablePlan_planType h

/-- Without positions every plan is one of a candidate. -/
theorem generatePlans_candidates {bars : Symbol → Option B} {candidateSymbols : List Symbol}
    {requireCurrentSession : Bool} {calculation validFor : Date} {plans : List PriceGuidancePlan}
    (h : generatePlans bars candidateSymbols [] requireCurrentSession calculation validFor =
      .ok plans) : ∀ plan ∈ plans, plan.planType = .dailyCandidate := by
  obtain ⟨_, _, h⟩ := bind_eq_ok_iff.mp h
  intro plan hplan
  obtain ⟨request, hrequest, hmade⟩ := mem_of_mapM_ok h hplan
  have hkind : request.2 = .dailyCandidate := by
    have hmem := (List.mem_insertionSort _).mp hrequest
    simp only [List.map_nil, List.append_nil, List.mem_dedup, List.mem_map] at hmem
    obtain ⟨symbol, _, rfl⟩ := hmem
    rfl
  rw [hkind] at hmade
  exact guidancePlan_candidate hmade

/-! ### The first write -/

omit [PriceBars B] in
theorem storePlans_eq_ok {memory changed : GuidanceMemory} {plans : List PriceGuidancePlan}
    {fault : Option String} (h : storePlans memory plans fault = .ok changed) :
    plans.length ≤ 5000 ∧ (plans.map PriceGuidancePlan.planId).Nodup ∧ fault = none ∧
      changed.plans.values = plans := by
  obtain ⟨_, hreplace, h⟩ := bind_eq_ok_iff.mp h
  obtain ⟨_, hpersist, h⟩ := bind_eq_ok_iff.mp h
  cases h
  obtain ⟨_, hlength, hreplace⟩ := bind_eq_ok_iff.mp hreplace
  split at hreplace
  · rename_i hnodup
    cases hreplace
    cases fault with
    | none => exact ⟨require_eq_ok_iff.mp hlength, hnodup, rfl, rfl⟩
    | some error => cases hpersist
  · cases hreplace

omit [PriceBars B] in
theorem storePlans_ok (memory : GuidanceMemory) {plans : List PriceGuidancePlan}
    (hlength : plans.length ≤ 5000) (hnodup : (plans.map PriceGuidancePlan.planId).Nodup) :
    ∃ changed, storePlans memory plans none = .ok changed := by
  refine ⟨_, bind_eq_ok_iff.mpr ⟨_, bind_eq_ok_iff.mpr ⟨(), require_eq_ok_iff.mpr hlength,
    dif_pos hnodup⟩, rfl⟩⟩

theorem refreshPlans_eq_ok_iff {request : RefreshRequest B} {calculation : Date}
    {plans : List PriceGuidancePlan} :
    refreshPlans request none calculation = .ok (some plans) ↔
      ∃ validFor, Market.nextSession calculation = .ok validFor ∧ request.loadFault = none ∧
        (∃ symbol ∈ request.candidateSymbols, (request.bars symbol).isSome) ∧
        generatePlans request.bars request.candidateSymbols [] false calculation validFor =
          .ok plans := by
  have hbars : (¬ ∀ symbol ∈ request.candidateSymbols, (request.bars symbol).isNone) ↔
      ∃ symbol ∈ request.candidateSymbols, (request.bars symbol).isSome := by
    simp [Option.isSome_iff_ne_none]
  rw [← hbars]
  unfold refreshPlans
  cases hload : request.loadFault with
  | some error =>
      constructor
      · intro h
        obtain ⟨_, _, h⟩ := bind_eq_ok_iff.mp h
        cases h
      · rintro ⟨_, _, hnone, _⟩
        cases hnone
  | none =>
      constructor
      · intro h
        obtain ⟨validFor, hvalid, h⟩ := bind_eq_ok_iff.mp h
        by_cases hnobars : ∀ symbol ∈ request.candidateSymbols, (request.bars symbol).isNone
        · simp only [true_and, if_pos hnobars] at h
          cases h
        · simp only [true_and, if_neg hnobars] at h
          obtain ⟨generated, hgenerated, h⟩ := bind_eq_ok_iff.mp h
          cases h
          exact ⟨validFor, hvalid, rfl, hnobars, hgenerated⟩
      · rintro ⟨validFor, hvalid, _, hnobars, hgenerated⟩
        refine bind_eq_ok_iff.mpr ⟨validFor, hvalid, ?_⟩
        simp only [true_and, if_neg hnobars]
        exact bind_eq_ok_iff.mpr ⟨plans, hgenerated, rfl⟩

/-- The contents of the file after a refresh that does not get to write. -/
theorem refreshStates_unwritten {memory : GuidanceMemory} {request : RefreshRequest B}
    (h : ¬ FirstWrite request) : refreshStates memory request none = [memory] := by
  unfold refreshStates
  split
  · rfl
  · rename_i calculation hcalculation
    split
    · rfl
    · rfl
    · rename_i plans hplans
      split
      · rfl
      · rename_i replaced hreplaced
        obtain ⟨validFor, hvalid, hload, hbars, hgenerated⟩ := refreshPlans_eq_ok_iff.mp hplans
        obtain ⟨hlength, hnodup, hfault, _⟩ := storePlans_eq_ok hreplaced
        exact absurd ⟨calculation, hcalculation, validFor, plans, hvalid, hload, hbars, hgenerated,
          hlength, hnodup, hfault⟩ h

/-- A refresh that gets to write leaves the plans of the candidates alone for a while. -/
theorem refreshStates_written {memory : GuidanceMemory} {request : RefreshRequest B}
    (h : FirstWrite request) : ∃ state ∈ refreshStates memory request none,
      ∀ plan ∈ state.plans.values, plan.planType = .dailyCandidate := by
  obtain ⟨calculation, hcalculation, validFor, plans, hvalid, hload, hbars, hgenerated, hlength,
    hnodup, hfault⟩ := h
  have hplans : refreshPlans request none calculation = .ok (some plans) :=
    refreshPlans_eq_ok_iff.mpr ⟨validFor, hvalid, hload, hbars, hgenerated⟩
  obtain ⟨replaced, hreplaced⟩ := storePlans_ok memory hlength hnodup
  have hvalues := (storePlans_eq_ok hreplaced).2.2.2
  refine ⟨replaced, ?_, ?_⟩
  · unfold refreshStates
    rw [hcalculation]
    simp only [hplans, hfault, hreplaced]
    split
    · split <;> simp
    · simp
  · rw [hvalues]
    exact generatePlans_candidates hgenerated

/-- A refresh keeps the plans of holdings and their observations in the file at all times exactly
if there are none or the refresh does not get to write. -/
theorem refresh_keepsHoldings_iff (memory : GuidanceMemory) (request : RefreshRequest B) :
    (∀ state ∈ refreshStates memory request none, KeepsHoldings memory state) ↔
      (∀ plan ∈ memory.plans.values, plan.planType ≠ .holding) ∨ ¬ FirstWrite request := by
  constructor
  · intro h
    by_cases hwrite : FirstWrite request
    · left
      obtain ⟨state, hstate, hcandidates⟩ := @refreshStates_written _ _ memory _ hwrite
      intro plan hplan hholding
      have hkept := (h state hstate plan hplan hholding).1
      rw [hcandidates plan hkept] at hholding
      cases hholding
    · exact Or.inr hwrite
  · rintro (hnone | hunwritten) state hstate
    · exact fun plan hplan hholding => absurd hholding (hnone plan hplan)
    · rw [refreshStates_unwritten hunwritten, List.mem_singleton] at hstate
      rw [hstate]
      exact .refl memory

end

section Sample

@[reducible] def shortHistory : PriceBars Unit where
  latestDate _ := none
  features _ _ := .error "price guidance requires at least 252 rows".toList

attribute [local instance] shortHistory

def heldSymbol : Symbol := ⟨"600000".toList, Eq.refl true⟩

def heldPlan : PriceGuidancePlan :=
  { PriceGuidancePlan.reference with
    planId := .of "price-holding-600000-2026-01-05".toList
    symbol := heldSymbol
    planType := .holding
    protectionPrice := some ⟨951, by decide, by decide⟩ }

def heldObservation : PriceGuidanceObservation where
  observationId := .of "observation-1".toList
  planId := heldPlan.planId
  symbol := heldSymbol
  observedAt := ⟨.of 2026 1 6, 2, 0, 0, 0⟩
  quoteTimestamp := ⟨.of 2026 1 6, 2, 0, 0, 0⟩
  currentPrice := some ⟨1000, by decide, by decide⟩
  dataQuality := .good
  state := .holdWatch
  reasonCodes := []

def heldMemory : GuidanceMemory :=
  ⟨⟨[heldPlan], List.nodup_singleton _⟩, ⟨[heldObservation], List.nodup_singleton _⟩⟩

def heldRequest : RefreshRequest Unit where
  signals := [⟨heldSymbol, .of 2026 1 6⟩]
  bars _ := some ()
  loadFault := none
  firstFault := none
  secondFault := none

/-- The refresh returns with the plan of the holding, without its observation. -/
theorem refresh_dropsObservation :
    ¬ ∀ state ∈ refreshStates heldMemory heldRequest none, KeepsHoldings heldMemory state := by
  intro h
  have hlengths : (refreshStates heldMemory heldRequest none).map
      (fun state => state.observations.values.length) = [1, 0, 0] := by decide +kernel
  have hdropped : 0 ∈ (refreshStates heldMemory heldRequest none).map
      (fun state => state.observations.values.length) := by simp [hlengths]
  obtain ⟨state, hstate, hempty⟩ := List.mem_map.mp hdropped
  have hkept := (h state hstate heldPlan List.mem_cons_self rfl).2 heldObservation
    List.mem_cons_self rfl
  rw [List.eq_nil_of_length_eq_zero hempty] at hkept
  cases hkept

end Sample

end QuantWorkbench.Runtime
