import QuantWorkbench.Lib.Text
import Mathlib.Data.List.AList

/-!
Governed model promotion. Candidates are registered with their validation evidence,
and a local approval makes one of them the champion. An operation that raises leaves
the state as it was.
-/

namespace QuantWorkbench.Research

open QuantWorkbench.Lib

inductive DataMode where
  | fixture
  | historical
  | paper
  deriving DecidableEq

/-- The part of a model card that governance reads, as its constructor leaves it. -/
structure ModelCard where
  candidateId : Text
  stripped : candidateId.strip = candidateId
  named : candidateId ≠ []

structure ValidationBundle where
  bundleId : Text
  causalityPass : Bool
  reproduciblePass : Bool
  walkForwardPass : Bool
  postCostPass : Bool
  drawdownPass : Bool
  tailRiskPass : Bool
  calibrationPass : Bool
  perturbationPass : Bool
  driftPass : Bool
  shadowPass : Bool
  dataMode : DataMode
  stripped : bundleId.strip = bundleId
  named : bundleId ≠ []

instance : DecidableEq ValidationBundle := fun left right =>
  decidable_of_iff ((left.bundleId, left.causalityPass, left.reproduciblePass,
      left.walkForwardPass, left.postCostPass, left.drawdownPass) =
        (right.bundleId, right.causalityPass, right.reproduciblePass, right.walkForwardPass,
          right.postCostPass, right.drawdownPass) ∧
    (left.tailRiskPass, left.calibrationPass, left.perturbationPass, left.driftPass,
      left.shadowPass, left.dataMode) = (right.tailRiskPass, right.calibrationPass,
        right.perturbationPass, right.driftPass, right.shadowPass, right.dataMode)) <| by
    cases left
    cases right
    simp [and_assoc]

def ValidationBundle.checks (bundle : ValidationBundle) : List (String × Bool) :=
  [("causality_pass", bundle.causalityPass), ("reproducible_pass", bundle.reproduciblePass),
    ("walk_forward_pass", bundle.walkForwardPass), ("post_cost_pass", bundle.postCostPass),
    ("drawdown_pass", bundle.drawdownPass), ("tail_risk_pass", bundle.tailRiskPass),
    ("calibration_pass", bundle.calibrationPass),
    ("perturbation_pass", bundle.perturbationPass), ("drift_pass", bundle.driftPass),
    ("shadow_pass", bundle.shadowPass)]

def ValidationBundle.passes (bundle : ValidationBundle) : Bool :=
  bundle.dataMode ≠ .fixture && bundle.checks.all (·.2)

structure PromotionRequest where
  requestId : Text
  candidateId : Text
  bundleId : Text
  requestedAt : ℤ
  status : String := "PENDING_APPROVAL"
  deriving DecidableEq

structure PromotionDecision where
  requestId : Text
  accepted : Bool
  championId : Option Text
  previousChampionId : Option Text
  approvedBy : Text
  decidedAt : ℤ
  reason : String
  deriving DecidableEq

structure ModelGovernance where
  cards : AList fun _ : Text => ModelCard
  bundles : AList fun _ : Text => ValidationBundle
  candidateBundleIds : AList fun _ : Text => Text
  requests : AList fun _ : Text => PromotionRequest
  decisions : List PromotionDecision
  championId : Option Text

namespace ModelGovernance

def initial : ModelGovernance := ⟨∅, ∅, ∅, ∅, [], none⟩

variable (g : ModelGovernance)

def registerChallenger (card : ModelCard) (evidence : ValidationBundle) :
    Except String ModelGovernance :=
  if (g.cards.lookup card.candidateId).isSome then
    .error "candidate_id is already registered"
  else
    .ok { g with
      cards := g.cards.insert card.candidateId card
      bundles := g.bundles.insert evidence.bundleId evidence
      candidateBundleIds := g.candidateBundleIds.insert card.candidateId evidence.bundleId }

def validationFor (candidateId : Text) : Except String ValidationBundle :=
  match g.cards.lookup candidateId with
  | none => .error "candidate_id is not registered"
  | some _ =>
      match g.candidateBundleIds.lookup candidateId with
      | none => .error "KeyError"
      | some bundleId =>
          match g.bundles.lookup bundleId with
          | none => .error "KeyError"
          | some bundle => .ok bundle

def requestPromotion (candidateId uuid : Text) (now : ℤ) :
    Except String (ModelGovernance × PromotionRequest) :=
  match g.validationFor candidateId with
  | .error text => .error text
  | .ok bundle =>
      if bundle.passes = false then
        .error "validation evidence does not authorize promotion"
      else
        let request : PromotionRequest := {
          requestId := "promotion-".toList ++ uuid
          candidateId := candidateId
          bundleId := bundle.bundleId
          requestedAt := now }
        .ok ({ g with requests := g.requests.insert request.requestId request }, request)

def approvePromotion (requestId approvedBy : Text) (now : ℤ) :
    Except String (ModelGovernance × PromotionDecision) :=
  match g.requests.lookup requestId with
  | none => .error "unknown promotion request"
  | some request =>
      if approvedBy.strip = [] then .error "approved_by is required"
      else
        match g.validationFor request.candidateId with
        | .error text => .error text
        | .ok bundle =>
            if bundle.passes = false then
              .error "validation evidence no longer authorizes promotion"
            else
              let decision : PromotionDecision := {
                requestId := requestId
                accepted := true
                championId := some request.candidateId
                previousChampionId := g.championId
                approvedBy := approvedBy.strip
                decidedAt := now
                reason := "explicit local approval after complete validation evidence" }
              .ok ({ g with
                championId := some request.candidateId
                decisions := g.decisions ++ [decision] }, decision)

/-- An explicit rollback to a registered candidate or to no champion. -/
def rollback (toCandidateId : Option Text) (approvedBy uuid : Text) (now : ℤ) :
    Except String (ModelGovernance × PromotionDecision) :=
  let target := toCandidateId.map Text.strip
  if approvedBy.strip = [] then .error "approved_by is required"
  else if ∃ candidateId ∈ target, (g.cards.lookup candidateId).isNone then
    .error "rollback target is not a registered candidate"
  else
    let decision : PromotionDecision := {
      requestId := "rollback-".toList ++ uuid
      accepted := true
      championId := target
      previousChampionId := g.championId
      approvedBy := approvedBy.strip
      decidedAt := now
      reason := "explicit local rollback after model or data-quality review" }
    .ok ({ g with championId := target, decisions := g.decisions ++ [decision] }, decision)

end ModelGovernance

inductive GovernanceInput where
  | registerChallenger (card : ModelCard) (evidence : ValidationBundle)
  | requestPromotion (candidateId uuid : Text) (now : ℤ)
  | approvePromotion (requestId approvedBy : Text) (now : ℤ)
  | rollback (toCandidateId : Option Text) (approvedBy uuid : Text) (now : ℤ)

/-- A governance with its successful registrations, the newest first. -/
structure GovernanceWorld where
  governance : ModelGovernance
  registered : List (ModelCard × ValidationBundle)

def GovernanceWorld.initial : GovernanceWorld := ⟨.initial, []⟩

def GovernanceWorld.step (w : GovernanceWorld) : GovernanceInput → GovernanceWorld
  | .registerChallenger card evidence =>
      match w.governance.registerChallenger card evidence with
      | .ok g => ⟨g, (card, evidence) :: w.registered⟩
      | .error _ => w
  | .requestPromotion candidateId uuid now =>
      match w.governance.requestPromotion candidateId uuid now with
      | .ok (g, _) => { w with governance := g }
      | .error _ => w
  | .approvePromotion requestId approvedBy now =>
      match w.governance.approvePromotion requestId approvedBy now with
      | .ok (g, _) => { w with governance := g }
      | .error _ => w
  | .rollback toCandidateId approvedBy uuid now =>
      match w.governance.rollback toCandidateId approvedBy uuid now with
      | .ok (g, _) => { w with governance := g }
      | .error _ => w

end QuantWorkbench.Research
