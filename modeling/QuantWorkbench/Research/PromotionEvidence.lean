import QuantWorkbench.Research.Governance
import QuantWorkbench.Lib.Runs

/-!
Whose evidence a promotion rests on. The evidence of a candidate is looked up by its
bundle id, so a later registration under the same id stands in for it.
-/

namespace QuantWorkbench.Research

open QuantWorkbench.Lib

def evidenceOf (registered : List (ModelCard × ValidationBundle)) (candidateId : Text) :
    Option ValidationBundle :=
  (registered.find? fun entry => entry.1.candidateId = candidateId).map (·.2)

/-- The evidence registered last under a bundle id, by any candidate. -/
def lastUnder (registered : List (ModelCard × ValidationBundle)) (bundleId : Text) :
    Option ValidationBundle :=
  (registered.find? fun entry => entry.2.bundleId = bundleId).map (·.2)

theorem evidenceOf_cons (card : ModelCard) (evidence : ValidationBundle)
    (registered : List (ModelCard × ValidationBundle)) (candidateId : Text) :
    evidenceOf ((card, evidence) :: registered) candidateId =
      if card.candidateId = candidateId then some evidence
      else evidenceOf registered candidateId := by
  unfold evidenceOf
  rw [List.find?_cons]
  split <;> simp_all

theorem lastUnder_cons (card : ModelCard) (evidence : ValidationBundle)
    (registered : List (ModelCard × ValidationBundle)) (bundleId : Text) :
    lastUnder ((card, evidence) :: registered) bundleId =
      if evidence.bundleId = bundleId then some evidence else lastUnder registered bundleId := by
  unfold lastUnder
  rw [List.find?_cons]
  split <;> simp_all

/-- The dictionaries hold what the registrations say. -/
structure MapsAgree (w : GovernanceWorld) : Prop where
  cards : ∀ candidateId, (w.governance.cards.lookup candidateId).isSome =
    (evidenceOf w.registered candidateId).isSome
  bundleIds : ∀ candidateId, w.governance.candidateBundleIds.lookup candidateId =
    (evidenceOf w.registered candidateId).map (·.bundleId)
  bundles : ∀ bundleId, w.governance.bundles.lookup bundleId = lastUnder w.registered bundleId

theorem mapsAgree_initial : MapsAgree .initial where
  cards := fun _ => rfl
  bundleIds := fun _ => rfl
  bundles := fun _ => rfl

theorem lookup_insert_eq {α : Type} (all : AList fun _ : Text => α) (key other : Text)
    (value : α) :
    (all.insert key value).lookup other = if key = other then some value else all.lookup other := by
  split
  · rename_i heq
    subst heq
    exact AList.lookup_insert all
  · rename_i hne
    exact AList.lookup_insert_ne (Ne.symm hne)

theorem MapsAgree.registered {w : GovernanceWorld} (h : MapsAgree w) (card : ModelCard)
    (evidence : ValidationBundle) :
    MapsAgree ⟨{ w.governance with
      cards := w.governance.cards.insert card.candidateId card
      bundles := w.governance.bundles.insert evidence.bundleId evidence
      candidateBundleIds :=
        w.governance.candidateBundleIds.insert card.candidateId evidence.bundleId },
      (card, evidence) :: w.registered⟩ where
  cards := by
    intro candidateId
    rw [lookup_insert_eq, evidenceOf_cons]
    split
    · rfl
    · exact h.cards candidateId
  bundleIds := by
    intro candidateId
    rw [lookup_insert_eq, evidenceOf_cons]
    split
    · rfl
    · exact h.bundleIds candidateId
  bundles := by
    intro bundleId
    rw [lookup_insert_eq, lastUnder_cons]
    split
    · rfl
    · exact h.bundles bundleId

/-- What an approval that does not raise has found and done. -/
theorem approvePromotion_ok {g after : ModelGovernance} {requestId approvedBy : Text} {now : ℤ}
    {decision : PromotionDecision}
    (h : g.approvePromotion requestId approvedBy now = .ok (after, decision)) :
    ∃ request bundle, g.requests.lookup requestId = some request ∧ approvedBy.strip ≠ [] ∧
      g.validationFor request.candidateId = .ok bundle ∧ bundle.passes = true ∧
      after = { g with
        championId := some request.candidateId
        decisions := g.decisions ++ [decision] } := by
  unfold ModelGovernance.approvePromotion at h
  cases hrequest : g.requests.lookup requestId with
  | none =>
      rw [hrequest] at h
      cases h
  | some request =>
      rw [hrequest] at h
      simp only at h
      by_cases hblank : approvedBy.strip = []
      · rw [if_pos hblank] at h
        cases h
      · rw [if_neg hblank] at h
        cases hbundle : g.validationFor request.candidateId with
        | error text =>
            rw [hbundle] at h
            cases h
        | ok bundle =>
            rw [hbundle] at h
            simp only at h
            by_cases hpasses : bundle.passes = false
            · rw [if_pos hpasses] at h
              cases h
            · rw [if_neg hpasses] at h
              cases h
              exact ⟨request, bundle, rfl, hblank, hbundle, by simpa using hpasses, rfl⟩

theorem approvePromotion_isOk {g : ModelGovernance} {requestId approvedBy : Text} (now : ℤ)
    {request : PromotionRequest} {bundle : ValidationBundle}
    (hrequest : g.requests.lookup requestId = some request) (happrover : approvedBy.strip ≠ [])
    (hbundle : g.validationFor request.candidateId = .ok bundle)
    (hpasses : bundle.passes = true) :
    ∃ after decision, g.approvePromotion requestId approvedBy now = .ok (after, decision) := by
  unfold ModelGovernance.approvePromotion
  rw [hrequest]
  simp only [if_neg happrover, hbundle, hpasses]
  exact ⟨_, _, rfl⟩

theorem rollback_ok {g after : ModelGovernance} {toCandidateId : Option Text}
    {approvedBy uuid : Text} {now : ℤ} {decision : PromotionDecision}
    (h : g.rollback toCandidateId approvedBy uuid now = .ok (after, decision)) :
    after = { g with
      championId := toCandidateId.map Text.strip
      decisions := g.decisions ++ [decision] } := by
  unfold ModelGovernance.rollback at h
  by_cases hblank : approvedBy.strip = []
  · simp only [if_pos hblank] at h
    cases h
  · simp only [if_neg hblank] at h
    split at h
    · cases h
    · cases h
      rfl

/-- Requests, approvals and rollbacks leave the registrations alone. -/
theorem mapsAgree_step (w : GovernanceWorld) (input : GovernanceInput) (h : MapsAgree w) :
    MapsAgree (w.step input) := by
  cases input with
  | registerChallenger card evidence =>
      simp only [GovernanceWorld.step, ModelGovernance.registerChallenger]
      by_cases hknown : (w.governance.cards.lookup card.candidateId).isSome
      · simp only [if_pos hknown]
        exact h
      · simp only [if_neg hknown]
        exact h.registered card evidence
  | requestPromotion candidateId uuid now =>
      simp only [GovernanceWorld.step, ModelGovernance.requestPromotion]
      cases w.governance.validationFor candidateId with
      | error text => exact h
      | ok bundle =>
          by_cases hpasses : bundle.passes = false
          · simp only [if_pos hpasses]
            exact h
          · simp only [if_neg hpasses]
            exact ⟨h.cards, h.bundleIds, h.bundles⟩
  | approvePromotion requestId approvedBy now =>
      simp only [GovernanceWorld.step]
      split
      · rename_i g decision happroved
        obtain ⟨request, bundle, _, _, _, _, rfl⟩ := approvePromotion_ok happroved
        exact ⟨h.cards, h.bundleIds, h.bundles⟩
      · exact h
  | rollback toCandidateId approvedBy uuid now =>
      simp only [GovernanceWorld.step]
      split
      · rename_i g decision hrolled
        obtain rfl := rollback_ok hrolled
        exact ⟨h.cards, h.bundleIds, h.bundles⟩
      · exact h

theorem validationFor_ok_iff {w : GovernanceWorld} (h : MapsAgree w) {candidateId : Text}
    {bundle : ValidationBundle} :
    w.governance.validationFor candidateId = .ok bundle ↔
      ∃ own, evidenceOf w.registered candidateId = some own ∧
        lastUnder w.registered own.bundleId = some bundle := by
  have hcard := h.cards candidateId
  have hid := h.bundleIds candidateId
  unfold ModelGovernance.validationFor
  cases hown : evidenceOf w.registered candidateId with
  | none =>
      rw [hown, Option.isSome_none, Option.isSome_eq_false_iff, Option.isNone_iff_eq_none] at hcard
      rw [hcard]
      simp
  | some own =>
      rw [hown] at hcard hid
      obtain ⟨card, hcard⟩ := Option.isSome_iff_exists.mp hcard
      rw [hcard, hid]
      simp only [Option.map_some, h.bundles own.bundleId]
      cases hlast : lastUnder w.registered own.bundleId with
      | none => simp [hlast]
      | some last => simp [hlast]

def EvidenceOwned (w : GovernanceWorld) : GovernanceInput → Prop
  | .approvePromotion requestId approvedBy now => ∀ candidateId,
      (w.step (.approvePromotion requestId approvedBy now)).governance.championId =
        some candidateId → w.governance.championId ≠ some candidateId →
          ∃ own, evidenceOf w.registered candidateId = some own ∧ own.passes = true
  | _ => True

def EvidenceStands (w : GovernanceWorld) : GovernanceInput → Prop
  | .approvePromotion requestId approvedBy _ =>
      ∀ request ∈ w.governance.requests.lookup requestId, approvedBy.strip ≠ [] →
        w.governance.championId ≠ some request.candidateId →
          ∀ own ∈ evidenceOf w.registered request.candidateId,
            ∀ last ∈ lastUnder w.registered own.bundleId,
              last.passes = true → own.passes = true
  | _ => True

theorem approve_evidenceOwned_iff {w : GovernanceWorld} (h : MapsAgree w)
    (requestId approvedBy : Text) (now : ℤ) :
    EvidenceOwned w (.approvePromotion requestId approvedBy now) ↔
      EvidenceStands w (.approvePromotion requestId approvedBy now) := by
  simp only [EvidenceOwned, EvidenceStands, GovernanceWorld.step]
  constructor
  · intro howned request hrequest happrover hchange own hown last hlast hpasses
    have hbundle := (validationFor_ok_iff h).mpr ⟨own, hown, hlast⟩
    obtain ⟨after, decision, happroved⟩ := approvePromotion_isOk now
      hrequest happrover hbundle hpasses
    rw [happroved] at howned
    obtain ⟨found, _, hfound, _, _, _, rfl⟩ := approvePromotion_ok happroved
    have hsame : found = request := Option.some.inj (hfound.symm.trans hrequest)
    subst hsame
    obtain ⟨evidence, hevidence, hpassed⟩ := howned found.candidateId rfl hchange
    have heq : evidence = own := Option.some.inj (hevidence.symm.trans hown)
    exact heq ▸ hpassed
  · intro hstands candidateId hchampion hchange
    split at hchampion
    · rename_i g decision happroved
      obtain ⟨request, bundle, hrequest, happrover, hbundle, hpasses, rfl⟩ :=
        approvePromotion_ok happroved
      cases hchampion
      obtain ⟨own, hown, hlast⟩ := (validationFor_ok_iff h).mp hbundle
      exact ⟨own, hown, hstands request hrequest happrover hchange own hown bundle hlast hpasses⟩
    · exact absurd hchampion hchange

/-- In a run of the operations every promotion rests on evidence of its own candidate
exactly if no approval meets passing evidence of another one under its bundle id. -/
theorem evidenceOwned_iff (inputs : List GovernanceInput) :
    Runs.StepsMeet GovernanceWorld.step EvidenceOwned .initial inputs ↔
      Runs.StepsMeet GovernanceWorld.step EvidenceStands .initial inputs := by
  refine Runs.stepsMeet_congr GovernanceWorld.step MapsAgree
    (fun w input h _ => mapsAgree_step w input h) ?_ .initial inputs mapsAgree_initial
  intro w input h
  cases input with
  | approvePromotion requestId approvedBy now =>
      exact approve_evidenceOwned_iff h requestId approvedBy now
  | _ => exact Iff.rfl

/-- A candidate of the given name. -/
def sampleCard (letter : Char) (h : Text.isSpace letter = false) : ModelCard where
  candidateId := [letter]
  stripped := by simp [Text.strip, h]
  named := List.cons_ne_nil _ _

def sampleBundle (driftPass : Bool) : ValidationBundle where
  bundleId := "bundle".toList
  causalityPass := true
  reproduciblePass := true
  walkForwardPass := true
  postCostPass := true
  drawdownPass := true
  tailRiskPass := true
  calibrationPass := true
  perturbationPass := true
  driftPass := driftPass
  shadowPass := true
  dataMode := .historical
  stripped := by decide
  named := by decide

/-- The first candidate fails the drift check; the second brings passing evidence under
the same bundle id. -/
def sharedBundle : List GovernanceInput :=
  [.registerChallenger (sampleCard 'a' (by decide)) (sampleBundle false),
    .registerChallenger (sampleCard 'b' (by decide)) (sampleBundle true),
    .requestPromotion ['a'] "1".toList 0]

theorem sharedBundle_promotes :
    ¬ Runs.StepsMeet GovernanceWorld.step EvidenceOwned .initial
      (sharedBundle ++ [.approvePromotion "promotion-1".toList "user".toList 0]) := by
  rintro ⟨_, _, _, howned, _⟩
  obtain ⟨own, hown, hpasses⟩ := howned ['a'] (by decide +kernel) (by decide +kernel)
  have hregistered : evidenceOf (sharedBundle.foldl GovernanceWorld.step .initial).registered
      ['a'] = some (sampleBundle false) := by
    decide +kernel
  have hsame : own = sampleBundle false := Option.some.inj (hown.symm.trans hregistered)
  rw [hsame] at hpasses
  exact absurd hpasses (by decide)

end QuantWorkbench.Research
