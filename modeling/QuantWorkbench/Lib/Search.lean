import Mathlib.Order.Cover
import QuantWorkbench.Lib.Fallible

/-!
Searches that go from an element of an order to the one next to it until a test accepts one. On the
dual order the same search goes the other way.
-/

namespace QuantWorkbench.Lib

variable {ε α : Type}

/-- The loop of a search. It raises where the elements or the steps are over. -/
def searchFrom (advance : α → Option α) (accepts : α → Except ε Bool) (ended : ε) :
    ℕ → α → Except ε α
  | 0, _ => .error ended
  | fuel + 1, current => do
      let candidate ← orRaise (advance current) ended
      if ← accepts candidate then return candidate
      else searchFrom advance accepts ended fuel candidate

/-- A step goes to the next element of the order if there is one, and each leaves fewer of them. -/
structure Walks [LinearOrder α] (advance : α → Option α) (left : α → ℕ) : Prop where
  covers : ∀ {a b}, advance a = some b → a ⋖ b
  last : ∀ {a}, advance a = none → IsMax a
  shrinks : ∀ {a b}, advance a = some b → left b < left a

section Walks

variable [LinearOrder α] {advance : α → Option α} {accepts : α → Except ε Bool} {ended : ε}

/-- An element is found by the search if it is accepted and all those before it are rejected. -/
structure Found (accepts : α → Except ε Bool) (start found : α) : Prop where
  after : start < found
  accepted : accepts found = .ok true
  rejected : ∀ between, start < between → between < found → accepts between = .ok false

theorem Found.isLeast {start found : α} (h : Found accepts start found) :
    IsLeast {a | accepts a = .ok true ∧ start < a} found := by
  refine ⟨⟨h.accepted, h.after⟩, ?_⟩
  rintro other ⟨haccepted, hafter⟩
  by_contra hbefore
  have hrejected := h.rejected other hafter (lt_of_not_ge hbefore)
  rw [haccepted] at hrejected
  cases hrejected

/-- Nothing is found where the test raises on the first element that follows. -/
theorem Found.not_error {start candidate found : α} (h : Found accepts start found)
    (hnext : start ⋖ candidate) {error : ε} : accepts candidate ≠ .error error := by
  intro hraises
  rcases (hnext.ge_of_gt h.after).eq_or_lt with rfl | hlt
  · rw [h.accepted] at hraises
    cases hraises
  · rw [h.rejected candidate hnext.lt hlt] at hraises
    cases hraises

/-- What comes after an element is the next one and what comes after that. -/
theorem forall_after_iff {a b : α} (hnext : a ⋖ b) {property : α → Prop} :
    (∀ c, a < c → property c) ↔ property b ∧ ∀ c, b < c → property c := by
  constructor
  · exact fun h => ⟨h b hnext.lt, fun c hc => h c (hnext.lt.trans hc)⟩
  · rintro ⟨hb, hafter⟩ c hc
    rcases (hnext.ge_of_gt hc).eq_or_lt with rfl | hlt
    · exact hb
    · exact hafter c hlt

theorem found_of_searchFrom {left : α → ℕ} (hwalks : Walks advance left) {fuel : ℕ}
    {start found : α} (h : searchFrom advance accepts ended fuel start = .ok found) :
    Found accepts start found := by
  induction fuel generalizing start with
  | zero => cases h
  | succ fuel ih =>
      obtain ⟨candidate, hcandidate, h⟩ := bind_eq_ok_iff.mp h
      have hnext := hwalks.covers (orRaise_eq_ok_iff.mp hcandidate)
      obtain ⟨accepted, haccepted, h⟩ := bind_eq_ok_iff.mp h
      cases accepted with
      | true =>
          cases h
          exact ⟨hnext.lt, haccepted, fun _ hafter hbefore => absurd hbefore (hnext.2 hafter)⟩
      | false =>
          have hrest := ih h
          refine ⟨hnext.lt.trans hrest.after, hrest.accepted, ?_⟩
          intro between hafter hbefore
          rcases (hnext.ge_of_gt hafter).eq_or_lt with rfl | hlt
          · exact haccepted
          · exact hrest.rejected between hlt hbefore

/-- A search with steps enough raises what the test raises, or has rejected all that follows. -/
theorem error_of_searchFrom {left : α → ℕ} (hwalks : Walks advance left) {fuel : ℕ} {start : α}
    {error : ε} (hfuel : left start < fuel)
    (h : searchFrom advance accepts ended fuel start = .error error) :
    (∃ raises, start < raises ∧ accepts raises = .error error ∧
        ∀ between, start < between → between < raises → accepts between = .ok false) ∨
      (error = ended ∧ ∀ later, start < later → accepts later = .ok false) := by
  induction fuel generalizing start with
  | zero => omega
  | succ fuel ih =>
      rw [searchFrom] at h
      cases hadvance : advance start with
      | none =>
          rw [hadvance] at h
          cases h
          exact Or.inr ⟨rfl, fun later hlater => absurd hlater (hwalks.last hadvance).not_lt⟩
      | some candidate =>
          have hnext := hwalks.covers hadvance
          have hleft := hwalks.shrinks hadvance
          rw [hadvance] at h
          cases haccepts : accepts candidate with
          | error raised =>
              simp only [orRaise, ok_bind, haccepts] at h
              cases h
              exact Or.inl ⟨candidate, hnext.lt, haccepts,
                fun _ hafter hbefore => absurd hbefore (hnext.2 hafter)⟩
          | ok accepted =>
              simp only [orRaise, ok_bind, haccepts] at h
              cases accepted with
              | true => cases h
              | false =>
                  rcases ih (by omega) h with ⟨raises, hafter, hraises, hbetween⟩ | ⟨hended, hnone⟩
                  · refine Or.inl ⟨raises, hnext.lt.trans hafter, hraises, ?_⟩
                    intro between hlt hbefore
                    rcases (hnext.ge_of_gt hlt).eq_or_lt with rfl | hlater
                    · exact haccepts
                    · exact hbetween between hlater hbefore
                  · exact Or.inr ⟨hended, (forall_after_iff hnext).mpr ⟨haccepts, hnone⟩⟩

/-- Where the test never raises, a search with steps enough finds what there is. -/
theorem exists_found {left : α → ℕ} (hwalks : Walks advance left) {fuel : ℕ} {start : α}
    (hfuel : left start < fuel) (htotal : ∀ a error, accepts a ≠ .error error)
    (hexists : ∃ later, accepts later = .ok true ∧ start < later) :
    ∃ found, searchFrom advance accepts ended fuel start = .ok found := by
  cases hsearch : searchFrom advance accepts ended fuel start with
  | ok found => exact ⟨found, rfl⟩
  | error error =>
      exfalso
      rcases error_of_searchFrom hwalks hfuel hsearch with ⟨raises, _, hraises, _⟩ | ⟨_, hnone⟩
      · exact htotal raises error hraises
      · obtain ⟨later, haccepted, hafter⟩ := hexists
        have hrejected := hnone later hafter
        rw [haccepted] at hrejected
        cases hrejected

/-- Where nothing is found and the test raises somewhere, the search raises as the test does. -/
theorem searchFrom_eq_error {left : α → ℕ} (hwalks : Walks advance left) {fuel : ℕ} {start : α}
    (hfuel : left start < fuel) {error : ε}
    (herrors : ∀ a raised, accepts a = .error raised → raised = error)
    (hraises : ∃ later, start < later ∧ accepts later = .error error)
    (hnone : ∀ found, ¬ Found accepts start found) :
    searchFrom advance accepts ended fuel start = .error error := by
  cases hsearch : searchFrom advance accepts ended fuel start with
  | ok found => exact absurd (found_of_searchFrom hwalks hsearch) (hnone found)
  | error raised =>
      rcases error_of_searchFrom hwalks hfuel hsearch with ⟨last, _, hlast, _⟩ | ⟨_, hrejected⟩
      · rw [herrors last raised hlast]
      · obtain ⟨later, hafter, hlater⟩ := hraises
        rw [hrejected later hafter] at hlater
        cases hlater

end Walks

end QuantWorkbench.Lib
