import QuantWorkbench.Lib.Fallible

/-!
When a computation raises: a sequence at its first part that does.
-/

namespace QuantWorkbench.Lib

variable {ε α β : Type}

def Raised (x : Except ε α) : Prop := ∃ error, x = .error error

@[simp] theorem raised_error (error : ε) : Raised (.error error : Except ε α) := ⟨error, rfl⟩

@[simp] theorem not_raised_ok (a : α) : ¬ Raised (.ok a : Except ε α) := fun ⟨_, h⟩ => nomatch h

theorem raised_bind_iff {x : Except ε α} {f : α → Except ε β} :
    Raised (x >>= f) ↔ Raised x ∨ ∃ a, x = .ok a ∧ Raised (f a) := by
  cases x with
  | error error =>
      constructor
      · exact fun _ => .inl (raised_error error)
      · exact fun _ => ⟨error, rfl⟩
  | ok a =>
      constructor
      · exact fun h => .inr ⟨a, rfl, h⟩
      · rintro (h | ⟨_, h, hraised⟩)
        · exact absurd h (not_raised_ok a)
        · cases h
          exact hraised

/-- A sequence ends in the error of the first part that has one. -/
theorem bind_eq_error_iff {x : Except ε α} {f : α → Except ε β} {error : ε} :
    (x >>= f) = .error error ↔ x = .error error ∨ ∃ a, x = .ok a ∧ f a = .error error := by
  cases x with
  | error raised =>
      constructor
      · exact fun h => .inl (by cases h; rfl)
      · rintro (h | ⟨_, h, _⟩)
        · cases h
          rfl
        · cases h
  | ok a =>
      constructor
      · exact fun h => .inr ⟨a, rfl, h⟩
      · rintro (h | ⟨_, h, hf⟩)
        · cases h
        · cases h
          exact hf

theorem require_eq_error_iff {condition : Prop} [Decidable condition] {error raised : ε} :
    require condition error = .error raised ↔ ¬ condition ∧ error = raised := by
  unfold require
  split
  · rename_i h
    exact ⟨(fun hok => nomatch hok), fun hnot => absurd h hnot.1⟩
  · rename_i h
    exact ⟨fun herror => ⟨h, Except.error.inj herror⟩, fun hsame => congrArg Except.error hsame.2⟩

theorem orRaise_eq_error_iff {value : Option α} {error raised : ε} :
    orRaise value error = .error raised ↔ value = none ∧ error = raised := by
  cases value with
  | none => exact ⟨fun h => ⟨rfl, Except.error.inj h⟩, fun h => congrArg Except.error h.2⟩
  | some a => exact ⟨(fun h => nomatch h), fun h => nomatch h.1⟩

end QuantWorkbench.Lib
