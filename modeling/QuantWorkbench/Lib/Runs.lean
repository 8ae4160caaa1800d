import Mathlib.Tactic

/-!
Runs of a state machine whose every input has an effect on the state, possibly
none. `Always` speaks about each state of a run and `StepsMeet` about each step
together with the state it is taken from.
-/

namespace QuantWorkbench.Lib.Runs

variable {σ ι : Type*} (step : σ → ι → σ)

/-- The property holds at the start of the run and after each of its steps. -/
def Always (property : σ → Prop) : σ → List ι → Prop
  | s, [] => property s
  | s, i :: rest => property s ∧ Always property (step s i) rest

/-- Each input meets the condition in the state that receives it. -/
def StepsMeet (condition : σ → ι → Prop) : σ → List ι → Prop
  | _, [] => True
  | s, i :: rest => condition s i ∧ StepsMeet condition (step s i) rest

theorem Always.head {property : σ → Prop} {s : σ} {inputs : List ι}
    (h : Always step property s inputs) : property s := by
  cases inputs with
  | nil => exact h
  | cons i rest => exact h.1

theorem Always.last {property : σ → Prop} {s : σ} {inputs : List ι}
    (h : Always step property s inputs) : property (inputs.foldl step s) := by
  induction inputs generalizing s with
  | nil => exact h
  | cons i rest ih => exact ih h.2

/-- An invariant of the start that no step breaks holds along every run. -/
theorem always_of_invariant (invariant : σ → Prop)
    (hstep : ∀ s i, invariant s → invariant (step s i)) :
    ∀ (s : σ) (inputs : List ι), invariant s → Always step invariant s inputs := by
  intro s inputs hs
  induction inputs generalizing s with
  | nil => exact hs
  | cons i rest ih => exact ⟨hs, ih (step s i) (hstep s i hs)⟩

/-- An invariant of the start that no step breaks while the condition is met holds
along every run whose steps all meet it. -/
theorem always_of_stepsMeet (invariant : σ → Prop) {condition : σ → ι → Prop}
    (hstep : ∀ s i, invariant s → condition s i → invariant (step s i)) :
    ∀ (s : σ) (inputs : List ι), invariant s → StepsMeet step condition s inputs →
      Always step invariant s inputs := by
  intro s inputs hs hmeet
  induction inputs generalizing s with
  | nil => exact hs
  | cons i rest ih => exact ⟨hs, ih (step s i) (hstep s i hs hmeet.1) hmeet.2⟩

theorem Always.imp {property other : σ → Prop}
    (himp : ∀ s, property s → other s) {s : σ} {inputs : List ι}
    (h : Always step property s inputs) : Always step other s inputs := by
  induction inputs generalizing s with
  | nil => exact himp s h
  | cons i rest ih => exact ⟨himp s h.1, ih h.2⟩

theorem stepsMeet_append {condition : σ → ι → Prop} {s : σ} {earlier later : List ι} :
    StepsMeet step condition s (earlier ++ later) ↔
      StepsMeet step condition s earlier ∧
        StepsMeet step condition (earlier.foldl step s) later := by
  induction earlier generalizing s with
  | nil => exact ⟨fun h => ⟨trivial, h⟩, fun h => h.2⟩
  | cons i rest ih => rw [List.cons_append, StepsMeet, ih, StepsMeet, and_assoc, List.foldl_cons]

theorem stepsMeet_of_forall {condition : σ → ι → Prop} (h : ∀ s i, condition s i) (s : σ)
    (inputs : List ι) : StepsMeet step condition s inputs := by
  induction inputs generalizing s with
  | nil => exact trivial
  | cons i rest ih => exact ⟨h s i, ih (step s i)⟩

theorem stepsMeet_and {condition other : σ → ι → Prop} {s : σ} {inputs : List ι} :
    StepsMeet step (fun s i => condition s i ∧ other s i) s inputs ↔
      StepsMeet step condition s inputs ∧ StepsMeet step other s inputs := by
  induction inputs generalizing s with
  | nil => exact ⟨fun _ => ⟨trivial, trivial⟩, fun _ => trivial⟩
  | cons i rest ih => rw [StepsMeet, ih, StepsMeet, StepsMeet, and_and_and_comm]

/-- A condition that only looks at a part of the state, where the part takes steps of its own, is
about the runs of the part. -/
theorem stepsMeet_part {τ : Type*} {part : σ → τ} {partStep : τ → ι → τ}
    (hpart : ∀ s i, part (step s i) = partStep (part s) i) {condition : τ → ι → Prop} {s : σ}
    {inputs : List ι} :
    StepsMeet step (fun s i => condition (part s) i) s inputs ↔
      StepsMeet partStep condition (part s) inputs := by
  induction inputs generalizing s with
  | nil => exact Iff.rfl
  | cons i rest ih => rw [StepsMeet, ih, StepsMeet, hpart]

/-- What is known of the inputs of a run may be used at each of its steps. -/
theorem StepsMeet.and_forall {condition : σ → ι → Prop} {known : ι → Prop} {s : σ}
    {inputs : List ι} (h : StepsMeet step condition s inputs) (hknown : ∀ i ∈ inputs, known i) :
    StepsMeet step (fun s i => condition s i ∧ known i) s inputs := by
  induction inputs generalizing s with
  | nil => exact trivial
  | cons i rest ih =>
      exact ⟨⟨h.1, hknown i List.mem_cons_self⟩,
        ih h.2 fun j hj => hknown j (List.mem_cons_of_mem i hj)⟩

/-- What an invariant and a condition on each step say about it. -/
theorem StepsMeet.imp (invariant : σ → Prop) {condition other : σ → ι → Prop}
    (hstep : ∀ s i, invariant s → invariant (step s i))
    (himp : ∀ s i, invariant s → condition s i → other s i) {s : σ} {inputs : List ι}
    (hs : invariant s) (h : StepsMeet step condition s inputs) :
    StepsMeet step other s inputs := by
  induction inputs generalizing s with
  | nil => exact trivial
  | cons i rest ih => exact ⟨himp s i hs h.1, ih (hstep s i hs) h.2⟩

/-- Two conditions that agree wherever an invariant holds, and whose steps keep it, are met by the
same runs. What is known of all inputs may be used. -/
theorem stepsMeet_congr_of (invariant : σ → Prop) (known : ι → Prop)
    {condition other : σ → ι → Prop}
    (hinvariant : ∀ s i, invariant s → known i → other s i → invariant (step s i))
    (hsame : ∀ s i, invariant s → known i → (condition s i ↔ other s i)) (s : σ)
    (inputs : List ι) (hknown : ∀ i ∈ inputs, known i) (hs : invariant s) :
    StepsMeet step condition s inputs ↔ StepsMeet step other s inputs := by
  induction inputs generalizing s with
  | nil => exact Iff.rfl
  | cons i rest ih =>
      obtain ⟨hi, hrest⟩ := List.forall_mem_cons.mp hknown
      constructor
      · rintro ⟨hcondition, hlater⟩
        have hother := (hsame s i hs hi).mp hcondition
        exact ⟨hother, (ih (step s i) hrest (hinvariant s i hs hi hother)).mp hlater⟩
      · rintro ⟨hother, hlater⟩
        exact ⟨(hsame s i hs hi).mpr hother,
          (ih (step s i) hrest (hinvariant s i hs hi hother)).mpr hlater⟩

theorem stepsMeet_congr (invariant : σ → Prop) {condition other : σ → ι → Prop}
    (hinvariant : ∀ s i, invariant s → other s i → invariant (step s i))
    (hsame : ∀ s i, invariant s → (condition s i ↔ other s i)) (s : σ) (inputs : List ι)
    (hs : invariant s) :
    StepsMeet step condition s inputs ↔ StepsMeet step other s inputs :=
  stepsMeet_congr_of step invariant (fun _ => True) (fun s i hs _ => hinvariant s i hs)
    (fun s i hs _ => hsame s i hs) s inputs (fun _ _ => trivial) hs

/-- An invariant of the start that no known input breaks holds along every run of known inputs. -/
theorem always_of_known (invariant : σ → Prop) {known : ι → Prop}
    (hstep : ∀ s i, invariant s → known i → invariant (step s i)) (s : σ) (inputs : List ι)
    (hknown : ∀ i ∈ inputs, known i) (hs : invariant s) : Always step invariant s inputs := by
  induction inputs generalizing s with
  | nil => exact hs
  | cons i rest ih =>
      obtain ⟨hi, hrest⟩ := List.forall_mem_cons.mp hknown
      exact ⟨hs, ih (step s i) hrest (hstep s i hs hi)⟩

/-- When a condition on the step decides exactly whether the property survives
it, the condition along the run decides the property along the run. -/
theorem always_iff_stepsMeet (invariant : σ → Prop) {property : σ → Prop}
    {condition : σ → ι → Prop}
    (hinvariant : ∀ s i, invariant s → invariant (step s i))
    (hexact : ∀ s i, invariant s → property s →
      (property (step s i) ↔ condition s i))
    (s : σ) (inputs : List ι) (hs : invariant s) (hproperty : property s) :
    Always step property s inputs ↔ StepsMeet step condition s inputs := by
  induction inputs generalizing s with
  | nil => exact ⟨fun _ => trivial, fun _ => hproperty⟩
  | cons i rest ih =>
      have hnext := hexact s i hs hproperty
      constructor
      · rintro ⟨_, hrest⟩
        have hstep := hrest.head
        exact ⟨hnext.mp hstep, (ih _ (hinvariant s i hs) hstep).mp hrest⟩
      · rintro ⟨hcondition, hrest⟩
        have hstep := hnext.mpr hcondition
        exact ⟨hproperty, (ih _ (hinvariant s i hs) hstep).mpr hrest⟩

end QuantWorkbench.Lib.Runs
