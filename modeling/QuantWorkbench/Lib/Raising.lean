import Mathlib.Tactic

/-!
Computations that may raise and keep the state they raise in, as `try … finally`
needs it. `Ends` says how a computation ends from a state: with a value and a state
that satisfy one condition, or with an error and a state that satisfy another.
-/

namespace QuantWorkbench.Lib

def Raising (ε σ α : Type) : Type := σ → Except ε α × σ

namespace Raising

variable {ε σ α β : Type}

instance : Monad (Raising ε σ) where
  pure a := fun s => (.ok a, s)
  bind m f := fun s =>
    match m s with
    | (.ok a, s') => f a s'
    | (.error e, s') => (.error e, s')

def read (view : σ → α) : Raising ε σ α := fun s => (.ok (view s), s)

def change (f : σ → σ) : Raising ε σ Unit := fun s => (.ok (), f s)

def raise (error : ε) : Raising ε σ α := fun s => (.error error, s)

/-- Raises unless the condition holds. -/
def check (condition : Prop) [Decidable condition] (error : ε) : Raising ε σ Unit :=
  if condition then pure () else raise error

/-- A computation without state. -/
def lift (x : Except ε α) : Raising ε σ α := fun s => (x, s)

/-- `try … finally …`. What the last part raises takes the place of the result. -/
def andFinally (m : Raising ε σ α) (last : Raising ε σ Unit) : Raising ε σ α := fun s =>
  match m s with
  | (result, s') =>
      match last s' with
      | (.ok (), s'') => (result, s'')
      | (.error e, s'') => (.error e, s'')

def onRaise (m : Raising ε σ α) (handles : ε → Bool) (handler : Raising ε σ Unit) :
    Raising ε σ α := fun s =>
  match m s with
  | (.ok a, s') => (.ok a, s')
  | (.error e, s') =>
      if handles e then
        match handler s' with
        | (.ok (), s'') => (.error e, s'')
        | (.error e', s'') => (.error e', s'')
      else (.error e, s')

/-- The computation ends as the two conditions say. -/
def Ends (m : Raising ε σ α) (s : σ) (post : α → σ → Prop) (fails : ε → σ → Prop) : Prop :=
  match m s with
  | (.ok a, s') => post a s'
  | (.error e, s') => fails e s'

variable {m : Raising ε σ α} {f : α → Raising ε σ β} {s : σ}
  {post post' : α → σ → Prop} {fails fails' : ε → σ → Prop}

theorem ends_of_ok {a : α} {s' : σ} (h : m s = (.ok a, s')) (hpost : post a s') :
    Ends m s post fails := by
  rw [Ends, h]
  exact hpost

theorem ends_of_error {e : ε} {s' : σ} (h : m s = (.error e, s')) (hfails : fails e s') :
    Ends m s post fails := by
  rw [Ends, h]
  exact hfails

theorem Ends.of_ok (h : Ends m s post fails) {a : α} {s' : σ} (hrun : m s = (.ok a, s')) :
    post a s' := by
  rwa [Ends, hrun] at h

theorem Ends.of_error (h : Ends m s post fails) {e : ε} {s' : σ}
    (hrun : m s = (.error e, s')) : fails e s' := by
  rwa [Ends, hrun] at h

theorem Ends.imp (h : Ends m s post fails) (hpost : ∀ a s', post a s' → post' a s')
    (hfails : ∀ e s', fails e s' → fails' e s') : Ends m s post' fails' := by
  cases hrun : m s with
  | mk result s' =>
      cases result with
      | ok a => exact ends_of_ok hrun (hpost a s' (h.of_ok hrun))
      | error e => exact ends_of_error hrun (hfails e s' (h.of_error hrun))

/-- What holds however the computation ends holds of the state it leaves. -/
theorem Ends.after {holds : σ → Prop} (h : Ends m s post fails)
    (hpost : ∀ a s', post a s' → holds s') (hfails : ∀ e s', fails e s' → holds s') :
    holds (m s).2 := by
  cases hrun : m s with
  | mk result s' =>
      cases result with
      | ok a => exact hpost a s' (h.of_ok hrun)
      | error e => exact hfails e s' (h.of_error hrun)

theorem bind_of_ok {a : α} {s' : σ} (h : m s = (.ok a, s')) : (m >>= f) s = f a s' := by
  change (match m s with
    | (.ok a, s') => f a s'
    | (.error e, s') => (.error e, s')) = f a s'
  rw [h]

theorem check_bind {condition : Prop} [Decidable condition] {error : ε}
    {next : Unit → Raising ε σ β} (h : condition) :
    (check condition error >>= next) s = next () s := by
  unfold check
  rw [if_pos h]
  rfl

theorem check_not_bind {condition : Prop} [Decidable condition] {error : ε}
    {next : Unit → Raising ε σ β} (h : ¬ condition) :
    (check condition error >>= next) s = (.error error, s) := by
  unfold check
  rw [if_neg h]
  rfl

theorem ends_pure {a : α} (h : post a s) : Ends (pure a : Raising ε σ α) s post fails := h

theorem ends_change {change' : σ → σ} {done : Unit → σ → Prop} (h : done () (change' s)) :
    Ends (change change' : Raising ε σ Unit) s done fails := h

theorem ends_raise {error : ε} (h : fails error s) :
    Ends (raise error : Raising ε σ α) s post fails := h

theorem ends_check {condition : Prop} [Decidable condition] {error : ε}
    {done : Unit → σ → Prop} (hholds : condition → done () s)
    (hnot : ¬ condition → fails error s) :
    Ends (check condition error : Raising ε σ Unit) s done fails := by
  unfold check
  split
  · rename_i h
    exact hholds h
  · rename_i h
    exact hnot h

theorem ends_lift {x : Except ε α} (hok : ∀ a, x = .ok a → post a s)
    (herror : ∀ e, x = .error e → fails e s) :
    Ends (lift x : Raising ε σ α) s post fails := by
  cases x with
  | ok a => exact hok a rfl
  | error e => exact herror e rfl

/-- A sequence ends as its second part does from where the first one succeeds. -/
theorem Ends.bind {mid : α → σ → Prop} {done : β → σ → Prop} (h : Ends m s mid fails)
    (hf : ∀ a s', mid a s' → Ends (f a) s' done fails) :
    Ends (m >>= f) s done fails := by
  cases hrun : m s with
  | mk result s' =>
      cases result with
      | ok a =>
          have hnext := hf a s' (h.of_ok hrun)
          rw [Ends, bind_of_ok hrun]
          exact hnext
      | error e =>
          have hraises : (m >>= f) s = (.error e, s') := by
            change (match m s with
              | (.ok a, s') => f a s'
              | (.error e, s') => (.error e, s')) = (.error e, s')
            rw [hrun]
          exact ends_of_error hraises (h.of_error hrun)

theorem ends_read_bind {γ : Type} {view : σ → γ} {next : γ → Raising ε σ α}
    (h : Ends (next (view s)) s post fails) : Ends (read view >>= next) s post fails := h

theorem ends_change_bind {change' : σ → σ} {next : Unit → Raising ε σ α}
    (h : Ends (next ()) (change' s) post fails) : Ends (change change' >>= next) s post fails := h

theorem ends_check_bind {condition : Prop} [Decidable condition] {error : ε}
    {next : Unit → Raising ε σ α} (hholds : condition → Ends (next ()) s post fails)
    (hnot : ¬ condition → fails error s) : Ends (check condition error >>= next) s post fails := by
  unfold check
  split
  · rename_i h
    exact hholds h
  · rename_i h
    exact hnot h

theorem ends_lift_bind {γ : Type} {x : Except ε γ} {next : γ → Raising ε σ α}
    (hok : ∀ c, x = .ok c → Ends (next c) s post fails)
    (herror : ∀ e, x = .error e → fails e s) : Ends (lift x >>= next) s post fails := by
  cases x with
  | ok c => exact hok c rfl
  | error e => exact herror e rfl

/-- The last part is run after success and after failure. -/
theorem Ends.andFinally {last : Raising ε σ Unit} {mid : α → σ → Prop}
    {midFails : ε → σ → Prop} (h : Ends m s mid midFails)
    (hok : ∀ a s', mid a s' → Ends last s' (fun _ => post a) fails)
    (herror : ∀ e s', midFails e s' → Ends last s' (fun _ => fails e) fails) :
    Ends (m.andFinally last) s post fails := by
  cases hrun : m s with
  | mk result s' =>
      cases hlast : last s' with
      | mk ended s'' =>
          cases ended with
          | error e =>
              have hraises : (m.andFinally last) s = (.error e, s'') := by
                simp only [Raising.andFinally, hrun, hlast]
              apply ends_of_error hraises
              cases result with
              | ok a => exact (hok a s' (h.of_ok hrun)).of_error hlast
              | error e' => exact (herror e' s' (h.of_error hrun)).of_error hlast
          | ok done =>
              have hkeeps : (m.andFinally last) s = (result, s'') := by
                simp only [Raising.andFinally, hrun, hlast]
              cases result with
              | ok a => exact ends_of_ok hkeeps ((hok a s' (h.of_ok hrun)).of_ok hlast)
              | error e' =>
                  exact ends_of_error hkeeps ((herror e' s' (h.of_error hrun)).of_ok hlast)

/-- The handler is run after the errors it is for. -/
theorem Ends.onRaise {handles : ε → Bool} {handler : Raising ε σ Unit}
    {midFails : ε → σ → Prop} (h : Ends m s post midFails)
    (hhandled : ∀ e s', handles e = true → midFails e s' →
      Ends handler s' (fun _ => fails e) fails)
    (hother : ∀ e s', handles e = false → midFails e s' → fails e s') :
    Ends (m.onRaise handles handler) s post fails := by
  cases hrun : m s with
  | mk result s' =>
      cases result with
      | ok a =>
          have hkeeps : (m.onRaise handles handler) s = (.ok a, s') := by
            simp only [Raising.onRaise, hrun]
          exact ends_of_ok hkeeps (h.of_ok hrun)
      | error e =>
          have hfailed := h.of_error hrun
          cases hcase : handles e with
          | false =>
              have hraises : (m.onRaise handles handler) s = (.error e, s') := by
                simp [Raising.onRaise, hrun, hcase]
              exact ends_of_error hraises (hother e s' hcase hfailed)
          | true =>
              cases hlast : handler s' with
              | mk ended s'' =>
                  cases ended with
                  | ok done =>
                      have hraises : (m.onRaise handles handler) s = (.error e, s'') := by
                        simp [Raising.onRaise, hrun, hcase, hlast]
                      exact ends_of_error hraises ((hhandled e s' hcase hfailed).of_ok hlast)
                  | error e' =>
                      have hraises : (m.onRaise handles handler) s = (.error e', s'') := by
                        simp [Raising.onRaise, hrun, hcase, hlast]
                      exact ends_of_error hraises ((hhandled e s' hcase hfailed).of_error hlast)

end Raising

/-!
A computation for each item of a list, which stops at the first one that raises, and conditions on
the states in which the items find the state.
-/

namespace Raising

variable {ε σ ι : Type} (run : ι → Raising ε σ Unit)

def forEach : List ι → Raising ε σ Unit
  | [] => pure ()
  | item :: rest => do
      run item
      forEach rest

/-- Each item that is reached meets the condition in the state that it finds. -/
def EachMeets (condition : σ → ι → Prop) : σ → List ι → Prop
  | _, [] => True
  | s, item :: rest =>
      condition s item ∧ ∀ s', run item s = (.ok (), s') → EachMeets condition s' rest

variable {run} {condition condition' : σ → ι → Prop} {s : σ} {items : List ι}

theorem ends_forEach {keeps : σ → σ → Prop} (hrefl : ∀ s, keeps s s)
    (htrans : ∀ s s' s'', keeps s s' → keeps s' s'' → keeps s s'')
    (hstep : ∀ s item, condition s item →
      Ends (run item) s (fun _ s' => keeps s s') (fun _ s' => keeps s s'))
    (h : EachMeets run condition s items) :
    Ends (forEach run items) s (fun _ s' => keeps s s') (fun _ s' => keeps s s') := by
  induction items generalizing s with
  | nil => exact ends_pure (hrefl s)
  | cons item rest ih =>
      obtain ⟨hmeets, hrest⟩ := h
      have hends := hstep s item hmeets
      rw [forEach]
      cases hrun : run item s with
      | mk result s' =>
          cases result with
          | error error =>
              have hkeeps := hends.of_error hrun
              have hbind : Ends (run item) s (fun _ _ => False) (fun _ s' => keeps s s') :=
                ends_of_error hrun hkeeps
              exact hbind.bind fun _ _ h => h.elim
          | ok _ =>
              have hkeeps := hends.of_ok hrun
              have hbind : Ends (run item) s (fun _ between => between = s')
                  (fun _ s' => keeps s s') := ends_of_ok hrun rfl
              refine hbind.bind ?_
              rintro _ _ rfl
              exact (ih (hrest _ hrun)).imp (fun _ s'' h => htrans s _ s'' hkeeps h)
                (fun _ s'' h => htrans s _ s'' hkeeps h)

/-- A sequence ends as its second part does from where the first one is known to end. -/
theorem Ends.bind_of_run {α β : Type} {m : Raising ε σ α} {f : α → Raising ε σ β} {s : σ}
    {mid : α → σ → Prop} {done : β → σ → Prop} {fails : ε → σ → Prop} (h : Ends m s mid fails)
    (hf : ∀ a s', m s = (.ok a, s') → mid a s' → Ends (f a) s' done fails) :
    Ends (m >>= f) s done fails := by
  have hruns : Ends m s (fun a s' => m s = (.ok a, s') ∧ mid a s') fails := by
    cases hrun : m s with
    | mk result s' =>
        cases result with
        | ok a =>
            apply ends_of_ok hrun
            exact ⟨hrun ▸ rfl, h.of_ok hrun⟩
        | error error => exact ends_of_error hrun (h.of_error hrun)
  exact hruns.bind fun a s' hmid => hf a s' hmid.1 hmid.2

theorem bind_ok {α β : Type} {m : Raising ε σ α} {f : α → Raising ε σ β} {s s' : σ} {b : β}
    (h : (m >>= f) s = (.ok b, s')) : ∃ a between, m s = (.ok a, between) ∧
      f a between = (.ok b, s') := by
  simp only [bind] at h
  cases hrun : m s with
  | mk result between =>
      rw [hrun] at h
      cases result with
      | error error => cases h
      | ok a => exact ⟨a, between, rfl, h⟩

/-- Items that all return go through the states of their own runs. -/
theorem forEach_cons_ok {item : ι} {rest : List ι} {s' : σ}
    (h : forEach run (item :: rest) s = (.ok (), s')) :
    ∃ between, run item s = (.ok (), between) ∧ forEach run rest between = (.ok (), s') := by
  rw [forEach] at h
  obtain ⟨_, between, hrun, hrest⟩ := bind_ok h
  exact ⟨between, hrun, hrest⟩

/-- In a run that returns, conditions that agree on each item that returns are met together. -/
theorem eachMeets_congr (hiff : ∀ item ∈ items, ∀ s s', run item s = (.ok (), s') →
      (condition s item ↔ condition' s item))
    {s' : σ} (h : forEach run items s = (.ok (), s')) :
    EachMeets run condition s items ↔ EachMeets run condition' s items := by
  induction items generalizing s with
  | nil => exact Iff.rfl
  | cons item rest ih =>
      obtain ⟨hitem, hothers⟩ := List.forall_mem_cons.mp hiff
      obtain ⟨between, hrun, hrest⟩ := forEach_cons_ok h
      refine and_congr (hitem s between hrun) (forall_congr' fun next => ?_)
      refine forall_congr' fun hnext => ?_
      cases hrun.symm.trans hnext
      exact ih hothers hrest

theorem EachMeets.and (h : EachMeets run condition s items) (h' : EachMeets run condition' s items) :
    EachMeets run (fun s item => condition s item ∧ condition' s item) s items := by
  induction items generalizing s with
  | nil => trivial
  | cons item rest ih =>
      exact ⟨⟨h.1, h'.1⟩, fun next hnext => ih (h.2 next hnext) (h'.2 next hnext)⟩

theorem eachMeets_of_forall (h : ∀ s, ∀ item ∈ items, condition s item) :
    EachMeets run condition s items := by
  induction items generalizing s with
  | nil => trivial
  | cons item rest ih =>
      refine ⟨h s item List.mem_cons_self, fun next _ => ih fun s other hother => ?_⟩
      exact h s other (List.mem_cons_of_mem item hother)

end Raising

end QuantWorkbench.Lib
