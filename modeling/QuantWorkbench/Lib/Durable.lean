import QuantWorkbench.Lib.Fallible

/-!
Programs that work on a disk one file operation at a time. Between two operations a program sees the
disk for nothing, and there it may be killed; an operation may also fail without an effect, which the
program can catch. What holds wherever a program is killed, and whichever operation fails, is found
by going through its operations.
-/

namespace QuantWorkbench.Lib

/-- A program is done, or it sees the disk, or it changes the disk by one operation; if that fails it
goes on another way. -/
inductive Program (σ α : Type) where
  | done (result : Except String α)
  | look (next : σ → Program σ α)
  | operate (change : σ → σ) (next failed : Program σ α)

namespace Program

variable {σ α β : Type}

/-! ### Programs of programs -/

def bind (program : Program σ α) (next : α → Program σ β) : Program σ β :=
  match program with
  | done (.ok value) => next value
  | done (.error error) => done (.error error)
  | look view => look fun disk => (view disk).bind next
  | operate change rest failed => operate change (rest.bind next) (failed.bind next)

instance : Monad (Program σ) where
  pure value := done (.ok value)
  bind := bind

def raise (error : String) : Program σ α := done (.error error)

/-- What can be seen without a file operation. -/
def see (view : σ → α) : Program σ α := look fun disk => done (.ok (view disk))

/-- One file operation, which raises `error` when it fails. -/
def change (error : String) (effect : σ → σ) : Program σ Unit :=
  operate effect (done (.ok ())) (raise error)

def forEach {ι : Type} (body : ι → Program σ Unit) : List ι → Program σ Unit
  | [] => pure ()
  | item :: rest => do
      body item
      forEach body rest

theorem bind_eq (program : Program σ α) (next : α → Program σ β) :
    program >>= next = program.bind next := rfl

/-! ### Runs -/

/-- The result of a run that nothing disturbs, and the disk after it. -/
def run : Program σ α → σ → Except String α × σ
  | done result, disk => (result, disk)
  | look view, disk => (view disk).run disk
  | operate change rest _, disk => rest.run (change disk)

def killed : Program σ α → ℕ → σ → σ
  | done _, _, disk => disk
  | look view, number, disk => (view disk).killed number disk
  | operate _ _ _, 0, disk => disk
  | operate change rest _, number + 1, disk => rest.killed number (change disk)

/-- What follows a part of a run. -/
def continued (next : α → Program σ β) : Except String α × σ → Except String β × σ
  | (.ok value, disk) => (next value).run disk
  | (.error error, disk) => (.error error, disk)

theorem run_bind (program : Program σ α) (next : α → Program σ β) (disk : σ) :
    (program.bind next).run disk = continued next (program.run disk) := by
  induction program generalizing disk with
  | done result =>
      cases result with
      | ok value => rfl
      | error error => rfl
  | look view ih => exact ih disk disk
  | operate change rest failed ih _ => exact ih (change disk)

theorem run_bind_ok {program : Program σ α} {next : α → Program σ β} {disk after : σ} {value : α}
    (h : program.run disk = (.ok value, after)) :
    (program.bind next).run disk = (next value).run after := by
  rw [run_bind, h, continued]

theorem run_see_bind (view : σ → α) (next : α → Program σ β) (disk : σ) :
    ((see view).bind next).run disk = (next (view disk)).run disk := rfl

theorem killed_see_bind (view : σ → α) (next : α → Program σ β) (number : ℕ) (disk : σ) :
    ((see view).bind next).killed number disk = (next (view disk)).killed number disk := rfl

theorem killed_zero (program : Program σ α) (disk : σ) : program.killed 0 disk = disk := by
  induction program with
  | done result => rfl
  | look view ih => exact ih disk
  | operate change rest failed _ _ => rfl

/-! ### Kills -/

/-- The disk has the property before every operation of the run. -/
def KillSafe (property : σ → Prop) : Program σ α → σ → Prop
  | done _, _ => True
  | look view, disk => KillSafe property (view disk) disk
  | operate change rest _, disk => property disk ∧ KillSafe property rest (change disk)

/-- The property holds wherever the program is killed, the end of its run included. -/
theorem forall_killed_iff {property : σ → Prop} {program : Program σ α} {disk : σ} :
    (∀ number, property (program.killed number disk)) ↔
      KillSafe property program disk ∧ property (program.run disk).2 := by
  induction program generalizing disk with
  | done result => exact ⟨fun h => ⟨trivial, h 0⟩, fun h _ => h.2⟩
  | look view ih => exact ih disk
  | operate change rest failed ih _ =>
      rw [KillSafe, run, and_assoc, ← ih]
      constructor
      · intro h
        exact ⟨h 0, fun number => h (number + 1)⟩
      · rintro ⟨hfirst, hrest⟩ number
        cases number with
        | zero => exact hfirst
        | succ number => exact hrest number

theorem killSafe_bind_iff {property : σ → Prop} {program : Program σ α}
    {next : α → Program σ β} {disk : σ} :
    KillSafe property (program.bind next) disk ↔
      KillSafe property program disk ∧
        ∀ value after, program.run disk = (.ok value, after) →
          KillSafe property (next value) after := by
  induction program generalizing disk with
  | done result =>
      cases result with
      | ok value =>
          refine ⟨fun h => ⟨trivial, ?_⟩, fun h => h.2 value disk rfl⟩
          rintro _ _ ⟨⟩
          exact h
      | error error => exact ⟨fun _ => ⟨trivial, nofun⟩, fun _ => trivial⟩
  | look view ih => exact ih disk
  | operate change rest failed ih _ =>
      rw [bind, KillSafe, KillSafe, run, and_assoc, ← ih]

theorem killSafe_see_bind {property : σ → Prop} {view : σ → α} {next : α → Program σ β} {disk : σ} :
    KillSafe property ((see view).bind next) disk ↔ KillSafe property (next (view disk)) disk :=
  Iff.rfl

theorem KillSafe.imp {property other : σ → Prop} (himp : ∀ disk, property disk → other disk)
    {program : Program σ α} {disk : σ} (h : KillSafe property program disk) :
    KillSafe other program disk := by
  induction program generalizing disk with
  | done result => trivial
  | look view ih => exact ih disk h
  | operate change rest failed ih _ => exact ⟨himp disk h.1, ih h.2⟩

/-- The disk after a program was started again for each of the kills. -/
def restarted {ι : Type} (restart : ι → Program σ α) (kills : List (ι × ℕ)) (disk : σ) : σ :=
  kills.foldl (fun reached kill => (restart kill.1).killed kill.2 reached) disk

theorem restarted_of_invariant {ι : Type} {restart : ι → Program σ α} (allowed : ι → Prop)
    (invariant : σ → Prop)
    (hrestart : ∀ start, allowed start → ∀ disk, invariant disk →
      KillSafe invariant (restart start) disk ∧ invariant ((restart start).run disk).2)
    {kills : List (ι × ℕ)} (hkills : ∀ kill ∈ kills, allowed kill.1) {disk : σ}
    (h : invariant disk) : invariant (restarted restart kills disk) := by
  induction kills generalizing disk with
  | nil => exact h
  | cons kill rest ih =>
      have hstep := hrestart kill.1 (hkills kill List.mem_cons_self) disk h
      exact ih (fun other hother => hkills other (List.mem_cons_of_mem _ hother))
        (forall_killed_iff.mpr hstep kill.2)

/-! ### Faults -/

end Program

end QuantWorkbench.Lib
