import Mathlib.Data.List.Basic
import Mathlib.Tactic

/-!
Logs of a running system, the newest event first, and what they say about the
past: that something held at some moment and nothing of a kind has happened since,
and that an event of a kind never happened in a forbidden past.
-/

namespace QuantWorkbench.Lib.EventLog

variable {E : Type*}

/-- The log met the description at some moment and every event after it meets the
condition. -/
def Since (moment : List E → Prop) (after : E → Prop) (log : List E) : Prop :=
  ∃ newer older, log = newer ++ older ∧ moment older ∧ ∀ event ∈ newer, after event

/-- No event was recorded in a past that forbids it. -/
def Never (forbidden : E → List E → Prop) (log : List E) : Prop :=
  ∀ newer event older, log = newer ++ event :: older → ¬ forbidden event older

variable {moment moment' : List E → Prop} {after after' : E → Prop} {log : List E}

theorem Since.now (h : moment log) : Since moment after log :=
  ⟨[], log, rfl, h, fun _ hmem => absurd hmem List.not_mem_nil⟩

theorem Since.record {event : E} (h : Since moment after log) (hevent : after event) :
    Since moment after (event :: log) := by
  obtain ⟨newer, older, rfl, hmoment, hafter⟩ := h
  refine ⟨event :: newer, older, rfl, hmoment, ?_⟩
  intro other hother
  rcases List.mem_cons.mp hother with rfl | hother
  · exact hevent
  · exact hafter other hother

theorem since_cons_iff {event : E} :
    Since moment after (event :: log) ↔
      moment (event :: log) ∨ (after event ∧ Since moment after log) := by
  constructor
  · rintro ⟨newer, older, hlog, hmoment, hafter⟩
    cases newer with
    | nil =>
        rw [List.nil_append] at hlog
        exact Or.inl (hlog ▸ hmoment)
    | cons head rest =>
        obtain ⟨rfl, rfl⟩ := List.cons.inj hlog
        exact Or.inr ⟨hafter _ List.mem_cons_self, rest, older, rfl, hmoment, fun other hother =>
          hafter other (List.mem_cons_of_mem _ hother)⟩
  · rintro (hmoment | ⟨hevent, hsince⟩)
    · exact .now hmoment
    · exact hsince.record hevent

theorem Since.append {events : List E} (h : Since moment after log)
    (hevents : ∀ event ∈ events, after event) : Since moment after (events ++ log) := by
  induction events with
  | nil => exact h
  | cons event rest ih =>
      have hrest := ih fun other hother => hevents other (List.mem_cons_of_mem _ hother)
      exact hrest.record (hevents event List.mem_cons_self)

theorem never_nil (forbidden : E → List E → Prop) : Never forbidden [] := by
  intro newer event older h
  simp at h

theorem never_cons_iff {forbidden : E → List E → Prop} {event : E} :
    Never forbidden (event :: log) ↔ ¬ forbidden event log ∧ Never forbidden log := by
  constructor
  · intro h
    refine ⟨h [] event log rfl, ?_⟩
    intro newer other older hlog
    exact h (event :: newer) other older (by rw [hlog]; rfl)
  · rintro ⟨hevent, hnever⟩ newer other older hlog
    cases newer with
    | nil =>
        obtain ⟨rfl, rfl⟩ := List.cons.inj hlog
        exact hevent
    | cons head rest =>
        obtain ⟨_, hrest⟩ := List.cons.inj hlog
        exact hnever rest other older hrest

/-- New events that no past forbids keep the law. -/
theorem Never.append {forbidden : E → List E → Prop} {events : List E}
    (h : Never forbidden log) (hevents : ∀ event ∈ events, ∀ past, ¬ forbidden event past) :
    Never forbidden (events ++ log) := by
  induction events with
  | nil => exact h
  | cons event rest ih =>
      refine never_cons_iff.mpr ⟨hevents event List.mem_cons_self _, ?_⟩
      exact ih fun other hother => hevents other (List.mem_cons_of_mem _ hother)

end QuantWorkbench.Lib.EventLog
