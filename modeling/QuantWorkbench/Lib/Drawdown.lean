import Mathlib.Algebra.Order.BigOperators.Group.List
import Mathlib.Algebra.Order.Group.MinMax
import Mathlib.Tactic

/-!
The maximal drawdown of a sequence of gains and losses: how far the running total falls below its
greatest value so far. It is at most the sum of the losses, and whether it is that sum in every
order depends on how many losses there are and on whether anything is gained.
-/

namespace QuantWorkbench.Lib

variable {F : Type*} [AddCommGroup F] [LinearOrder F] [IsOrderedAddMonoid F]

def drawdownStep (state : F × F × F) (value : F) : F × F × F :=
  let running := state.1 + value
  let peak := max state.2.1 running
  (running, peak, max state.2.2 (peak - running))

def maxDrawdown (values : List F) : F := (values.foldl drawdownStep (0, 0, 0)).2.2

namespace Drawdown

/-- The drawdown from a fall below the peak and a drawdown so far. -/
def deepest : F → F → List F → F
  | _, deep, [] => deep
  | fall, deep, value :: rest =>
      deepest (max 0 (fall - value)) (max deep (max 0 (fall - value))) rest

theorem foldl_drawdownStep (running peak deep : F) (values : List F) :
    (values.foldl drawdownStep (running, peak, deep)).2.2 =
      deepest (peak - running) deep values := by
  induction values generalizing running peak deep with
  | nil => rfl
  | cons value rest ih =>
      have hfall : max peak (running + value) - (running + value) =
          max 0 (peak - running - value) := by
        rw [← max_sub_sub_right, sub_self, max_comm, sub_add_eq_sub_sub]
      rw [List.foldl_cons, drawdownStep, ih, deepest, hfall]

theorem maxDrawdown_eq (values : List F) : maxDrawdown values = deepest 0 0 values := by
  rw [maxDrawdown, foldl_drawdownStep, sub_zero]

def losses (values : List F) : F := (values.map fun value => max 0 (-value)).sum

omit [IsOrderedAddMonoid F] in
@[simp] theorem losses_cons (value : F) (rest : List F) :
    losses (value :: rest) = max 0 (-value) + losses rest := by
  rw [losses, List.map_cons, List.sum_cons, losses]

theorem losses_nonneg (values : List F) : 0 ≤ losses values := by
  refine List.sum_nonneg fun loss hloss => ?_
  obtain ⟨value, _, rfl⟩ := List.mem_map.mp hloss
  exact le_max_left _ _

omit [IsOrderedAddMonoid F] in
theorem losses_append (values others : List F) :
    losses (values ++ others) = losses values + losses others := by
  rw [losses, List.map_append, List.sum_append, losses, losses]

omit [IsOrderedAddMonoid F] in
theorem losses_perm {values others : List F} (h : values.Perm others) :
    losses values = losses others := (h.map _).sum_eq

theorem losses_of_nonneg {values : List F} (h : ∀ value ∈ values, 0 ≤ value) :
    losses values = 0 := by
  induction values with
  | nil => rfl
  | cons value rest ih =>
      obtain ⟨hvalue, hrest⟩ := List.forall_mem_cons.mp h
      rw [losses_cons, ih hrest, max_eq_left (neg_nonpos.mpr hvalue), add_zero]

omit [IsOrderedAddMonoid F] in
theorem le_deepest (fall deep : F) (values : List F) : deep ≤ deepest fall deep values := by
  induction values generalizing fall deep with
  | nil => exact le_rfl
  | cons value rest ih => exact (le_max_left _ _).trans (ih _ _)

/-- A fall grows by no more than the losses. -/
theorem deepest_le {fall : F} (hfall : 0 ≤ fall) (deep : F) (values : List F) :
    deepest fall deep values ≤ max deep (fall + losses values) := by
  induction values generalizing fall deep with
  | nil => exact le_max_left _ _
  | cons value rest ih =>
      have hnext : max 0 (fall - value) ≤ fall + max 0 (-value) := by
        refine max_le (add_nonneg hfall (le_max_left _ _)) ?_
        rw [sub_eq_add_neg]
        gcongr
        exact le_max_right _ _
      have hrest := losses_nonneg rest
      refine (ih (le_max_left _ _) _).trans ?_
      rw [losses_cons, ← add_assoc]
      refine max_le (max_le (le_max_left _ _) (le_max_of_le_right ?_)) (le_max_of_le_right ?_)
      · exact hnext.trans (le_add_of_nonneg_right hrest)
      · gcongr

/-- Without a gain the fall grows by all losses. -/
theorem le_deepest_of_nonpos {fall deep : F} (hfall : 0 ≤ fall) (hdeep : fall ≤ deep)
    {values : List F} (h : ∀ value ∈ values, value ≤ 0) :
    fall + losses values ≤ deepest fall deep values := by
  induction values generalizing fall deep with
  | nil => simpa [losses, deepest] using hdeep
  | cons value rest ih =>
      obtain ⟨hvalue, hrest⟩ := List.forall_mem_cons.mp h
      have hloss : max 0 (-value) = -value := max_eq_right (neg_nonneg.mpr hvalue)
      have hnext : max 0 (fall - value) = fall + max 0 (-value) := by
        rw [hloss, ← sub_eq_add_neg]
        exact max_eq_right (sub_nonneg.mpr (hvalue.trans hfall))
      rw [losses_cons, ← add_assoc, deepest, ← hnext]
      exact ih (le_max_left _ _) (le_max_right _ _) hrest

/-- Gains at the peak change nothing. -/
theorem deepest_gains {deep : F} (hdeep : 0 ≤ deep) {gains : List F}
    (h : ∀ value ∈ gains, 0 ≤ value) (rest : List F) :
    deepest 0 deep (gains ++ rest) = deepest 0 deep rest := by
  induction gains with
  | nil => rfl
  | cons value later ih =>
      obtain ⟨hvalue, hlater⟩ := List.forall_mem_cons.mp h
      have hfall : max 0 (0 - value) = 0 := max_eq_left (sub_nonpos.mpr hvalue)
      rw [List.cons_append, deepest, hfall, max_eq_left hdeep]
      exact ih hlater

theorem maxDrawdown_le (values : List F) : maxDrawdown values ≤ losses values := by
  have h := deepest_le (le_refl (0 : F)) 0 values
  rw [zero_add, max_eq_right (losses_nonneg values)] at h
  rw [maxDrawdown_eq]
  exact h

theorem maxDrawdown_gains_first {gains rest : List F} (hgains : ∀ value ∈ gains, 0 ≤ value)
    (hrest : ∀ value ∈ rest, value ≤ 0) :
    maxDrawdown (gains ++ rest) = losses (gains ++ rest) := by
  refine le_antisymm (maxDrawdown_le _) ?_
  rw [losses_append, losses_of_nonneg hgains, maxDrawdown_eq, deepest_gains le_rfl hgains]
  exact le_deepest_of_nonpos le_rfl le_rfl hrest

theorem maxDrawdown_one_loss {gains later : List F} {value : F}
    (hgains : ∀ other ∈ gains, 0 ≤ other) (hlater : ∀ other ∈ later, 0 ≤ other) :
    maxDrawdown (gains ++ value :: later) = losses (gains ++ value :: later) := by
  refine le_antisymm (maxDrawdown_le _) ?_
  rw [losses_append, losses_of_nonneg hgains, losses_cons, losses_of_nonneg hlater, maxDrawdown_eq,
    deepest_gains le_rfl hgains, zero_add, add_zero, deepest, zero_sub]
  exact (le_max_right _ _).trans (le_deepest _ _ _)

/-- A gain between losses keeps the drawdown below their sum. -/
theorem maxDrawdown_lt_losses {gains rest : List F} {first gain : F}
    (hgains : ∀ value ∈ gains, 0 ≤ value) (hfirst : first < 0) (hgain : 0 < gain)
    (hrest : 0 < losses rest) :
    maxDrawdown (gains ++ first :: gain :: rest) < losses (gains ++ first :: gain :: rest) := by
  have hloss : max 0 (-first) = -first := max_eq_right (neg_nonneg.mpr hfirst.le)
  have hnone : max 0 (-gain) = 0 := max_eq_left (neg_nonpos.mpr hgain.le)
  have hnext : max 0 (-first - gain) < -first :=
    max_lt (neg_pos.mpr hfirst) (sub_lt_self _ hgain)
  rw [losses_append, losses_of_nonneg hgains, losses_cons, losses_cons, hloss, hnone, zero_add,
    zero_add, maxDrawdown_eq, deepest_gains le_rfl hgains, deepest, zero_sub, hloss,
    max_eq_right (neg_nonneg.mpr hfirst.le), deepest, max_eq_left hnext.le]
  refine (deepest_le (le_max_left _ _) _ _).trans_lt (max_lt ?_ ?_)
  · exact lt_add_of_pos_right _ hrest
  · gcongr

end Drawdown

open Drawdown

/-- Every order has the same drawdown exactly if there is at most one loss, or nothing gained. -/
theorem maxDrawdown_perm_iff {α : Type*} (value : α → F) (items : List α) :
    (∀ others : List α, others.Perm items →
      maxDrawdown (others.map value) = maxDrawdown (items.map value)) ↔
      items.countP (fun a => value a < 0) ≤ 1 ∨ ∀ a ∈ items, value a ≤ 0 := by
  have hsplit := List.filter_append_perm (fun a => decide (value a < 0)) items
  have hgains : ∀ x ∈ (items.filter fun a => !decide (value a < 0)).map value, 0 ≤ x := by
    intro x hx
    obtain ⟨a, ha, rfl⟩ := List.mem_map.mp hx
    simpa using (List.mem_filter.mp ha).2
  have hlost : ∀ a ∈ items.filter (fun a => decide (value a < 0)), value a < 0 := by
    intro a ha
    simpa using (List.mem_filter.mp ha).2
  constructor
  · intro h
    by_contra hneither
    obtain ⟨hmany, hgain⟩ := not_or.mp hneither
    push Not at hmany hgain
    obtain ⟨gain, hmem, hpos⟩ := hgain
    have hgainMem : gain ∈ items.filter fun a => !decide (value a < 0) :=
      List.mem_filter.mpr ⟨hmem, by simpa using hpos.le⟩
    obtain ⟨before, after, hparts⟩ := List.append_of_mem hgainMem
    rw [List.countP_eq_length_filter] at hmany
    cases hlosses : items.filter fun a => decide (value a < 0) with
    | nil =>
        rw [hlosses] at hmany
        exact absurd hmany (Nat.not_lt_zero 1)
    | cons first rest =>
        rw [hlosses] at hsplit hlost hmany
        rw [hparts] at hsplit hgains
        obtain ⟨hfirst, hrest⟩ := List.forall_mem_cons.mp hlost
        have hmore : 0 < losses (rest.map value) := by
          cases rest with
          | nil => exact absurd hmany (lt_irrefl 1)
          | cons second later =>
              rw [List.map_cons, losses_cons]
              exact add_pos_of_pos_of_nonneg
                (lt_max_of_lt_right (neg_pos.mpr (hrest second List.mem_cons_self)))
                (losses_nonneg _)
        -- One gain stands between the losses, or all gains stand before them.
        have hbetween : ((before ++ after) ++ first :: gain :: rest).Perm items := by
          refine List.Perm.trans ?_ hsplit
          refine List.Perm.trans ?_ List.perm_append_comm
          have hmiddle := @List.perm_middle α gain (before ++ after ++ [first]) rest
          have hstart := @List.perm_middle α gain before (after ++ first :: rest)
          simp only [List.append_assoc, List.cons_append, List.nil_append] at hmiddle hstart ⊢
          exact hmiddle.trans hstart.symm
        have hbefore : ((before ++ gain :: after) ++ first :: rest).Perm items :=
          List.perm_append_comm.trans hsplit
        have hless : maxDrawdown (((before ++ after) ++ first :: gain :: rest).map value) <
            losses (((before ++ after) ++ first :: gain :: rest).map value) := by
          rw [List.map_append, List.map_cons, List.map_cons]
          refine maxDrawdown_lt_losses ?_ hfirst hpos hmore
          intro x hx
          refine hgains x (List.map_subset value ?_ hx)
          exact List.append_subset.mpr ⟨List.subset_append_left _ _,
            List.Subset.trans (List.subset_cons_self _ _) (List.subset_append_right _ _)⟩
        have hsum : maxDrawdown (((before ++ gain :: after) ++ first :: rest).map value) =
            losses (((before ++ gain :: after) ++ first :: rest).map value) := by
          rw [List.map_append]
          refine maxDrawdown_gains_first hgains fun x hx => ?_
          obtain ⟨a, ha, rfl⟩ := List.mem_map.mp hx
          exact (hlost a ha).le
        rw [h _ hbetween, losses_perm (hbetween.map value)] at hless
        rw [h _ hbefore, losses_perm (hbefore.map value)] at hsum
        exact hless.ne hsum
  · intro h
    -- The drawdown of such values is the sum of their losses, in whichever order they come.
    have hall : ∀ others : List α, others.Perm items →
        maxDrawdown (others.map value) = losses (others.map value) := by
      intro others hperm
      rcases h with hfew | hnone
      · rw [← hperm.countP_eq] at hfew
        by_cases hloss : ∃ a ∈ others, value a < 0
        · obtain ⟨a, ha, hneg⟩ := hloss
          obtain ⟨before, later, rfl⟩ := List.append_of_mem ha
          rw [List.countP_append, List.countP_cons, if_pos (decide_eq_true hneg)] at hfew
          have hbefore := List.countP_eq_zero.mp (Nat.eq_zero_of_le_zero (by omega :
            before.countP (fun a => decide (value a < 0)) ≤ 0))
          have hlater := List.countP_eq_zero.mp (Nat.eq_zero_of_le_zero (by omega :
            later.countP (fun a => decide (value a < 0)) ≤ 0))
          rw [List.map_append, List.map_cons]
          refine maxDrawdown_one_loss ?_ ?_
          · intro x hx
            obtain ⟨b, hb, rfl⟩ := List.mem_map.mp hx
            simpa using hbefore b hb
          · intro x hx
            obtain ⟨b, hb, rfl⟩ := List.mem_map.mp hx
            simpa using hlater b hb
        · push Not at hloss
          have hgain : ∀ x ∈ others.map value, 0 ≤ x := by
            intro x hx
            obtain ⟨a, ha, rfl⟩ := List.mem_map.mp hx
            exact hloss a ha
          have hfirst : maxDrawdown (others.map value ++ []) = losses (others.map value ++ []) :=
            maxDrawdown_gains_first hgain (List.forall_mem_nil _)
          rwa [List.append_nil] at hfirst
      · rw [← List.nil_append (others.map value)]
        refine maxDrawdown_gains_first (List.forall_mem_nil _) fun x hx => ?_
        obtain ⟨a, ha, rfl⟩ := List.mem_map.mp hx
        exact hnone a (hperm.mem_iff.mp ha)
    intro others hperm
    rw [hall others hperm, hall items (List.Perm.refl _), losses_perm (hperm.map value)]

end QuantWorkbench.Lib
