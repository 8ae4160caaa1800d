import Mathlib.Data.List.Induction

/-!
Rows chained by their digests: the digest of a row is taken over its content and the digest of the
row before it. A chain whose digests all occur in another one is a beginning of it, when no two
different inputs of the digest collide.
-/

namespace QuantWorkbench.Lib.HashChain

variable {ρ η : Type*} (hash : η → ρ → η)

def digests (start : η) : List ρ → List η
  | [] => []
  | row :: rest => hash start row :: digests (hash start row) rest

/-- What the digests are taken over. -/
def inputs (start : η) : List ρ → List (η × ρ)
  | [] => []
  | row :: rest => (start, row) :: inputs (hash start row) rest

variable {hash} {start : η} {rows stored : List ρ}

theorem digests_eq_map : digests hash start rows =
    (inputs hash start rows).map fun input => hash input.1 input.2 := by
  induction rows generalizing start with
  | nil => rfl
  | cons row rest ih => rw [digests, inputs, List.map_cons, ih]

theorem inputs_concat (row : ρ) : inputs hash start (rows ++ [row]) =
    inputs hash start rows ++ [(rows.foldl hash start, row)] := by
  induction rows generalizing start with
  | nil => rfl
  | cons head rest ih => rw [List.cons_append, inputs, ih, inputs, List.cons_append, List.foldl_cons]

theorem digests_concat (row : ρ) : digests hash start (rows ++ [row]) =
    digests hash start rows ++ [hash (rows.foldl hash start) row] := by
  rw [digests_eq_map, digests_eq_map, inputs_concat, List.map_append]
  rfl

/-- An input of a chain comes after a beginning of it. -/
theorem mem_inputs {input : η × ρ} (h : input ∈ inputs hash start stored) :
    ∃ front, front ++ [input.2] <+: stored ∧ front.foldl hash start = input.1 := by
  induction stored using List.reverseRecOn with
  | nil => cases h
  | append_singleton stored row ih =>
      rw [inputs_concat] at h
      rcases List.mem_append.mp h with hold | hlast
      · obtain ⟨front, hfront, hstart⟩ := ih hold
        exact ⟨front, hfront.trans (List.prefix_append _ _), hstart⟩
      · obtain rfl := List.mem_singleton.mp hlast
        exact ⟨stored, List.prefix_rfl, rfl⟩

theorem mem_inputs_of_front {row : ρ} (h : rows ++ [row] <+: stored) :
    (rows.foldl hash start, row) ∈ inputs hash start stored := by
  obtain ⟨rest, rfl⟩ := h
  induction rest using List.reverseRecOn with
  | nil =>
      rw [List.append_nil, inputs_concat]
      exact List.mem_append_right _ (List.mem_singleton_self _)
  | append_singleton rest last ih =>
      rw [← List.append_assoc, inputs_concat]
      exact List.mem_append_left _ ih

/-- Different inputs have different digests, and none has the digest before the first row. -/
structure NoCollision (hash : η → ρ → η) (start : η) (stored rows : List ρ) : Prop where
  injective : ∀ a ∈ inputs hash start stored ++ inputs hash start rows,
    ∀ b ∈ inputs hash start stored ++ inputs hash start rows,
      hash a.1 a.2 = hash b.1 b.2 → a = b
  fresh : ∀ row, ∀ previous, hash previous row ≠ start

/-- In a chain without collisions a digest tells its place. -/
theorem NoCollision.eq_of_foldl_eq (h : NoCollision hash start stored rows) {front front' : List ρ}
    (hfront : front <+: stored) (hfront' : front' <+: stored)
    (heq : front.foldl hash start = front'.foldl hash start) : front = front' := by
  induction front using List.reverseRecOn generalizing front' with
  | nil =>
      cases front' using List.reverseRecOn with
      | nil => rfl
      | append_singleton front' row =>
          rw [List.foldl_append] at heq
          exact absurd heq.symm (h.fresh row _)
  | append_singleton front row ih =>
      cases front' using List.reverseRecOn with
      | nil =>
          rw [List.foldl_append] at heq
          exact absurd heq (h.fresh row _)
      | append_singleton front' row' =>
          rw [List.foldl_append, List.foldl_append] at heq
          have hpair := h.injective _
            (List.mem_append_left _ (mem_inputs_of_front hfront)) _
            (List.mem_append_left _ (mem_inputs_of_front hfront')) heq
          rw [Prod.mk.injEq] at hpair
          rw [ih ((List.prefix_append _ _).trans hfront) ((List.prefix_append _ _).trans hfront')
            hpair.1, hpair.2]

/-- Rows chained from the same start, with digests of the stored chain only, are its beginning. -/
theorem NoCollision.prefix_of_digests (h : NoCollision hash start stored rows)
    (hdigests : ∀ d ∈ digests hash start rows, d ∈ digests hash start stored) :
    rows <+: stored := by
  induction rows using List.reverseRecOn with
  | nil => exact List.nil_prefix
  | append_singleton rows row ih =>
      have hearlier : NoCollision hash start stored rows := by
        refine ⟨fun a ha b hb => h.injective a ?_ b ?_, h.fresh⟩
        · rw [inputs_concat, ← List.append_assoc]
          exact List.mem_append_left _ ha
        · rw [inputs_concat, ← List.append_assoc]
          exact List.mem_append_left _ hb
      have hrows : rows <+: stored := by
        apply ih hearlier
        intro d hd
        apply hdigests
        rw [digests_concat]
        exact List.mem_append_left _ hd
      have hlast : hash (rows.foldl hash start) row ∈ digests hash start stored := by
        apply hdigests
        rw [digests_concat]
        exact List.mem_append_right _ (List.mem_singleton_self _)
      rw [digests_eq_map] at hlast
      obtain ⟨input, hinput, hsame⟩ := List.mem_map.mp hlast
      have hpair := h.injective input (List.mem_append_left _ hinput)
        (rows.foldl hash start, row)
        (List.mem_append_right _ (mem_inputs_of_front List.prefix_rfl)) hsame
      obtain ⟨front, hfront, hstart⟩ := mem_inputs hinput
      rw [hpair] at hfront hstart
      rwa [h.eq_of_foldl_eq ((List.prefix_append _ _).trans hfront) hrows hstart] at hfront

end QuantWorkbench.Lib.HashChain
