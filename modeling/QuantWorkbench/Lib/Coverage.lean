import Mathlib.Data.Set.Lattice
import Mathlib.Tactic

/-!
A growing copy of a keyed source. Windows of the source are added to what is
held, and the copy has no holes while every source row between two held rows is
held too.
-/

namespace QuantWorkbench.Lib.Coverage

variable {R D : Type*} [LinearOrder D] (key : R → D)

/-- The source rows with a key between two bounds, both included. -/
def window (source : Set R) (low high : D) : Set R :=
  {row ∈ source | low ≤ key row ∧ key row ≤ high}

def windows (source : Set R) (ranges : List (D × D)) : Set R :=
  {row | ∃ range ∈ ranges, row ∈ window key source range.1 range.2}

/-- No source row between two held rows is missing. -/
def NoHoles (source held : Set R) : Prop :=
  ∀ first ∈ held, ∀ last ∈ held, window key source (key first) (key last) ⊆ held

/-- The bounds lie between the keys of two held rows. -/
def Spans (held : Set R) (low high : D) : Prop :=
  ∃ first ∈ held, ∃ last ∈ held, key first ≤ low ∧ high ≤ key last

variable {key} {source held : Set R} {low high : D}

/-- A copy without holes holds the whole window its rows span. -/
theorem NoHoles.window_subset (h : NoHoles key source held)
    (hspans : Spans key held low high) : window key source low high ⊆ held := by
  obtain ⟨first, hfirst, last, hlast, hlow, hhigh⟩ := hspans
  rintro row ⟨hrow, hfrom, hto⟩
  exact h first hfirst last hlast ⟨hrow, hlow.trans hfrom, hto.trans hhigh⟩

theorem noHoles_union_window
    (habove : ∀ other ∈ held, ∀ row ∈ source,
      high < key row → key row ≤ key other → row ∈ held)
    (hbelow : ∀ other ∈ held, ∀ row ∈ source,
      key row < low → key other ≤ key row → row ∈ held) :
    NoHoles key source (held ∪ window key source low high) := by
  rintro first hfirst last hlast row ⟨hrow, hfrom, hto⟩
  rcases lt_or_ge high (key row) with hhigh | hhigh
  · rcases hlast with hlast | hlast
    · exact Or.inl (habove last hlast row hrow hhigh hto)
    · exact absurd (hto.trans hlast.2.2) (not_le.mpr hhigh)
  · rcases lt_or_ge (key row) low with hlow | hlow
    · rcases hfirst with hfirst | hfirst
      · exact Or.inl (hbelow first hfirst row hrow hlow hfrom)
      · exact absurd (hfirst.2.1.trans hfrom) (not_le.mpr hlow)
    · exact Or.inr ⟨hrow, hlow, hhigh⟩

/-- A window may be added to a copy without holes when every source row in the gap
between the window and the bounds the copy spans is held. -/
theorem NoHoles.extend (h : NoHoles key source held) {lower upTo : D}
    (hspans : Spans key held low high)
    (hbefore : ∀ row ∈ source, upTo < key row → key row < low → row ∈ held)
    (hafter : ∀ row ∈ source, high < key row → key row < lower → row ∈ held) :
    NoHoles key source (held ∪ window key source lower upTo) := by
  obtain ⟨first, hfirst, last, hlast, hlow, hhigh⟩ := hspans
  apply noHoles_union_window
  · intro other hother row hrow habove hupTo
    rcases lt_or_ge (key row) low with hgap | hin
    · exact hbefore row hrow habove hgap
    · exact h first hfirst other hother ⟨hrow, hlow.trans hin, hupTo⟩
  · intro other hother row hrow hbelow hfrom
    rcases lt_or_ge high (key row) with hgap | hin
    · exact hafter row hrow hgap hbelow
    · exact h other hother last hlast ⟨hrow, hfrom, hin.trans hhigh⟩

theorem Spans.mono {larger : Set R} (hsubset : held ⊆ larger)
    (h : Spans key held low high) : Spans key larger low high := by
  obtain ⟨first, hfirst, last, hlast, hbounds⟩ := h
  exact ⟨first, hsubset hfirst, last, hsubset hlast, hbounds⟩

theorem windows_cons (range : D × D) (ranges : List (D × D)) :
    windows key source (range :: ranges) =
      window key source range.1 range.2 ∪ windows key source ranges := by
  ext row
  simp only [windows, List.mem_cons, exists_eq_or_imp, Set.mem_ofPred_eq, Set.mem_union]

/-- Any number of windows may be added when each of them may. -/
theorem NoHoles.extend_all (h : NoHoles key source held) (hspans : Spans key held low high)
    {ranges : List (D × D)}
    (hbefore : ∀ range ∈ ranges, ∀ row ∈ source,
      range.2 < key row → key row < low → row ∈ held)
    (hafter : ∀ range ∈ ranges, ∀ row ∈ source,
      high < key row → key row < range.1 → row ∈ held) :
    NoHoles key source (held ∪ windows key source ranges) := by
  induction ranges generalizing held with
  | nil =>
      have hnone : windows key source ([] : List (D × D)) = ∅ := by
        ext row
        simp [windows]
      rw [hnone, Set.union_empty]
      exact h
  | cons range rest ih =>
      have hlarger : held ⊆ held ∪ window key source range.1 range.2 :=
        Set.subset_union_left
      have hone := h.extend hspans (hbefore range List.mem_cons_self)
        (hafter range List.mem_cons_self)
      rw [windows_cons, ← Set.union_assoc]
      apply ih hone (hspans.mono hlarger)
      · intro other hother row hrow habove hbelow
        exact hlarger (hbefore other (List.mem_cons_of_mem _ hother) row hrow habove hbelow)
      · intro other hother row hrow habove hbelow
        exact hlarger (hafter other (List.mem_cons_of_mem _ hother) row hrow habove hbelow)

theorem noHoles_window (low high : D) : NoHoles key source (window key source low high) := by
  rintro first ⟨_, hlow, _⟩ last ⟨_, _, hhigh⟩ row ⟨hrow, hfrom, hto⟩
  exact ⟨hrow, hlow.trans hfrom, hto.trans hhigh⟩

end QuantWorkbench.Lib.Coverage
