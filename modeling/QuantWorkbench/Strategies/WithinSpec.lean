import Mathlib
import QuantWorkbench.Strategies.Candidates

/-!
What the portfolio strategies keep to: the limits of the specification, and for the dropout
strategy the positions that are held.
-/

namespace QuantWorkbench.Strategies

open Lib Data

/-! ### Candidates -/

theorem keepFirst_nonempty {candidates : List Candidate} (h : candidates ≠ []) :
    (keepFirst candidates).values ≠ [] := by
  have hkept : ∀ kept : Keyed Candidate.symbol, kept.values ≠ [] ∨ candidates ≠ [] →
      (candidates.foldl (fun kept candidate =>
        if candidate.symbol ∈ kept.keys then kept else kept.put candidate) kept).values ≠ [] := by
    clear h
    induction candidates with
    | nil =>
        rintro kept (hkept | hne)
        · exact hkept
        · exact absurd rfl hne
    | cons candidate rest ih =>
        intro kept _
        apply ih
        left
        dsimp only
        split
        · rename_i hmem
          intro hnil
          rw [Keyed.keys, hnil] at hmem
          exact absurd hmem List.not_mem_nil
        · rename_i hnew
          rw [Keyed.values_put_new hnew]
          simp
  exact hkept .empty (.inr h)

/-- A row of the signal date that passes the filters. -/
def SignalFrame.Survives (frame : SignalFrame) (execution : ExecutionSpec) : Prop :=
  ∃ row ∈ frame.rows, row.date = some execution.signalDate ∧ frame.accepts row = true

/-- What the strategies rank. -/
structure Ranked (spec : PortfolioSpec) (candidates : List Candidate) : Prop where
  distinct : (candidates.map (·.symbol)).Nodup
  count : candidates.length ≤ spec.limit

theorem PortfolioSpec.limit_pos (spec : PortfolioSpec) : 0 < spec.limit :=
  lt_min spec.topK_pos spec.maxPositions_pos

theorem candidateFrame_ok {frame : SignalFrame} {execution : ExecutionSpec}
    (h : ∃ row ∈ frame.rows, row.date = some execution.signalDate) (spec : PortfolioSpec) :
    ∃ candidates, candidateFrame frame execution spec = .ok candidates ∧ Ranked spec candidates ∧
      (frame.Survives execution → candidates ≠ []) := by
  obtain ⟨row, hrow, hdate⟩ := h
  have hselected : (frame.rows.filter fun row => row.date = some execution.signalDate) ≠ [] := by
    intro hnil
    have hmem : row ∈ frame.rows.filter fun row => row.date = some execution.signalDate :=
      List.mem_filter.mpr ⟨hrow, decide_eq_true hdate⟩
    rw [hnil] at hmem
    exact absurd hmem List.not_mem_nil
  have hrequire : require ((frame.rows.filter fun row =>
      row.date = some execution.signalDate) ≠ [])
        "signal frame has no rows for execution_spec.signal_date" = .ok () :=
    require_eq_ok_iff.mpr hselected
  rw [candidateFrame]
  simp only [hrequire, bind, Except.bind]
  refine ⟨_, rfl, ⟨?_, ?_⟩, ?_⟩
  · have hnodup := (keepFirst (((frame.rows.filter fun row =>
      row.date = some execution.signalDate).filter frame.accepts).filterMap
        SignalRow.candidate?)).nodup
    have hsorted := (((List.perm_insertionSort ranksBefore _).map Candidate.symbol).nodup_iff).mpr
      hnodup
    exact hsorted.sublist ((List.take_sublist _ _).map _)
  · exact List.length_take_le _ _
  · rintro ⟨other, hother, hon, haccepted⟩ hnil
    have hscore : ∃ score, other.rawScore.finite? = some score := by
      rw [SignalFrame.accepts, Bool.and_eq_true, Bool.and_eq_true] at haccepted
      exact Option.isSome_iff_exists.mp haccepted.1.1
    obtain ⟨score, hscore⟩ := hscore
    have hcandidate : other.candidate? = some ⟨other.symbol.symbol, score⟩ := by
      rw [SignalRow.candidate?, hscore, Option.map_some]
    have hselected : other ∈ frame.rows.filter fun row => row.date = some execution.signalDate :=
      List.mem_filter.mpr ⟨hother, decide_eq_true hon⟩
    have hactive := List.mem_filterMap.mpr
      ⟨other, List.mem_filter.mpr ⟨hselected, haccepted⟩, hcandidate⟩
    have hkept := keepFirst_nonempty (List.ne_nil_of_mem hactive)
    have hlength := congrArg List.length hnil
    rw [List.length_take, List.length_insertionSort, List.length_nil] at hlength
    have hpos := spec.limit_pos
    have hvalues := List.length_pos_of_ne_nil hkept
    omega

/-! ### Allocations -/

namespace Allocation

theorem values_ofPairs {pairs : List (Symbol × ℚ)} (h : (pairs.map (·.1)).Nodup) :
    (ofPairs pairs).values = pairs := by
  rw [ofPairs, Keyed.values_foldl_put_new h]
  · rfl
  · intro pair _ hmem
    exact absurd hmem List.not_mem_nil

theorem mem_mapWeights {f : ℚ → ℚ} {allocation : Allocation} {entry : Symbol × ℚ} :
    entry ∈ (allocation.mapWeights f).values ↔
      ∃ source ∈ allocation.values, (source.1, f source.2) = entry :=
  List.mem_map

@[simp] theorem keys_mapWeights (f : ℚ → ℚ) (allocation : Allocation) :
    (allocation.mapWeights f).keys = allocation.keys := by
  rw [Keyed.keys, mapWeights, Keyed.map, List.map_map]
  rfl

@[simp] theorem length_mapWeights (f : ℚ → ℚ) (allocation : Allocation) :
    (allocation.mapWeights f).values.length = allocation.values.length := List.length_map _

theorem total_mapWeights (f : ℚ → ℚ) (allocation : Allocation) :
    (allocation.mapWeights f).total = ((allocation.values.map (·.2)).map f).sum := by
  rw [total, mapWeights, Keyed.map, List.map_map, List.map_map]
  rfl

theorem clean_pos {allocation : Allocation} {w : ℚ}
    (h : w ∈ allocation.clean.values.map (·.2)) : 0 < w := by
  obtain ⟨entry, hentry, rfl⟩ := List.mem_map.mp h
  exact of_decide_eq_true (Keyed.mem_values_filter.mp hentry).2

end Allocation

/-- Weights that a specification allows, and the exposure they stay within. -/
structure Allowed (cap exposure : ℚ) (weights : Allocation) : Prop where
  range : ∀ entry ∈ weights.values, 0 ≤ entry.2 ∧ entry.2 ≤ cap
  total : weights.total ≤ exposure

theorem allowed_empty {cap exposure : ℚ} (h : 0 ≤ exposure) : Allowed cap exposure .empty where
  range _ hentry := absurd hentry List.not_mem_nil
  total := h

theorem cappedWeights_allowed (allocation : Allocation) (spec : PortfolioSpec) :
    Allowed spec.maxSinglePosition spec.targetGrossExposure (cappedWeights allocation spec) := by
  have hexposure := spec.exposure_range.1
  rw [cappedWeights]
  split
  · exact allowed_empty hexposure
  · rename_i hsome
    rw [not_or] at hsome
    have htotal : 0 < allocation.clean.total := by
      apply List.sum_pos _ fun w hw => Allocation.clean_pos hw
      rw [ne_eq, List.map_eq_nil_iff]
      exact hsome.1
    constructor
    · intro entry hentry
      obtain ⟨source, hsource, rfl⟩ := Allocation.mem_mapWeights.mp hentry
      have hshare := Shares.capped_share_pos spec.single_range.1
        (lt_of_le_of_ne hexposure (Ne.symm hsome.2)) htotal
        (Allocation.clean_pos (List.mem_map_of_mem hsource))
      exact ⟨hshare.le, min_le_left _ _⟩
    · rw [Allocation.total_mapWeights]
      exact Shares.sum_capped_shares_le _ _ _ htotal.ne'

theorem length_cappedWeights (allocation : Allocation) (spec : PortfolioSpec) :
    (cappedWeights allocation spec).values.length ≤ allocation.values.length := by
  rw [cappedWeights]
  split
  · exact Nat.zero_le _
  · rw [Allocation.length_mapWeights]
    exact List.length_filter_le _ _

theorem keys_cappedWeights {allocation : Allocation} {spec : PortfolioSpec} {symbol : Symbol}
    (h : symbol ∈ (cappedWeights allocation spec).keys) : symbol ∈ allocation.keys := by
  rw [cappedWeights] at h
  split at h
  · exact absurd h List.not_mem_nil
  · rw [Allocation.keys_mapWeights, Keyed.mem_keys] at h
    obtain ⟨entry, hentry, rfl⟩ := h
    exact Keyed.mem_keys.mpr ⟨entry, (Keyed.mem_values_filter.mp hentry).1, rfl⟩

/-! ### Targets -/

/-- Targets that keep to the specification. -/
structure ObeysSpec (spec : PortfolioSpec) (targets : List PortfolioTarget) : Prop where
  distinct : (targets.map (·.symbol)).Nodup
  count : targets.length ≤ spec.limit
  weights : ∀ target ∈ targets, 0 < target.targetWeight ∧
    target.targetWeight ≤ spec.maxSinglePosition
  total : (targets.map (·.targetWeight)).sum ≤ spec.targetGrossExposure

/-- The targets of weights between zero and one are made of the positive ones. -/
theorem makeTargets_ok {weights : Allocation} (h : ∀ entry ∈ weights.values, entry.2 ≤ 1)
    (execution : ExecutionSpec) (strategyId reason : String)
    (htexts : s!"{strategyId}:{strategyVersion}" ≠ "" ∧ reason ≠ "") :
    ∃ targets, makeTargets weights execution strategyId reason = .ok targets ∧
      (targets.map fun target => (target.symbol, target.targetWeight)).Perm
        weights.clean.values := by
  have hmade : ∀ entry ∈ (weights.values.insertionSort fun a b =>
      inSymbolOrder a.1 b.1).filter fun entry => 0 < entry.2,
        PortfolioTarget.make execution.executionDate entry.1 entry.2
          s!"{strategyId}:{strategyVersion}" reason =
            .ok ⟨execution.executionDate, entry.1, entry.2,
              s!"{strategyId}:{strategyVersion}", reason⟩ := by
    intro entry hentry
    obtain ⟨hmem, hpos⟩ := List.mem_filter.mp hentry
    have hone := h entry ((List.mem_insertionSort _).mp hmem)
    rw [PortfolioTarget.make, require, require, if_pos htexts,
      if_pos ⟨(of_decide_eq_true hpos).le, hone⟩]
    rfl
  obtain ⟨targets, htargets⟩ := exists_mapM_ok fun entry hentry => ⟨_, hmade entry hentry⟩
  refine ⟨targets, htargets, ?_⟩
  have hkey : ∀ (entry : Symbol × ℚ) (target : PortfolioTarget),
      PortfolioTarget.make execution.executionDate entry.1 entry.2
        s!"{strategyId}:{strategyVersion}" reason = .ok target →
          (target.symbol, target.targetWeight) = entry := by
    intro entry target hok
    obtain ⟨_, _, hok⟩ := bind_eq_ok_iff.mp hok
    obtain ⟨_, _, hok⟩ := bind_eq_ok_iff.mp hok
    cases hok
    rfl
  rw [map_of_mapM_ok hkey htargets, List.map_id']
  exact (List.perm_insertionSort _ _).filter _

/-- Allowed weights, not too many, become targets that keep to the specification. -/
theorem obeysSpec_of_allowed {spec : PortfolioSpec} {weights : Allocation}
    (h : Allowed spec.maxSinglePosition spec.targetGrossExposure weights)
    (hcount : weights.values.length ≤ spec.limit) (execution : ExecutionSpec)
    (strategyId reason : String)
    (htexts : s!"{strategyId}:{strategyVersion}" ≠ "" ∧ reason ≠ "") :
    ∃ targets, makeTargets weights execution strategyId reason = .ok targets ∧
      ObeysSpec spec targets ∧
        ∀ entry ∈ weights.values, 0 < entry.2 → entry.1 ∈ targets.map (·.symbol) := by
  obtain ⟨targets, htargets, hperm⟩ := makeTargets_ok
    (fun entry hentry => (h.range entry hentry).2.trans spec.single_range.2) execution
    strategyId reason htexts
  have hsymbols : (targets.map (·.symbol)).Perm (weights.clean.values.map (·.1)) := by
    have hmap := hperm.map Prod.fst
    rwa [List.map_map] at hmap
  have hweights : (targets.map (·.targetWeight)).Perm (weights.clean.values.map (·.2)) := by
    have hmap := hperm.map Prod.snd
    rwa [List.map_map] at hmap
  refine ⟨targets, htargets, ⟨?_, ?_, ?_, ?_⟩, ?_⟩
  · exact hsymbols.nodup_iff.mpr weights.clean.nodup
  · have hlength := hperm.length_eq
    rw [List.length_map] at hlength
    rw [hlength]
    exact (List.length_filter_le _ _).trans hcount
  · intro target htarget
    have hentry := hperm.subset (List.mem_map_of_mem htarget)
    obtain ⟨hmem, hpos⟩ := Keyed.mem_values_filter.mp hentry
    exact ⟨of_decide_eq_true hpos, (h.range _ hmem).2⟩
  · have hpositive : (weights.clean.values.map (·.2)).sum = weights.total := by
      have hnonneg : ∀ w ∈ weights.values.map (·.2), 0 ≤ w := by
        intro w hw
        obtain ⟨entry, hentry, rfl⟩ := List.mem_map.mp hw
        exact (h.range entry hentry).1
      rw [Allocation.total, ← Shares.sum_filter_pos hnonneg, List.filter_map]
      rfl
    rw [hweights.sum_eq, hpositive]
    exact h.total
  · intro entry hentry hpos
    rw [hsymbols.mem_iff]
    exact List.mem_map_of_mem (Keyed.mem_values_filter.mpr ⟨hentry, decide_eq_true hpos⟩)

/-! ### Weights from the ranking -/

/-- What a strategy returns that allots a weight to each candidate. -/
theorem obeysSpec_of_ranked {spec : PortfolioSpec} {candidates : List Candidate}
    (h : Ranked spec candidates) {weights : List ℚ} (hlength : weights.length = candidates.length)
    (execution : ExecutionSpec) (strategyId reason : String)
    (htexts : s!"{strategyId}:{strategyVersion}" ≠ "" ∧ reason ≠ "") :
    ∃ targets, makeTargets
        (cappedWeights (Allocation.ofPairs ((candidates.map (·.symbol)).zip weights)) spec)
        execution strategyId reason = .ok targets ∧ ObeysSpec spec targets := by
  have hkeys : (((candidates.map (·.symbol)).zip weights).map (·.1)).Nodup := by
    rw [List.map_fst_zip (by rw [List.length_map, hlength])]
    exact h.distinct
  have hcount : (cappedWeights (Allocation.ofPairs
      ((candidates.map (·.symbol)).zip weights)) spec).values.length ≤ spec.limit := by
    refine (length_cappedWeights _ _).trans ?_
    rw [Allocation.values_ofPairs hkeys, List.length_zip, List.length_map, hlength, min_self]
    exact h.count
  obtain ⟨targets, htargets, hobeys, _⟩ :=
    obeysSpec_of_allowed (cappedWeights_allowed _ _) hcount execution strategyId reason htexts
  exact ⟨targets, htargets, hobeys⟩

theorem topKEqualWeight_obeys {frame : SignalFrame} {execution : ExecutionSpec}
    (h : ∃ row ∈ frame.rows, row.date = some execution.signalDate) (spec : PortfolioSpec) :
    ∃ targets, topKEqualWeight frame spec execution = .ok targets ∧ ObeysSpec spec targets := by
  obtain ⟨candidates, hcandidates, hranked, _⟩ := candidateFrame_ok h spec
  obtain ⟨targets, htargets, hobeys⟩ := obeysSpec_of_ranked hranked
    (List.length_map (fun _ => (1 : ℚ))) execution "topk_equal_weight" "top_k_equal_weight"
      (by decide)
  refine ⟨targets, ?_, hobeys⟩
  have hpairs : (candidates.map (·.symbol)).zip (candidates.map fun _ => (1 : ℚ)) =
      candidates.map fun candidate => (candidate.symbol, 1) := List.zip_map'
  rw [hpairs] at htargets
  rw [topKEqualWeight, hcandidates]
  exact htargets

/-- Scores of at least one candidate become as many weights. -/
theorem stableScores_ok {rawScores : List ℚ} (h : rawScores ≠ []) :
    ∃ weights, stableScores rawScores = .ok weights ∧ weights.length = rawScores.length := by
  have hscores : rawScores.map clipScore ≠ [] := by
    rw [ne_eq, List.map_eq_nil_iff]
    exact h
  obtain ⟨lowest, hlowest⟩ := Option.ne_none_iff_exists'.mp (mt List.min?_eq_none_iff.mp hscores)
  have hshifted : (rawScores.map clipScore).map (· - lowest) ≠ [] := by
    rw [ne_eq, List.map_eq_nil_iff]
    exact hscores
  obtain ⟨span, hspan⟩ := Option.ne_none_iff_exists'.mp (mt List.max?_eq_none_iff.mp hshifted)
  rw [stableScores]
  simp only [hlowest, hspan, orRaise, bind, Except.bind]
  split
  · exact ⟨_, rfl, by rw [List.length_map, List.length_map]⟩
  · exact ⟨_, rfl, by rw [List.length_map, List.length_map, List.length_map]⟩

theorem topKScoreWeight_obeys {frame : SignalFrame} {execution : ExecutionSpec}
    (h : ∃ row ∈ frame.rows, row.date = some execution.signalDate)
    (hsurvives : frame.Survives execution) (spec : PortfolioSpec) :
    ∃ targets, topKScoreWeight frame spec execution = .ok targets ∧ ObeysSpec spec targets := by
  obtain ⟨candidates, hcandidates, hranked, hsome⟩ := candidateFrame_ok h spec
  have hscores : candidates.map (·.rawScore) ≠ [] := by
    rw [ne_eq, List.map_eq_nil_iff]
    exact hsome hsurvives
  obtain ⟨weights, hweights, hlength⟩ := stableScores_ok hscores
  rw [List.length_map] at hlength
  obtain ⟨targets, htargets, hobeys⟩ := obeysSpec_of_ranked hranked hlength execution
    "topk_score_weight" "top_k_score_weight" (by decide)
  refine ⟨targets, ?_, hobeys⟩
  rw [topKScoreWeight, hcandidates]
  simp only [bind, Except.bind, hweights]
  exact htargets

/-- The modes that `RankWeighted` can be made with. -/
def KnownMode (weightMode : Option Text) : Prop :=
  weightMode = none ∨ weightMode = some [] ∨ ∃ mode : RankMode, weightMode = some mode.value

theorem KnownMode.effective {weightMode : Option Text} (h : KnownMode weightMode)
    (spec : PortfolioSpec) : ∃ mode, RankMode.ofText? (effectiveMode weightMode spec) = some mode := by
  rcases h with rfl | rfl | ⟨mode, rfl⟩
  · exact ⟨_, RankMode.ofText?_value _⟩
  · exact ⟨_, RankMode.ofText?_value _⟩
  · cases mode
    · exact ⟨.linear, rfl⟩
    · exact ⟨.inverseRank, rfl⟩

theorem rankWeighted_obeys {weightMode : Option Text} (hmode : KnownMode weightMode)
    {frame : SignalFrame} {execution : ExecutionSpec}
    (h : ∃ row ∈ frame.rows, row.date = some execution.signalDate) (spec : PortfolioSpec) :
    ∃ targets, rankWeighted weightMode frame spec execution = .ok targets ∧
      ObeysSpec spec targets := by
  obtain ⟨candidates, hcandidates, hranked, _⟩ := candidateFrame_ok h spec
  obtain ⟨mode, hmode⟩ := hmode.effective spec
  have hlength : ((List.range candidates.length).map (mode.weight candidates.length)).length =
      candidates.length := by
    rw [List.length_map, List.length_range]
  have htexts : ∀ strategyId, strategyId = "rank_weighted" →
      s!"{strategyId}:{strategyVersion}" ≠ "" ∧
        s!"rank_weighted_{String.ofList mode.value}" ≠ "" := by
    rintro _ rfl
    cases mode
    · decide
    · decide
  obtain ⟨targets, htargets, hobeys⟩ :=
    obeysSpec_of_ranked hranked hlength execution _ _ (htexts _ rfl)
  refine ⟨targets, ?_, hobeys⟩
  rw [rankWeighted, hcandidates]
  simp only [bind, Except.bind, hmode, orRaise]
  exact htargets

/-! ### Dropout -/

theorem currentPositions_pos {positions : List (SymbolText × Number)} {entry : Symbol × ℚ}
    (h : entry ∈ (currentPositions positions).values) : 0 < entry.2 := by
  rcases Keyed.mem_foldl_put h with hmem | hnone
  · obtain ⟨position, _, hentry⟩ := List.mem_filterMap.mp hmem
    split at hentry
    · split at hentry
      · rename_i hpos
        cases hentry
        exact hpos
      · cases hentry
    · cases hentry
  · exact absurd hnone List.not_mem_nil

/-- Of a list without repetitions, what is left beside a part of it. -/
theorem length_filter_notMem {α : Type*} [DecidableEq α] {all part : List α} (hall : all.Nodup)
    (hpart : part.Nodup) (hsub : part ⊆ all) :
    (all.filter fun a => a ∉ part).length + part.length = all.length := by
  have hperm : (all.filter fun a => a ∈ part).Perm part := by
    rw [List.perm_ext_iff_of_nodup (hall.filter _) hpart]
    intro a
    rw [List.mem_filter, decide_eq_true_iff]
    exact ⟨And.right, fun ha => ⟨hsub ha, ha⟩⟩
  have hsplit := List.length_eq_length_filter_add (l := all) fun a => decide (a ∈ part)
  simp only [← decide_not] at hsplit
  rw [hsplit, hperm.length_eq, Nat.add_comm]

section

variable (spec : PortfolioSpec) (current : Allocation) (ranked : List Symbol)

theorem heldSymbols_subset : heldSymbols spec current ⊆ current.keys := by
  rw [heldSymbols]
  split
  · intro symbol hsymbol
    exact (List.mem_insertionSort _).mp (List.mem_of_mem_take hsymbol)
  · exact List.Subset.refl _

theorem nodup_heldSymbols : (heldSymbols spec current).Nodup := by
  rw [heldSymbols]
  split
  · have hsorted := (List.perm_insertionSort (heavierFirst current) current.keys).nodup_iff.mpr
      current.nodup
    exact hsorted.sublist (List.take_sublist _ _)
  · exact current.nodup

theorem length_heldSymbols :
    (heldSymbols spec current).length = min spec.limit current.keys.length := by
  rw [heldSymbols]
  split
  · rw [List.length_take, List.length_insertionSort]
  · rename_i hfew
    rw [min_eq_right (not_lt.mp hfew)]

theorem keptSymbols_sublist :
    (keptSymbols spec current ranked).Sublist (heldSymbols spec current) := by
  rw [keptSymbols]
  split
  · exact List.filter_sublist
  · exact List.Sublist.refl _

theorem length_keptSymbols :
    (heldSymbols spec current).length ≤
      (keptSymbols spec current ranked).length + spec.nDrop := by
  rw [keptSymbols]
  split
  · have hstale : (staleSymbols spec current ranked).Nodup :=
      (List.perm_insertionSort (lighterFirst current) _).nodup_iff.mpr
        ((nodup_heldSymbols spec current).filter _)
    have hsub : (staleSymbols spec current ranked).take
        (min spec.nDrop (staleSymbols spec current ranked).length) ⊆ heldSymbols spec current := by
      intro symbol hsymbol
      have hmem := (List.mem_insertionSort _).mp (List.mem_of_mem_take hsymbol)
      exact (List.mem_filter.mp hmem).1
    have hcount := length_filter_notMem (nodup_heldSymbols spec current)
      (hstale.sublist (List.take_sublist _ _)) hsub
    have htake := List.length_take_le (min spec.nDrop (staleSymbols spec current ranked).length)
      (staleSymbols spec current ranked)
    omega
  · omega

end

theorem fillPlaces_spec {limit : ℕ} {desired : List Symbol} (ranked : List Symbol)
    (hnodup : desired.Nodup) (hlength : desired.length ≤ limit) :
    (fillPlaces limit desired ranked).Nodup ∧ (fillPlaces limit desired ranked).length ≤ limit ∧
      desired ⊆ fillPlaces limit desired ranked := by
  induction ranked generalizing desired with
  | nil => exact ⟨hnodup, hlength, List.Subset.refl _⟩
  | cons symbol ranked ih =>
      rw [fillPlaces]
      split
      · exact ⟨hnodup, hlength, List.Subset.refl _⟩
      · rename_i hfree
        have hinserted : (desired.insert symbol).length ≤ limit := by
          by_cases hmem : symbol ∈ desired
          · rwa [List.insert_of_mem hmem]
          · rw [List.insert_of_not_mem hmem, List.length_cons]
            omega
        obtain ⟨hfilled, hcount, hsub⟩ := ih (hnodup.insert) hinserted
        exact ⟨hfilled, hcount, fun a ha => hsub (List.mem_insert_of_mem ha)⟩

/-- The retained weights keep the held symbols that are desired, within the exposure. -/
theorem fittedWeights_allowed (spec : PortfolioSpec) {retained : Allocation}
    (hrange : ∀ entry ∈ retained.values, 0 < entry.2 ∧ entry.2 ≤ spec.maxSinglePosition) :
    Allowed spec.maxSinglePosition spec.targetGrossExposure (fittedWeights spec retained) := by
  have hexposure := spec.exposure_range.1
  rw [fittedWeights]
  split
  · rename_i hover
    constructor
    · intro entry hentry
      obtain ⟨source, hsource, rfl⟩ := Allocation.mem_mapWeights.mp hentry
      obtain ⟨hpos, hcap⟩ := hrange source hsource
      refine ⟨mul_nonneg hpos.le (div_nonneg hexposure hover.2.le), ?_⟩
      exact (Shares.scaled_le hover.2 hover.1.le hpos.le).trans hcap
    · rw [Allocation.total_mapWeights]
      exact (Shares.sum_scaled _ _ hover.2.ne').le
  · rename_i hfits
    refine ⟨fun entry hentry => ⟨(hrange entry hentry).1.le, (hrange entry hentry).2⟩, ?_⟩
    by_contra hover
    rw [not_le] at hover
    exact hfits ⟨hover, hexposure.trans_lt hover⟩

theorem keys_fittedWeights (spec : PortfolioSpec) (retained : Allocation) :
    (fittedWeights spec retained).keys = retained.keys := by
  rw [fittedWeights]
  split
  · exact Allocation.keys_mapWeights _ _
  · rfl

/-- With an exposure to allot, none of the retained weights vanishes. -/
theorem fittedWeights_pos {spec : PortfolioSpec} (hexposure : 0 < spec.targetGrossExposure)
    {retained : Allocation} (hrange : ∀ entry ∈ retained.values, 0 < entry.2) :
    ∀ entry ∈ (fittedWeights spec retained).values, 0 < entry.2 := by
  rw [fittedWeights]
  split
  · rename_i hover
    intro entry hentry
    obtain ⟨source, hsource, rfl⟩ := Allocation.mem_mapWeights.mp hentry
    exact mul_pos (hrange source hsource) (div_pos hexposure hover.2)
  · exact hrange

/-- What is allotted to new symbols: the exposure that is left, and none of it to a retained
symbol. -/
theorem newWeights_ok (spec : PortfolioSpec) {retained : Allocation} {desired : List Symbol}
    (hnodup : desired.Nodup) (htotal : retained.total ≤ spec.targetGrossExposure)
    (hnonneg : 0 ≤ retained.total) :
    ∃ added, newWeights spec retained desired = .ok added ∧
      Allowed spec.maxSinglePosition (spec.targetGrossExposure - retained.total) added ∧
      (∀ symbol ∈ added.keys, symbol ∈ desired ∧ symbol ∉ retained.keys) ∧
      added.values.length ≤ (desired.filter fun symbol => symbol ∉ retained.keys).length := by
  have hleft : 0 ≤ spec.targetGrossExposure - retained.total := sub_nonneg.mpr htotal
  rw [newWeights, max_eq_right hleft]
  split
  · refine ⟨.empty, rfl, allowed_empty hleft, ?_, Nat.zero_le _⟩
    intro symbol hsymbol
    exact absurd hsymbol List.not_mem_nil
  · have hrange : 0 ≤ spec.targetGrossExposure - retained.total ∧
        spec.targetGrossExposure - retained.total ≤ 1 :=
      ⟨hleft, by linarith [spec.exposure_range.2]⟩
    obtain ⟨inner, hinner, hexposure, hcap⟩ := spec.make_remaining hrange
    simp only [hinner, bind, Except.bind]
    have hperm := List.perm_insertionSort inSymbolOrder
      (desired.filter fun symbol => symbol ∉ retained.keys)
    have hnew : (((desired.filter fun symbol => symbol ∉ retained.keys).insertionSort
        inSymbolOrder).map fun symbol => (symbol, (1 : ℚ))).map (·.1) =
          (desired.filter fun symbol => symbol ∉ retained.keys).insertionSort inSymbolOrder := by
      rw [List.map_map]
      exact List.map_id _
    have hvalues := Allocation.values_ofPairs (hnew ▸ hperm.nodup_iff.mpr (hnodup.filter _))
    refine ⟨_, rfl, ?_, ?_, ?_⟩
    · rw [← hexposure, ← hcap]
      exact cappedWeights_allowed _ inner
    · intro symbol hsymbol
      have hkey := keys_cappedWeights hsymbol
      rw [Keyed.keys, hvalues, hnew] at hkey
      obtain ⟨hdesired, hfree⟩ := List.mem_filter.mp (hperm.subset hkey)
      exact ⟨hdesired, of_decide_eq_true hfree⟩
    · have hlength := length_cappedWeights (Allocation.ofPairs
        (((desired.filter fun symbol => symbol ∉ retained.keys).insertionSort
          inSymbolOrder).map fun symbol => (symbol, (1 : ℚ)))) inner
      rw [hvalues, List.length_map, hperm.length_eq] at hlength
      exact hlength

def KeepsHeld (spec : PortfolioSpec) (positions : List (SymbolText × Number))
    (targets : List PortfolioTarget) : Prop :=
  ((currentPositions positions).keys.filter fun symbol =>
      symbol ∉ targets.map (·.symbol)).length ≤
    spec.nDrop + ((currentPositions positions).keys.length - spec.limit)

/-- New weights beside retained ones of other symbols. -/
theorem allowed_merged {cap exposure : ℚ} {retained added : Allocation}
    (hretained : Allowed cap exposure retained)
    (hadded : Allowed cap (exposure - retained.total) added)
    (hvalues : (added.values.foldl Keyed.put retained).values = retained.values ++ added.values) :
    Allowed cap exposure (added.values.foldl Keyed.put retained) := by
  constructor
  · intro entry hentry
    rw [hvalues] at hentry
    rcases List.mem_append.mp hentry with hold | hnew
    · exact hretained.range entry hold
    · exact hadded.range entry hnew
  · have hsum : (added.values.foldl Keyed.put retained : Allocation).total =
        retained.total + added.total := by
      rw [Allocation.total, hvalues, List.map_append, List.sum_append]
      rfl
    rw [hsum]
    linarith [hadded.total]

theorem mem_keys_retainedWeights {spec : PortfolioSpec} {current : Allocation}
    {desired : List Symbol} {symbol : Symbol} :
    symbol ∈ (fittedWeights spec (retainedWeights spec current desired)).keys ↔
      symbol ∈ current.keys ∧ symbol ∈ desired := by
  rw [keys_fittedWeights, retainedWeights, Allocation.keys_mapWeights, Keyed.mem_keys,
    Keyed.mem_keys]
  constructor
  · rintro ⟨entry, hentry, rfl⟩
    obtain ⟨hmem, hdesired⟩ := Keyed.mem_values_filter.mp hentry
    exact ⟨⟨entry, hmem, rfl⟩, of_decide_eq_true hdesired⟩
  · rintro ⟨⟨entry, hmem, rfl⟩, hdesired⟩
    exact ⟨entry, Keyed.mem_values_filter.mpr ⟨hmem, decide_eq_true hdesired⟩, rfl⟩

/-- What is kept of the held symbols, when the kept ones are among the targets. -/
theorem length_dropped (spec : PortfolioSpec) (current : Allocation) (ranked : List Symbol)
    {targets : List Symbol} (h : keptSymbols spec current ranked ⊆ targets) :
    (current.keys.filter fun symbol => symbol ∉ targets).length ≤
      spec.nDrop + (current.keys.length - spec.limit) := by
  have hkept := keptSymbols_sublist spec current ranked
  have hsub : keptSymbols spec current ranked ⊆ current.keys :=
    List.Subset.trans hkept.subset (heldSymbols_subset spec current)
  have hcount : (current.keys.filter fun symbol =>
      symbol ∉ keptSymbols spec current ranked).length +
        (keptSymbols spec current ranked).length = current.keys.length :=
    length_filter_notMem current.nodup (hkept.nodup (nodup_heldSymbols spec current)) hsub
  have hfewer : (current.keys.filter fun symbol => symbol ∉ targets).length ≤
      (current.keys.filter fun symbol => symbol ∉ keptSymbols spec current ranked).length := by
    apply List.Sublist.length_le
    apply List.monotone_filter_right
    intro symbol hsymbol
    exact decide_eq_true fun hmem => of_decide_eq_true hsymbol (h hmem)
  have hdrop := length_keptSymbols spec current ranked
  have hheld := length_heldSymbols spec current
  omega

theorem topKDropout_obeys {frame : SignalFrame} {execution : ExecutionSpec}
    (h : ∃ row ∈ frame.rows, row.date = some execution.signalDate) (spec : PortfolioSpec)
    (positions : List (SymbolText × Number)) :
    ∃ targets, topKDropout frame spec execution positions = .ok targets ∧
      ObeysSpec spec targets ∧
        (0 < spec.targetGrossExposure → KeepsHeld spec positions targets) := by
  obtain ⟨candidates, hcandidates, _, _⟩ := candidateFrame_ok h spec
  generalize hcurrent : currentPositions positions = current
  have hpositive : ∀ entry ∈ current.values, 0 < entry.2 := by
    intro entry hentry
    rw [← hcurrent] at hentry
    exact currentPositions_pos hentry
  generalize hranked : candidates.map (·.symbol) = ranked
  have hkept := keptSymbols_sublist spec current ranked
  have hkeptLength : (keptSymbols spec current ranked).length ≤ spec.limit := by
    have hheld := length_heldSymbols spec current
    have hle := hkept.length_le
    omega
  obtain ⟨hdesired, hcount, hsub⟩ := fillPlaces_spec ranked
    (hkept.nodup (nodup_heldSymbols spec current)) hkeptLength
  generalize hplaces : fillPlaces spec.limit (keptSymbols spec current ranked) ranked = desired
    at hdesired hcount hsub
  have hrange : ∀ entry ∈ (retainedWeights spec current desired).values,
      0 < entry.2 ∧ entry.2 ≤ spec.maxSinglePosition := by
    intro entry hentry
    obtain ⟨source, hsource, rfl⟩ := Allocation.mem_mapWeights.mp hentry
    have hpos := hpositive source (Keyed.mem_values_filter.mp hsource).1
    exact ⟨lt_min hpos spec.single_range.1, min_le_right _ _⟩
  have hfitted := fittedWeights_allowed spec hrange
  have hfittedPos : 0 < spec.targetGrossExposure →
      ∀ entry ∈ (fittedWeights spec (retainedWeights spec current desired)).values,
        0 < entry.2 :=
    fun hexposure => fittedWeights_pos hexposure fun entry hentry => (hrange entry hentry).1
  have hkeys : ∀ symbol,
      symbol ∈ (fittedWeights spec (retainedWeights spec current desired)).keys ↔
        symbol ∈ current.keys ∧ symbol ∈ desired :=
    fun _ => mem_keys_retainedWeights
  generalize hretained : fittedWeights spec (retainedWeights spec current desired) = retained
    at hfitted hfittedPos hkeys
  have hnonneg : 0 ≤ retained.total := by
    apply List.sum_nonneg
    intro w hw
    obtain ⟨entry, hentry, rfl⟩ := List.mem_map.mp hw
    exact (hfitted.range entry hentry).1
  obtain ⟨added, hadded, hallowed, hnew, haddedCount⟩ :=
    newWeights_ok spec hdesired hfitted.total hnonneg
  have hvalues : (added.values.foldl Keyed.put retained).values =
      retained.values ++ added.values :=
    Keyed.values_foldl_put_new added.nodup fun entry hentry =>
      (hnew entry.1 (Keyed.mem_keys.mpr ⟨entry, hentry, rfl⟩)).2
  have hlength : (added.values.foldl Keyed.put retained).values.length ≤ spec.limit := by
    have hpart : retained.keys.length ≤
        (desired.filter fun symbol => symbol ∈ retained.keys).length := by
      apply List.Subperm.length_le
      apply retained.nodup.subperm
      intro symbol hsymbol
      exact List.mem_filter.mpr ⟨((hkeys symbol).mp hsymbol).2, decide_eq_true hsymbol⟩
    have hsplit := List.length_eq_length_filter_add (l := desired) fun symbol =>
      decide (symbol ∈ retained.keys)
    simp only [← decide_not] at hsplit
    have hkeysLength : retained.keys.length = retained.values.length := List.length_map _
    rw [hvalues, List.length_append]
    omega
  obtain ⟨targets, htargets, hobeys, hmembers⟩ := obeysSpec_of_allowed
    (allowed_merged hfitted hallowed hvalues) hlength execution "topk_dropout" "top_k_dropout"
    (by decide)
  refine ⟨targets, ?_, hobeys, ?_⟩
  · rw [topKDropout, hcandidates]
    simp only [bind, Except.bind, hcurrent, hranked, hplaces, hretained, hadded]
    exact htargets
  · intro hexposure
    rw [KeepsHeld, hcurrent]
    apply length_dropped spec current ranked
    intro symbol hsymbol
    have hheld : symbol ∈ retained.keys := (hkeys symbol).mpr
      ⟨heldSymbols_subset spec current (hkept.subset hsymbol), hsub hsymbol⟩
    obtain ⟨entry, hentry, rfl⟩ := Keyed.mem_keys.mp hheld
    apply hmembers entry _ (hfittedPos hexposure entry hentry)
    rw [hvalues]
    exact List.mem_append_left _ hentry

/-! ### All strategies -/

/-- With a row on the signal date, and for the score weights one that passes the filters, each
strategy returns targets that keep to the specification. The dropout strategy keeps what is held as
long as there is an exposure to allot. -/
theorem generateTargets_obeys (strategy : PortfolioStrategy) (spec : PortfolioSpec)
    (frame : SignalFrame) (execution : ExecutionSpec) (positions : List (SymbolText × Number))
    (hrow : ∃ row ∈ frame.rows, row.date = some execution.signalDate)
    (hsurvives : strategy = .topKScoreWeight → frame.Survives execution)
    (hmode : ∀ weightMode, strategy = .rankWeighted weightMode → KnownMode weightMode) :
    ∃ targets, strategy.generateTargets frame spec execution positions = .ok targets ∧
      ObeysSpec spec targets ∧
        (strategy = .topKDropout → 0 < spec.targetGrossExposure →
          KeepsHeld spec positions targets) := by
  cases strategy with
  | topKEqualWeight =>
      obtain ⟨targets, htargets, hobeys⟩ := topKEqualWeight_obeys hrow spec
      exact ⟨targets, htargets, hobeys, fun h => nomatch h⟩
  | topKScoreWeight =>
      obtain ⟨targets, htargets, hobeys⟩ := topKScoreWeight_obeys hrow (hsurvives rfl) spec
      exact ⟨targets, htargets, hobeys, fun h => nomatch h⟩
  | rankWeighted weightMode =>
      obtain ⟨targets, htargets, hobeys⟩ := rankWeighted_obeys (hmode weightMode rfl) hrow spec
      exact ⟨targets, htargets, hobeys, fun h => nomatch h⟩
  | topKDropout =>
      obtain ⟨targets, htargets, hobeys, hkeeps⟩ := topKDropout_obeys hrow spec positions
      exact ⟨targets, htargets, hobeys, fun _ => hkeeps⟩

/-! ### Where the strategies stop -/

def sampleSymbol : SymbolText where
  text := "000001".toList
  symbol := ⟨"000001".toList, Eq.refl true⟩
  normalized := normalizeSymbol_text ⟨"000001".toList, Eq.refl true⟩

def sampleExecution : ExecutionSpec where
  signalDate := .of 2026 8 7
  executionDate := .of 2026 8 10

/-- One signal of the day. -/
def sampleFrame (rawScore : Number) : SignalFrame where
  rows := [⟨some sampleExecution.signalDate, sampleSymbol, rawScore, none, none⟩]
  hasSuspended := false
  hasTradable := false

def sampleSpec (exposure : ℚ) (h : 0 ≤ exposure ∧ exposure ≤ 1) : PortfolioSpec where
  topK := 1
  targetGrossExposure := exposure
  maxSinglePosition := 1
  maxPositions := 1
  cashBuffer := 0
  rankWeightMode := .linear
  nDrop := 0
  topK_pos := Nat.one_pos
  maxPositions_pos := Nat.one_pos
  exposure_range := h
  single_range := ⟨one_pos, le_refl 1⟩
  cash_range := ⟨le_refl 0, zero_le_one⟩
  fits := by
    unfold capitalTolerance
    linarith [h.2]

theorem sampleFrame_row (rawScore : Number) :
    ∃ row ∈ (sampleFrame rawScore).rows, row.date = some sampleExecution.signalDate :=
  ⟨_, List.mem_singleton_self _, rfl⟩

theorem sampleFrame_obeys :
    ∃ targets, PortfolioStrategy.topKScoreWeight.generateTargets (sampleFrame (.finite 2))
        (sampleSpec (1 / 2) (by norm_num)) sampleExecution [] = .ok targets ∧
      ObeysSpec (sampleSpec (1 / 2) (by norm_num)) targets ∧
        (PortfolioStrategy.topKScoreWeight = .topKDropout →
          0 < (sampleSpec (1 / 2) (by norm_num)).targetGrossExposure →
            KeepsHeld (sampleSpec (1 / 2) (by norm_num)) [] targets) :=
  generateTargets_obeys .topKScoreWeight _ _ sampleExecution []
    (sampleFrame_row _) (fun _ => ⟨_, List.mem_singleton_self _, rfl, rfl⟩)
    (fun _ h => nomatch h)

/-- A score weight raises when its only score is not a number, the dropout strategy with nothing to
allot keeps nothing, and a rank weight of another mode is refused. -/
theorem strategies_stop :
    PortfolioStrategy.topKScoreWeight.generateTargets (sampleFrame .nan)
        (sampleSpec (1 / 2) (by norm_num)) sampleExecution [] =
      .error "zero-size array to reduction operation minimum which has no identity" ∧
    (PortfolioStrategy.topKDropout.generateTargets (sampleFrame (.finite 2))
        (sampleSpec 0 (by norm_num)) sampleExecution [(sampleSymbol, .finite (1 / 5))] = .ok [] ∧
      ¬ KeepsHeld (sampleSpec 0 (by norm_num)) [(sampleSymbol, .finite (1 / 5))] []) ∧
    (PortfolioStrategy.rankWeighted (some "equal".toList)).generateTargets
        (sampleFrame (.finite 2)) (sampleSpec (1 / 2) (by norm_num)) sampleExecution [] =
      .error "weight_mode must be linear or inverse_rank" := by
  refine ⟨rfl, ⟨?_, ?_⟩, rfl⟩
  · decide +kernel
  · unfold KeepsHeld
    decide +kernel

end QuantWorkbench.Strategies
