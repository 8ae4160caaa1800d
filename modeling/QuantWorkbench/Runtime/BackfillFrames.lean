import QuantWorkbench.Runtime.BackfillRun
import QuantWorkbench.Lib.Coverage

/-!
Frames of a provider that answers every request with its rows in the requested
range. A merge of such answers into a good frame is a good frame again, and it
holds the old rows and the requested windows, nothing else.
-/

namespace QuantWorkbench.Runtime

open QuantWorkbench.Lib.Coverage

variable {Cells : Type}

def answer (rows : String → HistoryFrame Cells) (symbol : String) (range : ℕ × ℕ) :
    HistoryFrame Cells :=
  (rows symbol).filter fun row => range.1 ≤ row.date ∧ row.date ≤ range.2

def HistoricalHistoryProvider.AnswersExactly (provider : HistoricalHistoryProvider Cells)
    (rows : String → HistoryFrame Cells) : Prop :=
  ∀ symbol startDay endDay, provider.getResearchHistory symbol startDay endDay =
    .ok (answer rows symbol (startDay, endDay))

def rowSet (frame : HistoryFrame Cells) : Set (HistoryRow Cells) := {row | row ∈ frame}

/-- A frame an artifact may hold: rows of the provider, all of the symbol, one a
date, and at least one. -/
structure GoodFrame (rows : String → HistoryFrame Cells) (symbol : String)
    (frame : HistoryFrame Cells) : Prop where
  nonempty : frame ≠ []
  provided : ∀ row ∈ frame, row ∈ rows symbol
  symbol_eq : ∀ row ∈ frame, row.symbol = symbol
  distinct : (frameDates frame).Nodup

theorem eq_of_date_eq {frame : HistoryFrame Cells} (h : (frameDates frame).Nodup)
    {first second : HistoryRow Cells} (hfirst : first ∈ frame) (hsecond : second ∈ frame)
    (hdate : first.date = second.date) : first = second :=
  List.inj_on_of_nodup_map h hfirst hsecond hdate

theorem validateHistory_ok_iff {frame : HistoryFrame Cells} {symbol : String}
    {startDay endDay : ℕ} :
    validateHistory frame symbol startDay endDay = .ok () ↔
      (∀ row ∈ frame, row.symbol = symbol ∧ startDay ≤ row.date ∧ row.date ≤ endDay) ∧
        (frameDates frame).Nodup := by
  unfold validateHistory
  split
  · rename_i hempty
    subst hempty
    simp [frameDates]
  · split
    · rename_i hsymbol
      obtain ⟨row, hrow, hne⟩ := hsymbol
      simp only [reduceCtorEq, false_iff, not_and]
      intro hall
      exact absurd (hall row hrow).1 hne
    · rename_i hsymbol
      simp only [not_exists, not_and, ne_eq, not_not] at hsymbol
      split
      · rename_i hrange
        simp only [reduceCtorEq, false_iff, not_and]
        intro hall
        rcases hrange with ⟨row, hrow, hlow⟩ | ⟨row, hrow, hhigh⟩ | hnodup
        · have := (hall row hrow).2.1
          omega
        · have := (hall row hrow).2.2
          omega
        · exact hnodup
      · rename_i hrange
        simp only [not_or, not_exists, not_and, not_lt, not_not] at hrange
        simp only [true_iff]
        exact ⟨fun row hrow => ⟨hsymbol row hrow, hrange.1 row hrow, hrange.2.1 row hrow⟩,
          hrange.2.2⟩

theorem frameBounds_of_ne_nil {frame : HistoryFrame Cells} (h : frame ≠ []) :
    ∃ first ∈ frame, ∃ last ∈ frame, frameBounds frame = .ok (first.date, last.date) ∧
      (∀ row ∈ frame, first.date ≤ row.date ∧ row.date ≤ last.date) ∧
      ∀ artifact, (symbolRecord frame artifact).startDate = first.date ∧
        (symbolRecord frame artifact).endDate = last.date := by
  have hdates : frameDates frame ≠ [] := by
    unfold frameDates
    simpa using h
  obtain ⟨low, hlow⟩ := Option.isSome_iff_exists.mp (List.isSome_min?_of_ne_nil hdates)
  obtain ⟨high, hhigh⟩ := Option.isSome_iff_exists.mp (List.isSome_max?_of_ne_nil hdates)
  obtain ⟨hlowMem, hlowLe⟩ := List.min?_eq_some_iff.mp hlow
  obtain ⟨hhighMem, hhighGe⟩ := List.max?_eq_some_iff.mp hhigh
  obtain ⟨first, hfirst, rfl⟩ := List.mem_map.mp hlowMem
  obtain ⟨last, hlast, rfl⟩ := List.mem_map.mp hhighMem
  refine ⟨first, hfirst, last, hlast, ?_, ?_, ?_⟩
  · unfold frameBounds
    rw [hlow, hhigh]
  · intro row hrow
    have hdate : row.date ∈ frameDates frame := List.mem_map_of_mem hrow
    exact ⟨hlowLe _ hdate, hhighGe _ hdate⟩
  · intro artifact
    simp only [symbolRecord, hlow, hhigh, Option.getD_some, and_self]

theorem mem_of_mem_dropDuplicates {frame : HistoryFrame Cells} {row : HistoryRow Cells}
    (h : row ∈ dropDuplicates frame) : row ∈ frame := by
  induction frame with
  | nil => exact h
  | cons head rest ih =>
      unfold dropDuplicates at h
      split at h
      · exact List.mem_cons_of_mem _ (ih h)
      · rcases List.mem_cons.mp h with rfl | h
        · exact List.mem_cons_self
        · exact List.mem_cons_of_mem _ (ih h)

/-- No row is lost where rows of one symbol and date are equal. -/
theorem mem_dropDuplicates {frame : HistoryFrame Cells}
    (hunique : ∀ first ∈ frame, ∀ second ∈ frame,
      first.symbol = second.symbol → first.date = second.date → first = second)
    {row : HistoryRow Cells} : row ∈ dropDuplicates frame ↔ row ∈ frame := by
  refine ⟨mem_of_mem_dropDuplicates, ?_⟩
  induction frame with
  | nil => exact id
  | cons head rest ih =>
      have hrest : row ∈ rest → row ∈ dropDuplicates rest :=
        ih fun first hfirst second hsecond =>
          hunique first (List.mem_cons_of_mem _ hfirst) second (List.mem_cons_of_mem _ hsecond)
      intro hrow
      unfold dropDuplicates
      split
      · rename_i hlater
        obtain ⟨later, hmem, hsymbol, hdate⟩ := hlater
        rcases List.mem_cons.mp hrow with rfl | hrow
        · have heq := hunique later (List.mem_cons_of_mem _ hmem) row List.mem_cons_self
            hsymbol hdate
          exact hrest (heq ▸ hmem)
        · exact hrest hrow
      · rcases List.mem_cons.mp hrow with rfl | hrow
        · exact List.mem_cons_self
        · exact List.mem_cons_of_mem _ (hrest hrow)

theorem nodup_dropDuplicates {symbol : String} {frame : HistoryFrame Cells}
    (hsymbol : ∀ row ∈ frame, row.symbol = symbol) :
    (frameDates (dropDuplicates frame)).Nodup := by
  induction frame with
  | nil => exact List.nodup_nil
  | cons head rest ih =>
      have hrest := ih fun row hrow => hsymbol row (List.mem_cons_of_mem _ hrow)
      unfold dropDuplicates
      split
      · exact hrest
      · rename_i hlater
        refine List.nodup_cons.mpr ⟨?_, hrest⟩
        intro hmem
        obtain ⟨later, hin, hdate⟩ := List.mem_map.mp hmem
        have hin := mem_of_mem_dropDuplicates hin
        refine hlater ⟨later, hin, ?_, hdate⟩
        rw [hsymbol later (List.mem_cons_of_mem _ hin), hsymbol head List.mem_cons_self]

namespace HistoricalBackfillCoordinator

variable (c : HistoricalBackfillCoordinator Cells) {rows : String → HistoryFrame Cells}

theorem mem_mergeFrames {frames : List (HistoryFrame Cells)}
    (hunique : ∀ first ∈ frames.flatten, ∀ second ∈ frames.flatten,
      first.symbol = second.symbol → first.date = second.date → first = second)
    {row : HistoryRow Cells} : row ∈ mergeFrames frames ↔ row ∈ frames.flatten := by
  unfold mergeFrames
  rw [mem_dropDuplicates, List.mem_insertionSort]
  intro first hfirst second hsecond
  exact hunique first (List.mem_insertionSort _ |>.mp hfirst)
    second (List.mem_insertionSort _ |>.mp hsecond)

theorem mem_answer {symbol : String} {range : ℕ × ℕ} {row : HistoryRow Cells} :
    row ∈ answer rows symbol range ↔
      row ∈ window HistoryRow.date (rowSet (rows symbol)) range.1 range.2 := by
  simp only [answer, List.mem_filter, decide_eq_true_eq]
  rfl

/-- The pieces of an attempt are the answers to its requests, each of them valid. -/
theorem fetchPieces_ok (hexact : c.provider.AnswersExactly rows) {symbol : String}
    {missing : List (ℕ × ℕ)} {pieces : List (HistoryFrame Cells)}
    (h : c.fetchPieces symbol missing = .ok pieces) :
    pieces = missing.map (answer rows symbol) ∧
      ∀ range ∈ missing, (∀ row ∈ answer rows symbol range, row.symbol = symbol) ∧
        (frameDates (answer rows symbol range)).Nodup := by
  induction missing generalizing pieces with
  | nil =>
      cases h
      exact ⟨rfl, fun _ hmem => absurd hmem List.not_mem_nil⟩
  | cons range rest ih =>
      unfold fetchPieces at h
      simp only [hexact symbol range.1 range.2, bind, Except.bind] at h
      cases hvalid : validateHistory (answer rows symbol range) symbol range.1 range.2 with
      | error failure =>
          rw [hvalid] at h
          cases h
      | ok valid =>
          rw [hvalid] at h
          cases hrest : c.fetchPieces symbol rest with
          | error failure =>
              rw [hrest] at h
              cases h
          | ok later =>
              rw [hrest] at h
              cases h
              obtain ⟨rfl, hgood⟩ := ih hrest
              obtain ⟨hrows, hnodup⟩ := validateHistory_ok_iff.mp hvalid
              refine ⟨rfl, ?_⟩
              intro other hother
              rcases List.mem_cons.mp hother with rfl | hother
              · exact ⟨fun row hrow => (hrows row hrow).1, hnodup⟩
              · exact hgood other hother

/-- What the artifact of a slot holds. -/
def heldRows (slot : Slot Cells) : HistoryFrame Cells :=
  match slot.active with
  | none => []
  | some artifact => artifact.frame

/-- A slot whose artifact, if it has one, holds a good frame, and whose record
does not reach beyond it. -/
structure GoodSlot (rows : String → HistoryFrame Cells) (symbol : String)
    (slot : Slot Cells) : Prop where
  frame : ∀ artifact, slot.active = some artifact → GoodFrame rows symbol artifact.frame
  record : ∀ record, slot.record = some record →
    slot.active ≠ none ∧ record.startDate ≤ record.endDate ∧
      Spans HistoryRow.date (rowSet (heldRows slot)) record.startDate record.endDate

theorem held_provided {symbol : String} {slot : Slot Cells}
    (hgood : GoodSlot rows symbol slot) : ∀ row ∈ heldRows slot, row ∈ rows symbol ∧
      row.symbol = symbol := by
  intro row hrow
  unfold heldRows at hrow
  split at hrow
  · cases hrow
  · rename_i artifact hactive
    have hframe := hgood.frame artifact hactive
    exact ⟨hframe.provided row hrow, hframe.symbol_eq row hrow⟩

theorem held_distinct {symbol : String} {slot : Slot Cells}
    (hgood : GoodSlot rows symbol slot) : (frameDates (heldRows slot)).Nodup := by
  unfold heldRows
  split
  · exact List.nodup_nil
  · rename_i artifact hactive
    exact (hgood.frame artifact hactive).distinct

/-- Merging valid answers into what a slot holds loses no row and adds no other. -/
theorem merge_good {symbol : String} {slot : Slot Cells} (hgood : GoodSlot rows symbol slot)
    {missing : List (ℕ × ℕ)}
    (hvalid : ∀ range ∈ missing, (∀ row ∈ answer rows symbol range, row.symbol = symbol) ∧
      (frameDates (answer rows symbol range)).Nodup)
    (hsome : ∃ range ∈ missing, answer rows symbol range ≠ []) :
    GoodFrame rows symbol (mergeFrames (heldRows slot :: missing.map (answer rows symbol))) ∧
      rowSet (mergeFrames (heldRows slot :: missing.map (answer rows symbol))) =
        rowSet (heldRows slot) ∪
          windows HistoryRow.date (rowSet (rows symbol)) missing := by
  have hsource : ∀ row, row ∈ (heldRows slot :: missing.map (answer rows symbol)).flatten ↔
      row ∈ heldRows slot ∨ ∃ range ∈ missing, row ∈ answer rows symbol range := by
    intro row
    simp only [List.flatten_cons, List.mem_append, List.mem_flatten, List.mem_map,
      exists_exists_and_eq_and]
  have hprovided : ∀ row ∈ (heldRows slot :: missing.map (answer rows symbol)).flatten,
      row ∈ rows symbol ∧ row.symbol = symbol := by
    intro row hrow
    rcases (hsource row).mp hrow with hheld | ⟨range, hrange, hanswer⟩
    · exact held_provided hgood row hheld
    · exact ⟨(List.mem_filter.mp hanswer).1, (hvalid range hrange).1 row hanswer⟩
  -- Two rows of one date are in the same answer, or both were held before.
  have hunique : ∀ first ∈ (heldRows slot :: missing.map (answer rows symbol)).flatten,
      ∀ second ∈ (heldRows slot :: missing.map (answer rows symbol)).flatten,
      first.symbol = second.symbol → first.date = second.date → first = second := by
    intro first hfirst second hsecond _ hdate
    rcases (hsource first).mp hfirst with hheld | ⟨range, hrange, hanswer⟩
    · rcases (hsource second).mp hsecond with hheld' | ⟨range, hrange, hanswer⟩
      · exact eq_of_date_eq (held_distinct hgood) hheld hheld' hdate
      · have hsame : first ∈ answer rows symbol range := by
          have hbounds := (List.mem_filter.mp hanswer).2
          refine List.mem_filter.mpr ⟨(hprovided first hfirst).1, ?_⟩
          rw [hdate]
          exact hbounds
        exact eq_of_date_eq (hvalid range hrange).2 hsame hanswer hdate
    · have hsame : second ∈ answer rows symbol range := by
        have hbounds := (List.mem_filter.mp hanswer).2
        refine List.mem_filter.mpr ⟨(hprovided second hsecond).1, ?_⟩
        rw [← hdate]
        exact hbounds
      exact eq_of_date_eq (hvalid range hrange).2 hanswer hsame hdate
  have hmem : ∀ row, row ∈ mergeFrames (heldRows slot :: missing.map (answer rows symbol)) ↔
      row ∈ heldRows slot ∨ ∃ range ∈ missing, row ∈ answer rows symbol range := by
    intro row
    rw [mem_mergeFrames hunique, hsource]
  refine ⟨⟨?_, ?_, ?_, ?_⟩, ?_⟩
  · obtain ⟨range, hrange, hne⟩ := hsome
    obtain ⟨row, hrow⟩ := List.exists_mem_of_ne_nil _ hne
    exact List.ne_nil_of_mem ((hmem row).mpr (Or.inr ⟨range, hrange, hrow⟩))
  · intro row hrow
    exact (hprovided row ((mem_mergeFrames hunique).mp hrow)).1
  · intro row hrow
    exact (hprovided row ((mem_mergeFrames hunique).mp hrow)).2
  · apply nodup_dropDuplicates
    intro row hrow
    exact (hprovided row (List.mem_insertionSort _ |>.mp hrow)).2
  · ext row
    refine (hmem row).trans ?_
    refine or_congr Iff.rfl ?_
    constructor
    · rintro ⟨range, hrange, hanswer⟩
      exact ⟨range, hrange, mem_answer.mp hanswer⟩
    · rintro ⟨range, hrange, hwindow⟩
      exact ⟨range, hrange, mem_answer.mpr hwindow⟩

theorem mergeWithPrevious_ok {symbol : String} {slot : Slot Cells}
    (haligned : slot.record = none → slot.active = none)
    {pieces : List (HistoryFrame Cells)} {frame : HistoryFrame Cells}
    (h : c.mergeWithPrevious symbol slot.record slot.active pieces = .ok frame) :
    frame = mergeFrames (heldRows slot :: pieces) := by
  unfold mergeWithPrevious at h
  cases hrecord : slot.record with
  | none =>
      rw [hrecord] at h
      cases h
      unfold heldRows
      rw [haligned hrecord]
      rfl
  | some record =>
      rw [hrecord] at h
      simp only at h
      split at h
      · cases h
      · rename_i artifact hverified
        cases h
        unfold heldRows
        rw [(c.verifiedArtifact_ok_iff.mp hverified).1]

/-- Everything an attempt can amount to, whatever the provider answers. -/
theorem attempt_forms {symbol : String} {slot : Slot Cells}
    (haligned : slot.record = none → slot.active = none) {startDay : ℕ}
    {missing : List (ℕ × ℕ)} {result : Attempt Cells}
    (h : c.attempt symbol slot.record slot.active startDay missing = .ok result) :
    (∃ reason, result = .failed reason) ∨
      (∃ current, slot.record = some current ∧
        result = .gapSkipped { current with leadingGapSkipped := true }) ∨
      ∃ pieces version newRows, c.fetchPieces symbol missing = .ok pieces ∧
        (∃ piece ∈ pieces, piece ≠ []) ∧
        result = .merged (mergeFrames (heldRows slot :: pieces)) version newRows ∧
        ∃ first last, validateHistory (mergeFrames (heldRows slot :: pieces)) symbol first last =
          .ok () := by
  unfold attempt at h
  split at h
  · cases h
    exact Or.inl ⟨_, rfl⟩
  · cases h
    exact Or.inl ⟨_, rfl⟩
  · rename_i pieces hfetch
    split at h
    · split at h
      · rename_i current _ _ _ hrecord
        split at h
        · cases h
          exact Or.inr (Or.inl ⟨current, hrecord, rfl⟩)
        · cases h
          exact Or.inl ⟨_, rfl⟩
      · cases h
        exact Or.inl ⟨_, rfl⟩
    · rename_i hrows
      have hsome : ∃ piece ∈ pieces, piece ≠ [] := by
        by_contra hnone
        push Not at hnone
        apply hrows
        rw [List.sum_eq_zero_iff]
        intro length hlength
        obtain ⟨piece, hpiece, rfl⟩ := List.mem_map.mp hlength
        rw [hnone piece hpiece]
        rfl
      split at h
      · cases h
      · rename_i frame hmerge
        cases c.mergeWithPrevious_ok haligned hmerge
        split at h
        · cases h
          exact Or.inl ⟨_, rfl⟩
        · rename_i first last _
          split at h
          · cases h
            exact Or.inl ⟨_, rfl⟩
          · rename_i hvalid
            cases h
            exact Or.inr (Or.inr ⟨pieces, _, _, hfetch, hsome, rfl, first, last, hvalid⟩)

/-- The first range begins where the call begins and ends before the record. -/
def LeadingGap (record : Option SymbolRecord) (startDay : ℕ) (missing : List (ℕ × ℕ)) : Prop :=
  ∃ current, record = some current ∧ ∃ range ∈ missing.head?,
    range.1 = startDay ∧ range.2 < current.startDate

/-- Everything an attempt on a good slot can amount to. -/
theorem attempt_cases (hexact : c.provider.AnswersExactly rows) {symbol : String}
    {slot : Slot Cells} (hgood : GoodSlot rows symbol slot)
    (haligned : slot.record = none → slot.active = none) {startDay : ℕ}
    {missing : List (ℕ × ℕ)} {result : Attempt Cells}
    (h : c.attempt symbol slot.record slot.active startDay missing = .ok result) :
    ((∃ reason, result = .failed reason) ∧
        ((∃ failure, c.fetchPieces symbol missing = .error failure) ∨
          (∀ range ∈ missing, answer rows symbol range = []) ∧
            ¬ LeadingGap slot.record startDay missing)) ∨
      (∃ current, slot.record = some current ∧
        result = .gapSkipped { current with leadingGapSkipped := true } ∧
        (∃ pieces, c.fetchPieces symbol missing = .ok pieces) ∧
        (∀ range ∈ missing, answer rows symbol range = []) ∧
        LeadingGap slot.record startDay missing) ∨
      (∃ frame version newRows, result = .merged frame version newRows ∧
        (∃ pieces, c.fetchPieces symbol missing = .ok pieces) ∧
        (∃ range ∈ missing, answer rows symbol range ≠ []) ∧
        GoodFrame rows symbol frame ∧
        rowSet frame = rowSet (heldRows slot) ∪
          windows HistoryRow.date (rowSet (rows symbol)) missing) := by
  unfold attempt at h
  split at h
  · rename_i hfetch
    cases h
    exact Or.inl ⟨⟨_, rfl⟩, Or.inl ⟨_, hfetch⟩⟩
  · rename_i hfetch
    cases h
    exact Or.inl ⟨⟨_, rfl⟩, Or.inl ⟨_, hfetch⟩⟩
  · rename_i pieces hfetch
    obtain ⟨rfl, hvalid⟩ := c.fetchPieces_ok hexact hfetch
    have hsum : ((missing.map (answer rows symbol)).map List.length).sum = 0 ↔
        ∀ range ∈ missing, answer rows symbol range = [] := by
      simp only [List.map_map, List.sum_eq_zero_iff, List.mem_map, Function.comp_apply,
        forall_exists_index, and_imp, forall_apply_eq_imp_iff₂, List.length_eq_zero_iff]
    split at h
    · rename_i hzero
      have hempty := hsum.mp hzero
      split at h
      · rename_i current firstStart firstEnd rest hrecord
        split at h
        · rename_i hgap
          cases h
          exact Or.inr (Or.inl ⟨current, hrecord, rfl, ⟨_, hfetch⟩, hempty,
            current, hrecord, _, rfl, hgap⟩)
        · rename_i hgap
          cases h
          refine Or.inl ⟨⟨_, rfl⟩, Or.inr ⟨hempty, ?_⟩⟩
          rintro ⟨other, hother, range, hrange, hbounds⟩
          rw [hrecord] at hother
          cases hother
          cases hrange
          exact hgap hbounds
      · rename_i hcases
        cases h
        refine Or.inl ⟨⟨_, rfl⟩, Or.inr ⟨hempty, ?_⟩⟩
        rintro ⟨current, hrecord, range, hrange, _⟩
        obtain ⟨rest, hrest⟩ := List.head?_eq_some_iff.mp hrange
        exact hcases current range.1 range.2 rest hrecord hrest
    · rename_i hrows
      have hsome : ∃ range ∈ missing, answer rows symbol range ≠ [] := by
        by_contra hnone
        apply hrows
        rw [hsum]
        intro range hrange
        by_contra hne
        exact hnone ⟨range, hrange, hne⟩
      split at h
      · cases h
      · rename_i frame hmerge
        have hframe := c.mergeWithPrevious_ok haligned hmerge
        obtain ⟨hmerged, hset⟩ := merge_good hgood hvalid hsome
        rw [← hframe] at hmerged hset
        obtain ⟨first, _, last, _, hbounds, hinside, _⟩ :=
          frameBounds_of_ne_nil hmerged.nonempty
        have haccepted : validateHistory frame symbol first.date last.date = .ok () :=
          validateHistory_ok_iff.mpr
            ⟨fun row hrow => ⟨hmerged.symbol_eq row hrow, hinside row hrow⟩, hmerged.distinct⟩
        simp only [hbounds, haccepted] at h
        cases h
        exact Or.inr (Or.inr ⟨_, _, _, rfl, ⟨_, hfetch⟩, hsome, hmerged, hset⟩)

end HistoricalBackfillCoordinator

end QuantWorkbench.Runtime
