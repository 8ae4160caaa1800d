import QuantWorkbench.Data.IncrementalUpdater
import QuantWorkbench.Storage.MarketProvenance

/-!
What updates keep of the stored history: no date is lost by a merge, and none by a replacement
whose range goes over all stored dates.
-/

namespace QuantWorkbench.Data

open Lib Storage

section

variable [CellReader]

/-! ### Writes -/

/-- Every stored date of the symbol is stored afterwards. -/
def KeepsDates (symbol : Symbol) (before after : DailyLake) : Prop :=
  ∀ bar ∈ before.bars symbol, ∃ kept ∈ after.bars symbol, kept.date = bar.date

omit [CellReader] in
theorem KeepsDates.refl (symbol : Symbol) (lake : DailyLake) : KeepsDates symbol lake lake :=
  fun bar hbar => ⟨bar, hbar, rfl⟩

omit [CellReader] in
theorem KeepsDates.trans {symbol : Symbol} {before between after : DailyLake}
    (h : KeepsDates symbol before between) (h' : KeepsDates symbol between after) :
    KeepsDates symbol before after := by
  intro bar hbar
  obtain ⟨kept, hkept, hdate⟩ := h bar hbar
  obtain ⟨last, hlast, hsame⟩ := h' kept hkept
  exact ⟨last, hlast, hsame.trans hdate⟩

omit [CellReader] in
theorem keepsDates_put_other {symbol : Symbol} (lake : DailyLake) {file : DailyFile}
    (h : symbol ≠ file.symbol) : KeepsDates symbol lake (lake.put file) := by
  intro bar hbar
  refine ⟨bar, ?_, rfl⟩
  rw [DailyLake.bars, get?_put_other lake h]
  exact hbar

theorem keepsDates_merge {write : GroupWrite} {lake : DailyLake} {frame : Frame} {rawSymbol : Text}
    {source : Text} {file : DailyFile} (h : PutsFile false write lake frame rawSymbol source file)
    (symbol : Symbol) : KeepsDates symbol lake (lake.put file) := by
  by_cases hsymbol : symbol = file.symbol
  · subst hsymbol
    intro bar hbar
    cases hold : existingBars lake false file.symbol with
    | none =>
        rw [existingBars_eq_none hold] at hbar
        cases hbar
    | some old =>
        obtain ⟨_, hbars, _⟩ := existingBars_eq_some hold
        rw [hbars] at hbar
        obtain ⟨read, hread, hwritten⟩ := readsBars_of_puts h hold
        rw [bars_put, hwritten]
        by_cases hdate : bar.date ∈ groupDates (some old) (frame.group rawSymbol)
        · have hzip : ((frame.group rawSymbol).rows.zip
              (groupDates (some old) (frame.group rawSymbol))).map Prod.snd =
                groupDates (some old) (frame.group rawSymbol) :=
            List.map_snd_zip (length_groupDates hread).le
          rw [← hzip] at hdate
          obtain ⟨pair, hpair, hsame⟩ := Keyed.exists_lastOf hdate
          exact ⟨_, (mem_merged_iff hread).mpr (Or.inl ⟨pair, hpair, rfl⟩), hsame⟩
        · exact ⟨_, (mem_merged_iff hread).mpr (Or.inr ⟨⟨bar, hbar, rfl⟩, hdate⟩), rfl⟩
  · exact keepsDates_put_other lake hsymbol

def ReturnsDate (frame : Frame) (symbol : Symbol) (date : Date) : Prop :=
  ∃ rawSymbol ∈ frame.symbols, normalizeSymbol rawSymbol = some symbol ∧
    ∃ dates, (frame.group rawSymbol).dates = some dates ∧ date ∈ dates

/-- A replacement has the dates of the rows that it is made of. -/
theorem exists_date_replaced {write : GroupWrite} {lake : DailyLake} {frame : Frame}
    {rawSymbol : Text} {source : Text} {file : DailyFile}
    (h : PutsFile true write lake frame rawSymbol source file)
    (hrows : ¬ (frame.group rawSymbol).Empty) {dates : List Date}
    (hdates : (frame.group rawSymbol).dates = some dates) {date : Date} (hdate : date ∈ dates) :
    ∃ kept ∈ file.bars, kept.date = date := by
  have hwritten := h.written
  rw [existingBars, if_pos rfl] at hwritten
  rcases normalizeDailyBars_ok hwritten with ⟨hno, _⟩ | ⟨read, hread, hbars, _⟩
  · exact absurd hno hrows
  · obtain ⟨found, hfound, hread⟩ := hread.bars_eq
    cases hdates.symm.trans hfound
    have hlength : dates.length = (frame.group rawSymbol).rows.length := by
      obtain ⟨column, _, hcells⟩ := Option.bind_eq_some_iff.mp hdates
      rw [CellReader.length_dates _ _ hcells, List.length_map]
    have hread' : read.map DailyBar.date = dates := by
      calc read.map DailyBar.date = ((frame.group rawSymbol).rows.zip dates).map Prod.snd := by
            rw [hread, List.zip, List.map_zipWith, List.map_zipWith]
            rfl
        _ = dates := List.map_snd_zip hlength.le
    obtain ⟨kept, hkept, hsame⟩ := Keyed.exists_lastOf (hread' ▸ hdate)
    rw [hbars]
    exact ⟨kept, mem_lastByKey_iff.mpr hkept, hsame⟩

def OneSymbol (frame : Frame) (symbol : Symbol) : Prop :=
  frame.symbols.length ≤ 1 ∧ ∀ rawSymbol ∈ frame.symbols, normalizeSymbol rawSymbol = some symbol

theorem writeBars_merge_ends (write : CallWrite) (frame : Frame) (lake : DailyLake)
    (symbol : Symbol) :
    Raising.Ends (writeBars false write frame) lake (fun _ after => KeepsDates symbol lake after)
      (fun _ after => KeepsDates symbol lake after) := by
  refine Raising.ends_lift_bind (fun _ _ => ?_) (fun _ _ => KeepsDates.refl symbol lake)
  by_cases hempty : frame.Empty
  · rw [if_neg (not_not_intro hempty)]
    exact Raising.ends_pure (KeepsDates.refl symbol lake)
  · rw [if_pos hempty]
    refine Raising.ends_check_bind (fun _ => ?_) (fun _ => KeepsDates.refl symbol lake)
    have hstep : ∀ before rawSymbol, True →
        Raising.Ends (writeGroup false (write.group rawSymbol) frame rawSymbol) before
          (fun _ after => KeepsDates symbol before after)
          (fun _ after => KeepsDates symbol before after) := by
      intro before rawSymbol _
      refine (writeGroup_ends false (write.group rawSymbol) frame rawSymbol before).imp ?_ ?_
      · rintro _ _ ⟨source, file, hputs, rfl⟩
        exact keepsDates_merge hputs symbol
      · rintro _ _ (rfl | ⟨source, file, hputs, rfl⟩)
        · exact KeepsDates.refl symbol _
        · exact keepsDates_merge hputs symbol
    exact Raising.ends_forEach (KeepsDates.refl symbol) (fun _ _ _ => KeepsDates.trans) hstep
      (Raising.eachMeets_of_forall fun _ _ _ => trivial)

theorem writeBars_replace_ends {write : CallWrite} {frame : Frame} {lake : DailyLake}
    {owner symbol : Symbol} (hone : OneSymbol frame owner)
    (hreturned : symbol = owner → ∀ bar ∈ lake.bars symbol, ReturnsDate frame symbol bar.date) :
    Raising.Ends (writeBars true write frame) lake (fun _ after => KeepsDates symbol lake after)
      (fun _ after => KeepsDates symbol lake after) := by
  refine Raising.ends_lift_bind (fun _ _ => ?_) (fun _ _ => KeepsDates.refl symbol lake)
  by_cases hempty : frame.Empty
  · rw [if_neg (not_not_intro hempty)]
    exact Raising.ends_pure (KeepsDates.refl symbol lake)
  · rw [if_pos hempty]
    refine Raising.ends_check_bind (fun _ => ?_) (fun _ => KeepsDates.refl symbol lake)
    obtain ⟨hcount, hnamed⟩ := hone
    cases hsymbols : frame.symbols with
    | nil => exact Raising.ends_pure (KeepsDates.refl symbol lake)
    | cons rawSymbol rest =>
        have hrest : rest = [] := by
          rw [hsymbols, List.length_cons] at hcount
          exact List.length_eq_zero_iff.mp (by omega)
        subst hrest
        have hmem : rawSymbol ∈ frame.symbols := hsymbols ▸ List.mem_cons_self
        have hput : ∀ source file, PutsFile true (write.group rawSymbol) lake frame rawSymbol source
            file → KeepsDates symbol lake (lake.put file) := by
          intro source file hputs
          have howner : file.symbol = owner :=
            Option.some.inj (hputs.named.symm.trans (hnamed rawSymbol hmem))
          by_cases hsymbol : symbol = file.symbol
          · intro bar hbar
            obtain ⟨other, hother, _, dates, hdates, hdate⟩ :=
              hreturned (hsymbol.trans howner) bar hbar
            rw [hsymbols, List.mem_singleton] at hother
            subst hother
            rw [hsymbol, bars_put]
            exact exists_date_replaced hputs (group_not_empty hmem) hdates hdate
          · exact keepsDates_put_other lake hsymbol
        have hgroup := writeGroup_ends true (write.group rawSymbol) frame rawSymbol lake
        refine Raising.Ends.bind (hgroup.imp (fun _ _ h => h) ?_) ?_
        · rintro _ _ (rfl | ⟨source, file, hputs, rfl⟩)
          · exact KeepsDates.refl symbol _
          · exact hput source file hputs
        · rintro _ _ ⟨source, file, hputs, rfl⟩
          exact Raising.ends_pure (hput source file hputs)

/-! ### Requests -/

/-- A request that replaces the stored bars asks for a range that has them all, and gets rows of no
other symbol. -/
def FitsRequest (provider : DailyProvider) (settings : UpdateSettings) (state : UpdateState)
    (request : DailyRequest) : Prop :=
  ∀ symbol start frame, normalizeSymbol request.symbol = some symbol →
    replacesHistory settings state.lake symbol = true →
      requestedStart settings state.lake request symbol = .ok start → start ≤ settings.endDate →
        fetchBars provider request start settings.endDate = .ok frame →
          OneSymbol frame symbol ∧
            ∀ bar ∈ state.lake.bars symbol, start ≤ bar.date ∧ bar.date ≤ settings.endDate

/-- The provider returns all stored bars of a symbol that are in the range it is asked for. -/
def CompleteRequest (symbol : Symbol) (provider : DailyProvider) (settings : UpdateSettings)
    (state : UpdateState) (request : DailyRequest) : Prop :=
  normalizeSymbol request.symbol = some symbol →
    ∀ start frame, requestedStart settings state.lake request symbol = .ok start →
      start ≤ settings.endDate → fetchBars provider request start settings.endDate = .ok frame →
        ∀ bar ∈ state.lake.bars symbol, start ≤ bar.date → bar.date ≤ settings.endDate →
          ReturnsDate frame symbol bar.date

/-- Two states with the same dates of a symbol, or more. -/
abbrev StateKeeps (symbol : Symbol) (before after : UpdateState) : Prop :=
  KeepsDates symbol before.lake after.lake

theorem keepsDates_storeBars {replaceExisting : Bool} {write : CallWrite} {text : Text}
    {fetched : Except String Frame} {state : UpdateState} {symbol : Symbol}
    (h : ∀ frame, fetched = .ok frame →
      Raising.Ends (writeBars replaceExisting write frame) state.lake
        (fun _ after => KeepsDates symbol state.lake after)
        (fun _ after => KeepsDates symbol state.lake after)) :
    StateKeeps symbol state (storeBars replaceExisting write text fetched state) := by
  cases fetched with
  | error error => exact KeepsDates.refl symbol state.lake
  | ok frame =>
      have hends := h frame rfl
      simp only [storeBars]
      cases hrun : writeBars replaceExisting write frame state.lake with
      | mk result lake =>
          cases result with
          | ok _ => exact hends.of_ok hrun
          | error error => exact hends.of_error hrun

theorem updateSymbol_ends {provider : DailyProvider} {settings : UpdateSettings}
    {request : DailyRequest} {state : UpdateState} (writes : UpdateWrites) {symbol : Symbol}
    (hfits : FitsRequest provider settings state request)
    (hcomplete : CompleteRequest symbol provider settings state request) :
    Raising.Ends (updateSymbol provider writes settings request) state
      (fun _ after => StateKeeps symbol state after)
      (fun _ after => StateKeeps symbol state after) := by
  have hrest : ∀ before : UpdateState, before.lake = state.lake →
      Raising.Ends (do
        let symbol ← Raising.lift (orRaise (normalizeSymbol request.symbol) "DataValidationError")
        let lake ← Raising.read UpdateState.lake
        let start ← Raising.lift (requestedStart settings lake request symbol)
        if settings.endDate < start then
          Raising.change UpdateState.skipped
        else
          Raising.change (storeBars (replacesHistory settings lake symbol)
            (writes.bars request.position) request.symbol
            (fetchBars provider request start settings.endDate))) before
        (fun _ after => StateKeeps symbol state after)
        (fun _ after => StateKeeps symbol state after) := by
    intro before hlake
    have hsame : StateKeeps symbol state before := by
      rw [StateKeeps, hlake]
      exact KeepsDates.refl symbol state.lake
    refine Raising.ends_lift_bind (fun owner howner => ?_) (fun _ _ => hsame)
    have hnamed := orRaise_eq_ok_iff.mp howner
    apply Raising.ends_read_bind
    rw [hlake]
    refine Raising.ends_lift_bind (fun start hstart => ?_) (fun _ _ => hsame)
    by_cases hlate : settings.endDate < start
    · rw [if_pos hlate]
      exact Raising.ends_change hsame
    · rw [if_neg hlate]
      apply Raising.ends_change
      rw [StateKeeps, ← hlake]
      apply keepsDates_storeBars
      intro frame hframe
      rw [hlake]
      cases hreplace : replacesHistory settings state.lake owner with
      | false => exact writeBars_merge_ends _ frame state.lake symbol
      | true =>
          have hrange := not_lt.mp hlate
          obtain ⟨hone, hin⟩ := hfits owner start frame hnamed hreplace hstart hrange hframe
          refine writeBars_replace_ends hone fun hsymbol bar hbar => ?_
          subst hsymbol
          obtain ⟨hfirst, hlast⟩ := hin bar hbar
          exact hcomplete hnamed start frame hstart hrange hframe bar hbar hfirst hlast
  rw [updateSymbol]
  cases request.isIndex with
  | false => exact hrest state rfl
  | true => exact hrest (state.seen 1) rfl

end

end QuantWorkbench.Data
