import QuantWorkbench.Runtime.RealtimeScheduler
import QuantWorkbench.Lib.Runs

/-!
What a tick leaves of the priority quotes. A snapshot that the worker fetched earlier
is checked against the timestamps the priority quotes have just set, and what is left
of it replaces the whole store.
-/

namespace QuantWorkbench.Runtime

open QuantWorkbench.Lib QuantWorkbench.Data

/-- No timestamp of the symbol later than the bound was remembered. -/
def SeenUpTo (tracker : TimestampTracker) (symbol : Symbol) (bound : Timestamp) : Prop :=
  ∀ seen ∈ tracker.lookup symbol, seen ≤ bound

/-- No earlier quote of the symbol has a later timestamp, those from the future apart. -/
def InOrder (now : Timestamp) (earlier : List RealTimeQuote) (symbol : Symbol)
    (bound : Timestamp) : Prop :=
  ∀ other ∈ earlier, other.symbol = symbol → other.timestampExchange ≤ now →
    other.timestampExchange ≤ bound

theorem observeQuote_accepted {now : Timestamp} {tracker : TimestampTracker}
    {quote : RealTimeQuote} (hnow : quote.timestampExchange ≤ now)
    (hseen : SeenUpTo tracker quote.symbol quote.timestampExchange) :
    observeQuote now tracker quote =
      (tracker.insert quote.symbol quote.timestampExchange, quote, false) := by
  have hpast : ¬ (0 : ℚ) < ((quote.timestampExchange - now : ℤ) : ℚ) / 1000000 := by
    rw [not_lt]
    apply div_nonpos_of_nonpos_of_nonneg _ (by norm_num)
    exact_mod_cast sub_nonpos.mpr hnow
  unfold observeQuote TimestampTracker.observe
  rw [normalizeSymbol_text]
  simp only [if_neg hpast]
  cases hlast : tracker.lookup quote.symbol with
  | none => rfl
  | some previous =>
      have hle : previous ≤ quote.timestampExchange := hseen previous hlast
      simp only [if_neg (not_lt.mpr hle)]

theorem observeQuote_refused {now : Timestamp} {tracker : TimestampTracker}
    {quote : RealTimeQuote} (h : ¬ (quote.timestampExchange ≤ now ∧
      SeenUpTo tracker quote.symbol quote.timestampExchange)) :
    observeQuote now tracker quote = (tracker, quote.quarantined, true) := by
  unfold observeQuote TimestampTracker.observe
  rw [normalizeSymbol_text]
  simp only
  split
  · rename_i observed hobserved
    split at hobserved
    · cases hobserved
    · rename_i hpast
      have hnow : quote.timestampExchange ≤ now := by
        by_contra hlate
        apply hpast
        apply div_pos _ (by norm_num)
        exact_mod_cast sub_pos.mpr (not_le.mp hlate)
      exfalso
      apply h
      refine ⟨hnow, fun seen hseen => ?_⟩
      rw [Option.mem_def] at hseen
      rw [hseen] at hobserved
      simp only at hobserved
      split at hobserved
      · cases hobserved
      · rename_i hback
        exact not_lt.mp hback
  · rfl

theorem seenUpTo_observeQuote (now : Timestamp) (tracker : TimestampTracker)
    (quote : RealTimeQuote) (symbol : Symbol) (bound : Timestamp) :
    SeenUpTo (observeQuote now tracker quote).1 symbol bound ↔
      SeenUpTo tracker symbol bound ∧ InOrder now [quote] symbol bound := by
  have hsingle : InOrder now [quote] symbol bound ↔ (quote.symbol = symbol →
      quote.timestampExchange ≤ now → quote.timestampExchange ≤ bound) := by
    simp [InOrder]
  rw [hsingle]
  by_cases h : quote.timestampExchange ≤ now ∧
      SeenUpTo tracker quote.symbol quote.timestampExchange
  · rw [observeQuote_accepted h.1 h.2]
    by_cases hsymbol : quote.symbol = symbol
    · subst hsymbol
      have hafter : SeenUpTo (tracker.insert quote.symbol quote.timestampExchange) quote.symbol
          bound ↔ quote.timestampExchange ≤ bound := by
        simp [SeenUpTo, AList.lookup_insert]
      rw [hafter]
      constructor
      · intro hle
        exact ⟨fun seen hseen => (h.2 seen hseen).trans hle, fun _ _ => hle⟩
      · rintro ⟨_, hle⟩
        exact hle rfl h.1
    · have hafter : (tracker.insert quote.symbol quote.timestampExchange).lookup symbol =
          tracker.lookup symbol := AList.lookup_insert_ne (Ne.symm hsymbol)
      unfold SeenUpTo
      rw [hafter]
      exact ⟨fun hseen => ⟨hseen, fun heq => absurd heq hsymbol⟩, fun hboth => hboth.1⟩
  · rw [observeQuote_refused h]
    refine ⟨fun hseen => ⟨hseen, ?_⟩, fun hboth => hboth.1⟩
    rintro rfl hnow
    by_contra hbound
    apply h
    refine ⟨hnow, fun seen hmem => ?_⟩
    exact (hseen seen hmem).trans (not_le.mp hbound).le

/-- After a batch the tracker remembers the latest timestamp that is not from the
future. -/
theorem seenUpTo_observeQuotes (now : Timestamp) (symbol : Symbol) (bound : Timestamp) :
    ∀ (tracker : TimestampTracker) (quotes : List RealTimeQuote),
      SeenUpTo (observeQuotes now tracker quotes).1 symbol bound ↔
        SeenUpTo tracker symbol bound ∧ InOrder now quotes symbol bound
  | tracker, [] => by simp [observeQuotes, InOrder]
  | tracker, quote :: rest => by
      simp only [observeQuotes]
      rw [seenUpTo_observeQuotes now symbol bound _ rest, seenUpTo_observeQuote, and_assoc]
      have hcons : InOrder now (quote :: rest) symbol bound ↔
          InOrder now [quote] symbol bound ∧ InOrder now rest symbol bound := by
        simp [InOrder]
      rw [hcons]

/-- The quotes of a batch that are left after both checks. -/
def usableQuotes (staleAfterSeconds : ℚ) (now : Timestamp) (tracker : TimestampTracker)
    (quotes : List RealTimeQuote) : List RealTimeQuote :=
  freshQuotes ((observeQuotes now tracker quotes).2.1.map (checkedQuote now staleAfterSeconds))

/-- A quote that passes both checks where it stands in its batch. -/
structure Passes (staleAfterSeconds : ℚ) (now : Timestamp) (tracker : TimestampTracker)
    (earlier : List RealTimeQuote) (quote : RealTimeQuote) : Prop where
  fresh : ¬ quote.Rejected now staleAfterSeconds
  seen : SeenUpTo tracker quote.symbol quote.timestampExchange
  ordered : InOrder now earlier quote.symbol quote.timestampExchange

theorem freshQuotes_checked (now : Timestamp) (staleAfterSeconds : ℚ) (quote : RealTimeQuote) :
    freshQuotes [checkedQuote now staleAfterSeconds quote] =
      if quote.Rejected now staleAfterSeconds then [] else [quote] := by
  unfold checkedQuote
  split
  · rfl
  · rename_i hfresh
    have hstale : quote.isStale = false := by
      by_contra hflag
      exact hfresh (Or.inr (Or.inr (by simpa using hflag)))
    simp [freshQuotes, hstale]

theorem usableQuotes_cons (staleAfterSeconds : ℚ) (now : Timestamp) (tracker : TimestampTracker)
    (quote : RealTimeQuote) (rest : List RealTimeQuote) :
    usableQuotes staleAfterSeconds now tracker (quote :: rest) =
      freshQuotes [checkedQuote now staleAfterSeconds (observeQuote now tracker quote).2.1] ++
        usableQuotes staleAfterSeconds now (observeQuote now tracker quote).1 rest := by
  simp only [usableQuotes, observeQuotes, List.map_cons, freshQuotes]
  rw [← List.filter_append]
  rfl

theorem rejected_quarantined (quote : RealTimeQuote) (now : Timestamp)
    (staleAfterSeconds : ℚ) : quote.quarantined.Rejected now staleAfterSeconds :=
  Or.inr (Or.inr rfl)

theorem usable_head_iff {staleAfterSeconds : ℚ} {now : Timestamp} {tracker : TimestampTracker}
    {quote kept : RealTimeQuote} :
    kept ∈ freshQuotes
        [checkedQuote now staleAfterSeconds (observeQuote now tracker quote).2.1] ↔
      kept = quote ∧ Passes staleAfterSeconds now tracker [] quote := by
  rw [freshQuotes_checked]
  by_cases h : quote.timestampExchange ≤ now ∧
      SeenUpTo tracker quote.symbol quote.timestampExchange
  · rw [observeQuote_accepted h.1 h.2]
    split
    · rename_i hrejected
      simp only [List.not_mem_nil, false_iff]
      rintro ⟨_, hpasses⟩
      exact hpasses.fresh hrejected
    · rename_i hfresh
      rw [List.mem_singleton]
      exact ⟨fun heq => ⟨heq, hfresh, h.2, by simp [InOrder]⟩, fun hboth => hboth.1⟩
  · rw [observeQuote_refused h, if_pos (rejected_quarantined _ _ _)]
    simp only [List.not_mem_nil, false_iff]
    rintro ⟨_, hpasses⟩
    refine h ⟨?_, hpasses.seen⟩
    by_contra hlate
    exact hpasses.fresh (Or.inl (not_le.mp hlate))

/-- A quote of a batch is usable where it passes both checks, after the quotes before
it have been observed. -/
theorem mem_usableQuotes_iff {staleAfterSeconds : ℚ} {now : Timestamp} {kept : RealTimeQuote} :
    ∀ (tracker : TimestampTracker) (quotes : List RealTimeQuote),
      kept ∈ usableQuotes staleAfterSeconds now tracker quotes ↔
        ∃ earlier later, quotes = earlier ++ kept :: later ∧
          Passes staleAfterSeconds now tracker earlier kept
  | tracker, [] => by simp [usableQuotes, observeQuotes, freshQuotes]
  | tracker, quote :: rest => by
      rw [usableQuotes_cons, List.mem_append, usable_head_iff, mem_usableQuotes_iff _ rest]
      constructor
      · rintro (⟨rfl, hpasses⟩ | ⟨earlier, later, rfl, hpasses⟩)
        · exact ⟨[], rest, rfl, hpasses⟩
        · obtain ⟨hseen, hhead⟩ := (seenUpTo_observeQuote _ _ _ _ _).mp hpasses.seen
          refine ⟨quote :: earlier, later, rfl, hpasses.fresh, hseen, ?_⟩
          intro other hother
          rcases List.mem_cons.mp hother with rfl | hother
          · exact hhead other (List.mem_singleton_self other)
          · exact hpasses.ordered other hother
      · rintro ⟨earlier, later, heq, hpasses⟩
        cases earlier with
        | nil =>
            obtain ⟨rfl, rfl⟩ := List.cons.inj heq
            exact Or.inl ⟨rfl, hpasses⟩
        | cons first others =>
            obtain ⟨rfl, rfl⟩ := List.cons.inj heq
            refine Or.inr ⟨others, later, rfl, hpasses.fresh, ?_, ?_⟩
            · apply (seenUpTo_observeQuote _ _ _ _ _).mpr
              refine ⟨hpasses.seen, fun other hother => ?_⟩
              rw [List.mem_singleton.mp hother]
              exact hpasses.ordered _ List.mem_cons_self
            · intro other hother
              exact hpasses.ordered other (List.mem_cons_of_mem _ hother)

/-- A usable quote of a batch has a timestamp that the tracker remembers. -/
theorem le_of_seenUpTo_after {staleAfterSeconds : ℚ} {now : Timestamp}
    {tracker : TimestampTracker} {quotes : List RealTimeQuote} {quote : RealTimeQuote}
    {bound : Timestamp} (hquote : quote ∈ usableQuotes staleAfterSeconds now tracker quotes)
    (hseen : SeenUpTo (observeQuotes now tracker quotes).1 quote.symbol bound) :
    quote.timestampExchange ≤ bound := by
  obtain ⟨earlier, later, rfl, hpasses⟩ := (mem_usableQuotes_iff _ _).mp hquote
  obtain ⟨_, hordered⟩ := (seenUpTo_observeQuotes _ _ _ _ _).mp hseen
  have hnow : quote.timestampExchange ≤ now := by
    by_contra hlate
    exact hpasses.fresh (Or.inl (not_le.mp hlate))
  exact hordered quote (List.mem_append_right _ List.mem_cons_self) rfl hnow

/-- The quote received last, the later one on a tie. -/
def ReceivedLast (kept : RealTimeQuote) (candidates : List RealTimeQuote) : Prop :=
  ∃ before after, candidates = before ++ kept :: after ∧
    (∀ other ∈ before, other.timestampReceived ≤ kept.timestampReceived) ∧
    ∀ other ∈ after, other.timestampReceived < kept.timestampReceived

theorem receivedLast_cons_iff {kept first : RealTimeQuote} {rest : List RealTimeQuote} :
    ReceivedLast kept (first :: rest) ↔
      (kept = first ∧ ∀ other ∈ rest, other.timestampReceived < first.timestampReceived) ∨
        (first.timestampReceived ≤ kept.timestampReceived ∧ ReceivedLast kept rest) := by
  constructor
  · rintro ⟨before, after, heq, hbefore, hafter⟩
    cases before with
    | nil =>
        obtain ⟨rfl, rfl⟩ := List.cons.inj heq
        exact Or.inl ⟨rfl, hafter⟩
    | cons head others =>
        obtain ⟨rfl, rfl⟩ := List.cons.inj heq
        refine Or.inr ⟨hbefore _ List.mem_cons_self, others, after, rfl, ?_, hafter⟩
        exact fun other hother => hbefore other (List.mem_cons_of_mem _ hother)
  · rintro (⟨rfl, hafter⟩ | ⟨hfirst, before, after, rfl, hbefore, hafter⟩)
    · exact ⟨[], rest, rfl, fun _ hother => absurd hother List.not_mem_nil, hafter⟩
    · refine ⟨first :: before, after, rfl, fun other hother => ?_, hafter⟩
      rcases List.mem_cons.mp hother with rfl | hother
      · exact hfirst
      · exact hbefore other hother

/-- Of two quotes at the head of the list the one received earlier plays no part. -/
theorem receivedLast_cons_cons {kept first second : RealTimeQuote}
    {rest : List RealTimeQuote} :
    ReceivedLast kept (first :: second :: rest) ↔
      ReceivedLast kept
        ((if first.timestampReceived ≤ second.timestampReceived then second else first) ::
          rest) := by
  rw [receivedLast_cons_iff, receivedLast_cons_iff]
  split
  · rename_i hle
    rw [receivedLast_cons_iff]
    constructor
    · rintro (⟨rfl, hlater⟩ | ⟨_, hrest⟩)
      · exact absurd (hlater second List.mem_cons_self) (not_lt.mpr hle)
      · exact hrest
    · rintro (⟨rfl, hlater⟩ | ⟨hsecond, hrest⟩)
      · exact Or.inr ⟨hle, Or.inl ⟨rfl, hlater⟩⟩
      · exact Or.inr ⟨hle.trans hsecond, Or.inr ⟨hsecond, hrest⟩⟩
  · rename_i hlt
    rw [not_le] at hlt
    rw [receivedLast_cons_iff]
    constructor
    · rintro (⟨rfl, hlater⟩ | ⟨hfirst, ⟨rfl, hlater⟩ | ⟨_, hrest⟩⟩)
      · exact Or.inl ⟨rfl, fun other hother => hlater other (List.mem_cons_of_mem _ hother)⟩
      · exact absurd hlt (not_lt.mpr hfirst)
      · exact Or.inr ⟨hfirst, hrest⟩
    · rintro (⟨rfl, hlater⟩ | ⟨hfirst, hrest⟩)
      · refine Or.inl ⟨rfl, fun other hother => ?_⟩
        rcases List.mem_cons.mp hother with rfl | hother
        · exact hlt
        · exact hlater other hother
      · exact Or.inr ⟨hfirst, Or.inr ⟨hlt.le.trans hfirst, hrest⟩⟩

theorem ReceivedLast.le {kept : RealTimeQuote} {candidates : List RealTimeQuote}
    (h : ReceivedLast kept candidates) :
    ∀ other ∈ candidates, other.timestampReceived ≤ kept.timestampReceived := by
  obtain ⟨before, after, rfl, hbefore, hafter⟩ := h
  intro other hother
  rcases List.mem_append.mp hother with hother | hother
  · exact hbefore other hother
  · rcases List.mem_cons.mp hother with rfl | hother
    · exact le_rfl
    · exact (hafter other hother).le

theorem exists_receivedLast :
    ∀ {candidates : List RealTimeQuote}, candidates ≠ [] → ∃ kept, ReceivedLast kept candidates
  | [first], _ => ⟨first, receivedLast_cons_iff.mpr (Or.inl ⟨rfl, by simp⟩)⟩
  | first :: second :: rest, _ => by
      have hne : second :: rest ≠ [] := by simp
      obtain ⟨kept, hkept⟩ := exists_receivedLast hne
      by_cases hle : first.timestampReceived ≤ kept.timestampReceived
      · exact ⟨kept, receivedLast_cons_iff.mpr (Or.inr ⟨hle, hkept⟩)⟩
      · refine ⟨first, receivedLast_cons_iff.mpr (Or.inl ⟨rfl, fun other hother => ?_⟩)⟩
        exact (hkept.le other hother).trans_lt (not_le.mp hle)

/-- What the store has of a symbol, followed by the quotes of the batch for it. -/
def candidates (stored : Option RealTimeQuote) (quotes : List RealTimeQuote) (symbol : Symbol) :
    List RealTimeQuote :=
  stored.toList ++ quotes.filter (·.symbol = symbol)

theorem lookup_putQuote_self (all : AList fun _ : Symbol => RealTimeQuote)
    (quote : RealTimeQuote) :
    (RealTimeStore.putQuote all quote).lookup quote.symbol =
      some (match all.lookup quote.symbol with
        | some previous =>
            if previous.timestampReceived ≤ quote.timestampReceived then quote else previous
        | none => quote) := by
  unfold RealTimeStore.putQuote
  cases hstored : all.lookup quote.symbol with
  | none => exact AList.lookup_insert all
  | some previous =>
      simp only
      split
      · exact AList.lookup_insert all
      · exact hstored

theorem lookup_putQuote_of_ne (all : AList fun _ : Symbol => RealTimeQuote)
    {quote : RealTimeQuote} {symbol : Symbol} (hne : quote.symbol ≠ symbol) :
    (RealTimeStore.putQuote all quote).lookup symbol = all.lookup symbol := by
  unfold RealTimeStore.putQuote
  split
  · split
    · exact AList.lookup_insert_ne (Ne.symm hne)
    · rfl
  · exact AList.lookup_insert_ne (Ne.symm hne)

theorem lookup_putQuotes_iff {kept : RealTimeQuote} {symbol : Symbol} :
    ∀ (quotes : List RealTimeQuote) (all : AList fun _ : Symbol => RealTimeQuote),
      (quotes.foldl RealTimeStore.putQuote all).lookup symbol = some kept ↔
        ReceivedLast kept (candidates (all.lookup symbol) quotes symbol)
  | [], all => by
      cases hstored : all.lookup symbol with
      | none => simp [candidates, ReceivedLast, hstored]
      | some stored =>
          simp only [List.foldl_nil, hstored, candidates, Option.toList, List.filter_nil,
            List.append_nil]
          rw [receivedLast_cons_iff]
          simp [ReceivedLast, eq_comm]
  | quote :: rest, all => by
      rw [List.foldl_cons, lookup_putQuotes_iff rest]
      by_cases hsymbol : quote.symbol = symbol
      · subst hsymbol
        rw [lookup_putQuote_self]
        cases all.lookup quote.symbol with
        | none => simp [candidates]
        | some stored => simp [candidates, receivedLast_cons_cons]
      · rw [lookup_putQuote_of_ne all hsymbol]
        simp [candidates, hsymbol]

/-- A new generation holds a quote of each of its symbols and nothing else. -/
theorem lookup_replaced (quotes : List RealTimeQuote) (symbol : Symbol) :
    (∀ kept, (quotes.foldl (fun (all : AList fun _ : Symbol => RealTimeQuote) quote =>
        all.insert quote.symbol quote) ∅).lookup symbol = some kept →
          kept ∈ quotes ∧ kept.symbol = symbol) ∧
      ((∃ quote ∈ quotes, quote.symbol = symbol) →
        ((quotes.foldl (fun (all : AList fun _ : Symbol => RealTimeQuote) quote =>
          all.insert quote.symbol quote) ∅).lookup symbol).isSome) := by
  induction quotes using List.reverseRecOn with
  | nil => simp
  | append_singleton rest last ih =>
      simp only [List.foldl_append, List.foldl_cons, List.foldl_nil]
      by_cases hsymbol : last.symbol = symbol
      · subst hsymbol
        rw [AList.lookup_insert]
        simp
      · rw [AList.lookup_insert_ne (Ne.symm hsymbol)]
        refine ⟨fun kept hkept => ?_, fun hexists => ?_⟩
        · obtain ⟨hmem, hkeptSymbol⟩ := ih.1 kept hkept
          exact ⟨List.mem_append_left _ hmem, hkeptSymbol⟩
        · apply ih.2
          obtain ⟨quote, hmem, hquote⟩ := hexists
          rcases List.mem_append.mp hmem with hmem | hmem
          · exact ⟨quote, hmem, hquote⟩
          · rw [List.mem_singleton.mp hmem] at hquote
            exact absurd hquote hsymbol

theorem qualityVerdict_usable_iff (checked : List RealTimeQuote) (missing others : List Symbol) :
    ((qualityVerdict checked missing others).1 = .good ∨
      (qualityVerdict checked missing others).1 = .degraded) ↔ freshQuotes checked ≠ [] := by
  unfold qualityVerdict
  split
  · rename_i hempty
    simp [hempty, freshQuotes]
  · split
    · rename_i hstale
      simp [hstale]
    · rename_i hfresh
      split <;> simp [hfresh]

namespace SchedulerSettings

variable (c : SchedulerSettings)

/-- A report can be made: the limit is positive and every expected symbol is valid. -/
def Reports (w : SchedulerWorld) : Prop :=
  0 < c.staleAfterSeconds ∧ (w.expectedSymbols.mapM normalizeSymbol).isSome

/-- What a check of a batch changes and reports. -/
structure Checked (quotes : List RealTimeQuote) (now : Timestamp) (w after : SchedulerWorld)
    (report : QuoteQualityReport) : Prop where
  tracker : after.timestampTracker = (observeQuotes now w.timestampTracker quotes).1
  store : after.store = w.store
  pending : after.pendingFullSnapshot = w.pendingFullSnapshot
  priority : after.prioritySymbols = w.prioritySymbols
  expected : after.expectedSymbols = w.expectedSymbols
  fresh : freshQuotes report.quotes =
    usableQuotes c.staleAfterSeconds now w.timestampTracker quotes
  usable : report.isUsable = true ↔
    usableQuotes c.staleAfterSeconds now w.timestampTracker quotes ≠ []

theorem checkQuotes_cases (quotes : List RealTimeQuote) (now : Timestamp) (w : SchedulerWorld) :
    (c.Reports w ∧ ∃ after report quarantined,
        c.checkQuotes quotes now w = (after, .ok (report, quarantined)) ∧
          c.Checked quotes now w after report) ∨
      (¬ c.Reports w ∧ ∃ after name, c.checkQuotes quotes now w = (after, .error name)) := by
  unfold checkQuotes assessQuoteQuality
  by_cases hlimit : c.staleAfterSeconds ≤ 0
  · right
    refine ⟨fun hreports => absurd hreports.1 (not_lt.mpr hlimit), ?_⟩
    simp only [if_pos hlimit]
    exact ⟨_, _, rfl⟩
  · simp only [if_neg hlimit]
    cases hexpected : w.expectedSymbols.mapM normalizeSymbol with
    | none =>
        right
        refine ⟨fun hreports => ?_, _, _, rfl⟩
        have hsome := hreports.2
        rw [hexpected] at hsome
        cases hsome
    | some normalized =>
        left
        refine ⟨⟨not_le.mp hlimit, by rw [hexpected]; rfl⟩, _, _, _, rfl, ?_⟩
        constructor
        · rfl
        · rfl
        · rfl
        · rfl
        · rfl
        · rfl
        · simp only [decide_eq_true_eq]
          exact qualityVerdict_usable_iff _ _ _

theorem reports_congr {w after : SchedulerWorld}
    (hexpected : after.expectedSymbols = w.expectedSymbols) (h : c.Reports w) :
    c.Reports after := by
  unfold Reports
  rw [hexpected]
  exact h

/-- A usable priority report: the quotes it is about are stored and observed. -/
structure PriorityStored (input : TickInput) (w after : SchedulerWorld)
    (quotes : List RealTimeQuote) (report : QuoteQualityReport) : Prop where
  provided : input.priorityQuotes = .ok quotes
  asked : after.prioritySymbols ≠ []
  reports : c.Reports after
  tracker : after.timestampTracker = (observeQuotes input.now w.timestampTracker quotes).1
  pending : after.pendingFullSnapshot = w.pendingFullSnapshot
  fresh : freshQuotes report.quotes =
    usableQuotes c.staleAfterSeconds input.now w.timestampTracker quotes
  store : after.store = w.store.putQuotes
    (usableQuotes c.staleAfterSeconds input.now w.timestampTracker quotes)

theorem priorityPass_usable {input : TickInput} {w : SchedulerWorld}
    {report : QuoteQualityReport} (h : (c.priorityPass input w).2.usable = some report) :
    ∃ quotes, c.PriorityStored input w (c.priorityPass input w).1 quotes report := by
  unfold priorityPass at h ⊢
  split at h
  · cases h
  · rename_i hasked
    rw [if_neg hasked]
    cases hprovided : input.priorityQuotes with
    | error name =>
        rw [hprovided] at h
        cases h
    | ok quotes =>
        rw [hprovided] at h
        simp only at h ⊢
        rcases c.checkQuotes_cases quotes input.now w with
          ⟨hreports, after, made, quarantined, hcheck, hchecked⟩ | ⟨_, after, name, hcheck⟩
        · rw [hcheck] at h ⊢
          simp only at h ⊢
          by_cases husable : made.isUsable = true
          · rw [if_pos husable] at h ⊢
            have hmade : made = report ∧ report.isUsable = true := by
              simpa [PriorityOutcome.usable] using h
            obtain ⟨rfl, _⟩ := hmade
            refine ⟨quotes, hprovided, ?_, ?_, hchecked.tracker, hchecked.pending,
              hchecked.fresh, ?_⟩
            · change after.prioritySymbols ≠ []
              rw [hchecked.priority]
              exact hasked
            · exact c.reports_congr hchecked.expected hreports
            · change after.store.putQuotes _ = _
              rw [hchecked.store, hchecked.fresh]
          · rw [if_neg husable] at h
            have hmade : made = report ∧ report.isUsable = true := by
              simpa [PriorityOutcome.usable] using h
            exact absurd (hmade.1 ▸ hmade.2) husable
        · rw [hcheck] at h
          cases h

/-- A snapshot replaces the store if anything of it is usable, whatever the minute bars
do then. -/
theorem processFullSnapshot_quotes {quotes : List RealTimeQuote}
    {minuteBars : Provided (List MinuteBar)} {input : TickInput} {priority : PriorityOutcome}
    {w : SchedulerWorld} (hreports : c.Reports w) :
    (c.processFullSnapshot quotes minuteBars input priority w).1.store.quotes =
      if usableQuotes c.staleAfterSeconds input.now w.timestampTracker quotes = [] then
        w.store.quotes
      else
        (w.store.replaceQuoteSnapshot
          (usableQuotes c.staleAfterSeconds input.now w.timestampTracker quotes)).quotes := by
  unfold processFullSnapshot
  rcases c.checkQuotes_cases quotes input.now w with
    ⟨_, after, report, quarantined, hcheck, hchecked⟩ | ⟨hnot, _⟩
  · rw [hcheck]
    simp only
    by_cases husable : report.isUsable = true
    · rw [if_pos husable, if_neg (hchecked.usable.mp husable), hchecked.fresh]
      split <;> rfl
    · have hempty : usableQuotes c.staleAfterSeconds input.now w.timestampTracker quotes = [] := by
        by_contra hne
        exact husable (hchecked.usable.mpr hne)
      rw [if_neg husable, if_pos hempty]
      split <;> exact congrArg RealTimeStore.quotes hchecked.store
  · exact absurd hreports hnot

/-- With a usable priority report the tick does not fetch a snapshot itself. -/
theorem continueTick_store {input : TickInput} {priority : PriorityOutcome}
    {w : SchedulerWorld} {report : QuoteQualityReport} (husable : priority.usable = some report)
    (hasked : w.prioritySymbols ≠ []) :
    (c.continueTick input priority w).1.store = w.store := by
  unfold continueTick
  rw [husable]
  split
  · rfl
  · simp only [if_neg hasked]
    unfold startAsyncFullMarketRefresh
    split <;> rfl

theorem endLate_frame (input : TickInput) (w : SchedulerWorld) :
    (endLate input w).store = w.store ∧ (endLate input w).timestampTracker = w.timestampTracker ∧
      (endLate input w).prioritySymbols = w.prioritySymbols ∧
      (endLate input w).expectedSymbols = w.expectedSymbols := by
  unfold endLate deliver
  split
  · split
    · split <;> exact ⟨rfl, rfl, rfl, rfl⟩
    · exact ⟨rfl, rfl, rfl, rfl⟩
  · exact ⟨rfl, rfl, rfl, rfl⟩

theorem openRun_quotes {input : TickInput} {w : SchedulerWorld} {quotes : List RealTimeQuote}
    {report : QuoteQualityReport} (husable : (c.priorityPass input w).2.usable = some report)
    (hstored : c.PriorityStored input w (c.priorityPass input w).1 quotes report) :
    (c.openRun input w).1.store.quotes =
      match w.pendingFullSnapshot with
      | some snapshot =>
          let usable := usableQuotes c.staleAfterSeconds input.now
            (observeQuotes input.now w.timestampTracker quotes).1 snapshot
          if usable = [] then (c.priorityPass input w).1.store.quotes
          else (w.store.replaceQuoteSnapshot usable).quotes
      | none => (c.priorityPass input w).1.store.quotes := by
  unfold openRun
  generalize hpass : c.priorityPass input w = pass at husable hstored ⊢
  obtain ⟨stored, priority⟩ := pass
  simp only at husable hstored ⊢
  rw [hstored.pending]
  obtain ⟨hstore, htracker, hasked, hexpected⟩ :=
    endLate_frame input (takePendingFullResult stored)
  have hreports : c.Reports (endLate input (takePendingFullResult stored)) :=
    c.reports_congr hexpected hstored.reports
  have hcontinue : ∀ w : SchedulerWorld, w.prioritySymbols = stored.prioritySymbols →
      (c.continueTick input priority w).1.store = w.store := by
    intro w hsame
    apply c.continueTick_store husable
    rw [hsame]
    exact hstored.asked
  cases hpending : w.pendingFullSnapshot with
  | some snapshot =>
      simp only
      have hprocessed :
          (c.processFullSnapshot snapshot input.minuteBars input priority _).1.store.quotes = _ :=
        c.processFullSnapshot_quotes hreports
      rw [hstore, htracker] at hprocessed
      have htracked : (takePendingFullResult stored).timestampTracker =
          (observeQuotes input.now w.timestampTracker quotes).1 := hstored.tracker
      rw [htracked] at hprocessed
      -- The tick ends here even if the minute bars could not be had.
      generalize c.processFullSnapshot snapshot input.minuteBars input priority _ = processed
        at hprocessed ⊢
      obtain ⟨after, result⟩ := processed
      cases result with
      | ok tick => exact hprocessed
      | error name =>
          simp only [husable]
          exact hprocessed
  | none =>
      simp only
      split
      · exact congrArg RealTimeStore.quotes hstore
      · rw [hcontinue _ hasked, hstore]
        rfl

def prioritized (w : SchedulerWorld) : List Symbol :=
  w.prioritySymbols.filterMap normalizeSymbol

def KeepsPriority (w : SchedulerWorld) : SchedulerInput → Prop
  | .tick input => c.resolve input.now = some .isOpen →
      ∀ report, (c.priorityPass input w).2.usable = some report →
        ∀ quote ∈ freshQuotes report.quotes, quote.symbol ∈ prioritized w →
          ∃ kept, (c.runOnce input w).1.store.quotes.lookup quote.symbol = some kept ∧
            quote.timestampExchange ≤ kept.timestampExchange
  | _ => True

/-- The snapshot has a quote of the symbol that is neither flagged nor too old nor from
the future, and no older than any timestamp of the symbol seen before it: in earlier
ticks, in the priority quotes of this one or earlier in the snapshot. -/
def Brings (w : SchedulerWorld) (now : Timestamp) (priorityQuotes snapshot : List RealTimeQuote)
    (symbol : Symbol) : Prop :=
  ∃ earlier quote later, snapshot = earlier ++ quote :: later ∧ quote.symbol = symbol ∧
    Passes c.staleAfterSeconds now w.timestampTracker (priorityQuotes ++ earlier) quote

/-- The worker has delivered a snapshot that brings anything at all. -/
def Arrives (w : SchedulerWorld) (now : Timestamp) (priorityQuotes : List RealTimeQuote) : Prop :=
  ∃ snapshot ∈ w.pendingFullSnapshot, ∃ symbol, c.Brings w now priorityQuotes snapshot symbol

/-- Where the snapshot the worker has delivered brings anything, it brings every priority
symbol with a fresh quote; otherwise, of what is stored and what is fresh, the quote of
such a symbol received last is the latest. -/
def SparesPriority (w : SchedulerWorld) : SchedulerInput → Prop
  | .tick input => c.resolve input.now = some .isOpen →
      ∀ report, (c.priorityPass input w).2.usable = some report →
        ∀ priorityQuotes, input.priorityQuotes = .ok priorityQuotes →
          ∀ quote ∈ freshQuotes report.quotes, quote.symbol ∈ prioritized w →
            (c.Arrives w input.now priorityQuotes → ∃ snapshot ∈ w.pendingFullSnapshot,
              c.Brings w input.now priorityQuotes snapshot quote.symbol) ∧
            (¬ c.Arrives w input.now priorityQuotes → ∀ kept,
              ReceivedLast kept (candidates (w.store.quotes.lookup quote.symbol)
                (freshQuotes report.quotes) quote.symbol) →
                  quote.timestampExchange ≤ kept.timestampExchange)
  | _ => True

/-- What the snapshot brings is what both checks leave of it. -/
theorem brings_iff {w : SchedulerWorld} {now : Timestamp}
    {priorityQuotes snapshot : List RealTimeQuote} {symbol : Symbol} :
    c.Brings w now priorityQuotes snapshot symbol ↔
      ∃ quote ∈ usableQuotes c.staleAfterSeconds now
        (observeQuotes now w.timestampTracker priorityQuotes).1 snapshot,
          quote.symbol = symbol := by
  have hpasses : ∀ {earlier quote},
      Passes c.staleAfterSeconds now w.timestampTracker (priorityQuotes ++ earlier) quote ↔
        Passes c.staleAfterSeconds now (observeQuotes now w.timestampTracker priorityQuotes).1
          earlier quote := by
    intro earlier quote
    constructor
    · intro h
      refine ⟨h.fresh, (seenUpTo_observeQuotes _ _ _ _ _).mpr ⟨h.seen, ?_⟩, ?_⟩
      · exact fun other hother => h.ordered other (List.mem_append_left _ hother)
      · exact fun other hother => h.ordered other (List.mem_append_right _ hother)
    · intro h
      obtain ⟨hseen, hpriority⟩ := (seenUpTo_observeQuotes _ _ _ _ _).mp h.seen
      refine ⟨h.fresh, hseen, fun other hother => ?_⟩
      rcases List.mem_append.mp hother with hother | hother
      · exact hpriority other hother
      · exact h.ordered other hother
  constructor
  · rintro ⟨earlier, quote, later, hsnapshot, hsymbol, h⟩
    refine ⟨quote, (mem_usableQuotes_iff _ _).mpr ⟨earlier, later, hsnapshot, ?_⟩, hsymbol⟩
    exact hpasses.mp h
  · rintro ⟨quote, hquote, hsymbol⟩
    obtain ⟨earlier, later, hsnapshot, h⟩ := (mem_usableQuotes_iff _ _).mp hquote
    exact ⟨earlier, quote, later, hsnapshot, hsymbol, hpasses.mpr h⟩

/-- A replacing snapshot holds a quote no older than a fresh priority quote exactly if it
brings the symbol at all. -/
theorem lookup_replaced_iff {w : SchedulerWorld} {now : Timestamp}
    {priorityQuotes snapshot : List RealTimeQuote} {quote : RealTimeQuote}
    (hquote : quote ∈ usableQuotes c.staleAfterSeconds now w.timestampTracker priorityQuotes)
    (store : RealTimeStore) :
    (∃ kept, (store.replaceQuoteSnapshot (usableQuotes c.staleAfterSeconds now
        (observeQuotes now w.timestampTracker priorityQuotes).1 snapshot)).quotes.lookup
          quote.symbol = some kept ∧ quote.timestampExchange ≤ kept.timestampExchange) ↔
      c.Brings w now priorityQuotes snapshot quote.symbol := by
  rw [brings_iff]
  obtain ⟨hheld, hhas⟩ := lookup_replaced (usableQuotes c.staleAfterSeconds now
    (observeQuotes now w.timestampTracker priorityQuotes).1 snapshot) quote.symbol
  constructor
  · rintro ⟨kept, hkept, _⟩
    exact ⟨kept, hheld kept hkept⟩
  · intro hbrought
    obtain ⟨kept, hkept⟩ := Option.isSome_iff_exists.mp (hhas hbrought)
    obtain ⟨hmem, hsymbol⟩ := hheld kept hkept
    refine ⟨kept, hkept, ?_⟩
    obtain ⟨earlier, later, _, hpasses⟩ := (mem_usableQuotes_iff _ _).mp hmem
    have hseen := hpasses.seen
    rw [hsymbol] at hseen
    exact le_of_seenUpTo_after hquote hseen

/-- Without a replacement the store holds the quote that was received last. -/
theorem lookup_put_iff {fresh : List RealTimeQuote}
    (all : AList fun _ : Symbol => RealTimeQuote) {quote : RealTimeQuote}
    (hquote : quote ∈ fresh) :
    (∃ kept, (fresh.foldl RealTimeStore.putQuote all).lookup quote.symbol = some kept ∧
        quote.timestampExchange ≤ kept.timestampExchange) ↔
      ∀ kept, ReceivedLast kept (candidates (all.lookup quote.symbol) fresh quote.symbol) →
        quote.timestampExchange ≤ kept.timestampExchange := by
  constructor
  · rintro ⟨kept, hkept, hle⟩ other hother
    have hsame := (lookup_putQuotes_iff fresh all).mpr hother
    rw [hkept] at hsame
    cases hsame
    exact hle
  · intro hlast
    have hmem : quote ∈ candidates (all.lookup quote.symbol) fresh quote.symbol := by
      apply List.mem_append_right
      exact List.mem_filter.mpr ⟨hquote, decide_eq_true rfl⟩
    obtain ⟨kept, hkept⟩ := exists_receivedLast (List.ne_nil_of_mem hmem)
    exact ⟨kept, (lookup_putQuotes_iff fresh all).mpr hkept, hlast kept hkept⟩

theorem arrives_iff {w : SchedulerWorld} {now : Timestamp}
    {priorityQuotes snapshot : List RealTimeQuote}
    (hpending : w.pendingFullSnapshot = some snapshot) :
    c.Arrives w now priorityQuotes ↔
      usableQuotes c.staleAfterSeconds now
        (observeQuotes now w.timestampTracker priorityQuotes).1 snapshot ≠ [] := by
  unfold Arrives
  rw [hpending]
  simp only [Option.mem_def, Option.some.injEq, exists_eq_left', brings_iff]
  constructor
  · rintro ⟨_, quote, hquote, _⟩
    exact List.ne_nil_of_mem hquote
  · intro hne
    obtain ⟨quote, hquote⟩ := List.exists_mem_of_ne_nil _ hne
    exact ⟨quote.symbol, quote, hquote, rfl⟩

theorem tick_keepsPriority_iff (w : SchedulerWorld) (input : TickInput) :
    c.KeepsPriority w (.tick input) ↔ c.SparesPriority w (.tick input) := by
  unfold KeepsPriority SparesPriority
  refine forall_congr' fun hopen => forall_congr' fun report => forall_congr' fun husable => ?_
  obtain ⟨priorityQuotes, hstored⟩ := c.priorityPass_usable husable
  have hquotes := c.openRun_quotes husable hstored
  have hrun : (c.runOnce input w).1 = (c.openRun input w).1 := by
    unfold runOnce
    rw [hopen]
  rw [hrun]
  have hprovided : ∀ {property : List RealTimeQuote → Prop},
      (∀ quotes, input.priorityQuotes = .ok quotes → property quotes) ↔
        property priorityQuotes := by
    intro property
    rw [hstored.provided]
    simp
  rw [hprovided]
  refine forall_congr' fun quote => forall_congr' fun hfresh => forall_congr' fun _ => ?_
  have husableQuote : quote ∈ usableQuotes c.staleAfterSeconds input.now w.timestampTracker
      priorityQuotes := hstored.fresh ▸ hfresh
  have hput := lookup_put_iff w.store.quotes husableQuote
  have hstore : (c.priorityPass input w).1.store.quotes =
      (usableQuotes c.staleAfterSeconds input.now w.timestampTracker priorityQuotes).foldl
        RealTimeStore.putQuote w.store.quotes := by
    rw [hstored.store]
    rfl
  rw [hquotes, hstore, hstored.fresh]
  cases hpending : w.pendingFullSnapshot with
  | none =>
      have hnot : ¬ c.Arrives w input.now priorityQuotes := by
        rintro ⟨snapshot, hsnapshot, _⟩
        rw [hpending] at hsnapshot
        cases hsnapshot
      simp only
      rw [hput]
      exact ⟨fun h => ⟨fun harrives => absurd harrives hnot, fun _ => h⟩, fun h => h.2 hnot⟩
  | some snapshot =>
      simp only
      rw [c.arrives_iff hpending]
      split
      · rename_i hempty
        rw [hput]
        exact ⟨fun h => ⟨fun harrives => absurd hempty harrives, fun _ => h⟩,
          fun h => h.2 (not_not.mpr hempty)⟩
      · rename_i harrives
        rw [c.lookup_replaced_iff husableQuote]
        constructor
        · intro hbrings
          exact ⟨fun _ => ⟨snapshot, rfl, hbrings⟩, fun hnot => absurd harrives hnot⟩
        · rintro ⟨hbrings, _⟩
          obtain ⟨_, ⟨⟩, hbrought⟩ := hbrings harrives
          exact hbrought

/-- In a run of ticks, deliveries and changes of the symbols the priority quotes are kept
exactly if every tick spares them. -/
theorem keepsPriority_iff (w : SchedulerWorld) (inputs : List SchedulerInput) :
    Runs.StepsMeet c.step c.KeepsPriority w inputs ↔
      Runs.StepsMeet c.step c.SparesPriority w inputs := by
  refine Runs.stepsMeet_congr c.step (fun _ => True) (fun _ _ _ _ => trivial) ?_ w inputs trivial
  intro w input _
  cases input with
  | tick input => exact c.tick_keepsPriority_iff w input
  | _ => exact Iff.rfl

end SchedulerSettings

instance neZero10 : NeZero 10 := ⟨by decide⟩

def sampleStock (last : Fin 10) : Symbol where
  text := "00000".toList ++ [Char.ofNat (48 + last)]
  sixDigits := by revert last; decide +kernel

/-- A quote of the given second of the day, received at once. -/
def sampleQuote (last : Fin 10) (second : ℕ) : RealTimeQuote where
  symbol := sampleStock last
  timestampExchange := second * 1000000
  timestampReceived := second * 1000000
  qualityFlag := .good
  isStale := false

/-- Timestamps are counted from the midnight of a trading day. -/
def sampleScheduler : SchedulerSettings where
  hours := {}
  isTradingDay := fun _ => some true
  localDate := fun _ => .of 2026 8 10
  localTime := fun now => now.toNat % 86400000000
  symbols := []
  fullMarketIntervalSeconds := 60
  staleAfterSeconds := 60
  interval_ge := le_rfl

def sampleWorld : SchedulerWorld where
  prioritySymbols := ["000001".toList]
  expectedSymbols := ["000001".toList]
  store := ⟨∅, ∅⟩
  timestampTracker := ∅
  circuitOpen := false
  lastFullMarketAt := some 0
  pendingFullSnapshot := none
  pendingFullError := none
  fullMarketThread := .idle

def sampleTick (second : ℕ) : TickInput where
  now := second * 1000000
  priorityQuotes := .ok [sampleQuote 1 second]
  monotonic := second - 35940
  marketSnapshot := .error "ConnectionError"
  minuteBars := .ok []
  fetchedBars := .ok []
  late := none

/-- The worker starts at ten o'clock and has delivered when the next tick comes. -/
def lateSnapshot : List SchedulerInput :=
  [.tick (sampleTick 36000), .workerDelivers (.ok [sampleQuote 1 36000, sampleQuote 2 36000]),
    .workerEnds]

theorem lateSnapshot_drops_priority :
    ¬ Runs.StepsMeet sampleScheduler.step sampleScheduler.KeepsPriority sampleWorld
      (lateSnapshot ++ [.tick (sampleTick 36015)]) := by
  rintro ⟨_, _, _, hkeeps, _⟩
  have hreport : (sampleScheduler.priorityPass (sampleTick 36015)
      (lateSnapshot.foldl sampleScheduler.step sampleWorld)).2.usable = some
        ⟨.good, [sampleQuote 1 36015], [], [], true, true,
          "all received quotes passed freshness checks"⟩ := by
    decide +kernel
  have hlost : (sampleScheduler.runOnce (sampleTick 36015)
      (lateSnapshot.foldl sampleScheduler.step sampleWorld)).1.store.quotes.lookup
        (sampleStock 1) = none := by
    decide +kernel
  obtain ⟨kept, hkept, _⟩ := hkeeps (by decide +kernel) _ hreport (sampleQuote 1 36015)
    (by decide +kernel) (by decide +kernel)
  exact absurd (hlost.symm.trans hkept) (by simp)

end QuantWorkbench.Runtime
