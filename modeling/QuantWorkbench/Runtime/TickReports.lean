import QuantWorkbench.Runtime.PriorityQuotes

/-!
What a tick says it has changed. A full snapshot replaces the stored quotes before the
minute bars are asked for; where these cannot be had, the replaced quotes stay, and the
tick is reported as one that stored the priority quotes only, or nothing at all.
-/

namespace QuantWorkbench.Runtime

open QuantWorkbench.Lib QuantWorkbench.Data

/-- The tick says that at most the priority quotes were stored. -/
def SchedulerTick.TellsPriority (tick : SchedulerTick) : Prop :=
  tick.priorityOnly = true ∨ tick.error = "FULL_MARKET_UNAVAILABLE" ∨
    tick.error = "FULL_MARKET_DATA_STALE"

/-- Outside the symbols every stored quote is the one before, and so is every provisional
bar. -/
structure ChangesOnly (symbols : Symbol → Prop) (before after : RealTimeStore) : Prop where
  quotes : ∀ symbol, ¬ symbols symbol →
    after.quotes.lookup symbol = before.quotes.lookup symbol
  provisional : after.provisional = before.provisional

/-- The last quote of the symbol, which is the one a snapshot leaves in the store. -/
def lastQuote (quotes : List RealTimeQuote) (symbol : Symbol) : Option RealTimeQuote :=
  (quotes.filter (·.symbol = symbol)).getLast?

theorem lookup_replaceQuoteSnapshot (store : RealTimeStore) (quotes : List RealTimeQuote)
    (symbol : Symbol) :
    (store.replaceQuoteSnapshot quotes).quotes.lookup symbol = lastQuote quotes symbol := by
  unfold RealTimeStore.replaceQuoteSnapshot lastQuote
  simp only
  induction quotes using List.reverseRecOn with
  | nil => rfl
  | append_singleton earlier quote ih =>
      rw [List.foldl_append, List.filter_append]
      simp only [List.foldl_cons, List.foldl_nil]
      by_cases h : quote.symbol = symbol
      · subst h
        simp [AList.lookup_insert]
      · have hne : symbol ≠ quote.symbol := Ne.symm h
        simp [AList.lookup_insert_ne hne, h, ih]

/-- Storing quotes one by one touches their own symbols only. -/
theorem lookup_putQuotes_other {quotes : List RealTimeQuote} {symbol : Symbol}
    (h : ∀ quote ∈ quotes, quote.symbol ≠ symbol) (store : RealTimeStore) :
    (store.putQuotes quotes).quotes.lookup symbol = store.quotes.lookup symbol := by
  unfold RealTimeStore.putQuotes
  simp only
  generalize store.quotes = all
  induction quotes generalizing all with
  | nil => rfl
  | cons quote rest ih =>
      rw [List.foldl_cons, ih (fun other hother => h other (List.mem_cons_of_mem _ hother))]
      have hne : symbol ≠ quote.symbol := Ne.symm (h quote List.mem_cons_self)
      unfold RealTimeStore.putQuote
      split
      · split
        · exact AList.lookup_insert_ne hne
        · rfl
      · exact AList.lookup_insert_ne hne

namespace SchedulerSettings

variable (c : SchedulerSettings)

instance (w : SchedulerWorld) : Decidable (c.Reports w) :=
  inferInstanceAs (Decidable (0 < c.staleAfterSeconds ∧ _))

/-- The priority quotes of the tick: those the provider gave, if it was asked. -/
def givenQuotes (input : TickInput) (w : SchedulerWorld) : List RealTimeQuote :=
  if w.prioritySymbols = [] then []
  else
    match input.priorityQuotes with
    | .ok quotes => quotes
    | .error _ => []

def usableGiven (input : TickInput) (w : SchedulerWorld) : List RealTimeQuote :=
  usableQuotes c.staleAfterSeconds input.now w.timestampTracker (givenQuotes input w)

def PriorityUsable (input : TickInput) (w : SchedulerWorld) : Prop :=
  c.Reports w ∧ c.usableGiven input w ≠ []

instance (input : TickInput) (w : SchedulerWorld) : Decidable (c.PriorityUsable input w) :=
  inferInstanceAs (Decidable (c.Reports w ∧ _))

/-- The tracker once the priority quotes have been observed. -/
def trackerAfter (input : TickInput) (w : SchedulerWorld) : TimestampTracker :=
  (observeQuotes input.now w.timestampTracker (givenQuotes input w)).1

def TellsChanges (input : TickInput) (w : SchedulerWorld) : Prop :=
  ((c.runOnce input w).2.updated = false →
    ChangesOnly (fun _ => False) w.store (c.runOnce input w).1.store) ∧
  ((c.runOnce input w).2.updated = true → (c.runOnce input w).2.TellsPriority →
    ChangesOnly (fun symbol => ∃ quote ∈ givenQuotes input w, quote.symbol = symbol) w.store
        (c.runOnce input w).1.store ∧
      (c.runOnce input w).2.quoteCount = (c.usableGiven input w).length)

/-- The minute bars are asked for and the provider raises. -/
def BarsRaise (minuteBars : Provided (List MinuteBar)) : Prop :=
  c.symbols ≠ [] ∧ minuteBars.isOk = false

instance (minuteBars : Provided (List MinuteBar)) : Decidable (c.BarsRaise minuteBars) :=
  inferInstanceAs (Decidable (_ ∧ _))

/-- The quotes a tick without usable priority quotes leaves unannounced: those of the
snapshot it fetches itself, if the minute bars raise after it, and otherwise those that
were left before, unless a fetched snapshot is complete. -/
def leftByContinue (input : TickInput) (w : SchedulerWorld) (tracker : TimestampTracker)
    (left : Option (List RealTimeQuote)) : Option (List RealTimeQuote) :=
  if w.prioritySymbols ≠ [] ∧ c.fullMarketDue input.monotonic w = false then left
  else
    match input.marketSnapshot with
    | .error _ => left
    | .ok snapshot =>
        let usable := usableQuotes c.staleAfterSeconds input.now tracker snapshot
        if ¬ c.Reports w ∨ usable = [] then left
        else if c.BarsRaise input.fetchedBars then some usable
        else none

/-- The quotes of a snapshot that a tick leaves in the store without saying so. -/
def leftUnannounced (input : TickInput) (w : SchedulerWorld) : Option (List RealTimeQuote) :=
  let tracker := trackerAfter input w
  match w.pendingFullSnapshot with
  | none => if c.PriorityUsable input w then none else c.leftByContinue input w tracker none
  | some snapshot =>
      let usable := usableQuotes c.staleAfterSeconds input.now tracker snapshot
      if c.Reports w ∧ usable ≠ [] ∧ c.BarsRaise input.minuteBars then
        if c.PriorityUsable input w then some usable
        else c.leftByContinue input w (observeQuotes input.now tracker snapshot).1 (some usable)
      else none

def LeavesNothing (input : TickInput) (w : SchedulerWorld) : Prop :=
  c.resolve input.now = some .isOpen →
    ∀ quotes ∈ c.leftUnannounced input w, ∀ symbol,
      ¬ (c.PriorityUsable input w ∧ ∃ quote ∈ givenQuotes input w, quote.symbol = symbol) →
        lastQuote quotes symbol = w.store.quotes.lookup symbol

theorem checkQuotes_world (quotes : List RealTimeQuote) (now : Timestamp) (w : SchedulerWorld) :
    ∃ circuit, (c.checkQuotes quotes now w).1 = { w with
      timestampTracker := (observeQuotes now w.timestampTracker quotes).1
      circuitOpen := circuit } := by
  unfold checkQuotes
  simp only
  split
  · exact ⟨_, rfl⟩
  · exact ⟨_, rfl⟩

/-- The world after quotes were observed and stored. -/
def Observed (w after : SchedulerWorld) (tracker : TimestampTracker) (store : RealTimeStore) :
    Prop :=
  ∃ circuit, after = { w with
    timestampTracker := tracker, circuitOpen := circuit, store := store }

theorem Observed.store_eq {w after : SchedulerWorld} {tracker : TimestampTracker}
    {store : RealTimeStore} (h : Observed w after tracker store) : after.store = store := by
  obtain ⟨circuit, rfl⟩ := h
  rfl

theorem usableGiven_nil {input : TickInput} {w : SchedulerWorld}
    (h : givenQuotes input w = []) : c.usableGiven input w = [] := by
  unfold usableGiven
  rw [h]
  rfl

theorem trackerAfter_nil {input : TickInput} {w : SchedulerWorld}
    (h : givenQuotes input w = []) : trackerAfter input w = w.timestampTracker := by
  unfold trackerAfter
  rw [h]
  rfl

/-- What the priority pass says of the priority quotes. -/
def PassedPriority (input : TickInput) (w : SchedulerWorld) (priority : PriorityOutcome) : Prop :=
  (c.PriorityUsable input w ∧ (∃ report, priority.usable = some report) ∧
      priority.count = (c.usableGiven input w).length) ∨
    (¬ c.PriorityUsable input w ∧ priority.usable = none)

/-- The store once the priority quotes have been dealt with. -/
def storedPriority (input : TickInput) (w : SchedulerWorld) : RealTimeStore :=
  if c.PriorityUsable input w then w.store.putQuotes (c.usableGiven input w) else w.store

theorem priorityPass_nothing {input : TickInput} {w : SchedulerWorld}
    (hgiven : givenQuotes input w = []) {priority : PriorityOutcome}
    (hnone : priority.usable = none) :
    c.PassedPriority input w priority ∧
      Observed w w (trackerAfter input w) (c.storedPriority input w) := by
  have hnot : ¬ c.PriorityUsable input w := fun husable => husable.2 (c.usableGiven_nil hgiven)
  refine ⟨Or.inr ⟨hnot, hnone⟩, w.circuitOpen, ?_⟩
  rw [trackerAfter_nil hgiven, storedPriority, if_neg hnot]

theorem priorityPass_passed (input : TickInput) (w : SchedulerWorld) :
    c.PassedPriority input w (c.priorityPass input w).2 ∧
      Observed w (c.priorityPass input w).1 (trackerAfter input w)
        (c.storedPriority input w) := by
  unfold priorityPass
  by_cases hasked : w.prioritySymbols = []
  · have hgiven : givenQuotes input w = [] := by simp [givenQuotes, hasked]
    rw [if_pos hasked]
    exact c.priorityPass_nothing hgiven rfl
  · rw [if_neg hasked]
    cases hprovided : input.priorityQuotes with
    | error name =>
        have hgiven : givenQuotes input w = [] := by simp [givenQuotes, hprovided]
        exact c.priorityPass_nothing hgiven rfl
    | ok quotes =>
        have hgiven : givenQuotes input w = quotes := by
          simp [givenQuotes, hasked, hprovided]
        have husableGiven : c.usableGiven input w =
            usableQuotes c.staleAfterSeconds input.now w.timestampTracker quotes := by
          unfold usableGiven
          rw [hgiven]
        have htracker : trackerAfter input w =
            (observeQuotes input.now w.timestampTracker quotes).1 := by
          unfold trackerAfter
          rw [hgiven]
        obtain ⟨circuit, hworld⟩ := c.checkQuotes_world quotes input.now w
        rw [htracker]
        simp only
        rcases c.checkQuotes_cases quotes input.now w with
          ⟨hreports, after, report, quarantined, hcheck, hchecked⟩ | ⟨hunread, after, name, hcheck⟩
        · rw [hcheck] at hworld ⊢
          simp only at hworld ⊢
          subst hworld
          have hfresh := hchecked.fresh
          have hsome := hchecked.usable
          rw [← husableGiven] at hfresh hsome
          by_cases husable : report.isUsable = true
          · have hboth : c.PriorityUsable input w := ⟨hreports, hsome.mp husable⟩
            rw [if_pos husable, hfresh, storedPriority, if_pos hboth]
            refine ⟨Or.inl ⟨hboth, ⟨report, ?_⟩, rfl⟩, circuit, rfl⟩
            simp [PriorityOutcome.usable, husable]
          · have hnot : ¬ c.PriorityUsable input w := fun h => husable (hsome.mpr h.2)
            rw [if_neg husable, storedPriority, if_neg hnot]
            refine ⟨Or.inr ⟨hnot, ?_⟩, circuit, rfl⟩
            simp [PriorityOutcome.usable, husable]
        · have hnot : ¬ c.PriorityUsable input w := fun h => hunread h.1
          rw [hcheck] at hworld ⊢
          rw [storedPriority, if_neg hnot]
          exact ⟨Or.inr ⟨hnot, rfl⟩, circuit, hworld⟩

/-- The tick stands for the priority quotes alone: it says updated exactly if they are
usable, with their number. -/
structure PriorityTick (priority : PriorityOutcome) (tick : SchedulerTick) : Prop where
  updated : tick.updated = priority.usable.isSome
  told : priority.usable.isSome = true →
    tick.quoteCount = priority.count ∧ tick.TellsPriority

/-- The tick of a snapshot that was stored together with its minute bars. -/
structure FullTick (tick : SchedulerTick) : Prop where
  updated : tick.updated = true
  full : ¬ tick.TellsPriority

theorem priorityTick_some {priority : PriorityOutcome} {report : QuoteQualityReport}
    (h : priority.usable = some report) (input : TickInput) {error : String}
    {priorityOnly : Bool} (htells :
      (priorityTick input report priority.count error priorityOnly).TellsPriority) :
    PriorityTick priority (priorityTick input report priority.count error priorityOnly) := by
  constructor
  · rw [h]
    rfl
  · intro _
    exact ⟨rfl, htells⟩

theorem priorityTick_none {priority : PriorityOutcome} (h : priority.usable = none)
    {tick : SchedulerTick} (hupdated : tick.updated = false) : PriorityTick priority tick := by
  constructor
  · rw [h, hupdated]
    rfl
  · rw [h]
    intro hsome
    cases hsome

/-- What becomes of a snapshot: no report can be made, nothing of it is usable, the minute
bars raise after it was stored, or it is stored with them. -/
theorem processFullSnapshot_cases (quotes : List RealTimeQuote)
    (minuteBars : Provided (List MinuteBar)) (input : TickInput) (priority : PriorityOutcome)
    (w : SchedulerWorld) :
    (¬ c.Reports w ∧ (∃ name, (c.processFullSnapshot quotes minuteBars input priority w).2 =
        .error name) ∧
      Observed w (c.processFullSnapshot quotes minuteBars input priority w).1
        (observeQuotes input.now w.timestampTracker quotes).1 w.store) ∨
    (c.Reports w ∧ usableQuotes c.staleAfterSeconds input.now w.timestampTracker quotes = [] ∧
      (∃ tick, (c.processFullSnapshot quotes minuteBars input priority w).2 = .ok tick ∧
        PriorityTick priority tick) ∧
      Observed w (c.processFullSnapshot quotes minuteBars input priority w).1
        (observeQuotes input.now w.timestampTracker quotes).1 w.store) ∨
    (c.Reports w ∧ usableQuotes c.staleAfterSeconds input.now w.timestampTracker quotes ≠ [] ∧
      c.BarsRaise minuteBars ∧
      (∃ name, (c.processFullSnapshot quotes minuteBars input priority w).2 = .error name) ∧
      Observed w (c.processFullSnapshot quotes minuteBars input priority w).1
        (observeQuotes input.now w.timestampTracker quotes).1
        (w.store.replaceQuoteSnapshot
          (usableQuotes c.staleAfterSeconds input.now w.timestampTracker quotes))) ∨
    (c.Reports w ∧ usableQuotes c.staleAfterSeconds input.now w.timestampTracker quotes ≠ [] ∧
      ¬ c.BarsRaise minuteBars ∧
      ∃ tick, (c.processFullSnapshot quotes minuteBars input priority w).2 = .ok tick ∧
        FullTick tick) := by
  obtain ⟨circuit, hworld⟩ := c.checkQuotes_world quotes input.now w
  unfold processFullSnapshot
  rcases c.checkQuotes_cases quotes input.now w with
    ⟨hreports, after, report, quarantined, hcheck, hchecked⟩ | ⟨hnot, after, name, hcheck⟩
  · right
    rw [hcheck] at hworld ⊢
    simp only at hworld ⊢
    subst hworld
    by_cases husable : report.isUsable = true
    · right
      rw [if_pos husable, hchecked.fresh]
      have hsome := hchecked.usable.mp husable
      by_cases hsymbols : c.symbols = []
      · right
        rw [if_pos hsymbols]
        refine ⟨hreports, hsome, fun h => h.1 hsymbols, _, rfl, rfl, ?_⟩
        simp only [SchedulerTick.TellsPriority, openTick]
        split <;> simp
      · rw [if_neg hsymbols]
        cases minuteBars with
        | error name =>
            left
            exact ⟨hreports, hsome, ⟨hsymbols, rfl⟩, ⟨name, rfl⟩, circuit, rfl⟩
        | ok bars =>
            right
            refine ⟨hreports, hsome, fun h => Bool.noConfusion h.2, _, rfl, rfl, ?_⟩
            simp only [SchedulerTick.TellsPriority, openTick]
            split <;> simp
    · left
      have hempty : usableQuotes c.staleAfterSeconds input.now w.timestampTracker quotes = [] := by
        by_contra hne
        exact husable (hchecked.usable.mpr hne)
      rw [if_neg husable]
      cases hpriority : priority.usable with
      | some usable =>
          refine ⟨hreports, hempty, ⟨_, rfl, ?_⟩, circuit, rfl⟩
          exact priorityTick_some hpriority _ (Or.inr (Or.inr rfl))
      | none =>
          exact ⟨hreports, hempty, ⟨_, rfl, priorityTick_none hpriority rfl⟩, circuit, rfl⟩
  · left
    rw [hcheck] at hworld ⊢
    exact ⟨hnot, ⟨name, rfl⟩, circuit, hworld⟩

theorem reports_iff_of_expected {w after : SchedulerWorld}
    (hexpected : after.expectedSymbols = w.expectedSymbols) : c.Reports after ↔ c.Reports w := by
  unfold Reports
  rw [hexpected]

theorem leftByContinue_congr {input : TickInput} {w after : SchedulerWorld}
    (hasked : after.prioritySymbols = w.prioritySymbols)
    (hexpected : after.expectedSymbols = w.expectedSymbols)
    (hlast : after.lastFullMarketAt = w.lastFullMarketAt) (tracker : TimestampTracker)
    (left : Option (List RealTimeQuote)) :
    c.leftByContinue input after tracker left = c.leftByContinue input w tracker left := by
  have hdue : c.fullMarketDue input.monotonic after = c.fullMarketDue input.monotonic w := by
    unfold fullMarketDue
    rw [hlast]
  unfold leftByContinue
  simp only [hasked, hdue, c.reports_iff_of_expected hexpected]

/-- The rest of a tick without usable priority quotes. -/
theorem continueTick_none {priority : PriorityOutcome} (h : priority.usable = none)
    (input : TickInput) (w : SchedulerWorld) (left : Option (List RealTimeQuote)) :
    (FullTick (c.continueTick input priority w).2 ∧
      c.leftByContinue input w w.timestampTracker left = none) ∨
    ((c.continueTick input priority w).2.updated = false ∧
      (((c.continueTick input priority w).1.store = w.store ∧
          c.leftByContinue input w w.timestampTracker left = left) ∨
        ∃ quotes, (c.continueTick input priority w).1.store = w.store.replaceQuoteSnapshot quotes ∧
          c.leftByContinue input w w.timestampTracker left = some quotes)) := by
  unfold continueTick leftByContinue
  by_cases hwaits : w.prioritySymbols ≠ [] ∧ c.fullMarketDue input.monotonic w = false
  · rw [if_pos hwaits, if_pos hwaits, h]
    exact Or.inr ⟨rfl, Or.inl ⟨rfl, rfl⟩⟩
  · rw [if_neg hwaits, if_neg hwaits, h]
    simp only [ite_self]
    cases hsnapshot : input.marketSnapshot with
    | error name => exact Or.inr ⟨rfl, Or.inl ⟨rfl, rfl⟩⟩
    | ok snapshot =>
        simp only
        rcases c.processFullSnapshot_cases snapshot input.fetchedBars input priority
            { w with lastFullMarketAt := some input.monotonic } with
          ⟨hnot, ⟨name, hresult⟩, hafter⟩ |
          ⟨hreports, hempty, ⟨tick, hresult, htick⟩, hafter⟩ |
          ⟨hreports, hsome, hraise, ⟨name, hresult⟩, hafter⟩ |
          ⟨hreports, hsome, hbars, tick, hresult, htick⟩
        all_goals
          generalize c.processFullSnapshot snapshot input.fetchedBars input priority _ = processed
            at *
          obtain ⟨after, result⟩ := processed
          simp only at hresult
          subst hresult
        · have hunread : ¬ c.Reports w := hnot
          rw [if_pos (Or.inl hunread)]
          exact Or.inr ⟨rfl, Or.inl ⟨hafter.store_eq, rfl⟩⟩
        · rw [if_pos (Or.inr hempty)]
          refine Or.inr ⟨?_, Or.inl ⟨hafter.store_eq, rfl⟩⟩
          rw [htick.updated, h]
          rfl
        · have hread : ¬ (¬ c.Reports w ∨
              usableQuotes c.staleAfterSeconds input.now w.timestampTracker snapshot = []) :=
            not_or.mpr ⟨not_not.mpr hreports, hsome⟩
          rw [if_neg hread, if_pos hraise]
          exact Or.inr ⟨rfl, Or.inr ⟨_, hafter.store_eq, rfl⟩⟩
        · have hread : ¬ (¬ c.Reports w ∨
              usableQuotes c.staleAfterSeconds input.now w.timestampTracker snapshot = []) :=
            not_or.mpr ⟨not_not.mpr hreports, hsome⟩
          rw [if_neg hread, if_neg hbars]
          exact Or.inl ⟨htick, rfl⟩

theorem continueTick_some {priority : PriorityOutcome} {report : QuoteQualityReport}
    (h : priority.usable = some report) (input : TickInput) {w : SchedulerWorld}
    (hasked : w.prioritySymbols ≠ []) :
    PriorityTick priority (c.continueTick input priority w).2 := by
  have htick : PriorityTick priority (priorityTick input report priority.count "" true) :=
    priorityTick_some h input (Or.inl rfl)
  unfold continueTick
  rw [h]
  split
  · exact htick
  · simp only [if_neg hasked]
    exact htick

/-- The store after the snapshot that was left in it, if one was. -/
def replacedBy (store : RealTimeStore) : Option (List RealTimeQuote) → RealTimeStore
  | some quotes => store.replaceQuoteSnapshot quotes
  | none => store

theorem replacedBy_replaced (store : RealTimeStore) (left : Option (List RealTimeQuote))
    (quotes : List RealTimeQuote) :
    (replacedBy store left).replaceQuoteSnapshot quotes = replacedBy store (some quotes) := by
  cases left <;> rfl

/-- The store a tick leaves that stands for the priority quotes alone. -/
def leftStore (input : TickInput) (w : SchedulerWorld) : RealTimeStore :=
  replacedBy (c.storedPriority input w) (c.leftUnannounced input w)

/-- What the tick says of usable priority quotes, and that it says nothing of others. -/
structure TellsPriorityPass (input : TickInput) (w : SchedulerWorld) (tick : SchedulerTick) :
    Prop where
  updated : tick.updated = true ↔ c.PriorityUsable input w
  told : c.PriorityUsable input w →
    tick.quoteCount = (c.usableGiven input w).length ∧ tick.TellsPriority

/-- Priority quotes that passed say in the tick what the pass made of them. -/
theorem PassedPriority.tells {input : TickInput} {w : SchedulerWorld}
    {priority : PriorityOutcome} {tick : SchedulerTick}
    (hpass : c.PassedPriority input w priority) (htick : PriorityTick priority tick) :
    c.TellsPriorityPass input w tick := by
  rcases hpass with ⟨husable, ⟨report, hreport⟩, hcount⟩ | ⟨hnot, hnone⟩
  · have hsome : priority.usable.isSome = true := by rw [hreport]; rfl
    constructor
    · rw [htick.updated]
      exact ⟨fun _ => husable, fun _ => hsome⟩
    · intro _
      rw [← hcount]
      exact htick.told hsome
  · constructor
    · rw [htick.updated, hnone]
      exact ⟨fun hsome => Bool.noConfusion hsome, fun husable => absurd husable hnot⟩
    · exact fun husable => absurd husable hnot

/-- The world in which a tick has looked for the worker's result. -/
structure LookedFor (input : TickInput) (w late : SchedulerWorld) : Prop where
  store : late.store = c.storedPriority input w
  tracker : late.timestampTracker = trackerAfter input w
  asked : late.prioritySymbols = w.prioritySymbols
  expected : late.expectedSymbols = w.expectedSymbols
  last : late.lastFullMarketAt = w.lastFullMarketAt

theorem endLate_lookedFor {input : TickInput} {w stored : SchedulerWorld}
    (h : Observed w stored (trackerAfter input w) (c.storedPriority input w)) :
    c.LookedFor input w (endLate input (takePendingFullResult stored)) := by
  obtain ⟨circuit, rfl⟩ := h
  unfold endLate deliver takePendingFullResult
  split
  · split
    · split <;> exact ⟨rfl, rfl, rfl, rfl, rfl⟩
    · exact ⟨rfl, rfl, rfl, rfl, rfl⟩
  · exact ⟨rfl, rfl, rfl, rfl, rfl⟩

/-- Where no report can be made a fetched snapshot changes nothing. -/
theorem leftByContinue_unread {input : TickInput} {w : SchedulerWorld} (h : ¬ c.Reports w)
    (tracker : TimestampTracker) (left : Option (List RealTimeQuote)) :
    c.leftByContinue input w tracker left = left := by
  unfold leftByContinue
  split
  · rfl
  · split
    · rfl
    · exact if_pos (Or.inl h)

/-- What a tick may end with: a full snapshot, or the priority quotes alone, over the store
in which a snapshot may have been left. -/
def EndsTelling (input : TickInput) (w : SchedulerWorld)
    (result : SchedulerWorld × SchedulerTick) : Prop :=
  (FullTick result.2 ∧ c.leftUnannounced input w = none) ∨
    (c.TellsPriorityPass input w result.2 ∧ result.1.store = c.leftStore input w)

/-- The rest of a tick without usable priority quotes, in whose store a snapshot may have
been left already. -/
theorem continueTick_endsTelling {priority : PriorityOutcome} {input : TickInput}
    {w current : SchedulerWorld} {left : Option (List RealTimeQuote)}
    (hnone : priority.usable = none) (hnot : ¬ c.PriorityUsable input w)
    (hleft : c.leftUnannounced input w =
      c.leftByContinue input current current.timestampTracker left)
    (hstore : current.store = replacedBy (c.storedPriority input w) left) :
    c.EndsTelling input w (c.continueTick input priority current) := by
  have htells : ∀ {tick : SchedulerTick}, tick.updated = false →
      c.TellsPriorityPass input w tick := fun hupdated =>
    PassedPriority.tells c (Or.inr ⟨hnot, hnone⟩) (priorityTick_none hnone hupdated)
  rcases c.continueTick_none hnone input current left with
    ⟨hfull, hannounced⟩ | ⟨hupdated, ⟨hkept, hsame⟩ | ⟨quotes, hreplaced, hlater⟩⟩
  · exact Or.inl ⟨hfull, hleft.trans hannounced⟩
  · refine Or.inr ⟨htells hupdated, ?_⟩
    unfold leftStore
    rw [hkept, hstore, hleft, hsame]
  · refine Or.inr ⟨htells hupdated, ?_⟩
    unfold leftStore
    rw [hreplaced, hstore, hleft, hlater, replacedBy_replaced]

theorem asked_of_priorityUsable {input : TickInput} {w : SchedulerWorld}
    (h : c.PriorityUsable input w) : w.prioritySymbols ≠ [] := by
  intro hempty
  apply h.2
  apply c.usableGiven_nil
  simp [givenQuotes, hempty]

/-- A tick for which the worker has delivered no snapshot. -/
theorem waiting_endsTelling {priority : PriorityOutcome} {input : TickInput}
    {w late : SchedulerWorld} (hpass : c.PassedPriority input w priority)
    (hlooked : c.LookedFor input w late) (hpending : w.pendingFullSnapshot = none) :
    c.EndsTelling input w (c.continueTick input priority late) := by
  have hleft : c.leftUnannounced input w = if c.PriorityUsable input w then none
      else c.leftByContinue input w (trackerAfter input w) none := by
    unfold leftUnannounced
    rw [hpending]
  rcases hpass with ⟨husable, ⟨report, hreport⟩, hcount⟩ | ⟨hnot, hnone⟩
  · have hasked : late.prioritySymbols ≠ [] := by
      rw [hlooked.asked]
      exact c.asked_of_priorityUsable husable
    rw [if_pos husable] at hleft
    right
    constructor
    · apply PassedPriority.tells c (Or.inl ⟨husable, ⟨report, hreport⟩, hcount⟩)
      exact c.continueTick_some hreport input hasked
    · unfold leftStore
      rw [hleft, c.continueTick_store hreport hasked, hlooked.store]
      rfl
  · rw [if_neg hnot] at hleft
    have hkept : late.store = replacedBy (c.storedPriority input w) none := hlooked.store
    apply c.continueTick_endsTelling hnone hnot _ hkept
    rw [hleft, hlooked.tracker]
    exact (c.leftByContinue_congr hlooked.asked hlooked.expected hlooked.last _ _).symm

theorem unavailable_endsTelling {priority : PriorityOutcome} {input : TickInput}
    {w after : SchedulerWorld} {report : QuoteQualityReport}
    (hpass : c.PassedPriority input w priority) (hreport : priority.usable = some report)
    (hafter : after.store = c.leftStore input w) :
    c.EndsTelling input w
      (after, priorityTick input report priority.count "FULL_MARKET_UNAVAILABLE" false) :=
  Or.inr ⟨PassedPriority.tells c hpass
    (priorityTick_some hreport input (Or.inr (Or.inl rfl))), hafter⟩

theorem openRun_endsTelling (input : TickInput) (w : SchedulerWorld) :
    c.EndsTelling input w (c.openRun input w) := by
  unfold openRun
  obtain ⟨hpass, hstored⟩ := c.priorityPass_passed input w
  generalize c.priorityPass input w = pass at hpass hstored ⊢
  obtain ⟨stored, priority⟩ := pass
  simp only at hpass hstored ⊢
  have hlooked := c.endLate_lookedFor hstored
  have hpendings : stored.pendingFullSnapshot = w.pendingFullSnapshot := by
    obtain ⟨circuit, rfl⟩ := hstored
    rfl
  generalize endLate input (takePendingFullResult stored) = late at hlooked ⊢
  rw [hpendings]
  cases hpending : w.pendingFullSnapshot with
  | none =>
      simp only
      split
      · rename_i report _ hreport
        apply c.unavailable_endsTelling hpass hreport
        have husable : c.PriorityUsable input w := by
          rcases hpass with ⟨husable, _⟩ | ⟨_, hnone⟩
          · exact husable
          · rw [hnone] at hreport
            cases hreport
        simp only [leftStore, leftUnannounced, hpending, if_pos husable, replacedBy]
        exact hlooked.store
      · exact c.waiting_endsTelling hpass hlooked hpending
  | some snapshot =>
      simp only
      have hreports : c.Reports late ↔ c.Reports w := c.reports_iff_of_expected hlooked.expected
      have hprocessed := c.processFullSnapshot_cases snapshot input.minuteBars input priority late
      generalize c.processFullSnapshot snapshot input.minuteBars input priority late = processed
        at hprocessed ⊢
      obtain ⟨after, result⟩ := processed
      rw [hreports, hlooked.tracker, hlooked.store] at hprocessed
      have hleft : c.leftUnannounced input w =
          if c.Reports w ∧ usableQuotes c.staleAfterSeconds input.now (trackerAfter input w)
            snapshot ≠ [] ∧ c.BarsRaise input.minuteBars then
            if c.PriorityUsable input w then some (usableQuotes c.staleAfterSeconds input.now
              (trackerAfter input w) snapshot)
            else c.leftByContinue input w (observeQuotes input.now (trackerAfter input w)
              snapshot).1 (some (usableQuotes c.staleAfterSeconds input.now
                (trackerAfter input w) snapshot))
          else none := by
        unfold leftUnannounced
        rw [hpending]
      rcases hprocessed with ⟨hunread, ⟨name, hresult⟩, hafter⟩ |
        ⟨_, hempty, ⟨tick, hresult, htick⟩, hafter⟩ |
        ⟨hread, hsome, hraise, ⟨name, hresult⟩, hafter⟩ | ⟨_, hsome, hbars, tick, hresult, htick⟩
      all_goals
        simp only at hresult
        subst hresult
        simp only
      · rw [if_neg (fun h => hunread h.1)] at hleft
        rcases hpass with ⟨husable, _⟩ | ⟨hnot, hnone⟩
        · exact absurd husable.1 hunread
        · rw [hnone]
          have hkept : after.store = replacedBy (c.storedPriority input w) none := hafter.store_eq
          apply c.continueTick_endsTelling hnone hnot _ hkept
          obtain ⟨circuit, rfl⟩ := hafter
          rw [hleft, c.leftByContinue_unread]
          exact fun hread => hunread (hreports.mp hread)
      · rw [if_neg (fun h => h.2.1 hempty)] at hleft
        refine Or.inr ⟨PassedPriority.tells c hpass htick, ?_⟩
        unfold leftStore
        rw [hleft]
        exact hafter.store_eq
      · rw [if_pos ⟨hread, hsome, hraise⟩] at hleft
        by_cases husable : c.PriorityUsable input w
        · rw [if_pos husable] at hleft
          rcases id hpass with ⟨_, ⟨report, hreport⟩, _⟩ | ⟨hnot, _⟩
          · rw [hreport]
            apply c.unavailable_endsTelling hpass hreport
            unfold leftStore
            rw [hleft]
            exact hafter.store_eq
          · exact absurd husable hnot
        · rw [if_neg husable] at hleft
          rcases hpass with ⟨hsome, _⟩ | ⟨_, hnone⟩
          · exact absurd hsome husable
          · rw [hnone]
            have hkept : after.store = replacedBy (c.storedPriority input w)
                (some (usableQuotes c.staleAfterSeconds input.now (trackerAfter input w)
                  snapshot)) := hafter.store_eq
            apply c.continueTick_endsTelling hnone husable _ hkept
            obtain ⟨circuit, rfl⟩ := hafter
            rw [hleft]
            exact (c.leftByContinue_congr hlooked.asked hlooked.expected hlooked.last _ _).symm
      · rw [if_neg (fun h => hbars h.2.2)] at hleft
        exact Or.inl ⟨htick, hleft⟩

theorem changesOnly_leftStore_iff {input : TickInput} {w : SchedulerWorld}
    {symbols : Symbol → Prop}
    (hstored : ChangesOnly symbols w.store (c.storedPriority input w)) :
    ChangesOnly symbols w.store (c.leftStore input w) ↔
      ∀ quotes ∈ c.leftUnannounced input w, ∀ symbol, ¬ symbols symbol →
        lastQuote quotes symbol = w.store.quotes.lookup symbol := by
  unfold leftStore
  cases c.leftUnannounced input w with
  | none =>
      refine ⟨fun _ quotes hquotes => ?_, fun _ => hstored⟩
      cases hquotes
  | some left =>
      constructor
      · rintro hchanges quotes ⟨⟩ symbol hother
        rw [← lookup_replaceQuoteSnapshot (c.storedPriority input w)]
        exact hchanges.quotes symbol hother
      · intro hsame
        refine ⟨fun symbol hother => ?_, hstored.provisional⟩
        refine (lookup_replaceQuoteSnapshot (c.storedPriority input w) left symbol).trans ?_
        exact hsame left rfl symbol hother

theorem storedPriority_changesOnly {input : TickInput} {w : SchedulerWorld}
    (husable : c.PriorityUsable input w) :
    ChangesOnly (fun symbol => ∃ quote ∈ givenQuotes input w, quote.symbol = symbol) w.store
      (c.storedPriority input w) := by
  unfold storedPriority
  rw [if_pos husable]
  refine ⟨fun symbol hother => ?_, rfl⟩
  apply lookup_putQuotes_other
  intro quote hquote hsymbol
  obtain ⟨earlier, later, hgiven, _⟩ := (mem_usableQuotes_iff _ _).mp hquote
  apply hother
  refine ⟨quote, ?_, hsymbol⟩
  rw [hgiven]
  exact List.mem_append_right _ List.mem_cons_self

theorem runOnce_other {input : TickInput} {w : SchedulerWorld}
    (h : c.resolve input.now ≠ some .isOpen) :
    (c.runOnce input w).1 = w ∧ (c.runOnce input w).2.updated = false := by
  unfold runOnce
  cases hsession : c.resolve input.now with
  | none => exact ⟨rfl, rfl⟩
  | some session =>
      cases session with
      | isOpen => exact absurd hsession h
      | _ => exact ⟨rfl, rfl⟩

/-- A tick tells what it changed exactly if the quotes of a snapshot that it leaves
unannounced are those the store had. -/
theorem tellsChanges_iff (input : TickInput) (w : SchedulerWorld) :
    c.TellsChanges input w ↔ c.LeavesNothing input w := by
  by_cases hopen : c.resolve input.now = some .isOpen
  · have hrun : c.runOnce input w = c.openRun input w := by
      unfold runOnce
      rw [hopen]
    have hleaves : c.LeavesNothing input w ↔ ∀ quotes ∈ c.leftUnannounced input w, ∀ symbol,
        ¬ (c.PriorityUsable input w ∧
          ∃ quote ∈ givenQuotes input w, quote.symbol = symbol) →
            lastQuote quotes symbol = w.store.quotes.lookup symbol :=
      ⟨fun h => h hopen, fun h _ => h⟩
    unfold TellsChanges
    rw [hleaves, hrun]
    rcases c.openRun_endsTelling input w with ⟨hfull, hannounced⟩ | ⟨htells, hstore⟩
    · rw [hannounced]
      constructor
      · intro _ quotes hquotes
        cases hquotes
      · intro _
        refine ⟨fun hupdated => ?_, fun _ hpriority => absurd hpriority hfull.full⟩
        rw [hfull.updated] at hupdated
        cases hupdated
    · rw [hstore]
      by_cases husable : c.PriorityUsable input w
      · obtain ⟨hcount, hpriority⟩ := htells.told husable
        have hupdated := htells.updated.mpr husable
        simp only [hupdated, hpriority, hcount, and_true, forall_const,
          c.changesOnly_leftStore_iff (c.storedPriority_changesOnly husable), husable, true_and,
          Bool.true_eq_false, IsEmpty.forall_iff]
      · have hupdated : (c.openRun input w).2.updated = false := by
          rw [← Bool.not_eq_true, htells.updated]
          exact husable
        have hstored : ChangesOnly (fun _ => False) w.store (c.storedPriority input w) := by
          unfold storedPriority
          rw [if_neg husable]
          exact ⟨fun _ _ => rfl, rfl⟩
        simp only [hupdated, forall_const, c.changesOnly_leftStore_iff hstored, husable,
          false_and, Bool.false_eq_true, IsEmpty.forall_iff, and_true]
  · obtain ⟨hworld, hupdated⟩ := c.runOnce_other hopen
    unfold TellsChanges LeavesNothing
    rw [hworld, hupdated]
    refine ⟨fun _ h => absurd h hopen, fun _ => ⟨fun _ => ⟨fun _ _ => rfl, rfl⟩, fun h => ?_⟩⟩
    cases h

end SchedulerSettings

/-- The provider's minute bars are down while its snapshots are not. -/
def barlessTick : TickInput where
  now := 36000 * 1000000
  priorityQuotes := .ok []
  monotonic := 60
  marketSnapshot := .ok [sampleQuote 1 36000]
  minuteBars := .ok []
  fetchedBars := .error "ConnectionError"
  late := none

def barScheduler : SchedulerSettings :=
  { sampleScheduler with symbols := ["000001".toList] }

/-- The tick says that nothing was updated, and the store has gained a quote. -/
theorem barlessTick_untold :
    ¬ barScheduler.TellsChanges barlessTick { sampleWorld with prioritySymbols := [] } := by
  rintro ⟨hkept, _⟩
  have hchanges := (hkept (by decide +kernel)).quotes (sampleStock 1) id
  have hgained : (barScheduler.runOnce barlessTick
      { sampleWorld with prioritySymbols := [] }).1.store.quotes.lookup (sampleStock 1) =
        some (sampleQuote 1 36000) := by
    decide +kernel
  rw [hgained] at hchanges
  cases hchanges

end QuantWorkbench.Runtime
