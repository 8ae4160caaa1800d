import QuantWorkbench.Data.RealtimeQuality
import QuantWorkbench.Lib.Runs
import Mathlib.Data.Multiset.AddSub

/-!
`LiveDataQualityGate` of `runtime/realtime_telemetry.py`. The gate calls a provider live once it
has seen enough distinct snapshots in a row; it compares the rows of a whole batch with those of
the batch before. Beside the gate a state lists the batches that passed since the last reset, the
latest one first.
-/

namespace QuantWorkbench.Runtime

open Lib Data

/-- A quote with the fields that the gate reads. A timestamp is written with its offset from UTC. -/
structure LiveQuote extends RealTimeQuote where
  exchangeOffset : ℤ
  last : Option ℚ
  volume : Option ℚ
  amount : Option ℚ
  source : Text
  deriving DecidableEq

/-- What a quote says about its symbol. -/
abbrev QuoteValues := Timestamp × Option ℚ × Option ℚ × Option ℚ

/-- A row of a signature. The text of a timestamp says its instant and its offset. -/
structure SignatureRow where
  symbol : Symbol
  timestamp : Timestamp
  offset : ℤ
  last : Option ℚ
  volume : Option ℚ
  amount : Option ℚ
  deriving DecidableEq

namespace LiveQuote

/-- The quote as the freshness checks return it. -/
def checked (now : Timestamp) (staleAfterSeconds : ℚ) (quote : LiveQuote) : LiveQuote :=
  { quote with toRealTimeQuote := checkedQuote now staleAfterSeconds quote.toRealTimeQuote }

def row (quote : LiveQuote) : SignatureRow :=
  ⟨quote.symbol, quote.timestampExchange, quote.exchangeOffset, quote.last, quote.volume,
    quote.amount⟩

def values (quote : LiveQuote) : QuoteValues :=
  (quote.timestampExchange, quote.last, quote.volume, quote.amount)

end LiveQuote

/-- Two rows that cannot be sorted: the first field that differs is missing in one of them. -/
def SignatureRow.Unordered (a b : SignatureRow) : Prop :=
  a.symbol = b.symbol ∧ a.timestamp = b.timestamp ∧ a.offset = b.offset ∧
    (a.last.isNone ≠ b.last.isNone ∨ a.last = b.last ∧
      (a.volume.isNone ≠ b.volume.isNone ∨ a.volume = b.volume ∧ a.amount.isNone ≠ b.amount.isNone))

instance (a b : SignatureRow) : Decidable (a.Unordered b) := by
  unfold SignatureRow.Unordered
  infer_instance

/-- The sorted rows of a batch, which are equal for two batches with the same rows. Sorting raises
on rows that have no order. -/
def updateSignature (quotes : List LiveQuote) : Except String (Multiset SignatureRow) :=
  let rows := quotes.map LiveQuote.row
  if ∃ a ∈ rows, ∃ b ∈ rows, a.Unordered b then .error "TypeError" else .ok rows

def schemaPasses (quotes : List LiveQuote) (now : Timestamp) : Bool :=
  quotes ≠ [] ∧ ∀ quote ∈ quotes, quote.qualityFlag = .good ∧ (∃ last ∈ quote.last, 0 < last) ∧
    quote.timestampExchange ≤ now ∧ quote.timestampReceived ≤ now ∧ quote.source ≠ []

/-- Whether a quote of the batch is older than the latest one of its symbol. -/
def timestampsMoveBackwards : TimestampTracker → List LiveQuote → Bool
  | _, [] => false
  | latest, quote :: rest =>
      match latest.lookup quote.symbol with
      | some prior =>
          if quote.timestampExchange < prior then true
          else timestampsMoveBackwards (latest.insert quote.symbol quote.timestampExchange) rest
      | none => timestampsMoveBackwards (latest.insert quote.symbol quote.timestampExchange) rest

structure LiveDataQualityReport where
  status : DataQualityStatus
  schemaPass : Bool
  continuousUpdates : Bool
  distinctUpdateCount : ℕ
  reason : String

/-- The settings of a gate. -/
structure LiveDataQualityGate where
  staleAfterSeconds : ℚ
  minimumDistinctUpdates : ℕ
  stale_pos : 0 < staleAfterSeconds
  minimum_ge : 2 ≤ minimumDistinctUpdates

structure GateState where
  lastSignature : Option (Multiset SignatureRow)
  distinctUpdateCount : ℕ
  lastExchangeTimestamps : TimestampTracker

def GateState.reset : GateState := ⟨none, 0, ∅⟩

structure QualityCall where
  quotes : List LiveQuote
  providerConnected : Bool
  circuitBreakerOpen : Bool
  expectedSymbols : List Text
  now : Timestamp

/-- How a call ends. -/
inductive Evaluation where
  | raised (error : String)
  /-- Continuity starts again. -/
  | reset (report : LiveDataQualityReport)
  | accepted (report : LiveDataQualityReport) (next : GateState) (quotes : List LiveQuote)

namespace LiveDataQualityGate

variable (gate : LiveDataQualityGate)

def report (state : GateState) (status : DataQualityStatus) (schemaPass : Bool)
    (reason : String) : LiveDataQualityReport where
  status := status
  schemaPass := schemaPass
  continuousUpdates := decide (gate.minimumDistinctUpdates ≤ state.distinctUpdateCount)
  distinctUpdateCount := state.distinctUpdateCount
  reason := reason

def resets (status : DataQualityStatus) (reason : String) : Evaluation :=
  .reset (gate.report .reset status false reason)

/-- The state once a batch with the signature has passed. -/
def count (state : GateState) (signature : Multiset SignatureRow) (quotes : List LiveQuote) :
    GateState where
  lastSignature := some signature
  distinctUpdateCount := state.distinctUpdateCount +
    if state.lastSignature = some signature then 0 else 1
  lastExchangeTimestamps := quotes.foldl
    (fun latest quote => latest.insert quote.symbol quote.timestampExchange)
    state.lastExchangeTimestamps

def accept (state : GateState) (signature : Multiset SignatureRow) (quotes : List LiveQuote) :
    Evaluation :=
  let next := count state signature quotes
  if next.distinctUpdateCount < gate.minimumDistinctUpdates then
    .accepted (gate.report next .degraded true "awaiting a distinct continuous provider update")
      next quotes
  else
    .accepted (gate.report next .good true
      "provider, schema, freshness, continuity, and breaker checks passed") next quotes

def evaluate (state : GateState) (call : QualityCall) : Evaluation :=
  if call.providerConnected = false then gate.resets .failed "provider is not connected"
  else if call.circuitBreakerOpen = true then
    gate.resets .failed "real-time circuit breaker is open"
  else
    match assessQuoteQuality (call.quotes.map LiveQuote.toRealTimeQuote) call.expectedSymbols
      call.now gate.staleAfterSeconds with
    | .error error => .raised error
    | .ok baseline =>
        let quotes := call.quotes.map (LiveQuote.checked call.now gate.staleAfterSeconds)
        if baseline.status = .failed ∨ baseline.status = .stale then
          if ∃ quote ∈ call.quotes, call.now < quote.timestampExchange then
            gate.resets .degraded "exchange timestamp is in the future"
          else gate.resets baseline.status baseline.reason
        else if ¬ (baseline.status = .good ∧ schemaPasses quotes call.now = true) then
          gate.resets .degraded "quote schema or expected-symbol validation did not pass"
        else if timestampsMoveBackwards state.lastExchangeTimestamps quotes = true then
          gate.resets .stale "exchange timestamp moved backwards"
        else
          match updateSignature quotes with
          | .error error => .raised error
          | .ok signature => gate.accept state signature quotes

end LiveDataQualityGate

/-! ### Runs -/

/-- The rows of a symbol in a batch, without their offsets. -/
def valuesOf (symbol : Symbol) (quotes : List LiveQuote) : Multiset QuoteValues :=
  ((quotes.filter fun quote => quote.symbol = symbol).map LiveQuote.values : List QuoteValues)

/-- Some symbol that both batches contain has other values. -/
def Moved (previous current : List LiveQuote) : Prop :=
  ∃ quote ∈ previous, (∃ other ∈ current, other.symbol = quote.symbol) ∧
    valuesOf quote.symbol previous ≠ valuesOf quote.symbol current

instance (previous current : List LiveQuote) : Decidable (Moved previous current) := by
  unfold Moved
  infer_instance

/-- How many batches moved against the one before, the latest first. -/
def updates : List (List LiveQuote) → ℕ
  | current :: previous :: earlier =>
      (if Moved previous current then 1 else 0) + updates (previous :: earlier)
  | _ => 0

/-- The gate, the batches that passed since the last reset and the last report. -/
structure GateHistory where
  state : GateState
  evaluated : List (List LiveQuote)
  reported : Option LiveDataQualityReport

namespace GateHistory

def start : GateHistory := ⟨.reset, [], none⟩

def step (gate : LiveDataQualityGate) (history : GateHistory) (call : QualityCall) : GateHistory :=
  match gate.evaluate history.state call with
  | .raised _ => { history with reported := none }
  | .reset report => ⟨.reset, [], some report⟩
  | .accepted report next quotes => ⟨next, quotes :: history.evaluated, some report⟩

/-- The last report is good only if enough batches moved since the last reset, and since then no
timestamp of a symbol has gone back. -/
structure Genuine (gate : LiveDataQualityGate) (history : GateHistory) : Prop where
  moved : ∀ report, history.reported = some report → report.status = .good →
    gate.minimumDistinctUpdates ≤ updates history.evaluated + 1
  forward : history.evaluated.Pairwise fun later earlier => ∀ quote ∈ later, ∀ prior ∈ earlier,
    quote.symbol = prior.symbol → prior.timestampExchange ≤ quote.timestampExchange

end GateHistory

def QualityCall.checkedQuotes (gate : LiveDataQualityGate) (call : QualityCall) : List LiveQuote :=
  call.quotes.map (LiveQuote.checked call.now gate.staleAfterSeconds)

/-- The call passes every check up to the comparison with the batch before. -/
structure PassesGate (gate : LiveDataQualityGate) (latest : TimestampTracker) (call : QualityCall) :
    Prop where
  connected : call.providerConnected = true
  closed : call.circuitBreakerOpen = false
  fresh : ∃ baseline, assessQuoteQuality (call.quotes.map LiveQuote.toRealTimeQuote)
    call.expectedSymbols call.now gate.staleAfterSeconds = .ok baseline ∧ baseline.status = .good
  schema : schemaPasses (call.checkedQuotes gate) call.now = true
  forward : timestampsMoveBackwards latest (call.checkedQuotes gate) = false

/-- The three ways in which a call ends. -/
theorem evaluate_cases (gate : LiveDataQualityGate) (state : GateState) (call : QualityCall) :
    (∃ error, gate.evaluate state call = .raised error) ∨
    (∃ report, gate.evaluate state call = .reset report ∧ report.status ≠ .good) ∨
    ∃ signature, PassesGate gate state.lastExchangeTimestamps call ∧
      updateSignature (call.checkedQuotes gate) = .ok signature ∧
      gate.evaluate state call = gate.accept state signature (call.checkedQuotes gate) := by
  unfold LiveDataQualityGate.evaluate
  split
  · exact .inr (.inl ⟨_, rfl, by simp [LiveDataQualityGate.report]⟩)
  rename_i hconnected
  split
  · exact .inr (.inl ⟨_, rfl, by simp [LiveDataQualityGate.report]⟩)
  rename_i hclosed
  cases hbaseline : assessQuoteQuality (call.quotes.map LiveQuote.toRealTimeQuote)
      call.expectedSymbols call.now gate.staleAfterSeconds with
  | error error => exact .inl ⟨error, rfl⟩
  | ok baseline =>
      simp only
      split
      · rename_i hstale
        split
        · exact .inr (.inl ⟨_, rfl, by simp [LiveDataQualityGate.report]⟩)
        · refine .inr (.inl ⟨_, rfl, ?_⟩)
          rcases hstale with h | h <;> simp [LiveDataQualityGate.report, h]
      split
      · exact .inr (.inl ⟨_, rfl, by simp [LiveDataQualityGate.report]⟩)
      rename_i hschema
      obtain ⟨hgood, hpasses⟩ := not_not.mp hschema
      split
      · exact .inr (.inl ⟨_, rfl, by simp [LiveDataQualityGate.report]⟩)
      rename_i hforward
      change (∃ error, (match updateSignature (call.checkedQuotes gate) with
        | .error error => Evaluation.raised error
        | .ok signature => gate.accept state signature (call.checkedQuotes gate)) =
          .raised error) ∨ _
      cases hsignature : updateSignature (call.checkedQuotes gate) with
      | error error => exact .inl ⟨error, rfl⟩
      | ok signature =>
          refine .inr (.inr ⟨signature, ?_, rfl, ?_⟩)
          · exact ⟨by simpa using hconnected, by simpa using hclosed, ⟨baseline, hbaseline, hgood⟩,
              hpasses, Bool.eq_false_iff.mpr hforward⟩
          · change (match updateSignature (call.checkedQuotes gate) with
              | .error error => Evaluation.raised error
              | .ok signature => gate.accept state signature (call.checkedQuotes gate)) = _
            rw [hsignature]

theorem updateSignature_eq_ok {quotes : List LiveQuote} {signature : Multiset SignatureRow}
    (h : updateSignature quotes = .ok signature) : signature = ↑(quotes.map LiveQuote.row) := by
  simp only [updateSignature] at h
  split at h
  · cases h
  · exact (Except.ok.inj h).symm

theorem accept_eq (gate : LiveDataQualityGate) (state : GateState)
    (signature : Multiset SignatureRow) (quotes : List LiveQuote) :
    ∃ report, gate.accept state signature quotes =
        .accepted report (LiveDataQualityGate.count state signature quotes) quotes ∧
      (report.status = .good → gate.minimumDistinctUpdates ≤
        (LiveDataQualityGate.count state signature quotes).distinctUpdateCount) := by
  simp only [LiveDataQualityGate.accept]
  split
  · exact ⟨_, rfl, fun hgood => nomatch hgood⟩
  · rename_i hcount
    exact ⟨_, rfl, fun _ => not_lt.mp hcount⟩

def remembered (latest : TimestampTracker) (quotes : List LiveQuote) : TimestampTracker :=
  quotes.foldl (fun latest quote => latest.insert quote.symbol quote.timestampExchange) latest

/-- The timestamps of a batch that does not move back: each is at least what was remembered of its
symbol, and what is remembered then is at least both. -/
structure Advances (latest : TimestampTracker) (quotes : List LiveQuote) : Prop where
  after : ∀ quote ∈ quotes, ∀ prior, latest.lookup quote.symbol = some prior →
    prior ≤ quote.timestampExchange
  kept : ∀ symbol prior, latest.lookup symbol = some prior →
    ∃ time, (remembered latest quotes).lookup symbol = some time ∧ prior ≤ time
  reached : ∀ quote ∈ quotes, ∃ time,
    (remembered latest quotes).lookup quote.symbol = some time ∧ quote.timestampExchange ≤ time

theorem advances_of_forward {latest : TimestampTracker} {quotes : List LiveQuote}
    (h : timestampsMoveBackwards latest quotes = false) : Advances latest quotes := by
  induction quotes generalizing latest with
  | nil => exact ⟨fun _ hquote => (List.not_mem_nil hquote).elim,
      fun symbol prior hprior => ⟨prior, hprior, le_rfl⟩,
      fun _ hquote => (List.not_mem_nil hquote).elim⟩
  | cons quote rest ih =>
      have hquote : ∀ prior, latest.lookup quote.symbol = some prior →
          prior ≤ quote.timestampExchange := by
        intro prior hprior
        by_contra hback
        rw [timestampsMoveBackwards, hprior] at h
        simp only at h
        rw [if_pos (not_le.mp hback)] at h
        cases h
      have hrest : timestampsMoveBackwards
          (latest.insert quote.symbol quote.timestampExchange) rest = false := by
        rw [timestampsMoveBackwards] at h
        cases hlookup : latest.lookup quote.symbol with
        | none => simpa only [hlookup] using h
        | some prior =>
            simp only [hlookup] at h
            rwa [if_neg (not_lt.mpr (hquote prior hlookup))] at h
      have htail := ih hrest
      refine ⟨?_, ?_, ?_⟩
      · intro other hother prior hprior
        rcases List.mem_cons.mp hother with rfl | hmem
        · exact hquote prior hprior
        · by_cases hsame : other.symbol = quote.symbol
          · have hnow := htail.after other hmem quote.timestampExchange
              (by rw [hsame, AList.lookup_insert])
            rw [hsame] at hprior
            exact (hquote prior hprior).trans hnow
          · exact htail.after other hmem prior (by rw [AList.lookup_insert_ne hsame, hprior])
      · intro symbol prior hprior
        by_cases hsame : symbol = quote.symbol
        · subst hsame
          obtain ⟨time, htime, hle⟩ := htail.kept quote.symbol quote.timestampExchange
            (AList.lookup_insert latest)
          exact ⟨time, htime, (hquote prior hprior).trans hle⟩
        · exact htail.kept symbol prior (by rw [AList.lookup_insert_ne hsame, hprior])
      · intro other hother
        rcases List.mem_cons.mp hother with rfl | hmem
        · exact htail.kept other.symbol other.timestampExchange (AList.lookup_insert latest)
        · exact htail.reached other hmem

namespace GateHistory

variable {gate : LiveDataQualityGate}

/-- A batch that passes has the rows of the one before, or moves against it. -/
def Sound (gate : LiveDataQualityGate) (history : GateHistory) (call : QualityCall) : Prop :=
  PassesGate gate history.state.lastExchangeTimestamps call →
    ∀ previous, history.evaluated.head? = some previous →
      Multiset.ofList (previous.map LiveQuote.row) =
          Multiset.ofList ((call.checkedQuotes gate).map LiveQuote.row) ∨
        Moved previous (call.checkedQuotes gate)

/-- What the gate remembers of the batches since the last reset. -/
structure Remembers (gate : LiveDataQualityGate) (history : GateHistory) : Prop where
  signature : history.state.lastSignature =
    history.evaluated.head?.map fun quotes => Multiset.ofList (quotes.map LiveQuote.row)
  latest : ∀ batch ∈ history.evaluated, ∀ quote ∈ batch, ∃ time,
    history.state.lastExchangeTimestamps.lookup quote.symbol = some time ∧
      quote.timestampExchange ≤ time
  forward : history.evaluated.Pairwise fun later earlier => ∀ quote ∈ later, ∀ prior ∈ earlier,
    quote.symbol = prior.symbol → prior.timestampExchange ≤ quote.timestampExchange
  nothing : history.evaluated = [] → history.state.distinctUpdateCount = 0
  reported : ∀ report, history.reported = some report → report.status = .good →
    gate.minimumDistinctUpdates ≤ history.state.distinctUpdateCount

theorem remembers_reset (gate : LiveDataQualityGate) {reported : Option LiveDataQualityReport}
    (h : ∀ report, reported = some report → report.status ≠ .good) :
    Remembers gate ⟨.reset, [], reported⟩ where
  signature := rfl
  latest _ hbatch := (List.not_mem_nil hbatch).elim
  forward := .nil
  nothing _ := rfl
  reported report hreport hgood := (h report hreport hgood).elim

theorem remembers_start (gate : LiveDataQualityGate) : start.Remembers gate :=
  remembers_reset gate fun _ h => nomatch h

/-- The history once a batch with the signature has passed. -/
def accepted (history : GateHistory) (quotes : List LiveQuote)
    (report : LiveDataQualityReport) : GateHistory :=
  ⟨LiveDataQualityGate.count history.state (Multiset.ofList (quotes.map LiveQuote.row)) quotes,
    quotes :: history.evaluated, some report⟩

/-- The three ways in which a call changes the history. -/
theorem step_cases (gate : LiveDataQualityGate) (history : GateHistory) (call : QualityCall) :
    history.step gate call = { history with reported := none } ∨
    (∃ report, history.step gate call = ⟨.reset, [], some report⟩ ∧ report.status ≠ .good) ∨
    ∃ report, PassesGate gate history.state.lastExchangeTimestamps call ∧
      history.step gate call = history.accepted (call.checkedQuotes gate) report ∧
      (report.status = .good → gate.minimumDistinctUpdates ≤
        (history.accepted (call.checkedQuotes gate) report).state.distinctUpdateCount) := by
  unfold step
  rcases evaluate_cases gate history.state call with
    ⟨error, h⟩ | ⟨report, h, hstatus⟩ | ⟨signature, hpasses, hsignature, h⟩
  · rw [h]
    exact .inl rfl
  · rw [h]
    exact .inr (.inl ⟨report, rfl, hstatus⟩)
  · have hsame := updateSignature_eq_ok hsignature
    subst hsame
    obtain ⟨report, haccept, hreport⟩ := accept_eq gate history.state
      (Multiset.ofList ((call.checkedQuotes gate).map LiveQuote.row)) (call.checkedQuotes gate)
    rw [h, haccept]
    exact .inr (.inr ⟨report, hpasses, rfl, hreport⟩)

theorem Remembers.accepted {history : GateHistory} (h : history.Remembers gate)
    {call : QualityCall} (hpasses : PassesGate gate history.state.lastExchangeTimestamps call)
    {report : LiveDataQualityReport}
    (hreport : report.status = .good → gate.minimumDistinctUpdates ≤
      (history.accepted (call.checkedQuotes gate) report).state.distinctUpdateCount) :
    (history.accepted (call.checkedQuotes gate) report).Remembers gate := by
  have hadvances := advances_of_forward hpasses.forward
  refine ⟨rfl, ?_, ?_, (fun hnil => nomatch hnil), ?_⟩
  · intro batch hbatch quote hquote
    rcases List.mem_cons.mp hbatch with rfl | hearlier
    · exact hadvances.reached quote hquote
    · obtain ⟨prior, hprior, hle⟩ := h.latest batch hearlier quote hquote
      obtain ⟨time, htime, hlater⟩ := hadvances.kept quote.symbol prior hprior
      exact ⟨time, htime, hle.trans hlater⟩
  · apply List.Pairwise.cons _ h.forward
    intro earlier hearlier quote hquote prior hprior hsymbol
    obtain ⟨time, htime, hle⟩ := h.latest earlier hearlier prior hprior
    rw [← hsymbol] at htime
    exact hle.trans (hadvances.after quote hquote time htime)
  · intro other hother hgood
    cases hother
    exact hreport hgood

theorem remembers_step {history : GateHistory} (h : history.Remembers gate) (call : QualityCall) :
    (history.step gate call).Remembers gate := by
  rcases step_cases gate history call with hsame | ⟨report, hreset, hstatus⟩ |
    ⟨report, hpasses, haccepted, hreport⟩
  · rw [hsame]
    exact { h with reported := fun _ hnone => nomatch hnone }
  · rw [hreset]
    exact remembers_reset gate fun other hother => by cases hother; exact hstatus
  · rw [haccepted]
    exact h.accepted hpasses hreport

/-- The count of the gate is at most that of the batches that moved. -/
def Counts (history : GateHistory) : Prop :=
  history.state.distinctUpdateCount ≤ updates history.evaluated + 1

theorem counts_step {history : GateHistory} (h : history.Counts) (hmemory : history.Remembers gate)
    {call : QualityCall} (hsound : history.Sound gate call) : (history.step gate call).Counts := by
  rcases step_cases gate history call with hsame | ⟨report, hreset, -⟩ |
    ⟨report, hpasses, haccepted, -⟩
  · rw [hsame]
    exact h
  · rw [hreset]
    exact Nat.zero_le _
  · rw [haccepted]
    have hhead := hmemory.signature
    unfold Counts GateHistory.accepted LiveDataQualityGate.count
    simp only
    cases hevaluated : history.evaluated with
    | nil =>
        rw [hmemory.nothing hevaluated]
        split <;> omega
    | cons previous earlier =>
        rw [hevaluated] at hhead
        unfold Counts at h
        rw [hevaluated] at h
        rw [hhead, updates]
        rcases hsound hpasses previous (by rw [hevaluated]; rfl) with hrows | hmoved
        · rw [if_pos (by rw [← hrows]; rfl)]
          omega
        · rw [if_pos hmoved]
          split <;> omega

theorem Remembers.genuine {history : GateHistory} (h : history.Remembers gate)
    (hcounts : history.Counts) : history.Genuine gate where
  moved report hreport hgood := (h.reported report hreport hgood).trans hcounts
  forward := h.forward

theorem remembers_run (gate : LiveDataQualityGate) (calls : List QualityCall) :
    Runs.Always (step gate) (Remembers gate) start calls :=
  Runs.always_of_invariant (step gate) (Remembers gate) (fun _ call h => remembers_step h call)
    start calls (remembers_start gate)

/-- In every run the timestamps of a symbol do not go back between two resets. -/
theorem timestamps_forward (gate : LiveDataQualityGate) (calls : List QualityCall) :
    Runs.Always (step gate) (fun history => history.evaluated.Pairwise fun later earlier =>
      ∀ quote ∈ later, ∀ prior ∈ earlier, quote.symbol = prior.symbol →
        prior.timestampExchange ≤ quote.timestampExchange) start calls :=
  (remembers_run gate calls).imp (step gate) fun _ h => h.forward

/-- In every run in which each batch that passes has the rows of the one before or moves against
it, a good report means that enough batches moved. -/
theorem good_is_movement (gate : LiveDataQualityGate) (calls : List QualityCall)
    (hsound : Runs.StepsMeet (step gate) (Sound gate) start calls) :
    Runs.Always (step gate) (Genuine gate) start calls := by
  have hboth := Runs.always_of_stepsMeet (step gate) (fun s => s.Remembers gate ∧ s.Counts)
    (fun _ call hs hmet => ⟨remembers_step hs.1 call, counts_step hs.2 hs.1 hmet⟩) start calls
    ⟨remembers_start gate, Nat.zero_le _⟩ hsound
  exact hboth.imp (step gate) fun _ h => h.1.genuine h.2

section Sample

def sampleGate : LiveDataQualityGate := ⟨60, 2, by norm_num, le_rfl⟩

def firstSymbol : Symbol := ⟨"000001".toList, Eq.refl true⟩

def secondSymbol : Symbol := ⟨"000002".toList, Eq.refl true⟩

def sampleQuote (symbol : Symbol) (time : Timestamp) : LiveQuote where
  symbol := symbol
  timestampExchange := time
  timestampReceived := time
  qualityFlag := .good
  isStale := false
  exchangeOffset := 0
  last := some 10
  volume := some 100
  amount := some 1000
  source := "feed".toList

/-- A tick with the quotes that expects the first symbol. -/
def sampleTick (quotes : List LiveQuote) (now : Timestamp) : QualityCall :=
  ⟨quotes, true, false, ["000001".toList], now⟩

/-- Two ticks between which the only quote gets a new timestamp. -/
theorem moving_genuine : Runs.Always (step sampleGate) (Genuine sampleGate) start
    [sampleTick [sampleQuote firstSymbol 0] 1000000,
      sampleTick [sampleQuote firstSymbol 3000000] 4000000] := by
  refine good_is_movement sampleGate _ ⟨fun _ _ hprevious => (nomatch hprevious), ?_, trivial⟩
  rintro - previous hprevious
  have hevaluated : (start.step sampleGate
      (sampleTick [sampleQuote firstSymbol 0] 1000000)).evaluated.head? =
        some [sampleQuote firstSymbol 0] := by decide +kernel
  rw [hevaluated] at hprevious
  cases hprevious
  right
  decide +kernel

/-- A tick for all symbols, and one for the first symbol with the same quote. -/
theorem narrowed_not_genuine : ¬ Runs.Always (step sampleGate) (Genuine sampleGate) start
    [sampleTick [sampleQuote firstSymbol 0, sampleQuote secondSymbol 0] 1000000,
      sampleTick [sampleQuote firstSymbol 0] 4000000] := by
  intro h
  have hend := h.last.moved
  have hgood : ([sampleTick [sampleQuote firstSymbol 0, sampleQuote secondSymbol 0] 1000000,
      sampleTick [sampleQuote firstSymbol 0] 4000000].foldl (step sampleGate)
        start).reported.map LiveDataQualityReport.status = some .good := by decide +kernel
  have hupdates : updates ([sampleTick [sampleQuote firstSymbol 0, sampleQuote secondSymbol 0]
      1000000, sampleTick [sampleQuote firstSymbol 0] 4000000].foldl (step sampleGate)
        start).evaluated = 0 := by decide +kernel
  obtain ⟨report, hreport, hstatus⟩ := Option.map_eq_some_iff.mp hgood
  have hcount := hend report hreport hstatus
  rw [hupdates] at hcount
  exact absurd hcount (by decide)

end Sample

end GateHistory

end QuantWorkbench.Runtime
