import QuantWorkbench.Data.Normalization
import Mathlib.Data.List.AList

/-!
Real-time quotes and the checks they pass before they are stored: the tracker that
refuses timestamps which move backwards, and the freshness report. Instants are
counted in microseconds and an exception is the name of its type.
-/

namespace QuantWorkbench.Data

open QuantWorkbench.Lib

abbrev Timestamp := ℤ

inductive DataQualityStatus where
  | good
  | degraded
  | stale
  | failed
  deriving DecidableEq

/-- The fields of a quote that the checks and the store read. -/
structure RealTimeQuote where
  symbol : Symbol
  timestampExchange : Timestamp
  timestampReceived : Timestamp
  qualityFlag : DataQualityStatus
  isStale : Bool
  deriving DecidableEq

structure QuoteQualityReport where
  status : DataQualityStatus
  quotes : List RealTimeQuote
  missingSymbols : List Symbol
  quarantinedSymbols : List Symbol
  isUsable : Bool
  canGenerateReady : Bool
  reason : String
  deriving DecidableEq

def RealTimeQuote.quarantined (quote : RealTimeQuote) : RealTimeQuote :=
  { quote with isStale := true, qualityFlag := .stale }

def RealTimeQuote.dataAgeSeconds (quote : RealTimeQuote) (now : Timestamp) : ℚ :=
  max 0 (((now - quote.timestampExchange : ℤ) : ℚ) / 1000000)

/-- The quote is from the future, too old or flagged by its provider. -/
def RealTimeQuote.Rejected (quote : RealTimeQuote) (now : Timestamp)
    (staleAfterSeconds : ℚ) : Prop :=
  now < quote.timestampExchange ∨ staleAfterSeconds < quote.dataAgeSeconds now ∨
    quote.isStale = true

instance (quote : RealTimeQuote) (now : Timestamp) (staleAfterSeconds : ℚ) :
    Decidable (quote.Rejected now staleAfterSeconds) :=
  inferInstanceAs (Decidable (_ ∨ _ ∨ _))

def checkedQuote (now : Timestamp) (staleAfterSeconds : ℚ) (quote : RealTimeQuote) :
    RealTimeQuote :=
  if quote.Rejected now staleAfterSeconds then quote.quarantined else quote

def freshQuotes (quotes : List RealTimeQuote) : List RealTimeQuote :=
  quotes.filter fun quote => !quote.isStale

def qualityVerdict (checked : List RealTimeQuote) (missing quarantined : List Symbol) :
    DataQualityStatus × String :=
  if checked = [] then (.failed, "no quotes received")
  else if freshQuotes checked = [] then
    (.stale, "all received quotes exceeded the configured freshness threshold")
  else if missing ≠ [] ∨ quarantined ≠ [] then
    (.degraded, "expected symbols are missing or stale quotes were quarantined")
  else (.good, "all received quotes passed freshness checks")

def assessQuoteQuality (quotes : List RealTimeQuote) (expectedSymbols : List Text)
    (now : Timestamp) (staleAfterSeconds : ℚ) : Except String QuoteQualityReport :=
  if staleAfterSeconds ≤ 0 then .error "ValueError"
  else
    match expectedSymbols.mapM normalizeSymbol with
    | none => .error "DataValidationError"
    | some normalized =>
        let checked := quotes.map (checkedQuote now staleAfterSeconds)
        let quarantined := (quotes.filter (·.Rejected now staleAfterSeconds)).map (·.symbol)
        let received := (freshQuotes checked).map (·.symbol)
        let missing := normalized.eraseDups.filter (· ∉ received)
        let verdict := qualityVerdict checked missing quarantined
        .ok {
          status := verdict.1
          quotes := checked
          missingSymbols := missing
          quarantinedSymbols := quarantined
          isUsable := verdict.1 = .good ∨ verdict.1 = .degraded
          canGenerateReady := verdict.1 = .good ∧ missing = [] ∧ quarantined = []
          reason := verdict.2 }

abbrev TimestampTracker := AList fun _ : Symbol => Timestamp

namespace TimestampTracker

/-- Remembers the timestamp, or refuses it with the text of its `ValueError`. -/
def observe (tracker : TimestampTracker) (futureToleranceSeconds : ℚ) (symbol : Text)
    (timestamp now : Timestamp) : Except String TimestampTracker :=
  match normalizeSymbol symbol with
  | none => .error "invalid A-share symbol"
  | some normalized =>
      if futureToleranceSeconds < ((timestamp - now : ℤ) : ℚ) / 1000000 then
        .error "timestamp is in the future"
      else
        match tracker.lookup normalized with
        | some previous =>
            if timestamp < previous then .error "timestamp moved backwards"
            else .ok (tracker.insert normalized timestamp)
        | none => .ok (tracker.insert normalized timestamp)

end TimestampTracker

/-- The breaker opens when no usable data remains and closes on a usable subset. -/
def circuitState (status : DataQualityStatus) : Bool :=
  status = .stale ∨ status = .failed

end QuantWorkbench.Data
