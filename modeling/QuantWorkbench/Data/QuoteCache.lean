import QuantWorkbench.Data.RealtimeQuality
import QuantWorkbench.Lib.Floats
import QuantWorkbench.Lib.JsonBytes
import QuantWorkbench.Lib.Sha256Eval
import QuantWorkbench.Lib.Stamps

/-!
`RealtimeQuoteCache` of `data/realtime/cache.py` and the quotes of `contracts/realtime.py` with all
their fields. A cached quote is stale whatever it was when it was saved, and whatever the file says.
-/

namespace QuantWorkbench.Data.QuoteCache

open Lib

/-- `str` of a decoded value. -/
class PyStr where
  str : Json → Text
  str_text : ∀ text, str (.str text) = text

/-! ### Numbers of a quote -/

/-- The fields of a quote that hold a number or nothing. -/
inductive QuoteNumber where
  | last
  | opening
  | high
  | low
  | previousClose
  | volume
  | amount
  | bid1
  | ask1
  | change
  | changePct
  | turnoverRate
  deriving DecidableEq

namespace QuoteNumber

def key : QuoteNumber → String
  | last => "last"
  | opening => "open"
  | high => "high"
  | low => "low"
  | previousClose => "previous_close"
  | volume => "volume"
  | amount => "amount"
  | bid1 => "bid1"
  | ask1 => "ask1"
  | change => "change"
  | changePct => "change_pct"
  | turnoverRate => "turnover_rate"

/-- The fields in the order in which they are checked. -/
def all : List QuoteNumber :=
  [last, opening, high, low, previousClose, volume, amount, bid1, ask1, change, changePct,
    turnoverRate]

def positive : QuoteNumber → Bool
  | last | opening | high | low | previousClose => true
  | _ => false

theorem mem_all (field : QuoteNumber) : field ∈ all := by
  cases field <;> decide

end QuoteNumber

/-- What the constructor of a quote raises. -/
inductive QuoteError where
  | valueError (message : String)
  | typeError
  | overflowError
  deriving DecidableEq

variable {F : Type} [JsonFloats F]

/-- What `float` raises of a number or text that it does not convert. -/
def floatError : Scalar F → QuoteError
  | .text _ => .valueError "could not convert string to float"
  | _ => .overflowError

def optionalNumber (field : QuoteNumber) : Option (Scalar F) → Except QuoteError Unit
  | none => .ok ()
  | some value => do
      let numeric ← orRaise (Measure.float? value) (floatError value)
      require numeric.IsFinite (.valueError s!"{field.key} must be finite")
      require (¬ (field.positive = true ∧ numeric.atMost Number.zero = true))
        (.valueError s!"{field.key} must be positive")
      require (¬ (field.positive = false ∧ (field = .volume ∨ field = .amount) ∧
        numeric.less Number.zero = true)) (.valueError s!"{field.key} cannot be negative")

def optionalNumbers (number : QuoteNumber → Option (Scalar F)) :
    List QuoteNumber → Except QuoteError Unit
  | [] => .ok ()
  | field :: rest => do
      optionalNumber field (number field)
      optionalNumbers number rest

/-- `a < b` of two numbers or two texts; anything else raises. -/
def less? : Scalar F → Scalar F → Option Bool
  | .text a, .text b => some (a < b)
  | a, b => do
      let x ← Measure.number? a
      let y ← Measure.number? b
      return Number.less x y

def checkRange (high low : Option (Scalar F)) : Except QuoteError Unit :=
  match high, low with
  | some high, some low =>
      match less? high low with
      | none => .error .typeError
      | some true => .error (.valueError "high must not be lower than low")
      | some false => .ok ()
  | _, _ => .ok ()

/-! ### Quotes -/

def truthy (F : Type) [JsonFloats F] : Json → Bool
  | .null => false
  | .bool value => value
  | .int value => value ≠ 0
  | .float lexeme => (JsonFloats.ofLexeme? lexeme : Option F).all fun x =>
      CellFloats.number x ≠ Number.zero
  | .str text => text ≠ []
  | .arr items => !items.isEmpty
  | .obj members => !members.isEmpty

def statusText : DataQualityStatus → Text
  | .good => "GOOD".toList
  | .degraded => "DEGRADED".toList
  | .stale => "STALE".toList
  | .failed => "FAILED".toList

def parseStatus [CaseTable] (value : Text) : Option DataQualityStatus :=
  [DataQualityStatus.good, .degraded, .stale, .failed].find? fun status =>
    statusText status = CaseTable.upper value

theorem parseStatus_statusText [CaseTable] (status : DataQualityStatus) :
    parseStatus (statusText status) = some status := by
  have hcapitals : ∀ c ∈ statusText status, c.isUpper ∨ c = '_' := by
    cases status <;> decide
  rw [parseStatus, CaseTable.upper_of_capitals _ hcapitals]
  cases status <;> decide

/-- A quote. The fields that are not checked hold what they were given. -/
structure RealTimeQuote (F : Type) [JsonFloats F] where
  symbol : Symbol
  market : Json
  timestampExchange : AwareTime
  timestampReceived : AwareTime
  source : Json
  name : Json
  number : QuoteNumber → Option (Scalar F)
  qualityFlag : DataQualityStatus
  isStale : Json
  named : truthy F market = true ∧ truthy F source = true
  numbers_valid : optionalNumbers number QuoteNumber.all = .ok ()
  range_valid : checkRange (number .high) (number .low) = .ok ()
  stale_flag : ¬ (truthy F isStale = true ∧ qualityFlag = .good)

def ensureAware (value : Stamp) (field : String) : Except String AwareTime :=
  match value with
  | .naive _ => .error s!"{field} must be timezone-aware"
  | .aware time => .ok time

theorem aware_of_ensureAware {ε : Type} {wrap : String → ε} {value : Stamp} {field : String}
    {time : AwareTime} (h : (ensureAware value field).mapError wrap = .ok time) :
    value = .aware time := by
  cases value with
  | naive value => cases h
  | aware other =>
      cases h
      rfl

/-- The flag that `__post_init__` leaves. -/
def settledFlag (F : Type) [JsonFloats F] (isStale : Json) (flag : DataQualityStatus) :
    DataQualityStatus :=
  if truthy F isStale = true ∧ flag = .good then .stale else flag

theorem settledFlag_valid (isStale : Json) (flag : DataQualityStatus) :
    ¬ (truthy F isStale = true ∧ settledFlag F isStale flag = .good) := by
  rintro ⟨hstale, hgood⟩
  unfold settledFlag at hgood
  split at hgood
  · cases hgood
  · rename_i hnot
    exact hnot ⟨hstale, hgood⟩

namespace RealTimeQuote

variable [CaseTable] [PyStr]

/-- The constructor with `__post_init__`. -/
def make (symbol market : Json) (timestampExchange timestampReceived : Stamp) (source name : Json)
    (number : QuoteNumber → Option (Scalar F)) (qualityFlag isStale : Json) :
    Except QuoteError (RealTimeQuote F) := do
  let symbol ← orRaise (normalizeSymbol (PyStr.str symbol)) (.valueError "invalid A-share symbol")
  let flag ← orRaise (parseStatus (PyStr.str qualityFlag))
    (.valueError "invalid data quality status")
  let timestampExchange ←
    (ensureAware timestampExchange "timestamp_exchange").mapError QuoteError.valueError
  let timestampReceived ←
    (ensureAware timestampReceived "timestamp_received").mapError QuoteError.valueError
  let ⟨hnamed⟩ ← confirm (require (truthy F market = true ∧ truthy F source = true)
    (QuoteError.valueError "market and source are required"))
  let ⟨hnumbers⟩ ← confirm (optionalNumbers number QuoteNumber.all)
  let ⟨hrange⟩ ← confirm (checkRange (number .high) (number .low))
  return {
    symbol := symbol
    market := market
    timestampExchange := timestampExchange
    timestampReceived := timestampReceived
    source := source
    name := name
    number := number
    qualityFlag := settledFlag F isStale flag
    isStale := isStale
    named := require_eq_ok_iff.mp hnamed
    numbers_valid := hnumbers
    range_valid := hrange
    stale_flag := settledFlag_valid isStale flag }

/-- The fields of a quote are accepted again, with another flag and staleness as well. -/
theorem make_of_quote (quote : RealTimeQuote F) (flag : DataQualityStatus) (isStale : Json) :
    make (.str quote.symbol.text) quote.market (.aware quote.timestampExchange)
      (.aware quote.timestampReceived) quote.source quote.name quote.number
      (.str (statusText flag)) isStale = .ok { quote with
        qualityFlag := settledFlag F isStale flag
        isStale := isStale
        stale_flag := settledFlag_valid isStale flag } := by
  have hnamed : require (truthy F quote.market = true ∧ truthy F quote.source = true)
      (QuoteError.valueError "market and source are required") = .ok () :=
    require_of quote.named
  simp only [make, PyStr.str_text, normalizeSymbol_text, parseStatus_statusText, orRaise,
    ensureAware, Except.mapError, ok_bind, confirm_of hnamed, confirm_of quote.numbers_valid,
    confirm_of quote.range_valid]
  rfl

/-- `replace(quote, quality_flag=DataQualityStatus.STALE, is_stale=True)`. -/
def staled (quote : RealTimeQuote F) : RealTimeQuote F :=
  { quote with
    qualityFlag := .stale
    isStale := .bool true
    stale_flag := fun h => nomatch h.2 }

def replaceStale (quote : RealTimeQuote F) : Except QuoteError (RealTimeQuote F) :=
  make (.str quote.symbol.text) quote.market (.aware quote.timestampExchange)
    (.aware quote.timestampReceived) quote.source quote.name quote.number
    (.str (statusText .stale)) (.bool true)

theorem replaceStale_eq (quote : RealTimeQuote F) : quote.replaceStale = .ok quote.staled :=
  quote.make_of_quote .stale (.bool true)

end RealTimeQuote

/-! ### Quotes as JSON -/

namespace RealTimeQuote

def numberJson (quote : RealTimeQuote F) (field : QuoteNumber) : Json :=
  Json.nullable Measure.toJson (quote.number field)

/-- The items of `to_dict`, with their keys in order. -/
def members (quote : RealTimeQuote F) : List (Text × Json) :=
  [
    ("amount".toList, quote.numberJson .amount),
    ("ask1".toList, quote.numberJson .ask1),
    ("bid1".toList, quote.numberJson .bid1),
    ("change".toList, quote.numberJson .change),
    ("change_pct".toList, quote.numberJson .changePct),
    ("high".toList, quote.numberJson .high),
    ("is_stale".toList, quote.isStale),
    ("last".toList, quote.numberJson .last),
    ("low".toList, quote.numberJson .low),
    ("market".toList, quote.market),
    ("name".toList, quote.name),
    ("open".toList, quote.numberJson .opening),
    ("previous_close".toList, quote.numberJson .previousClose),
    ("quality_flag".toList, .str (statusText quote.qualityFlag)),
    ("source".toList, quote.source),
    ("symbol".toList, .str quote.symbol.text),
    ("timestamp_exchange".toList, .str quote.timestampExchange.isoformat),
    ("timestamp_received".toList, .str quote.timestampReceived.isoformat),
    ("turnover_rate".toList, quote.numberJson .turnoverRate),
    ("volume".toList, quote.numberJson .volume)]

def toDict (quote : RealTimeQuote F) : Json := .obj quote.members

def fields : List Text :=
  ["amount".toList, "ask1".toList, "bid1".toList, "change".toList, "change_pct".toList,
    "high".toList, "is_stale".toList, "last".toList, "low".toList, "market".toList, "name".toList,
    "open".toList, "previous_close".toList, "quality_flag".toList, "source".toList,
    "symbol".toList, "timestamp_exchange".toList, "timestamp_received".toList,
    "turnover_rate".toList, "volume".toList]

/-- The fields without a default. -/
def requiredFields : List Text :=
  ["symbol".toList, "market".toList, "timestamp_exchange".toList, "timestamp_received".toList,
    "last".toList, "source".toList]

/-- The fields that are not checked have the types that the class declares. -/
structure Declared (quote : RealTimeQuote F) : Prop where
  market : ∃ text, quote.market = .str text
  source : ∃ text, quote.source = .str text
  name : quote.name = .null ∨ ∃ text, quote.name = .str text
  isStale : ∃ value, quote.isStale = .bool value

/-- A number of the constructor call: what is no number and no text makes `float` raise. -/
def numberOf (F : Type) [JsonFloats F] : Option Json → Except QuoteError (Option (Scalar F))
  | none => .ok none
  | some .null => .ok none
  | some value => (orRaise (Measure.ofJson? value) .typeError).map some

def numbersOf (item : Json) : List QuoteNumber →
    Except QuoteError (QuoteNumber → Option (Scalar F))
  | [] => .ok fun _ => none
  | field :: rest => do
      let value ← numberOf F (item.member? field.key.toList)
      let others ← numbersOf item rest
      return fun other => if other = field then value else others other

variable [CaseTable] [PyStr] [IsoReader]

/-- The time of a member; `none` where it is missing or cannot be read. -/
def timeOf (item : Json) (key : String) : Except QuoteError Stamp := do
  let value ← orRaise (item.member? key.toList) (.valueError key)
  orRaise (IsoReader.read (PyStr.str value)) (.valueError "Invalid isoformat string")

/-- `RealTimeQuote(**normalized_item)` with the defaults of the class. What is no number raises
before the other fields are checked, which changes the error at most. -/
def ofItem (item : Json) : Except QuoteError (RealTimeQuote F) := do
  let timestampExchange ← timeOf item "timestamp_exchange"
  let timestampReceived ← timeOf item "timestamp_received"
  require ((∀ key ∈ item.keys, key ∈ fields) ∧ ∀ key ∈ requiredFields, key ∈ item.keys)
    QuoteError.typeError
  let member (key : String) (default : Json) := (item.member? key.toList).getD default
  let number ← numbersOf item QuoteNumber.all
  make (member "symbol" .null) (member "market" .null) timestampExchange timestampReceived
    (member "source" .null) (member "name" .null) number
    (member "quality_flag" (.str (statusText .good))) (member "is_stale" (.bool false))

omit [CaseTable] [PyStr] [IsoReader] in
theorem numberOf_nullable (value : Option (Scalar F)) :
    numberOf F (some (Json.nullable Measure.toJson value)) = .ok value := by
  cases value with
  | none => rfl
  | some value =>
      cases value with
      | float x =>
          simp only [Json.nullable, Measure.toJson, numberOf, Measure.ofJson?,
            JsonFloats.ofLexeme?_lexeme]
          rfl
      | _ => rfl

omit [CaseTable] [PyStr] [IsoReader] in
theorem member?_toDict (quote : RealTimeQuote F) (field : QuoteNumber) :
    quote.toDict.member? field.key.toList = some (quote.numberJson field) := by
  cases field <;> rfl

omit [CaseTable] [PyStr] [IsoReader] in
theorem numbersOf_toDict (quote : RealTimeQuote F) (wanted : List QuoteNumber) :
    ∃ number, numbersOf quote.toDict wanted = .ok number ∧
      ∀ field ∈ wanted, number field = quote.number field := by
  induction wanted with
  | nil => exact ⟨_, rfl, fun _ h => absurd h List.not_mem_nil⟩
  | cons first rest ih =>
      obtain ⟨others, hothers, hsame⟩ := ih
      have hfirst : numberOf F (quote.toDict.member? first.key.toList) =
          .ok (quote.number first) := by
        rw [member?_toDict]
        exact numberOf_nullable _
      refine ⟨_, by rw [numbersOf, hfirst, ok_bind, hothers, ok_bind]; rfl, fun field hfield => ?_⟩
      by_cases hfield' : field = first
      · rw [if_pos hfield', hfield']
      · rw [if_neg hfield']
        exact hsame field ((List.mem_cons.mp hfield).resolve_left hfield')

omit [CaseTable] [PyStr] [IsoReader] in
theorem numbersOf_toDict_all (quote : RealTimeQuote F) :
    numbersOf quote.toDict QuoteNumber.all = .ok quote.number := by
  obtain ⟨number, hnumber, hsame⟩ := quote.numbersOf_toDict QuoteNumber.all
  rw [hnumber, funext fun field => hsame field field.mem_all]

/-- A written quote is read back. -/
theorem ofItem_toDict (quote : RealTimeQuote F) : ofItem quote.toDict = .ok quote := by
  have hexchange : timeOf quote.toDict "timestamp_exchange" =
      .ok (.aware quote.timestampExchange) := by
    have hmember : quote.toDict.member? "timestamp_exchange".toList =
        some (.str quote.timestampExchange.isoformat) := rfl
    simp only [timeOf, hmember, orRaise, ok_bind, PyStr.str_text, IsoReader.read_isoformat]
  have hreceived : timeOf quote.toDict "timestamp_received" =
      .ok (.aware quote.timestampReceived) := by
    have hmember : quote.toDict.member? "timestamp_received".toList =
        some (.str quote.timestampReceived.isoformat) := rfl
    simp only [timeOf, hmember, orRaise, ok_bind, PyStr.str_text, IsoReader.read_isoformat]
  have hkeys : quote.toDict.keys = fields := rfl
  have hrequired : ((∀ key ∈ quote.toDict.keys, key ∈ fields) ∧
      ∀ key ∈ requiredFields, key ∈ quote.toDict.keys) := by
    rw [hkeys]
    exact ⟨fun _ h => h, by decide⟩
  have hsettled : settledFlag F quote.isStale quote.qualityFlag = quote.qualityFlag :=
    if_neg quote.stale_flag
  have hmade := quote.make_of_quote quote.qualityFlag quote.isStale
  simp only [hsettled] at hmade
  rw [ofItem, hexchange, ok_bind, hreceived, ok_bind, require_of hrequired, ok_bind,
    numbersOf_toDict_all, ok_bind]
  exact hmade

end RealTimeQuote

/-! ### The cache -/

/-- `timedelta.total_seconds` of a difference in microseconds, as it is rounded. -/
class Durations where
  totalSeconds : ℤ → ℚ
  totalSeconds_nonpos : ∀ microseconds, microseconds ≤ 0 → totalSeconds microseconds ≤ 0

structure RealtimeQuoteCache where
  maxBytes : ℕ
  maxQuotes : ℕ
  futureToleranceSeconds : Number
  positive : 0 < maxBytes ∧ 0 < maxQuotes
  tolerance_valid : futureToleranceSeconds.less (.finite 0) = false

/-- The default limits: eight megabytes, ten thousand quotes and two seconds. -/
def RealtimeQuoteCache.default : RealtimeQuoteCache where
  maxBytes := 8 * 1024 * 1024
  maxQuotes := 10000
  futureToleranceSeconds := .finite 2
  positive := by decide
  tolerance_valid := by decide +kernel

structure CachedQuoteSnapshot (F : Type) [JsonFloats F] where
  quotes : List (RealTimeQuote F)
  savedAt : AwareTime

inductive CacheError where
  | valueError (message : String)
  /-- The digest of the file has letters outside of ASCII. -/
  | typeError
  /-- A number of the file is too large for `float`. -/
  | overflowError
  deriving DecidableEq

/-- What `load` finds at the path. -/
inductive CacheFile where
  | missing
  | irregular
  | unreadable
  | regular (raw : List UInt8)

def payloadKeys : List Text :=
  ["format_version".toList, "quotes".toList, "saved_at".toList, "sha256".toList]

def quotePayload (quotes : List (RealTimeQuote F)) : Json :=
  .arr (quotes.map RealTimeQuote.toDict)

def payload (quotes : List (RealTimeQuote F)) (savedAt : AwareTime) : Json :=
  .obj [
    ("format_version".toList, .int 1),
    ("quotes".toList, quotePayload quotes),
    ("saved_at".toList, .str savedAt.isoformat),
    ("sha256".toList, .str (Sha256.ofText (Json.dumps (quotePayload quotes))))]

/-- The format version equals one. -/
def isVersionOne (F : Type) [JsonFloats F] : Json → Bool
  | .int value => value = 1
  | .bool value => value
  | .float lexeme => (JsonFloats.ofLexeme? lexeme : Option F).any fun x =>
      CellFloats.number x = .finite 1
  | _ => false

def refuse {α : Type} (message : String) : Except CacheError α := .error (.valueError message)

/-- What `load` makes of an error of the constructor; it does not handle an overflow. -/
def quoteRefused : QuoteError → CacheError
  | .overflowError => .overflowError
  | _ => .valueError "cache quote is invalid"

def itemsOf : Option Json → Except CacheError (List Json)
  | some (.arr items) => .ok items
  | _ => refuse "cache quote list is invalid"

namespace RealtimeQuoteCache

/-- The bytes that `save` leaves in the file, unless it raises; a write may fail. -/
def save (cache : RealtimeQuoteCache) (quotes : List (RealTimeQuote F)) (savedAt : Option Stamp)
    (clock : AwareTime) (fault : Option String) : Except CacheError (List UInt8) := do
  require (quotes.length ≤ cache.maxQuotes)
    (CacheError.valueError "cache quote count exceeds configured limit")
  let timestamp ← (ensureAware (savedAt.getD (.aware clock)) "saved_at").mapError
    CacheError.valueError
  let encoded := (Json.dumps (payload quotes timestamp)).utf8
  require (encoded.length ≤ cache.maxBytes)
    (CacheError.valueError "cache payload exceeds configured byte limit")
  match fault with
  | some message => refuse message
  | none => return encoded

variable [Durations]

def isFuture (cache : RealtimeQuoteCache) (reference time : AwareTime) : Bool :=
  cache.futureToleranceSeconds.less
    (.finite (Durations.totalSeconds (time.instant - reference.instant)))

theorem isFuture_of_le (cache : RealtimeQuoteCache) {reference time : AwareTime}
    (h : time.instant ≤ reference.instant) : cache.isFuture reference time = false := by
  have hseconds := Durations.totalSeconds_nonpos (time.instant - reference.instant) (by omega)
  have hvalid := cache.tolerance_valid
  unfold isFuture
  cases htolerance : cache.futureToleranceSeconds with
  | nan => rfl
  | infinite negative =>
      rw [htolerance] at hvalid
      cases negative with
      | false => rfl
      | true => cases hvalid
  | finite value =>
      rw [htolerance, Number.less, decide_eq_false_iff_not, not_lt] at hvalid
      rw [Number.less, decide_eq_false_iff_not, not_lt]
      exact hseconds.trans hvalid

variable [CaseTable] [PyStr] [IsoReader]

/-- One quote of the file, made stale. -/
def loadQuote (cache : RealtimeQuoteCache) (reference : AwareTime) (item : Json) :
    Except CacheError (RealTimeQuote F) := do
  let quote ← ((RealTimeQuote.ofItem item).mapError quoteRefused : Except _ (RealTimeQuote F))
  require (cache.isFuture reference quote.timestampExchange = false)
    (CacheError.valueError "cache contains future quote timestamp")
  require (cache.isFuture reference quote.timestampReceived = false)
    (CacheError.valueError "cache contains future received timestamp")
  quote.replaceStale.mapError quoteRefused

def loadPayload (cache : RealtimeQuoteCache) (now : Option Stamp) (clock : AwareTime)
    (payload : Json) : Except CacheError (CachedQuoteSnapshot F) := do
  require (payload.hasKeys payloadKeys = true)
    (CacheError.valueError "cache payload is invalid")
  require ((payload.member? "format_version".toList).any (isVersionOne F) = true)
    (CacheError.valueError "cache format version is unsupported")
  let items ← itemsOf (payload.member? "quotes".toList)
  require (items.length ≤ cache.maxQuotes) (CacheError.valueError "cache quote list is invalid")
  let digest ← orRaise (payload.text? "sha256") (CacheError.valueError "cache digest is invalid")
  require (digest.all (fun c => c.toNat < 128) = true) CacheError.typeError
  require (digest = Sha256.ofText (Json.dumps (.arr items)))
    (CacheError.valueError "cache digest mismatch")
  let written ← orRaise ((payload.member? "saved_at".toList).bind fun value =>
    IsoReader.read (PyStr.str value)) (CacheError.valueError "cache timestamp is invalid")
  let savedAt ← (ensureAware written "cache saved_at").mapError CacheError.valueError
  let reference ← (ensureAware (now.getD (.aware clock)) "now").mapError CacheError.valueError
  require (cache.isFuture reference savedAt = false)
    (CacheError.valueError "cache contains future timestamp")
  let quotes ← items.mapM (cache.loadQuote reference)
  return ⟨quotes, savedAt⟩

def load (cache : RealtimeQuoteCache) (now : Option Stamp) (clock : AwareTime)
    (file : CacheFile) : Except CacheError (Option (CachedQuoteSnapshot F)) :=
  match file with
  | .missing => .ok none
  | .irregular => refuse "cache path is not a regular file"
  | .unreadable => refuse "cache could not be read"
  | .regular raw => do
      require (raw ≠ [] ∧ raw.length ≤ cache.maxBytes)
        (CacheError.valueError "cache size is invalid")
      let payload ← orRaise (Json.ofBytes? raw) (CacheError.valueError "cache payload is invalid")
      some <$> cache.loadPayload now clock (payload.floatsRead F)

/-! ### What is saved is loaded -/

theorem loadQuote_toDict (cache : RealtimeQuoteCache) {reference : AwareTime}
    {quote : RealTimeQuote F} (hexchange : quote.timestampExchange.instant ≤ reference.instant)
    (hreceived : quote.timestampReceived.instant ≤ reference.instant) :
    cache.loadQuote reference quote.toDict = .ok quote.staled := by
  have hread : (RealTimeQuote.ofItem quote.toDict).mapError quoteRefused = .ok quote := by
    rw [quote.ofItem_toDict]
    rfl
  rw [loadQuote, hread, ok_bind, require_of (cache.isFuture_of_le hexchange), ok_bind,
    require_of (cache.isFuture_of_le hreceived), ok_bind, quote.replaceStale_eq]
  rfl

theorem mapM_loadQuote (cache : RealtimeQuoteCache) {reference : AwareTime}
    {quotes : List (RealTimeQuote F)}
    (h : ∀ quote ∈ quotes, quote.timestampExchange.instant ≤ reference.instant ∧
      quote.timestampReceived.instant ≤ reference.instant) :
    (quotes.map RealTimeQuote.toDict).mapM (cache.loadQuote reference) =
      .ok (quotes.map RealTimeQuote.staled) := by
  induction quotes with
  | nil => rfl
  | cons quote rest ih =>
      obtain ⟨⟨hexchange, hreceived⟩, hrest⟩ := List.forall_mem_cons.mp h
      rw [List.map_cons, List.mapM_cons, cache.loadQuote_toDict hexchange hreceived, ok_bind,
        ih hrest]
      rfl

end RealtimeQuoteCache

namespace RealTimeQuote

theorem forall_members {holds : Json → Prop} (quote : RealTimeQuote F)
    (hnumber : ∀ field, holds (quote.numberJson field)) (htext : ∀ text, holds (.str text))
    (hmarket : holds quote.market) (hsource : holds quote.source) (hname : holds quote.name)
    (hstale : holds quote.isStale) : ∀ member ∈ quote.members, holds member.2 := by
  simp only [members, List.forall_mem_cons]
  refine ⟨hnumber _, hnumber _, hnumber _, hnumber _, hnumber _, hnumber _, hstale, hnumber _,
    hnumber _, hmarket, hname, hnumber _, hnumber _, htext _, hsource, htext _, htext _, htext _,
    hnumber _, hnumber _, fun _ hnone => absurd hnone List.not_mem_nil⟩

theorem Declared.forall_members {holds : Json → Prop} {quote : RealTimeQuote F}
    (h : quote.Declared) (hnumber : ∀ field, holds (quote.numberJson field))
    (htext : ∀ text, holds (.str text)) (hbool : ∀ value, holds (.bool value))
    (hnull : holds .null) : ∀ member ∈ quote.members, holds member.2 := by
  obtain ⟨market, hmarket⟩ := h.market
  obtain ⟨source, hsource⟩ := h.source
  obtain ⟨isStale, hstale⟩ := h.isStale
  refine quote.forall_members hnumber htext ?_ ?_ ?_ ?_
  · exact hmarket ▸ htext market
  · exact hsource ▸ htext source
  · rcases h.name with hnone | ⟨name, hname⟩
    · exact hnone ▸ hnull
    · exact hname ▸ htext name
  · exact hstale ▸ hbool isStale

theorem Declared.canonical {quote : RealTimeQuote F} (h : quote.Declared) :
    quote.toDict.Canonical :=
  Json.Canonical.obj fields rfl (by decide) (h.forall_members
    (fun _ => Json.Canonical.nullable Measure.toJson_canonical _) Json.Canonical.str
    Json.Canonical.bool Json.Canonical.null)

theorem asRead_numberJson (quote : RealTimeQuote F) (field : QuoteNumber) :
    (quote.numberJson field).AsRead F := by
  unfold numberJson
  cases quote.number field with
  | none => exact Json.AsRead.null
  | some value => exact Json.AsRead.measure value

theorem Declared.asRead {quote : RealTimeQuote F} (h : quote.Declared) :
    quote.toDict.AsRead F :=
  Json.AsRead.obj (h.forall_members quote.asRead_numberJson Json.AsRead.str Json.AsRead.bool
    Json.AsRead.null)

end RealTimeQuote

section Payload

variable {quotes : List (RealTimeQuote F)} (h : ∀ quote ∈ quotes, quote.Declared)
  (savedAt : AwareTime)

include h

theorem canonical_quotePayload : (quotePayload quotes).Canonical := by
  refine Json.Canonical.arr fun item hitem => ?_
  obtain ⟨quote, hquote, rfl⟩ := List.mem_map.mp hitem
  exact (h quote hquote).canonical

theorem asRead_quotePayload : (quotePayload quotes).AsRead F := by
  refine Json.AsRead.arr fun item hitem => ?_
  obtain ⟨quote, hquote, rfl⟩ := List.mem_map.mp hitem
  exact (h quote hquote).asRead

theorem canonical_payload : (payload quotes savedAt).Canonical := by
  refine Json.Canonical.obj payloadKeys rfl (by decide) fun member hmember => ?_
  simp only [List.mem_cons, List.not_mem_nil, or_false] at hmember
  rcases hmember with rfl | rfl | rfl | rfl
  · exact Json.Canonical.int 1
  · exact canonical_quotePayload h
  · exact Json.Canonical.str _
  · exact Json.Canonical.str _

theorem asRead_payload : (payload quotes savedAt).AsRead F := by
  refine Json.AsRead.obj fun member hmember => ?_
  simp only [List.mem_cons, List.not_mem_nil, or_false] at hmember
  rcases hmember with rfl | rfl | rfl | rfl
  · exact Json.AsRead.int 1
  · exact asRead_quotePayload h
  · exact Json.AsRead.str _
  · exact Json.AsRead.str _

theorem ofBytes?_payload :
    Json.ofBytes? (Json.dumps (payload quotes savedAt)).utf8 = some (payload quotes savedAt) := by
  rw [Json.ofBytes?, Text.decodeUtf8_utf8, Option.bind_some,
    (canonical_payload h savedAt).loads_dumps]

end Payload

theorem all_ascii_digest (text : Text) :
    (Sha256.ofText text).all (fun c => c.toNat < 128) = true := by
  refine List.all_eq_true.mpr fun c hc => ?_
  obtain ⟨n, hn, rfl⟩ := Sha256.hexdigest_digits _ c hc
  interval_cases n <;> decide

namespace RealtimeQuoteCache

/-- What is known of a save that returns. -/
theorem save_ok {cache : RealtimeQuoteCache} {quotes : List (RealTimeQuote F)}
    {savedAt : Option Stamp} {clock : AwareTime} {fault : Option String} {raw : List UInt8}
    (h : cache.save quotes savedAt clock fault = .ok raw) :
    quotes.length ≤ cache.maxQuotes ∧ ∃ time, savedAt.getD (.aware clock) = .aware time ∧
      raw = (Json.dumps (payload quotes time)).utf8 ∧ raw.length ≤ cache.maxBytes := by
  obtain ⟨_, hcount, h⟩ := bind_eq_ok_iff.mp h
  obtain ⟨time, htime, h⟩ := bind_eq_ok_iff.mp h
  obtain ⟨_, hsize, h⟩ := bind_eq_ok_iff.mp h
  have haware := aware_of_ensureAware htime
  cases fault with
  | some message => cases h
  | none =>
      cases h
      exact ⟨require_eq_ok_iff.mp hcount, time, haware, rfl, require_eq_ok_iff.mp hsize⟩

theorem save_of {cache : RealtimeQuoteCache} {quotes : List (RealTimeQuote F)}
    {savedAt : Option Stamp} {clock time : AwareTime} (hcount : quotes.length ≤ cache.maxQuotes)
    (htime : savedAt.getD (.aware clock) = .aware time)
    (hsize : (Json.dumps (payload quotes time)).utf8.length ≤ cache.maxBytes) :
    cache.save quotes savedAt clock none = .ok (Json.dumps (payload quotes time)).utf8 := by
  simp only [save, require_of hcount, ok_bind, htime, ensureAware, Except.mapError,
    require_of hsize]
  rfl

variable [Durations] [CaseTable] [PyStr] [IsoReader]

theorem loadPayload_payload (cache : RealtimeQuoteCache) {quotes : List (RealTimeQuote F)}
    (hcount : quotes.length ≤ cache.maxQuotes) {savedAt reference clock : AwareTime}
    {now : Option Stamp} (hnow : now.getD (.aware clock) = .aware reference)
    (hsaved : savedAt.instant ≤ reference.instant)
    (hquotes : ∀ quote ∈ quotes, quote.timestampExchange.instant ≤ reference.instant ∧
      quote.timestampReceived.instant ≤ reference.instant) :
    cache.loadPayload now clock (payload quotes savedAt) =
      .ok ⟨quotes.map RealTimeQuote.staled, savedAt⟩ := by
  have hkeys : (payload quotes savedAt).hasKeys payloadKeys = true := Json.hasKeys_obj _ rfl
  have hversion : ((payload quotes savedAt).member? "format_version".toList).any
      (isVersionOne F) = true := rfl
  have hitems : (payload quotes savedAt).member? "quotes".toList =
      some (.arr (quotes.map RealTimeQuote.toDict)) := rfl
  have hdigest : (payload quotes savedAt).text? "sha256" =
      some (Sha256.ofText (Json.dumps (quotePayload quotes))) := rfl
  have htime : ((payload quotes savedAt).member? "saved_at".toList).bind
      (fun value => IsoReader.read (PyStr.str value)) = some (.aware savedAt) := by
    have hmember : (payload quotes savedAt).member? "saved_at".toList =
        some (.str savedAt.isoformat) := rfl
    rw [hmember, Option.bind_some, PyStr.str_text, IsoReader.read_isoformat]
  have hcounted : (quotes.map RealTimeQuote.toDict).length ≤ cache.maxQuotes := by
    rw [List.length_map]
    exact hcount
  have hascii := all_ascii_digest (Json.dumps (quotePayload quotes))
  have hmatches : Sha256.ofText (Json.dumps (quotePayload quotes)) =
      Sha256.ofText (Json.dumps (.arr (quotes.map RealTimeQuote.toDict))) := rfl
  rw [loadPayload, require_of hkeys, ok_bind, require_of hversion, ok_bind, hitems]
  simp only [itemsOf, ok_bind, require_of hcounted, hdigest, orRaise, require_of hascii,
    require_of hmatches, htime, ensureAware, Except.mapError, hnow,
    require_of (cache.isFuture_of_le hsaved), cache.mapM_loadQuote hquotes]
  rfl

theorem load_saved {cache : RealtimeQuoteCache} {quotes : List (RealTimeQuote F)}
    (hdeclared : ∀ quote ∈ quotes, quote.Declared) {time : AwareTime}
    (hcount : quotes.length ≤ cache.maxQuotes)
    (hsize : (Json.dumps (payload quotes time)).utf8.length ≤ cache.maxBytes)
    {reference clock : AwareTime} {now : Option Stamp}
    (hnow : now.getD (.aware clock) = .aware reference) (hsaved : time.instant ≤ reference.instant)
    (hquotes : ∀ quote ∈ quotes, quote.timestampExchange.instant ≤ reference.instant ∧
      quote.timestampReceived.instant ≤ reference.instant) :
    cache.load now clock (.regular (Json.dumps (payload quotes time)).utf8) =
      .ok (some ⟨quotes.map RealTimeQuote.staled, time⟩) := by
  have hne : (Json.dumps (payload quotes time)).utf8 ≠ [] := by
    intro hnil
    have hread := ofBytes?_payload hdeclared time
    rw [hnil] at hread
    cases hread
  have hfloats : (payload quotes time).floatsRead F = payload quotes time :=
    asRead_payload hdeclared time
  rw [load, require_of ⟨hne, hsize⟩, ok_bind, ofBytes?_payload hdeclared, orRaise, ok_bind,
    hfloats, cache.loadPayload_payload hcount hnow hsaved hquotes]
  rfl

/-! ### What is loaded is stale -/

/-- A snapshot as it is loaded at a time: stale, and not from the future. -/
structure OnlyStale (cache : RealtimeQuoteCache) (reference : AwareTime)
    (snapshot : CachedQuoteSnapshot F) : Prop where
  saved : cache.isFuture reference snapshot.savedAt = false
  stale : ∀ quote ∈ snapshot.quotes, quote.isStale = .bool true ∧ quote.qualityFlag = .stale
  past : ∀ quote ∈ snapshot.quotes, cache.isFuture reference quote.timestampExchange = false ∧
    cache.isFuture reference quote.timestampReceived = false

theorem loadQuote_ok {cache : RealtimeQuoteCache} {reference : AwareTime} {item : Json}
    {quote : RealTimeQuote F} (h : cache.loadQuote reference item = .ok quote) :
    (quote.isStale = .bool true ∧ quote.qualityFlag = .stale) ∧
      cache.isFuture reference quote.timestampExchange = false ∧
      cache.isFuture reference quote.timestampReceived = false := by
  obtain ⟨read, _, h⟩ := bind_eq_ok_iff.mp h
  obtain ⟨_, hexchange, h⟩ := bind_eq_ok_iff.mp h
  obtain ⟨_, hreceived, h⟩ := bind_eq_ok_iff.mp h
  rw [read.replaceStale_eq] at h
  cases h
  exact ⟨⟨rfl, rfl⟩, require_eq_ok_iff.mp hexchange, require_eq_ok_iff.mp hreceived⟩

theorem loadPayload_ok {cache : RealtimeQuoteCache} {now : Option Stamp} {clock : AwareTime}
    {payload : Json} {snapshot : CachedQuoteSnapshot F}
    (h : cache.loadPayload now clock payload = .ok snapshot) :
    ∃ reference, now.getD (.aware clock) = .aware reference ∧
      cache.OnlyStale reference snapshot := by
  obtain ⟨_, _, h⟩ := bind_eq_ok_iff.mp h
  obtain ⟨_, _, h⟩ := bind_eq_ok_iff.mp h
  obtain ⟨items, _, h⟩ := bind_eq_ok_iff.mp h
  obtain ⟨_, _, h⟩ := bind_eq_ok_iff.mp h
  obtain ⟨_, _, h⟩ := bind_eq_ok_iff.mp h
  obtain ⟨_, _, h⟩ := bind_eq_ok_iff.mp h
  obtain ⟨_, _, h⟩ := bind_eq_ok_iff.mp h
  obtain ⟨_, _, h⟩ := bind_eq_ok_iff.mp h
  obtain ⟨savedAt, _, h⟩ := bind_eq_ok_iff.mp h
  obtain ⟨reference, hreference, h⟩ := bind_eq_ok_iff.mp h
  obtain ⟨_, hsaved, h⟩ := bind_eq_ok_iff.mp h
  obtain ⟨quotes, hquotes, h⟩ := bind_eq_ok_iff.mp h
  cases h
  refine ⟨reference, aware_of_ensureAware hreference, require_eq_ok_iff.mp hsaved, ?_, ?_⟩
  · intro quote hquote
    obtain ⟨item, _, hloaded⟩ := mem_of_mapM_ok hquotes hquote
    exact (loadQuote_ok hloaded).1
  · intro quote hquote
    obtain ⟨item, _, hloaded⟩ := mem_of_mapM_ok hquotes hquote
    exact (loadQuote_ok hloaded).2

theorem load_ok {cache : RealtimeQuoteCache} {now : Option Stamp} {clock : AwareTime}
    {file : CacheFile} {snapshot : CachedQuoteSnapshot F}
    (h : cache.load now clock file = .ok (some snapshot)) :
    ∃ reference, now.getD (.aware clock) = .aware reference ∧
      cache.OnlyStale reference snapshot := by
  cases file with
  | missing => cases h
  | irregular => cases h
  | unreadable => cases h
  | regular raw =>
      obtain ⟨_, _, h⟩ := bind_eq_ok_iff.mp h
      obtain ⟨payload, _, h⟩ := bind_eq_ok_iff.mp h
      cases hloaded : cache.loadPayload (F := F) now clock (payload.floatsRead F) with
      | error error =>
          rw [hloaded] at h
          cases h
      | ok loaded =>
          rw [hloaded] at h
          cases h
          exact loadPayload_ok hloaded

/-- Cached quotes are never lost and never fresh: what was saved is loaded again at every later
time, made stale and otherwise the same, and of any file whatever only stale quotes are loaded. -/
theorem cached_quotes_kept_and_stale (cache : RealtimeQuoteCache) :
    (∀ (quotes : List (RealTimeQuote F)) (savedAt : Option Stamp) (clock : AwareTime)
        (fault : Option String) (raw : List UInt8), (∀ quote ∈ quotes, quote.Declared) →
      cache.save quotes savedAt clock fault = .ok raw →
      ∃ time, savedAt.getD (.aware clock) = .aware time ∧
        ∀ (now : Option Stamp) (later reference : AwareTime),
          now.getD (.aware later) = .aware reference → time.instant ≤ reference.instant →
          (∀ quote ∈ quotes, quote.timestampExchange.instant ≤ reference.instant ∧
            quote.timestampReceived.instant ≤ reference.instant) →
          cache.load now later (.regular raw) =
            .ok (some ⟨quotes.map RealTimeQuote.staled, time⟩)) ∧
    ∀ (now : Option Stamp) (clock : AwareTime) (file : CacheFile)
        (snapshot : CachedQuoteSnapshot F), cache.load now clock file = .ok (some snapshot) →
      ∃ reference, now.getD (.aware clock) = .aware reference ∧
        cache.OnlyStale reference snapshot := by
  refine ⟨fun quotes savedAt clock fault raw hdeclared hsave => ?_, fun _ _ _ _ h => load_ok h⟩
  obtain ⟨hcount, time, htime, rfl, hsize⟩ := save_ok hsave
  refine ⟨time, htime, fun now later reference hnow hsaved hquotes => ?_⟩
  exact load_saved hdeclared hcount hsize hnow hsaved hquotes

end RealtimeQuoteCache

section Sample

/-- `str` of texts, where nothing else is converted. -/
@[reducible] def textsOnly : PyStr where
  str
    | .str text => text
    | _ => []
  str_text _ := rfl

/-- Differences without rounding. -/
@[reducible] def exactDurations : Durations where
  totalSeconds microseconds := microseconds / 1000000
  totalSeconds_nonpos microseconds h := by
    have hcast : (microseconds : ℚ) ≤ 0 := by exact_mod_cast h
    exact div_nonpos_of_nonpos_of_nonneg hcast (by norm_num)

attribute [local instance] JsonFloats.one textsOnly exactDurations CaseTable.caseless
  Stamp.isoReader

def sampleTime : AwareTime where
  value := ⟨.of 2026 1 5, 9, 30, 0, 0⟩
  offset := .eightHours

def sampleQuote : RealTimeQuote Unit where
  symbol := ⟨"600000".toList, Eq.refl true⟩
  market := .str "SH".toList
  timestampExchange := sampleTime
  timestampReceived := sampleTime
  source := .str "akshare".toList
  name := .null
  number := fun field => if field = .last then some (.float ()) else none
  qualityFlag := .good
  isStale := .bool false
  named := by decide
  numbers_valid := by decide +kernel
  range_valid := by decide
  stale_flag := by decide

/-- A fresh quote is loaded as a stale one. -/
theorem sampleQuote_stale : ∃ raw,
    RealtimeQuoteCache.default.save [sampleQuote] none sampleTime none = .ok raw ∧
      RealtimeQuoteCache.default.load none sampleTime (.regular raw) =
        .ok (some ⟨[sampleQuote.staled], sampleTime⟩) := by
  have hsize : (Json.dumps (payload [sampleQuote] sampleTime)).utf8.length ≤
      RealtimeQuoteCache.default.maxBytes := by
    rw [payload, Sha256.ofText_toNat]
    decide +kernel
  have hcount : [sampleQuote].length ≤ RealtimeQuoteCache.default.maxQuotes := by decide
  have hsave : RealtimeQuoteCache.default.save [sampleQuote] none sampleTime none = .ok _ :=
    RealtimeQuoteCache.save_of hcount rfl hsize
  have hdeclared : ∀ quote ∈ [sampleQuote], quote.Declared := by
    intro quote hquote
    obtain rfl := List.mem_singleton.mp hquote
    exact ⟨⟨_, rfl⟩, ⟨_, rfl⟩, Or.inl rfl, ⟨_, rfl⟩⟩
  obtain ⟨time, htime, hload⟩ := (RealtimeQuoteCache.cached_quotes_kept_and_stale .default).1
    [sampleQuote] none sampleTime none _ hdeclared hsave
  cases htime
  refine ⟨_, hsave, hload none sampleTime sampleTime rfl le_rfl fun quote hquote => ?_⟩
  obtain rfl := List.mem_singleton.mp hquote
  exact ⟨le_rfl, le_rfl⟩

end Sample

end QuantWorkbench.Data.QuoteCache
