import QuantWorkbench.Lib.Keyed
import QuantWorkbench.Lib.Raising
import QuantWorkbench.Signals.OfficialModelSignal

/-!
The store of official signals. Memory has the signals of every date, and the file those of the
newest one. A call replaces the signals of its dates and strategies in memory and then writes
the file.
-/

namespace QuantWorkbench.Storage

open Lib Signals

variable {F : Type} [FloatFormat F] [FoldTable]

/-! ### Signals as text -/

def signalFields : List Text :=
  ["average_amount".toList, "data_cutoff".toList, "data_mode".toList, "feature_version".toList,
    "frequency".toList, "generated_at".toList, "invalidation_price".toList,
    "model_bundle_digest".toList, "model_version".toList, "name".toList,
    "normalized_score".toList, "rank".toList, "reasons".toList, "reference_price".toList,
    "signal_date".toList, "source".toList, "strategy_version".toList, "symbol".toList]

def Positive.toJson (value : Positive F) : Json := value.scalar.toJson

/-- `_encode_signal`, with its keys in the order in which they are written. -/
def encodeSignal (signal : OfficialModelSignal F) : Json :=
  .obj [("average_amount".toList, Json.nullable Positive.toJson signal.averageAmount),
    ("data_cutoff".toList, .str signal.dataCutoff.isoformat),
    ("data_mode".toList, .str signal.dataMode.text),
    ("feature_version".toList, .str signal.featureVersion.text),
    ("frequency".toList, .str "daily".toList),
    ("generated_at".toList, .str signal.generatedAt.isoformat),
    ("invalidation_price".toList, Json.nullable Positive.toJson signal.invalidationPrice),
    ("model_bundle_digest".toList, .str signal.modelBundleDigest.text),
    ("model_version".toList, .str signal.modelVersion.text),
    ("name".toList, .str signal.name.text),
    ("normalized_score".toList, signal.normalizedScore.score.toJson),
    ("rank".toList, Json.nullable (fun place : ℕ => .int place) signal.rank),
    ("reasons".toList, .arr ((signal.reasons.map RequiredText.text).map Json.str)),
    ("reference_price".toList, Json.nullable Positive.toJson signal.referencePrice),
    ("signal_date".toList, .str signal.signalDate.isoformat),
    ("source".toList, .str signal.source.text),
    ("strategy_version".toList, .str signal.strategyVersion),
    ("symbol".toList, .str signal.symbol.text)]

/-- The digest of a row with all its keys; a row without one has an empty digest. -/
def bundleDigestText (payload : Json) : Option Text :=
  if payload.hasKeys (signalFields.filter (· ≠ "model_bundle_digest".toList)) = true then some []
  else if payload.hasKeys signalFields = true then payload.text? "model_bundle_digest"
  else none

def decodeSignal (payload : Json) : Option (OfficialModelSignal F) := do
  let modelBundleDigest ← bundleDigestText payload
  let reasons ← payload.field "reasons" Json.asTexts
  guard (payload.text? "frequency" = some "daily".toList)
  let signalDate ← (payload.text? "signal_date").bind Day.fromisoformat
  let symbol ← payload.text? "symbol"
  let name ← payload.text? "name"
  let normalizedScore ← payload.field "normalized_score" Scalar.ofJson?
  let strategyVersion ← payload.text? "strategy_version"
  let modelVersion ← payload.text? "model_version"
  let featureVersion ← payload.text? "feature_version"
  let dataMode ← payload.text? "data_mode"
  let source ← payload.text? "source"
  let dataCutoff ← (payload.text? "data_cutoff").bind Day.fromisoformat
  let generatedAt ← (payload.text? "generated_at").bind UtcDateTime.fromisoformat
  let rank ← payload.field "rank" (Json.asNullable Json.asInt)
  let referencePrice ← payload.field "reference_price" (Json.asNullable Scalar.ofJson?)
  let averageAmount ← payload.field "average_amount" (Json.asNullable Scalar.ofJson?)
  let invalidationPrice ← payload.field "invalidation_price" (Json.asNullable Scalar.ofJson?)
  (OfficialModelSignal.create signalDate symbol normalizedScore strategyVersion name modelVersion
    featureVersion dataMode source (some dataCutoff) generatedAt rank reasons referencePrice
    averageAmount invalidationPrice modelBundleDigest).toOption

def signalArtifactLimit : ℕ := 4 * 1024 * 1024

def signalArtifactFields : List Text :=
  ["data_mode".toList, "format_version".toList, "operating_mode".toList, "signals".toList]

/-- What `_persist` writes. -/
def signalArtifactText (signals : List (OfficialModelSignal F)) : Text :=
  Json.dumps (.obj [("data_mode".toList, .str "historical".toList),
    ("format_version".toList, .int 1),
    ("operating_mode".toList, .str "PAPER_ONLY".toList),
    ("signals".toList, .arr (signals.map encodeSignal))]) ++ ['\n']

/-- The signals of a file that `_load` can read. -/
def decodeSignalArtifact (text : Text) : Option (List (OfficialModelSignal F)) := do
  guard (text ≠ [] ∧ text.utf8.length ≤ signalArtifactLimit)
  let payload ← Json.loads text
  guard (payload.hasKeys signalArtifactFields = true)
  guard (payload.count? "format_version" = some 1)
  guard (payload.text? "data_mode" = some "historical".toList)
  guard (payload.text? "operating_mode" = some "PAPER_ONLY".toList)
  let signals ← payload.field "signals" (Json.asList decodeSignal)
  guard (signals ≠ [])
  guard (∀ signal ∈ signals, signal.dataMode = .historical)
  return signals

/-! ### What is written is read back -/

omit [FoldTable] in
theorem decode_positive (value : Option (Positive F)) :
    Json.asNullable Scalar.ofJson? (Json.nullable Positive.toJson value) =
      some (value.map Positive.scalar) := by
  cases value with
  | none => rfl
  | some value =>
      change (Scalar.ofJson? value.scalar.toJson).map some = _
      rw [Scalar.ofJson?_toJson]
      rfl

omit [FloatFormat F] [FoldTable] in
theorem decode_rank (rank : Option ℕ) :
    Json.asNullable Json.asInt (Json.nullable (fun place : ℕ => .int place) rank) =
      some (rank.map Int.ofNat) := by
  cases rank <;> rfl

theorem decodeSignal_encodeSignal {signal : OfficialModelSignal F}
    (h : signal.signalDate.isDate = true) : decodeSignal (encodeSignal signal) = some signal := by
  have hcutoff : signal.dataCutoff.isDate = true := Day.isDate_of_after? signal.cutoffNotLater h
  have hdigest : bundleDigestText (encodeSignal signal) = some signal.modelBundleDigest.text := rfl
  have hreasons : (encodeSignal signal).field "reasons" Json.asTexts =
      some (signal.reasons.map RequiredText.text) := Json.asTexts_map _
  have hfrequency : (encodeSignal signal).text? "frequency" = some "daily".toList := rfl
  have hdate : (encodeSignal signal).text? "signal_date" = some signal.signalDate.isoformat := rfl
  have hsymbol : (encodeSignal signal).text? "symbol" = some signal.symbol.text := rfl
  have hname : (encodeSignal signal).text? "name" = some signal.name.text := rfl
  have hscore : (encodeSignal signal).field "normalized_score" Scalar.ofJson? =
      some signal.normalizedScore.score := Scalar.ofJson?_toJson _
  have hstrategy : (encodeSignal signal).text? "strategy_version" = some signal.strategyVersion :=
    rfl
  have hmodel : (encodeSignal signal).text? "model_version" = some signal.modelVersion.text := rfl
  have hfeature : (encodeSignal signal).text? "feature_version" = some signal.featureVersion.text :=
    rfl
  have hmode : (encodeSignal signal).text? "data_mode" = some signal.dataMode.text := rfl
  have hsource : (encodeSignal signal).text? "source" = some signal.source.text := rfl
  have hcutoffText : (encodeSignal signal).text? "data_cutoff" =
      some signal.dataCutoff.isoformat := rfl
  have hgenerated : (encodeSignal signal).text? "generated_at" =
      some signal.generatedAt.isoformat := rfl
  have hrank : (encodeSignal signal).field "rank" (Json.asNullable Json.asInt) =
      some (signal.rank.map Int.ofNat) := decode_rank _
  have hreference : (encodeSignal signal).field "reference_price" (Json.asNullable Scalar.ofJson?) =
      some (signal.referencePrice.map Positive.scalar) := decode_positive _
  have haverage : (encodeSignal signal).field "average_amount" (Json.asNullable Scalar.ofJson?) =
      some (signal.averageAmount.map Positive.scalar) := decode_positive _
  have hinvalidation : (encodeSignal signal).field "invalidation_price"
      (Json.asNullable Scalar.ofJson?) = some (signal.invalidationPrice.map Positive.scalar) :=
    decode_positive _
  rw [decodeSignal, hdigest, hreasons, hfrequency, hdate, hsymbol, hname, hscore,
    hstrategy, hmodel, hfeature, hmode, hsource, hcutoffText, hgenerated, hrank, hreference,
    haverage, hinvalidation]
  simp only [guard, if_true, Option.bind_eq_bind, Option.bind_some, Option.pure_def,
    UtcDateTime.fromisoformat_isoformat, Day.fromisoformat_isoformat_of_isDate h,
    Day.fromisoformat_isoformat_of_isDate hcutoff, signal.create_self]
  rfl

theorem encodeSignal_canonical (signal : OfficialModelSignal F) : (encodeSignal signal).Canonical
    := by
  have hprice : ∀ value : Option (Positive F), (Json.nullable Positive.toJson value).Canonical :=
    Json.Canonical.nullable fun value => value.scalar.toJson_canonical
  have hrank : (Json.nullable (fun place : ℕ => .int place) signal.rank).Canonical :=
    Json.Canonical.nullable (fun _ => .int _) signal.rank
  have hreasons := Json.Canonical.arr_map Json.Canonical.str (signal.reasons.map RequiredText.text)
  refine Json.Canonical.obj signalFields rfl (by decide) ?_
  simp [-List.map_map, Json.Canonical.str, hprice, hrank, hreasons, Scalar.toJson_canonical]

/-- The file as a JSON value. -/
def signalArtifact (signals : List (OfficialModelSignal F)) : Json :=
  .obj [("data_mode".toList, .str "historical".toList),
    ("format_version".toList, .int 1),
    ("operating_mode".toList, .str "PAPER_ONLY".toList),
    ("signals".toList, .arr (signals.map encodeSignal))]

theorem signalArtifact_canonical (signals : List (OfficialModelSignal F)) :
    (signalArtifact signals).Canonical := by
  have hsignals := Json.Canonical.arr_map encodeSignal_canonical signals
  refine Json.Canonical.obj signalArtifactFields rfl (by decide) ?_
  simp [Json.Canonical.str, Json.Canonical.int, hsignals]

/-- Plain historical signals are read from every text of their artifact that is not too large. -/
theorem decodeSignalArtifact_of_loads {signals : List (OfficialModelSignal F)} {text : Text}
    (hloads : Json.loads text = some (signalArtifact signals)) (hsome : signals ≠ [])
    (hdates : ∀ signal ∈ signals, signal.signalDate.isDate = true)
    (hmodes : ∀ signal ∈ signals, signal.dataMode = .historical)
    (hnonempty : text ≠ []) (hsize : text.utf8.length ≤ signalArtifactLimit) :
    decodeSignalArtifact text = some signals := by
  have hread : (signals.map encodeSignal).mapM decodeSignal = some signals :=
    Json.mapM_map_of_mem fun signal hsignal => decodeSignal_encodeSignal (hdates signal hsignal)
  have hfields : (signalArtifact signals).hasKeys signalArtifactFields = true :=
    Json.hasKeys_obj signalArtifactFields rfl
  have hfield : (signalArtifact signals).field "signals" (Json.asList decodeSignal) =
      some signals := hread
  rw [decodeSignalArtifact]
  simp only [guard, if_pos (And.intro hnonempty hsize), Option.bind_eq_bind, Option.bind_some,
    Option.pure_def, hloads, hfields, hfield, if_true]
  rw [if_pos hmodes, if_pos hsome]
  rfl

/-- They are read back from the file. -/
theorem decodeSignalArtifact_text {signals : List (OfficialModelSignal F)} (hsome : signals ≠ [])
    (hdates : ∀ signal ∈ signals, signal.signalDate.isDate = true)
    (hmodes : ∀ signal ∈ signals, signal.dataMode = .historical)
    (hsize : (signalArtifactText signals).utf8.length ≤ signalArtifactLimit) :
    decodeSignalArtifact (signalArtifactText signals) = some signals :=
  decodeSignalArtifact_of_loads (signalArtifact_canonical signals).loads_dumps_newline hsome hdates
    hmodes (List.append_ne_nil_of_right_ne_nil _ (List.cons_ne_nil _ _)) hsize

/-! ### The store -/

def signalKey (signal : OfficialModelSignal F) : Day.Key × Text × Text :=
  (signal.signalDate.key, signal.symbol.text, signal.strategyVersion)

variable (F) in
/-- The signals in memory, each under its date, symbol and strategy. -/
abbrev SignalsByKey :=
  Keyed (signalKey : OfficialModelSignal F → Day.Key × Text × Text)

def signalGroup (signal : OfficialModelSignal F) : Day.Key × Text :=
  (signal.signalDate.key, signal.strategyVersion)

def replaceGroups (memory : SignalsByKey F) (incoming : List (OfficialModelSignal F)) :
    SignalsByKey F :=
  incoming.foldl Keyed.put
    (memory.filter fun signal => signalGroup signal ∉ incoming.map signalGroup)

/-- One turn of `max`. -/
def laterDay (newest day : Day) : Except String Day := do
  let later ← orRaise (day.after? newest) "can't compare these dates"
  return if later then day else newest

/-- `max` of the dates, if there are any. -/
def newestDay : List Day → Except String (Option Day)
  | [] => return none
  | day :: rest => do return some (← rest.foldlM laterDay day)

/-- What signals of one date are sorted by: the best score first, then symbol and strategy. -/
def rankKey (signal : OfficialModelSignal F) : ℚ ×ₗ Text ×ₗ Text :=
  toLex (- FloatFormat.value signal.normalizedScore.number,
    toLex (signal.symbol.text, signal.strategyVersion))

def ranked (signals : List (OfficialModelSignal F)) : List (OfficialModelSignal F) :=
  signals.insertionSort fun signal other => rankKey signal ≤ rankKey other

def latestSignals (memory : SignalsByKey F) : Except String (List (OfficialModelSignal F)) := do
  match ← newestDay (memory.values.map fun signal => signal.signalDate) with
  | none => return []
  | some newest =>
      return ranked (memory.values.filter fun signal => signal.signalDate.key = newest.key)

variable (F) in
structure SignalStore where
  file : Option Text
  memory : SignalsByKey F

def openSignalStore (file : Option Text) : Except String (SignalStore F) :=
  match file with
  | none => return ⟨none, .empty⟩
  | some text => do
      let signals ← orRaise (decodeSignalArtifact text) "official signal artifact is invalid"
      if nodup : (signals.map signalKey).Nodup then return ⟨some text, ⟨signals, nodup⟩⟩
      else .error "official signal artifact is invalid"

/-- `_persist`, which may fail before the file is replaced. -/
def persistSignals (fault : Option String) : Raising String (SignalStore F) Unit := do
  let memory ← Raising.read SignalStore.memory
  if let some error := fault then
    Raising.raise error
  let latest ← Raising.lift (latestSignals memory)
  if latest ≠ [] then
    Raising.change fun store => { store with file := some (signalArtifactText latest) }

def putSignals (incoming : List (OfficialModelSignal F)) (persist : Bool) (fault : Option String) :
    Raising String (SignalStore F) Unit := do
  Raising.change fun store => { store with memory := replaceGroups store.memory incoming }
  if incoming ≠ [] ∧ persist = true then
    persistSignals fault

end QuantWorkbench.Storage
