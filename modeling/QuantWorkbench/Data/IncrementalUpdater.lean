import QuantWorkbench.Lib.DaySteps
import QuantWorkbench.Storage.MarketStore

/-!
`IncrementalUpdater` and the daily refresh: which range is asked for a symbol, and whether what
comes back is merged into the stored bars or replaces them.
-/

namespace QuantWorkbench.Data

open Lib Storage

/-! ### Requests -/

structure UpdateSummary where
  symbolsSeen : ℕ := 0
  symbolsUpdated : ℕ := 0
  symbolsSkipped : ℕ := 0
  symbolsFailed : ℕ := 0
  rowsWritten : ℕ := 0
  errors : List (Text × String) := []

/-- The files and the summary that an update changes. -/
structure UpdateState where
  lake : DailyLake
  summary : UpdateSummary

/-- A provider in one call: what it gives to each of its requests, in their order. The instruments
are given by their symbols, if the frame has a column of them. -/
structure DailyProvider where
  dailyDataVersion : Option Text
  listInstruments : Date → Except String (Option (List Text))
  dailyBars : ℕ → Text → Date → Date → Except String Frame
  indexDailyBars : Option (ℕ → Text → Date → Date → Except String Frame)

/-- What happens to the writes of one call; `instruments` is how that of the instruments ends. -/
structure UpdateWrites where
  instruments : Option (List Text) → Except String Unit
  bars : ℕ → CallWrite

structure UpdateSettings where
  requiredVersion : Option Text
  minimumRows : ℕ
  startDate : Date
  endDate : Date

/-- A symbol that is asked for, as the position-th one of a call. -/
structure DailyRequest where
  position : ℕ
  symbol : Text
  isIndex : Bool

/-- What a call asks for, and the symbols that it reports as missing. -/
structure UpdatePlan where
  settings : UpdateSettings
  requests : List DailyRequest
  missing : List Text

def versionDiffers (required stored : Option Text) : Bool :=
  match required, stored with
  | some version, some old => version ≠ [] ∧ old ≠ version
  | _, _ => false

def storedEarliest (lake : DailyLake) (stem : Text) : Option Date :=
  (lake.values.find? fun file => file.symbol.text = stem).bind fun file =>
    file.bars.head?.map DailyBar.date

def replacesHistory (settings : UpdateSettings) (lake : DailyLake) (symbol : Symbol) : Bool :=
  versionDiffers settings.requiredVersion (dailyProfile lake symbol).2.2

/-- Where the range of a request starts. Only an index goes back to its stored bars. -/
def requestedStart (settings : UpdateSettings) (lake : DailyLake) (request : DailyRequest)
    (symbol : Symbol) : Except String Date :=
  if replacesHistory settings lake symbol then
    return if request.isIndex then (storedEarliest lake request.symbol).getD settings.startDate
      else settings.startDate
  else if (dailyProfile lake symbol).2.1 < settings.minimumRows then return settings.startDate
  else
    match (dailyProfile lake symbol).1 with
    | none => return settings.startDate
    | some latest => orRaise latest.next? "OverflowError"

def fetchBars (provider : DailyProvider) (request : DailyRequest) (startDate endDate : Date) :
    Except String Frame :=
  if request.isIndex then
    match provider.indexDailyBars with
    | none => .error "AttributeError"
    | some fetch => fetch request.position request.symbol startDate endDate
  else provider.dailyBars request.position request.symbol startDate endDate

namespace UpdateState

def seen (state : UpdateState) (count : ℕ) : UpdateState :=
  { state with summary := { state.summary with symbolsSeen := state.summary.symbolsSeen + count } }

def skipped (state : UpdateState) : UpdateState :=
  { state with summary :=
      { state.summary with symbolsSkipped := state.summary.symbolsSkipped + 1 } }

def failed (state : UpdateState) (lake : DailyLake) (symbol : Text) (error : String) :
    UpdateState where
  lake := lake
  summary := { state.summary with
    symbolsFailed := state.summary.symbolsFailed + 1
    errors := state.summary.errors ++ [(symbol, error)] }

def updated (state : UpdateState) (lake : DailyLake) (rows : ℕ) : UpdateState where
  lake := lake
  summary := { state.summary with
    symbolsUpdated := state.summary.symbolsUpdated + 1
    rowsWritten := state.summary.rowsWritten + rows }

def reportMissing (state : UpdateState) (symbols : List Text) : UpdateState :=
  { state with summary := { state.summary with
      symbolsFailed := state.summary.symbolsFailed + symbols.length
      errors := state.summary.errors ++ symbols.map fun symbol =>
        (symbol, "SYMBOL_NOT_AVAILABLE") } }

end UpdateState

variable [CellReader]

/-- The `try` block of an update: one bad endpoint does not stop the other symbols. -/
def storeBars (replaceExisting : Bool) (write : CallWrite) (symbol : Text)
    (fetched : Except String Frame) (state : UpdateState) : UpdateState :=
  match fetched with
  | .error error => state.failed state.lake symbol error
  | .ok frame =>
      match writeBars replaceExisting write frame state.lake with
      | (.ok (), lake) => state.updated lake frame.rows.length
      | (.error error, lake) => state.failed lake symbol error

/-- One turn of the loop over the instruments, or over the indices. -/
def updateSymbol (provider : DailyProvider) (writes : UpdateWrites) (settings : UpdateSettings)
    (request : DailyRequest) : Raising String UpdateState Unit := do
  if request.isIndex then
    Raising.change fun state => state.seen 1
  let symbol ← Raising.lift (orRaise (normalizeSymbol request.symbol) "DataValidationError")
  let lake ← Raising.read UpdateState.lake
  let start ← Raising.lift (requestedStart settings lake request symbol)
  if settings.endDate < start then
    Raising.change UpdateState.skipped
  else
    Raising.change (storeBars (replacesHistory settings lake symbol)
      (writes.bars request.position) request.symbol
      (fetchBars provider request start settings.endDate))

def requestsFrom (first : ℕ) (isIndex : Bool) (symbols : List Text) : List DailyRequest :=
  (symbols.zipIdx first).map fun (symbol, position) => ⟨position, symbol, isIndex⟩

/-- The instruments of a call and what it does before its loop. -/
def instrumentSymbols (writes : UpdateWrites) (instruments : Option (List Text))
    (limit : Option ℕ) : Except String (List Text) := do
  writes.instruments instruments
  let symbols ← orRaise instruments "AttributeError"
  return match limit with
    | none => symbols
    | some count => symbols.take count

/-- The loop of a call and what it reports after it. -/
def runPlan (provider : DailyProvider) (writes : UpdateWrites) (plan : UpdatePlan) :
    Raising String UpdateState Unit := do
  Raising.forEach (updateSymbol provider writes plan.settings) plan.requests
  Raising.change fun state => state.reportMissing plan.missing

/-- What `IncrementalUpdater.run` does before its loop. -/
def updaterPlan (provider : DailyProvider) (writes : UpdateWrites) (settings : UpdateSettings)
    (limit : Option ℕ) : Raising String UpdateState UpdatePlan := do
  Raising.check (settings.startDate ≤ settings.endDate)
    "start_date cannot be later than end_date"
  let instruments ← Raising.lift (provider.listInstruments settings.endDate)
  let symbols ← Raising.lift (instrumentSymbols writes instruments limit)
  Raising.change fun state => state.seen symbols.length
  return ⟨settings, requestsFrom 0 false symbols, []⟩

def updaterRun (provider : DailyProvider) (writes : UpdateWrites) (settings : UpdateSettings)
    (limit : Option ℕ) : Raising String UpdateState Unit := do
  let plan ← updaterPlan provider writes settings limit
  runPlan provider writes plan

/-! ### The refresh of the daily files -/

structure RefreshArguments where
  suppliedProvider : Bool
  target : Date
  lookbackDays : ℕ
  minimumHistoryRows : ℕ
  indexSymbols : List Text
  requiredSymbols : List Text

def fileProfile (lake : DailyLake) (stem : Text) : Option (Date × ℕ × Text) :=
  (lake.values.find? fun file => file.symbol.text = stem).bind fun file =>
    file.bars.getLast?.map fun last => (last.date, file.bars.length, last.dataVersion)

/-- The files that a refresh looks at, by their names. -/
def refreshStems (arguments : RefreshArguments) (lake : DailyLake) : Except String (List Text) := do
  let required ← arguments.requiredSymbols.mapM fun text =>
    orRaise (normalizeSymbol text) "invalid A-share symbol"
  require (required.dedup.length ≤ 50) "automatic account backfill is limited to 50 symbols"
  let stored := lake.values.map fun file => file.symbol.text
  return if required = [] then stored
    else (stored ++ required.map Symbol.text ++ arguments.indexSymbols).dedup

/-- All files reach the target with enough bars of the required version. -/
def refreshComplete (arguments : RefreshArguments) (requiredVersion : Option Text)
    (lake : DailyLake) (stems : List Text) : Bool :=
  stems ≠ [] ∧ ∀ stem ∈ stems, (fileProfile lake stem).any fun (latest, rows, version) =>
    arguments.target ≤ latest ∧ arguments.minimumHistoryRows ≤ rows ∧
      requiredVersion.all fun required => version = required

/-- The files without a profile are renamed. -/
def setCorruptAside (lake : DailyLake) : DailyLake :=
  lake.filter fun file => (fileProfile lake file.symbol.text).isSome

/-- The instruments whose digits are the name of a file. -/
def knownInstruments (stems : List Text) (instruments : Option (List Text)) :
    Option (List Text) :=
  instruments.map fun symbols => symbols.filter fun symbol => symbol.filter Text.isDigit ∈ stems

/-- The indices among the files that are no instruments. -/
def indexStems (arguments : RefreshArguments) (provider : DailyProvider)
    (stems symbols : List Text) : List Text :=
  if provider.indexDailyBars.isSome then
    (stems.filter fun stem => stem ∉ symbols ∧ stem ∈ arguments.indexSymbols).dedup.insertionSort
      (· ≤ ·)
  else []

/-- The files that are neither of an instrument nor of an index. -/
def missingStems (arguments : RefreshArguments) (stems symbols : List Text) : List Text :=
  (stems.filter fun stem => stem ∉ symbols ∧ stem ∉ arguments.indexSymbols).dedup.insertionSort
    (· ≤ ·)

def refreshSettings (arguments : RefreshArguments) (provider : DailyProvider) :
    Except String UpdateSettings := do
  let start ← orRaise (arguments.target.back? arguments.lookbackDays) "OverflowError"
  return ⟨provider.dailyDataVersion, arguments.minimumHistoryRows, start, arguments.target⟩

/-- What `refresh_daily_data_if_due` does before its loops; nothing is left to do if the files are
complete. -/
def refreshPlan (arguments : RefreshArguments) (provider : DailyProvider)
    (writes : UpdateWrites) : Raising String UpdateState (Option UpdatePlan) := do
  Raising.check (60 ≤ arguments.lookbackDays) "lookback_days must be at least 60"
  Raising.check (1 ≤ arguments.minimumHistoryRows) "minimum_history_rows must be positive"
  let lake ← Raising.read UpdateState.lake
  let stems ← Raising.lift (refreshStems arguments lake)
  let requiredVersion :=
    if arguments.suppliedProvider then provider.dailyDataVersion else none
  if refreshComplete arguments requiredVersion lake stems = true then
    return none
  Raising.change fun state => { state with lake := setCorruptAside state.lake }
  if stems = [] then
    let settings ← Raising.lift (refreshSettings arguments provider)
    return some (← updaterPlan provider writes settings (some 100))
  else
    let listed ← Raising.lift (provider.listInstruments arguments.target)
    let settings ← Raising.lift (refreshSettings arguments provider)
    let symbols ← Raising.lift (instrumentSymbols writes (knownInstruments stems listed) none)
    Raising.change fun state => state.seen symbols.length
    let indices := indexStems arguments provider stems symbols
    return some {
      settings
      requests := requestsFrom 0 false symbols ++ requestsFrom symbols.length true indices
      missing := missingStems arguments stems symbols }

/-- `refresh_daily_data_if_due`, as far as it changes the files. -/
def refreshDailyData (arguments : RefreshArguments) (provider : DailyProvider)
    (writes : UpdateWrites) : Raising String UpdateState Unit := do
  match ← refreshPlan arguments provider writes with
  | none => return ()
  | some plan => runPlan provider writes plan

end QuantWorkbench.Data
