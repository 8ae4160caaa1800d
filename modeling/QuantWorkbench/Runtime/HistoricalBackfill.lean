import QuantWorkbench.Lib.Text
import Mathlib.Data.List.Sort

/-!
The historical backfill coordinator: one bounded batch of provider requests per
run, merged into one artifact per symbol, with a checkpoint that keeps the outer
bounds of what each artifact holds. Dates are their proleptic ordinals.
-/

namespace QuantWorkbench.Runtime

open QuantWorkbench.Lib

/-- The ordinal of the last date the standard library can name. -/
def dateMax : ℕ := 3652059

/-- The largest number of days a time difference can hold. -/
def timedeltaMaxDays : ℕ := 999999999

/-- One session of the research history. The status cells are `none` where the
column is missing or the cell has no value. -/
structure HistoryRow (Cells : Type) where
  symbol : String
  date : ℕ
  tradeStatus : Option Text
  isSt : Option Text
  tradable : Option Text
  researchUsable : Bool
  unusableReason : Text
  cells : Cells
  deriving DecidableEq

abbrev HistoryFrame (Cells : Type) := List (HistoryRow Cells)

/-- What `research-history:start:end:digest` is made of. -/
structure DataVersion where
  startDate : ℕ
  endDate : ℕ
  frameDigest : String
  deriving DecidableEq

/-- A published file of the research store together with the frame it holds. -/
structure ResearchArtifact (Cells : Type) where
  frame : HistoryFrame Cells
  sha256 : String
  sizeBytes : ℕ
  dataVersion : DataVersion
  deriving DecidableEq

structure SymbolRecord where
  startDate : ℕ
  endDate : ℕ
  rows : ℕ
  sessions : ℕ
  earliestDate : ℕ
  latestDate : ℕ
  unavailableStatusFields : List String
  exclusionReasons : List Text
  sizeBytes : ℕ
  artifactSha256 : String
  artifactDataVersion : DataVersion
  leadingGapSkipped : Bool
  deriving DecidableEq

structure Checkpoint where
  target : Option (ℕ × ℕ)
  symbols : String → Option SymbolRecord
  failures : String → Option String

/-- What survives a run: the checkpoint file and the active artifact of each
symbol. -/
structure Storage (Cells : Type) where
  checkpoint : Checkpoint
  active : String → Option (ResearchArtifact Cells)

def Storage.empty {Cells : Type} : Storage Cells :=
  ⟨⟨none, fun _ => none, fun _ => none⟩, fun _ => none⟩

/-- What the data frame library computes from a frame: its file and the digest of
its cells. -/
structure FrameFormat (Cells : Type) where
  parquetSha256 : HistoryFrame Cells → String
  parquetSize : HistoryFrame Cells → ℕ
  frameDigest : HistoryFrame Cells → String

inductive ProviderFailure where
  | transient
  | permanent (message : String)
  deriving DecidableEq

structure HistoricalHistoryProvider (Cells : Type) where
  listResearchInstruments : ℕ → Except ProviderFailure (List String)
  getResearchHistory : String → ℕ → ℕ → Except ProviderFailure (HistoryFrame Cells)

structure HistoricalBackfillCoordinator (Cells : Type) where
  provider : HistoricalHistoryProvider Cells
  format : FrameFormat Cells
  maxRequestDays : Option ℕ
  maxRequestDays_pos : ∀ days ∈ maxRequestDays, 1 ≤ days

inductive BackfillError where
  | value (message : String)
  | provider (failure : ProviderFailure)
  | checkpointIntegrity (message : String)
  | overflow
  | storage
  deriving DecidableEq

/-- The accesses to the local disk at which a run can be stopped. -/
inductive FaultPoint where
  | load
  | request (symbol : String)
  | publish (symbol : String)
  | checkpoint (symbol : String)
  deriving DecidableEq

/-- One call of `run` and the disk accesses that fail during it. -/
structure BackfillCall where
  startDay : ℕ
  endDay : ℕ
  limit : ℕ
  fails : FaultPoint → Bool

structure BackfillResult where
  symbolsUpdated : ℕ
  rowsWritten : ℕ
  failures : List (String × String)
  deriving DecidableEq

variable {Cells : Type}

def frameDates (frame : HistoryFrame Cells) : List ℕ := frame.map (·.date)

def frameBounds (frame : HistoryFrame Cells) : Except ProviderFailure (ℕ × ℕ) :=
  match (frameDates frame).min?, (frameDates frame).max? with
  | some first, some last => .ok (first, last)
  | _, _ => .error (.permanent "research history has no date bounds")

def validateHistory (frame : HistoryFrame Cells) (symbol : String) (startDay endDay : ℕ) :
    Except ProviderFailure Unit :=
  if frame = [] then .ok ()
  else if ∃ row ∈ frame, row.symbol ≠ symbol then
    .error (.permanent "research history symbol mismatch")
  else if (∃ row ∈ frame, row.date < startDay) ∨ (∃ row ∈ frame, endDay < row.date) ∨
      ¬ (frameDates frame).Nodup then
    .error (.permanent "research history date range is invalid")
  else .ok ()

/-- The symbols of the answer in sorted order, whatever their listing status. -/
def validateInstruments (symbols : List String) : Except ProviderFailure (List String) :=
  if symbols.Nodup then .ok (symbols.insertionSort (· ≤ ·))
  else .error (.permanent "research instrument response contains duplicate symbols")

def missingStatus (cell : Option Text) : Bool :=
  match cell with
  | none => true
  | some text => Text.strip text == []

def unavailableStatusFields (frame : HistoryFrame Cells) : List String :=
  (if frame.any fun row => missingStatus row.tradeStatus then ["trade_status"] else []) ++
    (if frame.any fun row => missingStatus row.isSt then ["is_st"] else []) ++
    (if frame.any fun row => missingStatus row.tradable then ["tradable"] else [])

def exclusionReasons (frame : HistoryFrame Cells) : List Text :=
  let reasons := (frame.filter fun row => !row.researchUsable).map
    fun row => Text.strip row.unusableReason
  (reasons.filter (· ≠ [])).dedup.insertionSort (· ≤ ·)

/-- The record of a published frame. The frames it is given have rows. -/
def symbolRecord (frame : HistoryFrame Cells) (artifact : ResearchArtifact Cells) :
    SymbolRecord where
  startDate := (frameDates frame).min?.getD 0
  endDate := (frameDates frame).max?.getD 0
  rows := frame.length
  sessions := (frameDates frame).dedup.length
  earliestDate := (frameDates frame).min?.getD 0
  latestDate := (frameDates frame).max?.getD 0
  unavailableStatusFields := unavailableStatusFields frame
  exclusionReasons := exclusionReasons frame
  sizeBytes := artifact.sizeBytes
  artifactSha256 := artifact.sha256
  artifactDataVersion := artifact.dataVersion
  leadingGapSkipped := false

def dropDuplicates : HistoryFrame Cells → HistoryFrame Cells
  | [] => []
  | row :: rest =>
      if ∃ later ∈ rest, later.symbol = row.symbol ∧ later.date = row.date then
        dropDuplicates rest
      else row :: dropDuplicates rest

def missingRanges (record : Option SymbolRecord) (startDay endDay : ℕ) : List (ℕ × ℕ) :=
  match record with
  | none => [(startDay, endDay)]
  | some record =>
      (if startDay < record.startDate ∧ record.leadingGapSkipped = false then
        [(startDay, record.startDate - 1)] else []) ++
      (if record.endDate < endDay then [(record.endDate + 1, endDay)] else [])

/-- A date moved forward, which must stay a date. -/
def addDays (day days : ℕ) : Except BackfillError ℕ :=
  if day + days ≤ dateMax then .ok (day + days) else .error .overflow

/-- The chunks of one range. The first argument bounds their number: each chunk
takes at least one day. -/
def boundRange (span : ℕ) : ℕ → ℕ → ℕ → Except BackfillError (List (ℕ × ℕ))
  | 0, _, _ => .ok []
  | fuel + 1, cursor, endDay =>
      if cursor ≤ endDay then do
        let chunkEnd := min endDay (← addDays cursor span)
        let next ← addDays chunkEnd 1
        return (cursor, chunkEnd) :: (← boundRange span fuel next endDay)
      else .ok []

def boundRanges (span : ℕ) : List (ℕ × ℕ) → Except BackfillError (List (ℕ × ℕ))
  | [] => .ok []
  | (startDay, endDay) :: rest => do
      let chunks ← boundRange span (endDay + 1 - startDay) startDay endDay
      return chunks ++ (← boundRanges span rest)

def boundMissingRanges (days : ℕ) (ranges : List (ℕ × ℕ)) :
    Except BackfillError (List (ℕ × ℕ)) :=
  if timedeltaMaxDays < days - 1 then .error .overflow else boundRanges (days - 1) ranges

namespace HistoricalBackfillCoordinator

variable (c : HistoricalBackfillCoordinator Cells)

def artifactVersion (frame : HistoryFrame Cells) (first last : ℕ) : DataVersion :=
  ⟨first, last, c.format.frameDigest frame⟩

/-- What the research store publishes for a frame. -/
def publication (frame : HistoryFrame Cells) (version : DataVersion) :
    ResearchArtifact Cells :=
  ⟨frame, c.format.parquetSha256 frame, c.format.parquetSize frame, version⟩

def verify (artifact : ResearchArtifact Cells) : Bool :=
  artifact.sha256 == c.format.parquetSha256 artifact.frame &&
    artifact.sizeBytes == c.format.parquetSize artifact.frame

def verifiedArtifact (symbol : String) (record : SymbolRecord)
    (active : Option (ResearchArtifact Cells)) :
    Except BackfillError (ResearchArtifact Cells) :=
  match active with
  | none => .error (.checkpointIntegrity ("历史回填检查点引用的产物不存在: " ++ symbol))
  | some artifact =>
      if artifact.sha256 ≠ record.artifactSha256 ∨
          artifact.dataVersion ≠ record.artifactDataVersion ∨ ¬ c.verify artifact then
        .error (.checkpointIntegrity ("历史回填检查点引用的产物校验失败: " ++ symbol))
      else .ok artifact

/-- The record the checkpoint has for a symbol, or the one it is repaired with. -/
inductive Reconciled where
  | kept (record : Option SymbolRecord)
  | repaired (record : SymbolRecord)
  deriving DecidableEq

def Reconciled.record : Reconciled → Option SymbolRecord
  | .kept record => record
  | .repaired record => some record

def reconcileSymbol (symbol : String) (record : Option SymbolRecord)
    (active : Option (ResearchArtifact Cells)) : Except BackfillError Reconciled :=
  match active, record with
  | none, none => .ok (.kept none)
  | none, some _ =>
      .error (.checkpointIntegrity ("历史回填检查点引用的产物不存在: " ++ symbol))
  | some artifact, record =>
      match record.filter (·.artifactSha256 = artifact.sha256) with
      | some record =>
          match c.verifiedArtifact symbol record active with
          | .error error => .error error
          | .ok _ => .ok (.kept (some record))
      | none =>
          if ¬ c.verify artifact then
            .error (.checkpointIntegrity ("历史回填活跃产物校验失败: " ++ symbol))
          else
            match frameBounds artifact.frame with
            | .error _ =>
                .error (.checkpointIntegrity ("历史回填活跃产物不符合目标: " ++ symbol))
            | .ok (first, last) =>
                match validateHistory artifact.frame symbol first last with
                | .error _ =>
                    .error (.checkpointIntegrity ("历史回填活跃产物不符合目标: " ++ symbol))
                | .ok _ =>
                    if artifact.dataVersion ≠ c.artifactVersion artifact.frame first last then
                      .error (.checkpointIntegrity
                        ("历史回填活跃产物目标或版本不匹配: " ++ symbol))
                    else .ok (.repaired (symbolRecord artifact.frame artifact))

/-- The ranges one run asks for: all that is missing, or only the first bounded
chunk of it. -/
def requestedRanges (record : Option SymbolRecord) (startDay endDay : ℕ) :
    Except BackfillError (List (ℕ × ℕ)) :=
  match c.maxRequestDays with
  | none => .ok (missingRanges record startDay endDay)
  | some days => do
      return (← boundMissingRanges days (missingRanges record startDay endDay)).take 1

def fetchPieces (symbol : String) :
    List (ℕ × ℕ) → Except ProviderFailure (List (HistoryFrame Cells))
  | [] => .ok []
  | (missingStart, missingEnd) :: rest => do
      let piece ← c.provider.getResearchHistory symbol missingStart missingEnd
      validateHistory piece symbol missingStart missingEnd
      return piece :: (← fetchPieces symbol rest)

/-- The rows of all frames by date, the later frame winning where two have a row
for one date. -/
def mergeFrames (frames : List (HistoryFrame Cells)) : HistoryFrame Cells :=
  dropDuplicates (frames.flatten.insertionSort (·.date ≤ ·.date))

def mergeWithPrevious (symbol : String) (record : Option SymbolRecord)
    (active : Option (ResearchArtifact Cells)) (pieces : List (HistoryFrame Cells)) :
    Except BackfillError (HistoryFrame Cells) :=
  match record with
  | none => .ok (mergeFrames pieces)
  | some record =>
      match c.verifiedArtifact symbol record active with
      | .error error => .error error
      | .ok artifact => .ok (mergeFrames (artifact.frame :: pieces))

/-- What the answers of the provider amount to. -/
inductive Attempt (Cells : Type) where
  | failed (reason : String)
  | gapSkipped (record : SymbolRecord)
  | merged (frame : HistoryFrame Cells) (version : DataVersion) (newRows : ℕ)

def attempt (symbol : String) (record : Option SymbolRecord)
    (active : Option (ResearchArtifact Cells)) (startDay : ℕ) (missing : List (ℕ × ℕ)) :
    Except BackfillError (Attempt Cells) :=
  match c.fetchPieces symbol missing with
  | .error .transient => .ok (.failed "TRANSIENT_PROVIDER_FAILURE")
  | .error (.permanent _) => .ok (.failed "PERMANENT_PROVIDER_FAILURE")
  | .ok pieces =>
      if (pieces.map List.length).sum = 0 then
        match record, missing with
        | some record, (firstStart, firstEnd) :: _ =>
            if firstStart = startDay ∧ firstEnd < record.startDate then
              .ok (.gapSkipped { record with leadingGapSkipped := true })
            else .ok (.failed "NO_HISTORY")
        | _, _ => .ok (.failed "NO_HISTORY")
      else
        match c.mergeWithPrevious symbol record active pieces with
        | .error error => .error error
        | .ok frame =>
            match frameBounds frame with
            | .error _ => .ok (.failed "PERMANENT_PROVIDER_FAILURE")
            | .ok (first, last) =>
                match validateHistory frame symbol first last with
                | .error _ => .ok (.failed "PERMANENT_PROVIDER_FAILURE")
                | .ok _ =>
                    .ok (.merged frame (c.artifactVersion frame first last)
                      (pieces.map List.length).sum)

/-- The record of a merged frame keeps the mark of a skipped leading gap. -/
def updatedRecord (record : Option SymbolRecord) (artifact : ResearchArtifact Cells) :
    SymbolRecord :=
  { symbolRecord artifact.frame artifact with
    leadingGapSkipped := record.any (·.leadingGapSkipped) }

/-- The state of the loop: the checkpoint in memory, the disk and the counters. -/
structure Progress (Cells : Type) where
  checkpoint : Checkpoint
  storage : Storage Cells
  attempted : ℕ
  symbolsUpdated : ℕ
  rowsWritten : ℕ
  failures : List (String × String)

/-- A run that an error has ended, with the disk as it was left. -/
structure Interrupted (Cells : Type) where
  storage : Storage Cells
  error : BackfillError

def writeCheckpoint (call : BackfillCall) (symbol : String) (p : Progress Cells) :
    Except (Interrupted Cells) (Progress Cells) :=
  if call.fails (.checkpoint symbol) then .error ⟨p.storage, .storage⟩
  else .ok { p with storage := { p.storage with checkpoint := p.checkpoint } }

def Progress.setRecord (p : Progress Cells) (symbol : String) (record : SymbolRecord) :
    Progress Cells :=
  { p with checkpoint :=
      { p.checkpoint with
        symbols := Function.update p.checkpoint.symbols symbol (some record)
        failures := Function.update p.checkpoint.failures symbol none } }

def Progress.setFailure (p : Progress Cells) (symbol reason : String) : Progress Cells :=
  { p with
    failures := p.failures ++ [(symbol, reason)]
    checkpoint :=
      { p.checkpoint with
        failures := Function.update p.checkpoint.failures symbol (some reason) } }

def Progress.publish (p : Progress Cells) (symbol : String)
    (artifact : ResearchArtifact Cells) : Progress Cells :=
  { p with storage :=
      { p.storage with active := Function.update p.storage.active symbol (some artifact) } }

def keepReconciled (call : BackfillCall) (symbol : String) (p : Progress Cells) :
    Reconciled → Except (Interrupted Cells) (Progress Cells)
  | .kept _ => .ok p
  | .repaired record => writeCheckpoint call symbol (p.setRecord symbol record)

def attemptSymbol (call : BackfillCall) (symbol : String) (record : Option SymbolRecord)
    (missing : List (ℕ × ℕ)) (p : Progress Cells) :
    Except (Interrupted Cells) (Progress Cells) :=
  if call.fails (.request symbol) then .error ⟨p.storage, .storage⟩
  else
    match c.attempt symbol record (p.storage.active symbol) call.startDay missing with
    | .error error => .error ⟨p.storage, error⟩
    | .ok (.failed reason) => writeCheckpoint call symbol (p.setFailure symbol reason)
    | .ok (.gapSkipped record) => writeCheckpoint call symbol (p.setRecord symbol record)
    | .ok (.merged frame version newRows) =>
        if call.fails (.publish symbol) then .error ⟨p.storage, .storage⟩
        else
          let artifact := c.publication frame version
          let published := p.publish symbol artifact
          writeCheckpoint call symbol
            { published.setRecord symbol (updatedRecord record artifact) with
              symbolsUpdated := p.symbolsUpdated + 1
              rowsWritten := p.rowsWritten + newRows }

/-- One turn of the loop. The flag tells whether the loop goes on. -/
def visitSymbol (call : BackfillCall) (symbol : String) (p : Progress Cells) :
    Except (Interrupted Cells) (Progress Cells × Bool) :=
  match c.reconcileSymbol symbol (p.checkpoint.symbols symbol) (p.storage.active symbol) with
  | .error error => .error ⟨p.storage, error⟩
  | .ok reconciled =>
      match keepReconciled call symbol p reconciled with
      | .error interrupted => .error interrupted
      | .ok p =>
          match c.requestedRanges reconciled.record call.startDay call.endDay with
          | .error error => .error ⟨p.storage, error⟩
          | .ok missing =>
              if missing = [] then .ok (p, true)
              else if call.limit ≤ p.attempted then .ok (p, false)
              else
                match c.attemptSymbol call symbol reconciled.record missing
                  { p with attempted := p.attempted + 1 } with
                | .error interrupted => .error interrupted
                | .ok p => .ok (p, true)

def visitSymbols (call : BackfillCall) :
    List String → Progress Cells → Except (Interrupted Cells) (Progress Cells)
  | [], p => .ok p
  | symbol :: rest, p =>
      match c.visitSymbol call symbol p with
      | .error interrupted => .error interrupted
      | .ok (p, false) => .ok p
      | .ok (p, true) => visitSymbols call rest p

def mergeTarget (call : BackfillCall) : Option (ℕ × ℕ) → ℕ × ℕ
  | none => (call.startDay, call.endDay)
  | some (startDate, endDate) => (min startDate call.startDay, max endDate call.endDay)

def MAX_SYMBOLS_PER_BATCH : ℕ := 100

/-- The symbols the loop goes through, or the reason why it is not entered. -/
def batch (call : BackfillCall) : Except BackfillError (List String) :=
  if call.endDay < call.startDay then .error (.value "start must not be after end")
  else if ¬ (1 ≤ call.limit ∧ call.limit ≤ MAX_SYMBOLS_PER_BATCH) then
    .error (.value "one history batch must contain between 1 and 100 symbols")
  else if call.fails .load then .error .storage
  else
    match c.provider.listResearchInstruments call.endDay with
    | .error failure => .error (.provider failure)
    | .ok instruments =>
        match validateInstruments instruments with
        | .error failure => .error (.provider failure)
        | .ok symbols => .ok symbols

def initialProgress (call : BackfillCall) (storage : Storage Cells) : Progress Cells where
  checkpoint :=
    { storage.checkpoint with target := some (mergeTarget call storage.checkpoint.target) }
  storage := storage
  attempted := 0
  symbolsUpdated := 0
  rowsWritten := 0
  failures := []

/-- One run: the disk afterwards, and the result or the error that escapes. -/
def run (storage : Storage Cells) (call : BackfillCall) :
    Storage Cells × Except BackfillError BackfillResult :=
  match c.batch call with
  | .error error => (storage, .error error)
  | .ok symbols =>
      match c.visitSymbols call symbols (initialProgress call storage) with
      | .error interrupted => (interrupted.storage, .error interrupted.error)
      | .ok p => (p.storage, .ok ⟨p.symbolsUpdated, p.rowsWritten, p.failures⟩)

/-- The disk after one run, whether it returned or raised. -/
def runStorage (storage : Storage Cells) (call : BackfillCall) : Storage Cells :=
  (c.run storage call).1

end HistoricalBackfillCoordinator

end QuantWorkbench.Runtime
