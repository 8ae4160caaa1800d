import QuantWorkbench.Lib.Durable
import QuantWorkbench.Market.TradingCalendar
import QuantWorkbench.Storage.OfficialSignals
import QuantWorkbench.Storage.PriceGuidanceRuns

/-!
`DailyBundleTransaction` of `runtime/daily_bundle.py`: the daily candidates and the price plans that
belong to them are published through a journal. Files are known by their paths below the root.
-/

namespace QuantWorkbench.Runtime

open Lib Advisory Market Signals QuantWorkbench.Storage

/-- The text of each file that is there. -/
abbrev Files := Text → Option Text

/-- `atomic_write_bytes`. -/
def writeFile (path text : Text) : Program Files Unit :=
  Program.change "cannot replace a file" fun files => Function.update files path (some text)

def unlinkFile (path : Text) : Program Files Unit :=
  Program.change "cannot remove a file" fun files => Function.update files path none

structure DailyBundleTransaction where
  signalPath : Text
  guidancePath : Option Text
  distinct : guidancePath ≠ some signalPath

/-- The documents of the staged files, as `json.loads` reads them. The order of keys plays no part, so
it is theirs. -/
structure StagedDocuments where
  members : List (Text × Json)
  ordered : (members.map (·.1)).Pairwise (· < ·)
  canonical : ∀ member ∈ members, member.2.Canonical

/-- The arguments of `publish` and the time of the call, in microseconds. There are no documents when
a staged file is no JSON that can be written again. -/
structure Publication where
  day : Date
  staged : Option StagedDocuments
  holdingSymbols : List Text
  now : ℤ

namespace DailyBundleTransaction

variable (transaction : DailyBundleTransaction)

def journalPath : Text := ".runtime/workflow/daily-publication.json".toList

def maxBytes : ℕ := 24 * 1024 * 1024

/-- `self.paths`, in the order in which they are replaced. -/
def paths : List (Text × Text) :=
  ("signals".toList, transaction.signalPath) ::
    (transaction.guidancePath.map fun path => ("guidance".toList, path)).toList

def bodyFields : List Text :=
  ["documents".toList, "format_version".toList, "holding_symbols".toList, "paths".toList,
    "session".toList]

/-- The paths as the body of the journal has them. -/
def pathMembers : List (Text × Json) :=
  (transaction.guidancePath.map fun path => ("guidance".toList, Json.str path)).toList ++
    [("signals".toList, .str transaction.signalPath)]

def body (day : Date) (documents : StagedDocuments) (holdingSymbols : List Text) : Json :=
  .obj [("documents".toList, .obj documents.members),
    ("format_version".toList, .int 1),
    ("holding_symbols".toList, .arr (holdingSymbols.map Json.str)),
    ("paths".toList, .obj transaction.pathMembers),
    ("session".toList, .str day.isoformat)]

def documentOf (body : Json) (key : Text) : Json :=
  ((body.member? "documents".toList).bind (Json.member? key)).getD .null

/-! ### Validation -/

/-- The checks of the plans beside the candidates. -/
def validatePlans [CaseTable] (now : ℤ) (day : Date) (symbols : List Data.Symbol)
    (holdings : List Text) (text : Text) : Except String Unit := do
  let memory ← openGuidance now (some text)
  let plans := memory.planList
  let candidates := (plans.filter fun plan =>
    plan.planType = .dailyCandidate ∧ plan.calculationDate = day).map PriceGuidancePlan.symbol
  require (candidates ⊆ symbols ∧ symbols ⊆ candidates)
    "daily plans do not cover the published candidates"
  require (∀ plan ∈ plans, plan.calculationDate = day)
    "daily bundle contains mixed calculation dates"
  if plans ≠ [] then
    let next ← nextSession day
    require (∀ plan ∈ plans, plan.validFor = next)
      "daily bundle validity does not match shared calendar"
  let held := (plans.filter fun plan => plan.planType = .holding).map fun plan => plan.symbol.text
  require (held ⊆ holdings ∧ holdings ⊆ held)
    "daily holding plans do not cover the account universe"

variable (F : Type) [FloatFormat F] [FoldTable] [CaseTable]

/-- The checks of the staged texts, which are written without a line end. -/
def validateDocuments (now : ℤ) (day : Date) (holdings : List Text) (body : Json) :
    Except String Unit := do
  let store : SignalStore F ← openSignalStore
    (some (Json.dumps (documentOf body "signals".toList)))
  let signals ← latestSignals store.memory
  require (signals ≠ [] ∧ ∀ signal ∈ signals, signal.dataCutoff = .date day)
    "daily candidates do not match target session"
  if transaction.guidancePath.isSome = true then
    validatePlans now day (signals.map fun signal => signal.symbol) holdings
      (Json.dumps (documentOf body "guidance".toList))

def validate (now : ℤ) (body : Json) : Except String Unit := do
  require (body.hasKeys bodyFields = true) "invalid daily transaction"
  require (body.count? "format_version" = some 1 ∧
      (∀ written ∈ body.member? "paths".toList,
        written.hasKeys (transaction.paths.map Prod.fst) = true ∧
          ∀ path ∈ transaction.paths, (written.member? path.1).bind Json.asText = some path.2) ∧
        ∀ documents ∈ body.member? "documents".toList,
          documents.hasKeys (transaction.paths.map Prod.fst) = true)
    "daily transaction targets do not match configuration"
  let day ← orRaise ((body.text? "session").bind Date.fromisoformat) "Invalid isoformat string"
  let holdings ← orRaise (body.field "holding_symbols" Json.asTexts)
    "invalid daily transaction account universe"
  require (holdings.length ≤ 50 ∧ holdings.Nodup) "invalid daily transaction account universe"
  validateDocuments transaction F now day holdings body

/-! ### Publication -/

/-- What `write_checked_json` writes. -/
def journalText (body : Json) : Text :=
  Json.dumps (.obj [("body".toList, body),
    ("sha256".toList, .str (Sha256.ofText (Json.dumps body)))]) ++ ['\n']

def readCheckedJson (text : Text) : Except String Json := do
  require (text.utf8.length ≤ maxBytes) "invalid workflow artifact"
  let payload ← orRaise (Json.loads text) "invalid workflow artifact"
  require (payload.hasKeys ["body".toList, "sha256".toList] = true) "invalid workflow artifact"
  let body ← orRaise (payload.member? "body".toList) "invalid workflow artifact"
  require (payload.text? "sha256" = some (Sha256.ofText (Json.dumps body)))
    "invalid workflow artifact checksum"
  return body

/-- What `_apply` writes for a document. -/
def publishedText (document : Json) : Text := Json.dumps document ++ ['\n']

/-- `_apply`. The journal is removed after both replacements. -/
def apply (body : Json) : Program Files Text := do
  Program.forEach (fun path => writeFile path.2 (publishedText (documentOf body path.1)))
    transaction.paths
  unlinkFile journalPath
  return Sha256.ofText (Json.dumps body)

def publish (publication : Publication) : Program Files Text := do
  let journal ← Program.see fun files => files journalPath
  if journal.isSome = true then
    Program.raise "pending daily transaction must be recovered first"
  else
    match publication.staged with
    | none => Program.raise "staged document is invalid"
    | some documents =>
        let body := transaction.body publication.day documents publication.holdingSymbols
        Program.done (transaction.validate F publication.now body)
        if maxBytes < (journalText body).utf8.length then
          Program.raise "workflow artifact exceeds size limit"
        else
          writeFile journalPath (journalText body)
          transaction.apply body

def recover (now : ℤ) : Program Files Bool := do
  match ← Program.see fun files => files journalPath with
  | none => return false
  | some text =>
      let body ← Program.done (readCheckedJson text)
      Program.done (transaction.validate F now body)
      let _ ← transaction.apply body
      return true

end DailyBundleTransaction

end QuantWorkbench.Runtime
