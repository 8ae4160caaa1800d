import QuantWorkbench.Lib.Sha256
import Mathlib.Data.List.AList

/-!
The registry of evolution reports and champions. Approvals and rollbacks spend a
confirmation token, change the champion, append to the audit log and write the state
file, in this order; `write` says whether that write succeeds.
-/

namespace QuantWorkbench.Research

open QuantWorkbench.Lib

structure EvolutionMetrics where
  candidateId : Text
  shadowDays : ℤ
  maturedSamples : ℤ
  oosWindows : ℤ
  improvedHorizons : ℤ
  brierNotWorse : Bool
  eceNotWorse : Bool
  netPerformanceBetter : Bool
  drawdownOk : Bool
  capacityOk : Bool
  deflatedSharpePass : Bool
  pboPass : Bool
  regimesPass : Bool
  reproducible : Bool
  leakageDetected : Bool
  deriving DecidableEq

inductive EvolutionStatus where
  | awaitingManualApproval
  | blocked
  deriving DecidableEq

structure EvolutionReport where
  reportId : Text
  candidateId : Text
  status : EvolutionStatus
  checks : List (String × Bool)
  createdAt : ℤ
  deriving DecidableEq

inductive PromotionAction where
  | approve
  | rollback
  deriving DecidableEq

structure PromotionRecord where
  recordId : Text
  reportId : Text
  candidateId : Text
  previousChampionId : Option Text
  championId : Option Text
  action : PromotionAction
  approvedAt : ℤ
  deriving DecidableEq

/-- The fourteen checks of a report. -/
def EvolutionMetrics.checks (metrics : EvolutionMetrics) : List (String × Bool) :=
  [("shadow_days", 60 ≤ metrics.shadowDays), ("matured_samples", 1000 ≤ metrics.maturedSamples),
    ("oos_windows", 3 ≤ metrics.oosWindows), ("improved_horizons", 2 ≤ metrics.improvedHorizons),
    ("brier_not_worse", metrics.brierNotWorse), ("ece_not_worse", metrics.eceNotWorse),
    ("net_performance_better", metrics.netPerformanceBetter), ("drawdown_ok", metrics.drawdownOk),
    ("capacity_ok", metrics.capacityOk), ("deflated_sharpe_pass", metrics.deflatedSharpePass),
    ("pbo_pass", metrics.pboPass), ("regimes_pass", metrics.regimesPass),
    ("reproducible", metrics.reproducible), ("leakage_detected", !metrics.leakageDetected)]

structure EvolutionRegistry where
  championId : Option Text
  reports : AList fun _ : Text => EvolutionReport
  tokens : AList fun _ : Text => Text
  audit : List PromotionRecord

/-- The body of the state file. -/
structure SavedEvolution where
  championId : Option Text
  reports : AList fun _ : Text => EvolutionReport
  audit : List PromotionRecord

inductive EvolutionEvent where
  | issued (subjectId token : Text)
  | changed (subjectId token : Text)
  deriving DecidableEq

/-- A registry with its state file, the champion it was started with, every report that
was made and what its tokens were used for, the newest first. -/
structure EvolutionWorld where
  registry : EvolutionRegistry
  disk : Option SavedEvolution
  startedWith : Option Text
  made : List EvolutionReport
  log : List EvolutionEvent

def EvolutionRegistry.fresh (championId : Option Text) : EvolutionRegistry :=
  ⟨championId, ∅, ∅, []⟩

def EvolutionRegistry.saved (r : EvolutionRegistry) : SavedEvolution :=
  ⟨r.championId, r.reports, r.audit⟩

/-- A restart restores everything but the tokens. -/
def SavedEvolution.loaded (s : SavedEvolution) : EvolutionRegistry :=
  ⟨s.championId, s.reports, ∅, s.audit⟩

def tokenDigest (token : Text) : Text := Sha256.ofText token

/-- Pops the token of the subject and says whether it is the given one. -/
def EvolutionRegistry.consumeToken (r : EvolutionRegistry) (subjectId token : Text) :
    EvolutionRegistry × Bool :=
  ({ r with tokens := r.tokens.erase subjectId },
    r.tokens.lookup subjectId = some (tokenDigest token))

namespace EvolutionWorld

def record (w : EvolutionWorld) (event : EvolutionEvent) : EvolutionWorld :=
  { w with log := event :: w.log }

/-- Writes the state file, if there is one; `false` stands for `OSError`. -/
def persist (statePath write : Bool) (w : EvolutionWorld) : EvolutionWorld × Bool :=
  if statePath = false then (w, true)
  else if write then ({ w with disk := some w.registry.saved }, true)
  else (w, false)

/-- A new registry reads the state file, or writes its first one. -/
def construct (statePath : Bool) (championId : Option Text) (w : EvolutionWorld) :
    EvolutionWorld :=
  match w.disk with
  | some saved =>
      if statePath then { w with registry := saved.loaded }
      else { w with registry := .fresh championId, startedWith := championId }
  | none =>
      (persist statePath true
        { w with registry := .fresh championId, startedWith := championId }).1

def initial (statePath : Bool) (championId : Option Text) : EvolutionWorld :=
  construct statePath championId ⟨.fresh championId, none, championId, [], []⟩

def registerReport (statePath write : Bool) (report : EvolutionReport) (w : EvolutionWorld) :
    EvolutionWorld × Bool :=
  persist statePath write
    { w with
      registry := { w.registry with reports := w.registry.reports.insert report.reportId report }
      made := report :: w.made }

def evaluate (statePath write : Bool) (metrics : EvolutionMetrics) (hex : Text) (now : ℤ)
    (w : EvolutionWorld) : EvolutionWorld × Except String EvolutionReport :=
  let report : EvolutionReport := {
    reportId := "evolution-".toList ++ hex
    candidateId := metrics.candidateId.strip
    status := if metrics.checks.all (·.2) then .awaitingManualApproval else .blocked
    checks := metrics.checks
    createdAt := now }
  match registerReport statePath write report w with
  | (w, true) => (w, .ok report)
  | (w, false) => (w, .error "OSError")

def issueConfirmationToken (subjectId token : Text) (w : EvolutionWorld) :
    EvolutionWorld × Except String Text :=
  let report := w.registry.reports.lookup subjectId
  if ∃ found ∈ report, found.status ≠ .awaitingManualApproval then
    (w, .error "report is not awaiting manual approval")
  else if report = none ∧ ¬ ∃ found ∈ w.registry.audit, found.recordId = subjectId then
    (w, .error "unknown approval subject")
  else
    (({ w with registry := { w.registry with
        tokens := w.registry.tokens.insert subjectId (tokenDigest token) } }).record
      (.issued subjectId token), .ok token)

/-- The second half of an approval or a rollback, after its checks: the token is spent,
the champion changes, the audit log grows and the state is written. -/
def changeChampion (statePath write : Bool) (subjectId token : Text)
    (entry : Option Text → PromotionRecord) (w : EvolutionWorld) :
    EvolutionWorld × Except String PromotionRecord :=
  match w.registry.consumeToken subjectId token with
  | (r, false) => ({ w with registry := r }, .error "confirmation token is invalid or already used")
  | (r, true) =>
      let added := entry r.championId
      let w := ({ w with registry := { r with
          championId := added.championId
          audit := r.audit ++ [added] } }).record (.changed subjectId token)
      match persist statePath write w with
      | (w, true) => (w, .ok added)
      | (w, false) => (w, .error "OSError")

def approve (statePath write : Bool) (reportId token hex : Text) (now : ℤ)
    (w : EvolutionWorld) : EvolutionWorld × Except String PromotionRecord :=
  match w.registry.reports.lookup reportId with
  | some report =>
      if report.status = .awaitingManualApproval then
        changeChampion statePath write reportId token (fun previous => {
          recordId := "promotion-".toList ++ hex
          reportId := reportId
          candidateId := report.candidateId
          previousChampionId := previous
          championId := some report.candidateId
          action := .approve
          approvedAt := now }) w
      else (w, .error "report is not awaiting manual approval")
  | none => (w, .error "report is not awaiting manual approval")

def rollback (statePath write : Bool) (recordId token hex : Text) (now : ℤ)
    (w : EvolutionWorld) : EvolutionWorld × Except String PromotionRecord :=
  match w.registry.audit.find? fun found => found.recordId = recordId with
  | some original =>
      changeChampion statePath write recordId token (fun previous => {
        recordId := "rollback-".toList ++ hex
        reportId := original.reportId
        candidateId := original.candidateId
        previousChampionId := previous
        championId := original.previousChampionId
        action := .rollback
        approvedAt := now }) w
  | none => (w, .error "unknown promotion record")

def invalidateConfirmationToken (subjectId : Text) (w : EvolutionWorld) : EvolutionWorld :=
  { w with registry := { w.registry with tokens := w.registry.tokens.erase subjectId } }

end EvolutionWorld

inductive EvolutionInput where
  | evaluate (metrics : EvolutionMetrics) (hex : Text) (now : ℤ) (write : Bool)
  | issueConfirmationToken (subjectId token : Text)
  | approve (reportId token hex : Text) (now : ℤ) (write : Bool)
  | rollback (recordId token hex : Text) (now : ℤ) (write : Bool)
  | invalidateConfirmationToken (subjectId : Text)
  | restart (championId : Option Text)

def EvolutionWorld.step (statePath : Bool) (w : EvolutionWorld) :
    EvolutionInput → EvolutionWorld
  | .evaluate metrics hex now write => (w.evaluate statePath write metrics hex now).1
  | .issueConfirmationToken subjectId token => (w.issueConfirmationToken subjectId token).1
  | .approve reportId token hex now write => (w.approve statePath write reportId token hex now).1
  | .rollback recordId token hex now write => (w.rollback statePath write recordId token hex now).1
  | .invalidateConfirmationToken subjectId => w.invalidateConfirmationToken subjectId
  | .restart championId => w.construct statePath championId

end QuantWorkbench.Research
