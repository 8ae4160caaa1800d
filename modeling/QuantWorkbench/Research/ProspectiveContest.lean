import QuantWorkbench.Lib.Raising
import QuantWorkbench.Lib.Runs
import QuantWorkbench.Strategies.Contracts

/-!
The contest of a model in future sessions: its frozen registration, the counters of what was
observed since, and the status that follows from them. The counters are set before the metrics of a
call are looked at.
-/

namespace QuantWorkbench.Research

open Lib

/-! ### Contests -/

/-- The metrics of the future observations, any of which may be missing. -/
structure ProspectiveMetrics where
  directionalHitRate : Option Strategies.Number
  brier : Option Strategies.Number
  ece : Option Strategies.Number
  rankIc : Option Strategies.Number
  netCostReturn : Option Strategies.Number
  maxDrawdown : Option Strategies.Number
  turnover : Option Strategies.Number
  coverage : Option Strategies.Number
  rejectionRate : Option Strategies.Number
  regimeStability : Option Strategies.Number

def ProspectiveMetrics.pass (metrics : ProspectiveMetrics) : Bool :=
  match metrics.netCostReturn.bind Strategies.Number.finite?,
    metrics.maxDrawdown.bind Strategies.Number.finite?,
    metrics.coverage.bind Strategies.Number.finite? with
  | some netCostReturn, some maxDrawdown, some coverage =>
      decide (0 < netCostReturn ∧ 0 ≤ maxDrawdown ∧ maxDrawdown ≤ 35 / 100 ∧ 8 / 10 ≤ coverage)
  | _, _, _ => false

inductive ContestStatus where
  | notStarted
  | prospectiveCollecting
  | provisionalUnmaturedObservation
  | awaitingManualApproval
  deriving DecidableEq

/-- What a contest registers, and freezes once it has started. -/
structure ContestRegistration where
  modelId : Text
  modelVersion : Text
  configHash : Text
  trainingSnapshotHash : Text
  modelBundleDigest : Option Text
  primaryMetric : Text
  tieBreak : List Text
  deriving DecidableEq

def ContestRegistration.withVersion (registration : ContestRegistration)
    (modelVersion configHash trainingSnapshotHash : Text) : ContestRegistration :=
  { registration with
    modelVersion := Text.strip modelVersion
    configHash := Text.strip configHash
    trainingSnapshotHash := Text.strip trainingSnapshotHash }

structure ProspectiveContest where
  now : UtcDateTime
  /-- What `start` registered, once it has. -/
  registration : Option ContestRegistration
  startedAt : Option UtcDateTime
  futureSessions : ℤ
  maturedPredictions : ℤ
  gatesPass : Bool
  status : ContestStatus
  metrics : Option ProspectiveMetrics

namespace ProspectiveContest

def new (now : UtcDateTime) : ProspectiveContest :=
  ⟨now, none, none, 0, 0, false, .notStarted, none⟩

/-! ### Registration -/

/-- A start that is given: in universal time, if its time zone is known. -/
inductive StartedAt where
  | notGiven
  | naive
  | at (moment : UtcDateTime)
  deriving DecidableEq

/-- The arguments of `start`; a digest that is not given or empty is no digest. -/
structure StartArguments where
  modelId : Text
  modelVersion : Text
  configHash : Text
  trainingSnapshotHash : Text
  modelBundleDigest : Option Text
  primaryMetric : Text
  tieBreak : List Text
  startedAt : StartedAt

def StartArguments.registration (arguments : StartArguments) : ContestRegistration where
  modelId := Text.strip arguments.modelId
  modelVersion := Text.strip arguments.modelVersion
  configHash := Text.strip arguments.configHash
  trainingSnapshotHash := Text.strip arguments.trainingSnapshotHash
  modelBundleDigest := (arguments.modelBundleDigest.filter (· ≠ [])).map fun digest =>
    (Text.strip digest).map Char.toLower
  primaryMetric := Text.strip arguments.primaryMetric
  tieBreak := arguments.tieBreak.map Text.strip

def isSha256 (digest : Text) : Bool :=
  digest.length = 64 && digest.all fun c => c ∈ "0123456789abcdef".toList

def start (arguments : StartArguments) : Raising String ProspectiveContest Unit := do
  let values := arguments.registration
  Raising.check (values.modelId ≠ [] ∧ values.modelVersion ≠ [] ∧ values.configHash ≠ [] ∧
    values.trainingSnapshotHash ≠ [] ∧ values.primaryMetric ≠ [])
    "contest registration fields are required"
  Raising.check (values.tieBreak ≠ [] ∧ [] ∉ values.tieBreak) "tie_break must be non-empty"
  Raising.check (values.modelBundleDigest.all isSha256 = true)
    "model_bundle_digest must be a sha256 digest"
  let now ← Raising.read ProspectiveContest.now
  Raising.check (arguments.startedAt ≠ .naive) "contest_started_at must be timezone-aware"
  let moment := match arguments.startedAt with
    | .at moment => moment
    | _ => now
  Raising.check (moment ≤ now) "contest start timestamp is in the future"
  match ← Raising.read ProspectiveContest.registration with
  | some existing => Raising.check (existing = values) "contest registration is frozen"
  | none => Raising.change fun contest =>
      { contest with
        registration := some values
        startedAt := some moment
        status := .prospectiveCollecting }

/-- A new version observes nothing yet. -/
def restart (contest : ProspectiveContest) : ProspectiveContest :=
  { contest with
    futureSessions := 0
    maturedPredictions := 0
    gatesPass := false
    status := .prospectiveCollecting
    metrics := none }

/-- `register_version`. The version is set before a model's name is looked at. -/
def registerVersion (modelVersion configHash trainingSnapshotHash : Text) (modelId : Option Text) :
    Raising String ProspectiveContest Unit := do
  Raising.check ((← Raising.read ProspectiveContest.registration).isSome = true)
    "contest has not started"
  Raising.check (Text.strip modelVersion ≠ [] ∧ Text.strip configHash ≠ [] ∧
    Text.strip trainingSnapshotHash ≠ []) "contest version fields are required"
  Raising.change fun contest =>
    { contest with registration := contest.registration.map fun registration =>
        registration.withVersion modelVersion configHash trainingSnapshotHash }
  Raising.check (modelId.all (fun modelId => Text.strip modelId ≠ []) = true) "model_id is required"
  Raising.change fun contest => restart
    { contest with registration := contest.registration.map fun registration =>
        { registration with
          modelId := (modelId.map Text.strip).getD registration.modelId } }

/-! ### Observations -/

/-- What is given as metrics, which may be of another type. -/
inductive GivenMetrics where
  | absent
  | metrics (metrics : ProspectiveMetrics)
  | other

structure Observations where
  sessions : ℤ
  matured : ℤ
  gatesPass : Bool
  historicalMatured : ℤ
  metrics : GivenMetrics

def refreshStatus (contest : ProspectiveContest) : ProspectiveContest :=
  { contest with
    status :=
      if 60 ≤ contest.futureSessions ∧ 200 ≤ contest.maturedPredictions ∧
          contest.gatesPass = true then
        .awaitingManualApproval
      else if contest.gatesPass = true ∧ 20 ≤ contest.futureSessions ∧
          100 ≤ contest.maturedPredictions then
        .provisionalUnmaturedObservation
      else .prospectiveCollecting }

/-- The metrics of a call, once its counters are set. -/
def checkMetrics (gatesPass : Bool) : GivenMetrics → Except String (Option ProspectiveMetrics)
  | .other => .error "metrics must be ProspectiveMetrics"
  | .metrics metrics => .ok (some metrics)
  | .absent =>
      if gatesPass = true then .error "metrics are required to derive contest gates" else .ok none

def recordObservations (observations : Observations) :
    Raising String ProspectiveContest Unit := do
  Raising.check ((← Raising.read ProspectiveContest.registration).isSome = true)
    "contest has not started"
  Raising.check (0 ≤ observations.sessions ∧ 0 ≤ observations.matured ∧
    0 ≤ observations.historicalMatured) "observation counters cannot be negative"
  let futureSessions ← Raising.read ProspectiveContest.futureSessions
  let maturedPredictions ← Raising.read ProspectiveContest.maturedPredictions
  Raising.check (futureSessions ≤ observations.sessions ∧
    maturedPredictions ≤ observations.matured)
    "future observation counters cannot move backwards"
  Raising.change fun contest =>
    { contest with
      futureSessions := observations.sessions
      maturedPredictions := observations.matured }
  let metrics ← Raising.lift (checkMetrics observations.gatesPass observations.metrics)
  Raising.change fun contest => refreshStatus
    { contest with gatesPass := metrics.any ProspectiveMetrics.pass, metrics }

def recordSession (maturedPredictions : ℤ) (gatesPass : Bool) (metrics : GivenMetrics) :
    Raising String ProspectiveContest Unit := do
  Raising.check ((← Raising.read ProspectiveContest.registration).isSome = true)
    "contest has not started"
  Raising.check (0 ≤ maturedPredictions) "matured_predictions cannot be negative"
  let sessions ← Raising.read ProspectiveContest.futureSessions
  let matured ← Raising.read ProspectiveContest.maturedPredictions
  recordObservations ⟨sessions + 1, matured + maturedPredictions, gatesPass, 0, metrics⟩

/-! ### Runs -/

inductive ContestCall where
  | start (arguments : StartArguments)
  | registerVersion (modelVersion configHash trainingSnapshotHash : Text) (modelId : Option Text)
  | recordObservations (observations : Observations)
  | recordSession (maturedPredictions : ℤ) (gatesPass : Bool) (metrics : GivenMetrics)

def call : ContestCall → Raising String ProspectiveContest Unit
  | .start arguments => start arguments
  | .registerVersion modelVersion configHash trainingSnapshotHash modelId =>
      registerVersion modelVersion configHash trainingSnapshotHash modelId
  | .recordObservations observations => recordObservations observations
  | .recordSession maturedPredictions gatesPass metrics =>
      recordSession maturedPredictions gatesPass metrics

def after (contest : ProspectiveContest) (made : ContestCall) : ProspectiveContest :=
  (call made contest).2

def ContestCall.observations? (contest : ProspectiveContest) : ContestCall → Option Observations
  | .recordObservations observations => some observations
  | .recordSession maturedPredictions gatesPass metrics => some
      ⟨contest.futureSessions + 1, contest.maturedPredictions + maturedPredictions, gatesPass, 0,
        metrics⟩
  | _ => none

/-- The counters of a call are accepted. -/
structure Counts (contest : ProspectiveContest) (observations : Observations) : Prop where
  registered : contest.registration.isSome = true
  nonneg : 0 ≤ observations.sessions ∧ 0 ≤ observations.matured ∧
    0 ≤ observations.historicalMatured
  forward : contest.futureSessions ≤ observations.sessions ∧
    contest.maturedPredictions ≤ observations.matured

/-- The contest once the counters of a call are set. -/
def counted (contest : ProspectiveContest) (observations : Observations) : ProspectiveContest :=
  { contest with
    futureSessions := observations.sessions
    maturedPredictions := observations.matured }

/-- The contest once the metrics of a call are set. -/
def measured (contest : ProspectiveContest) (metrics : Option ProspectiveMetrics) :
    ProspectiveContest :=
  refreshStatus { contest with gatesPass := metrics.any ProspectiveMetrics.pass, metrics }

/-- A call that raises leaves the contest as it was, or with its counters set alone. -/
def RaisedAfter (contest : ProspectiveContest) (observations : Observations)
    (after : ProspectiveContest) : Prop :=
  ¬ contest.Counts observations ∧ after = contest ∨
    contest.Counts observations ∧
      (∃ error, checkMetrics observations.gatesPass observations.metrics = .error error) ∧
      after = contest.counted observations

theorem recordObservations_ends (contest : ProspectiveContest) (observations : Observations) :
    Raising.Ends (recordObservations observations) contest
      (fun _ after => contest.Counts observations ∧ ∃ metrics,
        checkMetrics observations.gatesPass observations.metrics = .ok metrics ∧
          after = (contest.counted observations).measured metrics)
      (fun _ after => contest.RaisedAfter observations after) := by
  apply Raising.ends_read_bind
  refine Raising.ends_check_bind (fun hregistered => ?_) fun h => Or.inl ⟨fun hc => h hc.1, rfl⟩
  refine Raising.ends_check_bind (fun hnonneg => ?_) fun h => Or.inl ⟨fun hc => h hc.2, rfl⟩
  apply Raising.ends_read_bind
  apply Raising.ends_read_bind
  refine Raising.ends_check_bind (fun hforward => ?_) fun h => Or.inl ⟨fun hc => h hc.3, rfl⟩
  apply Raising.ends_change_bind
  have hcounts : contest.Counts observations := ⟨hregistered, hnonneg, hforward⟩
  refine Raising.ends_lift_bind (fun metrics hmetrics => ?_) fun error herror => ?_
  · exact Raising.ends_change ⟨hcounts, metrics, hmetrics, rfl⟩
  · exact Or.inr ⟨hcounts, ⟨error, herror⟩, rfl⟩

theorem record_ends {contest : ProspectiveContest} {made : ContestCall}
    {observations : Observations} (h : made.observations? contest = some observations) :
    Raising.Ends (call made) contest
      (fun _ after => contest.Counts observations ∧ ∃ metrics,
        checkMetrics observations.gatesPass observations.metrics = .ok metrics ∧
          after = (contest.counted observations).measured metrics)
      (fun _ after => contest.RaisedAfter observations after) := by
  cases made with
  | start arguments => cases h
  | registerVersion modelVersion configHash trainingSnapshotHash modelId => cases h
  | recordObservations given =>
      cases h
      exact recordObservations_ends contest observations
  | recordSession maturedPredictions gatesPass metrics =>
      cases h
      apply Raising.ends_read_bind
      refine Raising.ends_check_bind (fun _ => ?_) fun h => Or.inl ⟨fun hc => h hc.1, rfl⟩
      refine Raising.ends_check_bind (fun _ => ?_) fun h => Or.inl ⟨fun hc => h ?_, rfl⟩
      · apply Raising.ends_read_bind
        apply Raising.ends_read_bind
        exact recordObservations_ends contest _
      · have hforward := hc.forward.2
        dsimp only at hforward
        omega

/-- The contest before and after a call that records no observations. -/
structure Registers (contest after : ProspectiveContest) : Prop where
  futureSessions : after.futureSessions = contest.futureSessions
  maturedPredictions : after.maturedPredictions = contest.maturedPredictions
  metrics : after.metrics = contest.metrics
  registration : after.registration.isSome = contest.registration.isSome
  status : after.status = contest.status

theorem Registers.refl (contest : ProspectiveContest) : contest.Registers contest :=
  ⟨rfl, rfl, rfl, rfl, rfl⟩

/-! ### Agreement -/

/-- What the approval of a contest asks for. -/
def Approvable (contest : ProspectiveContest) : Prop :=
  60 ≤ contest.futureSessions ∧ 200 ≤ contest.maturedPredictions ∧
    contest.metrics.any ProspectiveMetrics.pass = true

/-- The status says whether the counters and the metrics ask for approval. -/
structure Agreed (contest : ProspectiveContest) : Prop where
  approved : contest.status = .awaitingManualApproval ↔ contest.Approvable
  unstarted : contest.registration = none → contest.futureSessions = 0

theorem agreed_new (now : UtcDateTime) : (new now).Agreed where
  approved := by
    constructor
    · rintro ⟨⟩
    · rintro ⟨hsessions, _⟩
      exact absurd hsessions (by decide : ¬ (60 : ℤ) ≤ 0)
  unstarted _ := rfl

theorem Registers.agreed {contest after : ProspectiveContest} (h : contest.Registers after)
    (hagreed : contest.Agreed) : after.Agreed where
  approved := by
    rw [Approvable, h.status, h.futureSessions, h.maturedPredictions, h.metrics]
    exact hagreed.approved
  unstarted hnone := by
    rw [h.futureSessions]
    apply hagreed.unstarted
    rw [← Option.not_isSome_iff_eq_none, ← h.registration, hnone]
    exact Bool.false_ne_true

theorem agreed_restart {contest : ProspectiveContest} : contest.restart.Agreed where
  approved := by
    constructor
    · rintro ⟨⟩
    · rintro ⟨hsessions, _⟩
      exact absurd hsessions (by decide : ¬ (60 : ℤ) ≤ 0)
  unstarted _ := rfl

theorem agreed_measured {contest : ProspectiveContest} (metrics : Option ProspectiveMetrics)
    (hregistered : contest.registration.isSome = true) : (contest.measured metrics).Agreed where
  approved := by
    have happrovable : (contest.measured metrics).Approvable ↔
        60 ≤ contest.futureSessions ∧ 200 ≤ contest.maturedPredictions ∧
          metrics.any ProspectiveMetrics.pass = true := Iff.rfl
    rw [happrovable]
    dsimp only [measured, refreshStatus]
    split
    · exact iff_of_true rfl ‹_›
    · split
      · exact iff_of_false (by decide) ‹_›
      · exact iff_of_false (by decide) ‹_›
  unstarted hnone := by
    have hstill : contest.registration = none := hnone
    rw [hstill] at hregistered
    cases hregistered

theorem start_ends {contest : ProspectiveContest} (hagreed : contest.Agreed)
    (arguments : StartArguments) :
    Raising.Ends (start arguments) contest (fun _ after => after.Agreed)
      (fun _ after => after = contest) := by
  refine Raising.ends_check_bind (fun _ => ?_) fun _ => rfl
  refine Raising.ends_check_bind (fun _ => ?_) fun _ => rfl
  refine Raising.ends_check_bind (fun _ => ?_) fun _ => rfl
  apply Raising.ends_read_bind
  refine Raising.ends_check_bind (fun _ => ?_) fun _ => rfl
  refine Raising.ends_check_bind (fun _ => ?_) fun _ => rfl
  apply Raising.ends_read_bind
  cases hregistration : contest.registration with
  | some existing => exact Raising.ends_check (fun _ => hagreed) fun _ => rfl
  | none =>
      refine Raising.ends_change ⟨?_, ?_⟩
      · constructor
        · rintro ⟨⟩
        · rintro ⟨hsessions, _⟩
          have hzero := hagreed.unstarted hregistration
          dsimp only at hsessions
          omega
      · rintro ⟨⟩

theorem registerVersion_ends (contest : ProspectiveContest)
    (modelVersion configHash trainingSnapshotHash : Text) (modelId : Option Text) :
    Raising.Ends (registerVersion modelVersion configHash trainingSnapshotHash modelId) contest
      (fun _ after => after.Agreed) (fun _ after => contest.Registers after) := by
  apply Raising.ends_read_bind
  refine Raising.ends_check_bind (fun _ => ?_) fun _ => Registers.refl contest
  refine Raising.ends_check_bind (fun _ => ?_) fun _ => Registers.refl contest
  apply Raising.ends_change_bind
  refine Raising.ends_check_bind (fun _ => ?_) fun _ => ?_
  · exact Raising.ends_change agreed_restart
  · exact ⟨rfl, rfl, rfl, Option.isSome_map, rfl⟩

/-- A call that records no observations keeps the agreement. -/
theorem registration_ends {contest : ProspectiveContest} (hagreed : contest.Agreed)
    {made : ContestCall} (h : made.observations? contest = none) :
    Raising.Ends (call made) contest (fun _ after => after.Agreed)
      (fun _ after => contest.Registers after) := by
  cases made with
  | start arguments =>
      refine (start_ends hagreed arguments).imp (fun _ _ h => h) ?_
      rintro _ _ rfl
      exact Registers.refl _
  | registerVersion modelVersion configHash trainingSnapshotHash modelId =>
      exact registerVersion_ends contest modelVersion configHash trainingSnapshotHash modelId
  | recordObservations observations => cases h
  | recordSession maturedPredictions gatesPass metrics => cases h

/-! ### Atomic observation -/

/-- What the observers of a contest see of it. -/
def observed (contest : ProspectiveContest) : ℤ × ℤ × Option ProspectiveMetrics × ContestStatus :=
  (contest.futureSessions, contest.maturedPredictions, contest.metrics, contest.status)

/-- A call that records observations and raises changes nothing that is observed, and after a call
that returns the status says whether approval is asked for. -/
structure Atomic (contest : ProspectiveContest) (made : ContestCall) : Prop where
  unchanged : (made.observations? contest).isSome = true →
    ∀ error, (call made contest).1 = .error error →
      (contest.after made).observed = contest.observed
  approved : (call made contest).1 = .ok () →
    ((contest.after made).status = .awaitingManualApproval ↔ (contest.after made).Approvable)

/-- Observations whose counters are accepted come with metrics, or with none if no gates are said to
pass, unless the counters are those that the contest has. -/
def Admissible (contest : ProspectiveContest) (made : ContestCall) : Prop :=
  ∀ observations, made.observations? contest = some observations →
    contest.Counts observations →
      (∃ metrics, checkMetrics observations.gatesPass observations.metrics = .ok metrics) ∨
        observations.sessions = contest.futureSessions ∧
          observations.matured = contest.maturedPredictions

theorem counted_self {contest : ProspectiveContest} {observations : Observations}
    (hsessions : observations.sessions = contest.futureSessions)
    (hmatured : observations.matured = contest.maturedPredictions) :
    contest.counted observations = contest := by
  rw [counted, hsessions, hmatured]

theorem admissible_of_atomic {contest : ProspectiveContest} {made : ContestCall}
    (h : contest.Atomic made) : contest.Admissible made := by
  intro observations hobservations hcounts
  cases hrun : call made contest with
  | mk result after =>
      cases result with
      | ok u =>
          obtain ⟨_, metrics, hmetrics, _⟩ := (record_ends hobservations).of_ok hrun
          exact Or.inl ⟨metrics, hmetrics⟩
      | error error =>
          obtain ⟨hnot, _⟩ | ⟨_, _, hafter⟩ := (record_ends hobservations).of_error hrun
          · exact absurd hcounts hnot
          · have hsame := h.unchanged (by rw [hobservations]; rfl) error (by rw [hrun])
            rw [ProspectiveContest.after, hrun, hafter] at hsame
            exact Or.inr ⟨congrArg Prod.fst hsame,
              congrArg (fun seen => seen.2.1) hsame⟩

/-- An admissible call keeps the agreement, and leaves the contest as it was if it raises. -/
theorem record_ends_admissible {contest : ProspectiveContest} (hagreed : contest.Agreed)
    {made : ContestCall} {observations : Observations}
    (hobservations : made.observations? contest = some observations)
    (h : contest.Admissible made) :
    Raising.Ends (call made) contest (fun _ after => after.Agreed)
      (fun _ after => after = contest) := by
  refine (record_ends hobservations).imp ?_ ?_
  · rintro _ _ ⟨hcounts, metrics, _, rfl⟩
    exact agreed_measured metrics hcounts.registered
  · rintro _ _ (⟨_, rfl⟩ | ⟨hcounts, ⟨error, herror⟩, rfl⟩)
    · rfl
    · obtain ⟨metrics, hmetrics⟩ | ⟨hsessions, hmatured⟩ := h observations hobservations hcounts
      · cases herror.symm.trans hmetrics
      · exact counted_self hsessions hmatured

theorem call_ends_admissible {contest : ProspectiveContest} (hagreed : contest.Agreed)
    {made : ContestCall} (h : contest.Admissible made) :
    Raising.Ends (call made) contest (fun _ after => after.Agreed)
      (fun _ after => contest.Registers after) := by
  cases hobservations : made.observations? contest with
  | none => exact registration_ends hagreed hobservations
  | some observations =>
      refine (record_ends_admissible hagreed hobservations h).imp (fun _ _ h => h) ?_
      rintro _ _ rfl
      exact Registers.refl _

theorem agreed_after {contest : ProspectiveContest} (hagreed : contest.Agreed) {made : ContestCall}
    (h : contest.Admissible made) : (contest.after made).Agreed :=
  (call_ends_admissible hagreed h).after (fun _ _ hafter => hafter)
    fun _ _ hsame => hsame.agreed hagreed

theorem atomic_iff {contest : ProspectiveContest} (hagreed : contest.Agreed) (made : ContestCall) :
    contest.Atomic made ↔ contest.Admissible made := by
  refine ⟨admissible_of_atomic, fun h => ⟨?_, fun _ => (agreed_after hagreed h).approved⟩⟩
  intro hsome error herror
  obtain ⟨observations, hobservations⟩ := Option.isSome_iff_exists.mp hsome
  cases hrun : call made contest with
  | mk result after =>
      rw [hrun] at herror
      cases herror
      have hafter := (record_ends_admissible hagreed hobservations h).of_error hrun
      rw [ProspectiveContest.after, hrun, hafter]

/-- Every call of a run is atomic exactly if every call is admissible. -/
theorem observation_atomic_iff (now : UtcDateTime) (calls : List ContestCall) :
    Runs.StepsMeet after Atomic (new now) calls ↔
      Runs.StepsMeet after Admissible (new now) calls :=
  Runs.stepsMeet_congr after Agreed (fun _ _ hagreed h => agreed_after hagreed h)
    (fun _ made hagreed => atomic_iff hagreed made) (new now) calls (agreed_new now)

def contestDay : UtcDateTime := ⟨.of 2026 8 21, 8, 0, 0, 0⟩

def contestStart : StartArguments where
  modelId := "challenger".toList
  modelVersion := "v1".toList
  configHash := "config".toList
  trainingSnapshotHash := "snapshot".toList
  modelBundleDigest := none
  primaryMetric := "net_cost_return".toList
  tieBreak := ["max_drawdown".toList, "brier".toList]
  startedAt := .notGiven

/-- A session that is said to pass the gates without metrics is refused, but counted. -/
theorem refusedSession_counted :
    ¬ Runs.StepsMeet after Atomic (new contestDay)
      [.start contestStart, .recordSession 3 true .absent] := by
  rintro ⟨_, hrecord, _⟩
  have hraises : (call (.recordSession 3 true .absent)
      ((new contestDay).after (.start contestStart))).1 =
        .error "metrics are required to derive contest gates" := by
    rfl
  have hsame := hrecord.unchanged rfl _ hraises
  have hcounters : (1 : ℤ) = 0 := congrArg Prod.fst hsame
  exact absurd hcounters (by decide)

end ProspectiveContest

end QuantWorkbench.Research
