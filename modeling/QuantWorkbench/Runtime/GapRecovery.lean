import QuantWorkbench.Data.RealtimeQuality
import QuantWorkbench.Lib.Runs
import QuantWorkbench.Lib.Tables

/-!
`GapRecoveryTracker` of `runtime/scheduler.py`, and which sequences of observations it reports the
missing slots of once. It keeps the timestamp seen last, also where an earlier one was later.
-/

namespace QuantWorkbench.Runtime

open QuantWorkbench.Lib QuantWorkbench.Data

/-! ### The tracker -/

structure DataGap where
  symbol : Text
  timestamp : Timestamp
  frequency : Text
  deriving DecidableEq

/-- The settings of a tracker; the interval is in microseconds. -/
structure GapRecoveryTracker where
  interval : ℤ
  frequency : Text
  positive : 0 < interval

/-- A bar, or a call of `observe`: a symbol and an instant. -/
abbrev Observation := Text × Timestamp

abbrev LastSeen := Text → Option Timestamp

/-- The loop of `observe`. -/
def slotsFrom (interval : ℤ) : ℕ → ℤ → ℤ → List ℤ
  | 0, _, _ => []
  | fuel + 1, current, timestamp =>
      if current < timestamp then current :: slotsFrom interval fuel (current + interval) timestamp
      else []

namespace GapRecoveryTracker

variable (tracker : GapRecoveryTracker)

/-- The slots between the last timestamp and the new one. An interval is a microsecond at least, so
the loop ends after as many steps. -/
def missing (previous timestamp : ℤ) : List ℤ :=
  if timestamp ≤ previous + tracker.interval then []
  else slotsFrom tracker.interval (timestamp - previous).toNat (previous + tracker.interval)
    timestamp

/-- `observe` of a timestamp with a time zone. -/
def observeAware (seen : LastSeen) (observation : Observation) : List DataGap × LastSeen :=
  let (symbol, timestamp) := observation
  let gaps := match seen symbol with
    | none => []
    | some previous => (tracker.missing previous timestamp).map fun slot =>
        ⟨symbol, slot, tracker.frequency⟩
  (gaps, Function.update seen symbol (some timestamp))

/-- `observe`. A timestamp without a time zone is `none`. -/
def observe (seen : LastSeen) (symbol : Text) (timestamp : Option Timestamp) :
    Except String (List DataGap × LastSeen) :=
  match timestamp with
  | none => .error "timestamp must be timezone-aware"
  | some timestamp => .ok (tracker.observeAware seen (symbol, timestamp))

def observeAll (seen : LastSeen) : List Observation → List DataGap × LastSeen
  | [] => ([], seen)
  | bar :: rest =>
      let (gaps, seen) := tracker.observeAware seen bar
      let (others, seen) := observeAll seen rest
      (gaps ++ others, seen)

def observeBars (seen : LastSeen) (bars : List Observation) : List DataGap × LastSeen :=
  tracker.observeAll seen (sortValues (fun bar => toLex bar) bars)

variable {tracker}

theorem mem_slotsFrom {interval : ℤ} (hinterval : 0 < interval) {fuel : ℕ}
    {current timestamp slot : ℤ} (hfuel : timestamp - current ≤ fuel) :
    slot ∈ slotsFrom interval fuel current timestamp ↔
      (∃ k : ℕ, slot = current + k * interval) ∧ slot < timestamp := by
  induction fuel generalizing current with
  | zero =>
      refine ⟨fun h => absurd h List.not_mem_nil, ?_⟩
      rintro ⟨⟨k, rfl⟩, hlt⟩
      have hk : 0 ≤ (k : ℤ) * interval := by positivity
      push_cast at hfuel
      omega
  | succ fuel ih =>
      rw [slotsFrom]
      by_cases hcurrent : current < timestamp
      · rw [if_pos hcurrent, List.mem_cons, ih (by push_cast at hfuel; omega)]
        constructor
        · rintro (rfl | ⟨⟨k, rfl⟩, hlt⟩)
          · exact ⟨⟨0, by push_cast; ring⟩, hcurrent⟩
          · exact ⟨⟨k + 1, by push_cast; ring⟩, hlt⟩
        · rintro ⟨⟨k, rfl⟩, hlt⟩
          cases k with
          | zero => exact Or.inl (by push_cast; ring)
          | succ k => exact Or.inr ⟨⟨k, by push_cast; ring⟩, hlt⟩
      · rw [if_neg hcurrent]
        refine ⟨fun h => absurd h List.not_mem_nil, ?_⟩
        rintro ⟨⟨k, rfl⟩, hlt⟩
        have hk : 0 ≤ (k : ℤ) * interval := by positivity
        omega

theorem nodup_slotsFrom {interval : ℤ} (hinterval : 0 < interval) (fuel : ℕ)
    (current timestamp : ℤ) : (slotsFrom interval fuel current timestamp).Nodup := by
  have hfrom : ∀ (fuel : ℕ) (current slot : ℤ),
      slot ∈ slotsFrom interval fuel current timestamp → current ≤ slot := by
    intro fuel
    induction fuel with
    | zero => exact fun _ _ h => absurd h List.not_mem_nil
    | succ fuel ih =>
        intro current slot h
        rw [slotsFrom] at h
        split at h
        · rcases List.mem_cons.mp h with rfl | hrest
          · exact le_rfl
          · have hlater := ih _ _ hrest
            omega
        · exact absurd h List.not_mem_nil
  induction fuel generalizing current with
  | zero => exact List.nodup_nil
  | succ fuel ih =>
      rw [slotsFrom]
      split
      · refine List.nodup_cons.mpr ⟨fun hmem => ?_, ih _⟩
        have hlater := hfrom _ _ _ hmem
        omega
      · exact List.nodup_nil

/-- What is missing: the slots of the grid strictly between the two. -/
theorem mem_missing {previous timestamp slot : ℤ} :
    slot ∈ tracker.missing previous timestamp ↔
      tracker.interval ∣ slot - previous ∧ previous < slot ∧ slot < timestamp := by
  have hpositive := tracker.positive
  rw [missing]
  by_cases hnear : timestamp ≤ previous + tracker.interval
  · rw [if_pos hnear]
    refine ⟨fun h => absurd h List.not_mem_nil, ?_⟩
    rintro ⟨hgrid, hafter, hbefore⟩
    have hle := Int.le_of_dvd (by omega) hgrid
    omega
  · rw [if_neg hnear, mem_slotsFrom hpositive (by omega)]
    constructor
    · rintro ⟨⟨k, rfl⟩, hlt⟩
      have hk : 0 ≤ (k : ℤ) * tracker.interval := by positivity
      refine ⟨⟨k + 1, by ring⟩, by omega, hlt⟩
    · rintro ⟨⟨k, hk⟩, hafter, hlt⟩
      have hkpos : 0 < k := by
        by_contra hle
        have : tracker.interval * k ≤ 0 := mul_nonpos_of_nonneg_of_nonpos (by omega) (by omega)
        omega
      refine ⟨⟨(k - 1).toNat, ?_⟩, hlt⟩
      have hcast : (((k - 1).toNat : ℕ) : ℤ) = k - 1 := Int.toNat_of_nonneg (by omega)
      rw [hcast]
      linarith [mul_comm tracker.interval k, sub_mul k 1 tracker.interval]

theorem nodup_missing (previous timestamp : ℤ) :
    (tracker.missing previous timestamp).Nodup := by
  rw [missing]
  split
  · exact List.nodup_nil
  · exact nodup_slotsFrom tracker.positive _ _ _

/-! ### What a history of one symbol has covered -/

/-- A slot that two observations of a symbol, one right after the other, leave out between them.
The history has the latest observation first. -/
def SteppedOver (interval : ℤ) : List ℤ → ℤ → Prop
  | timestamp :: previous :: earlier, slot =>
      (interval ∣ slot - previous ∧ previous < slot ∧ slot < timestamp) ∨
        SteppedOver interval (previous :: earlier) slot
  | _, _ => False

theorem lt_of_steppedOver {interval slot : ℤ} {times : List ℤ}
    (h : SteppedOver interval times slot) : ∃ timestamp ∈ times, slot < timestamp := by
  induction times with
  | nil => exact h.elim
  | cons timestamp earlier ih =>
      cases earlier with
      | nil => exact h.elim
      | cons previous earlier =>
          rcases h with ⟨_, _, hlt⟩ | h
          · exact ⟨timestamp, List.mem_cons_self, hlt⟩
          · obtain ⟨later, hlater, hlt⟩ := ih h
            exact ⟨later, List.mem_cons_of_mem _ hlater, hlt⟩

def SameGrid (interval : ℤ) (times : List ℤ) : Prop :=
  ∀ timestamp ∈ times, ∀ other ∈ times, interval ∣ timestamp - other

/-- Every slot from the first observation on, up to any other, is observed or stepped over: a jump
that passes the greatest one so far begins at it or before it. -/
theorem covered_of_sameGrid {interval : ℤ} {times : List ℤ} (hgrid : SameGrid interval times)
    {first timestamp slot : ℤ} (hfirst : times.getLast? = some first) (hmem : timestamp ∈ times)
    (hafter : first ≤ slot) (hbefore : slot ≤ timestamp) (hslot : interval ∣ slot - first) :
    slot ∈ times ∨ SteppedOver interval times slot := by
  induction times generalizing timestamp with
  | nil => cases hmem
  | cons latest earlier ih =>
      cases earlier with
      | nil =>
          cases hfirst
          cases List.mem_singleton.mp hmem
          left
          rw [le_antisymm hbefore hafter]
          exact List.mem_singleton_self latest
      | cons previous earlier =>
          have hearlier : SameGrid interval (previous :: earlier) := fun a ha b hb =>
            hgrid a (List.mem_cons_of_mem _ ha) b (List.mem_cons_of_mem _ hb)
          have hfirst' : (previous :: earlier).getLast? = some first := by
            simpa only [List.getLast?_cons_cons] using hfirst
          have hcovered : ∀ other ∈ previous :: earlier, slot ≤ other →
              slot ∈ latest :: previous :: earlier ∨
                SteppedOver interval (latest :: previous :: earlier) slot := by
            intro other hother hle
            rcases ih hearlier hfirst' hother hle with hseen | hstepped
            · exact Or.inl (List.mem_cons_of_mem _ hseen)
            · exact Or.inr (Or.inr hstepped)
          rcases List.mem_cons.mp hmem with rfl | hmem
          · rcases le_or_gt slot previous with hle | hlt
            · exact hcovered previous List.mem_cons_self hle
            · rcases hbefore.eq_or_lt with rfl | hbefore
              · exact Or.inl List.mem_cons_self
              · have hprevious := hearlier previous List.mem_cons_self first
                  (List.mem_of_getLast? hfirst')
                have hstep : interval ∣ slot - previous := by
                  have := dvd_sub hslot hprevious
                  rwa [sub_sub_sub_cancel_right] at this
                exact Or.inr (Or.inl ⟨hstep, hlt, hbefore⟩)
          · exact hcovered timestamp hmem hbefore

/-- What a next observation must meet after those of its symbol: it is the first, or it comes one
interval after the previous one at most, or the previous one is the greatest, or the previous one is
before the first one and nothing between it and the new one is observed or stepped over. -/
def Admits (interval : ℤ) : List ℤ → ℤ → Prop
  | [], _ => True
  | previous :: earlier, timestamp =>
      timestamp ≤ previous + interval ∨ (∀ other ∈ earlier, other ≤ previous) ∨
        ((∀ first ∈ (previous :: earlier).getLast?, previous < first) ∧
          ∀ slot, interval ∣ slot - previous → previous < slot → slot < timestamp →
            slot ∉ earlier ∧ ¬ SteppedOver interval (previous :: earlier) slot)

/-- The slots that the tracker finds missing are new exactly when the history admits the
observation. -/
theorem missing_new_iff {previous timestamp : ℤ} {earlier : List ℤ}
    (hgrid : SameGrid tracker.interval (previous :: earlier)) :
    (∀ slot ∈ tracker.missing previous timestamp, slot ∉ previous :: earlier ∧
        ¬ SteppedOver tracker.interval (previous :: earlier) slot) ↔
      Admits tracker.interval (previous :: earlier) timestamp := by
  have hpositive := tracker.positive
  constructor
  · intro hnew
    by_cases hnear : timestamp ≤ previous + tracker.interval
    · exact Or.inl hnear
    by_cases hgreatest : ∀ other ∈ earlier, other ≤ previous
    · exact Or.inr (Or.inl hgreatest)
    refine Or.inr (Or.inr ⟨?_, ?_⟩)
    · -- otherwise the slot after the previous observation is covered already
      intro first hfirst
      by_contra hle
      push Not at hnear hgreatest hle
      obtain ⟨other, hother, hlater⟩ := hgreatest
      have hmem := List.mem_cons_of_mem previous hother
      have hstep := Int.le_of_dvd (by omega)
        (hgrid other hmem previous List.mem_cons_self)
      have hslot : tracker.interval ∣ previous + tracker.interval - first := by
        have hprevious := hgrid previous List.mem_cons_self first (List.mem_of_getLast? hfirst)
        have := dvd_add hprevious (dvd_refl tracker.interval)
        rwa [← add_sub_right_comm] at this
      have hmissing : previous + tracker.interval ∈ tracker.missing previous timestamp :=
        mem_missing.mpr ⟨⟨1, by ring⟩, by omega, hnear⟩
      obtain ⟨hunseen, hunstepped⟩ := hnew _ hmissing
      rcases covered_of_sameGrid hgrid hfirst hmem (by omega) (by omega) hslot with hseen | hstepped
      · exact hunseen hseen
      · exact hunstepped hstepped
    · intro slot hslot hafter hbefore
      obtain ⟨hunseen, hunstepped⟩ := hnew slot (mem_missing.mpr ⟨hslot, hafter, hbefore⟩)
      exact ⟨fun hseen => hunseen (List.mem_cons_of_mem _ hseen), hunstepped⟩
  · intro hadmits slot hmissing
    obtain ⟨hslot, hafter, hbefore⟩ := mem_missing.mp hmissing
    rcases hadmits with hnear | hgreatest | ⟨_, hnew⟩
    · have hstep := Int.le_of_dvd (by omega) hslot
      omega
    · have hall : ∀ other ∈ previous :: earlier, other < slot := by
        intro other hother
        rcases List.mem_cons.mp hother with rfl | hother
        · exact hafter
        · exact (hgreatest other hother).trans_lt hafter
      refine ⟨fun hseen => (hall slot hseen).false, fun hstepped => ?_⟩
      obtain ⟨other, hother, hlt⟩ := lt_of_steppedOver hstepped
      exact hlt.asymm (hall other hother)
    · obtain ⟨hunseen, hunstepped⟩ := hnew slot hslot hafter hbefore
      refine ⟨fun hseen => ?_, hunstepped⟩
      rcases List.mem_cons.mp hseen with rfl | hseen
      · exact hafter.false
      · exact hunseen hseen

/-! ### Runs -/

/-- A tracker's `_last_seen`, with what it has observed of each symbol, the latest first, and what
it has reported. -/
structure GapHistory where
  seen : LastSeen
  observed : Text → List ℤ
  reported : List DataGap

def GapHistory.start : GapHistory := ⟨fun _ => none, fun _ => [], []⟩

/-- A call of the tracker. -/
inductive TrackerCall where
  | observe (symbol : Text) (timestamp : Option Timestamp)
  | observeBars (bars : List Observation)

def TrackerCall.observations : TrackerCall → List Observation
  | .observe symbol timestamp => timestamp.toList.map fun timestamp => (symbol, timestamp)
  | .observeBars bars => sortValues (fun bar => toLex bar) bars

def observedAfter (observed : Text → List ℤ) (observation : Observation) : Text → List ℤ :=
  Function.update observed observation.1 (observation.2 :: observed observation.1)

variable (tracker) in
def observationStep (history : GapHistory) (observation : Observation) : GapHistory :=
  let (gaps, seen) := tracker.observeAware history.seen observation
  ⟨seen, observedAfter history.observed observation, history.reported ++ gaps⟩

variable (tracker) in
/-- A call that raises leaves the tracker as it is. -/
def callStep (history : GapHistory) : TrackerCall → GapHistory
  | .observe symbol timestamp =>
      match tracker.observe history.seen symbol timestamp with
      | .error _ => history
      | .ok (gaps, seen) =>
          ⟨seen, (TrackerCall.observe symbol timestamp).observations.foldl observedAfter
            history.observed, history.reported ++ gaps⟩
  | .observeBars bars =>
      let (gaps, seen) := tracker.observeBars history.seen bars
      ⟨seen, (TrackerCall.observeBars bars).observations.foldl observedAfter history.observed,
        history.reported ++ gaps⟩

theorem foldl_observationStep (history : GapHistory) (observations : List Observation) :
    observations.foldl tracker.observationStep history =
      ⟨(tracker.observeAll history.seen observations).2,
        observations.foldl observedAfter history.observed,
        history.reported ++ (tracker.observeAll history.seen observations).1⟩ := by
  induction observations generalizing history with
  | nil => simp [observeAll]
  | cons observation rest ih =>
      rw [List.foldl_cons, ih]
      simp [observationStep, observeAll, List.append_assoc]

theorem callStep_eq (history : GapHistory) (call : TrackerCall) :
    tracker.callStep history call =
      call.observations.foldl tracker.observationStep history := by
  cases call with
  | observe symbol timestamp => cases timestamp <;> rfl
  | observeBars bars =>
      rw [foldl_observationStep]
      rfl

theorem foldl_callStep (history : GapHistory) (calls : List TrackerCall) :
    calls.foldl tracker.callStep history =
      (calls.flatMap TrackerCall.observations).foldl tracker.observationStep history := by
  rw [List.foldl_flatMap]
  congr 1
  funext history call
  exact callStep_eq history call

variable (tracker) in
def gapsOf (history : GapHistory) (observation : Observation) : List DataGap :=
  (tracker.observeAware history.seen observation).1

/-- What is recorded of the calls so far: the tracker knows the latest observation of each symbol,
and it has reported what was stepped over. -/
structure Recorded (tracker : GapRecoveryTracker) (history : GapHistory) : Prop where
  seen : ∀ symbol, history.seen symbol = (history.observed symbol).head?
  reported : ∀ gap, gap ∈ history.reported ↔ gap.frequency = tracker.frequency ∧
    SteppedOver tracker.interval (history.observed gap.symbol) gap.timestamp

theorem recorded_start : Recorded tracker GapHistory.start :=
  ⟨fun _ => rfl, fun gap => by simp [GapHistory.start, SteppedOver]⟩

theorem mem_gapsOf {history : GapHistory} (hrecorded : Recorded tracker history)
    {observation : Observation} {gap : DataGap} :
    gap ∈ tracker.gapsOf history observation ↔
      gap.symbol = observation.1 ∧ gap.frequency = tracker.frequency ∧
        ∃ previous ∈ (history.observed observation.1).head?,
          gap.timestamp ∈ tracker.missing previous observation.2 := by
  obtain ⟨symbol, timestamp⟩ := observation
  rw [gapsOf, observeAware, hrecorded.seen symbol]
  cases hlatest : (history.observed symbol).head? with
  | none => simp
  | some previous =>
      obtain ⟨gapSymbol, slot, frequency⟩ := gap
      simp only [List.mem_map, Option.mem_some_iff, exists_eq_left', DataGap.mk.injEq]
      constructor
      · rintro ⟨slot, hslot, rfl, rfl, rfl⟩
        exact ⟨rfl, rfl, hslot⟩
      · rintro ⟨rfl, rfl, hslot⟩
        exact ⟨slot, hslot, rfl, rfl, rfl⟩

theorem nodup_gapsOf (history : GapHistory) (observation : Observation) :
    (tracker.gapsOf history observation).Nodup := by
  rw [gapsOf, observeAware]
  cases history.seen observation.1 with
  | none => exact List.nodup_nil
  | some previous =>
      apply (nodup_missing previous observation.2).map
      intro slot other h
      exact congrArg DataGap.timestamp h

theorem recorded_step {history : GapHistory} (hrecorded : Recorded tracker history)
    (observation : Observation) :
    Recorded tracker (tracker.observationStep history observation) := by
  constructor
  · intro symbol
    by_cases hsymbol : symbol = observation.1
    · subst hsymbol
      simp [observationStep, observeAware, observedAfter]
    · simp [observationStep, observeAware, observedAfter, hsymbol, hrecorded.seen symbol]
  · intro gap
    change gap ∈ history.reported ++ tracker.gapsOf history observation ↔
      _ ∧ SteppedOver _ (observedAfter history.observed observation gap.symbol) _
    rw [List.mem_append, hrecorded.reported, mem_gapsOf hrecorded, observedAfter]
    by_cases hsymbol : gap.symbol = observation.1
    · rw [hsymbol, Function.update_self]
      cases history.observed observation.1 with
      | nil => simp [SteppedOver]
      | cons previous earlier =>
          simp only [SteppedOver, List.head?_cons, Option.mem_some_iff, exists_eq_left',
            mem_missing]
          tauto
    · rw [Function.update_of_ne hsymbol]
      simp [hsymbol]

/-! ### Which runs report each slot once -/

def Covered (tracker : GapRecoveryTracker) (history : GapHistory) : Prop :=
  ∀ symbol, ∀ first ∈ (history.observed symbol).getLast?,
    ∀ timestamp ∈ history.observed symbol, ∀ slot, first ≤ slot → slot ≤ timestamp →
      tracker.interval ∣ slot - first →
        slot ∈ history.observed symbol ∨ ⟨symbol, slot, tracker.frequency⟩ ∈ history.reported

/-- No gap is reported twice, no gap is reported that was observed before, and after each call the
slots up to the greatest observation are covered. -/
structure ReportsOnce (tracker : GapRecoveryTracker) (calls : List TrackerCall) : Prop where
  once : (calls.foldl tracker.callStep GapHistory.start).reported.Nodup
  unseen : Runs.StepsMeet tracker.observationStep
    (fun history observation => ∀ gap ∈ tracker.gapsOf history observation,
      gap.timestamp ∉ history.observed gap.symbol)
    GapHistory.start (calls.flatMap TrackerCall.observations)
  covered : Runs.Always tracker.callStep tracker.Covered GapHistory.start calls

def OnGrid (tracker : GapRecoveryTracker) (observations : List Observation) : Prop :=
  ∀ symbol timestamp other, (symbol, timestamp) ∈ observations → (symbol, other) ∈ observations →
    tracker.interval ∣ timestamp - other

/-- Each observation is admitted by the earlier ones of its symbol. -/
def Admitted (tracker : GapRecoveryTracker) (observations : List Observation) : Prop :=
  Runs.StepsMeet observedAfter
    (fun observed observation => Admits tracker.interval (observed observation.1) observation.2)
    (fun _ => []) observations

/-- What a run of known observations has recorded. -/
structure RecordedFrom (tracker : GapRecoveryTracker) (observations : List Observation)
    (history : GapHistory) : Prop where
  recorded : Recorded tracker history
  known : ∀ symbol, ∀ timestamp ∈ history.observed symbol, (symbol, timestamp) ∈ observations

theorem recordedFrom_start (observations : List Observation) :
    RecordedFrom tracker observations GapHistory.start :=
  ⟨recorded_start, fun _ _ h => absurd h List.not_mem_nil⟩

theorem recordedFrom_step {observations : List Observation} {history : GapHistory}
    (h : RecordedFrom tracker observations history) {observation : Observation}
    (hknown : observation ∈ observations) :
    RecordedFrom tracker observations (tracker.observationStep history observation) := by
  refine ⟨recorded_step h.recorded observation, ?_⟩
  intro symbol timestamp hmem
  change timestamp ∈ observedAfter history.observed observation symbol at hmem
  by_cases hsymbol : symbol = observation.1
  · subst hsymbol
    rw [observedAfter, Function.update_self] at hmem
    rcases List.mem_cons.mp hmem with rfl | hearlier
    · exact hknown
    · exact h.known _ timestamp hearlier
  · rw [observedAfter, Function.update_of_ne hsymbol] at hmem
    exact h.known symbol timestamp hmem

theorem RecordedFrom.sameGrid {observations : List Observation} {history : GapHistory}
    (h : RecordedFrom tracker observations history) (hgrid : tracker.OnGrid observations)
    (symbol : Text) : SameGrid tracker.interval (history.observed symbol) :=
  fun timestamp ht other ho =>
    hgrid symbol timestamp other (h.known symbol timestamp ht) (h.known symbol other ho)

theorem RecordedFrom.covered {observations : List Observation} {history : GapHistory}
    (h : RecordedFrom tracker observations history) (hgrid : tracker.OnGrid observations) :
    tracker.Covered history := by
  intro symbol first hfirst timestamp hmem slot hafter hbefore hslot
  rcases covered_of_sameGrid (h.sameGrid hgrid symbol) hfirst hmem hafter hbefore hslot with
    hseen | hstepped
  · exact Or.inl hseen
  · exact Or.inr ((h.recorded.reported _).mpr ⟨rfl, hstepped⟩)

theorem gapsOf_new_iff {observations : List Observation} {history : GapHistory}
    (h : RecordedFrom tracker observations history) (hgrid : tracker.OnGrid observations)
    (observation : Observation) :
    (∀ gap ∈ tracker.gapsOf history observation,
        gap ∉ history.reported ∧ gap.timestamp ∉ history.observed gap.symbol) ↔
      Admits tracker.interval (history.observed observation.1) observation.2 := by
  have hsame := h.sameGrid hgrid observation.1
  have hgaps := @mem_gapsOf _ _ h.recorded observation
  have hreported := h.recorded.reported
  cases hobserved : history.observed observation.1 with
  | nil =>
      refine ⟨fun _ => trivial, fun _ gap hgap => ?_⟩
      obtain ⟨_, _, previous, hprevious, _⟩ := hgaps.mp hgap
      rw [hobserved] at hprevious
      cases hprevious
  | cons previous earlier =>
      rw [hobserved] at hsame hgaps
      rw [← missing_new_iff hsame]
      constructor
      · intro hnew slot hslot
        have hgap := hgaps.mpr
          (show _ ∧ _ from ⟨rfl, rfl, previous, rfl, hslot⟩ :
            (⟨observation.1, slot, tracker.frequency⟩ : DataGap).symbol = _ ∧ _)
        obtain ⟨hunreported, hunseen⟩ := hnew _ hgap
        rw [hreported] at hunreported
        rw [hobserved] at hunreported hunseen
        exact ⟨hunseen, fun hstepped => hunreported ⟨rfl, hstepped⟩⟩
      · intro hnew gap hgap
        obtain ⟨hsymbol, _, latest, hlatest, hslot⟩ := hgaps.mp hgap
        cases hlatest
        obtain ⟨hunseen, hunstepped⟩ := hnew gap.timestamp hslot
        rw [hreported, hsymbol, hobserved]
        exact ⟨fun hreported => hunstepped hreported.2, hunseen⟩

theorem nodup_reported_iff (history : GapHistory) (observations : List Observation) :
    (observations.foldl tracker.observationStep history).reported.Nodup ↔
      history.reported.Nodup ∧ Runs.StepsMeet tracker.observationStep
        (fun history observation =>
          ∀ gap ∈ tracker.gapsOf history observation, gap ∉ history.reported)
        history observations := by
  induction observations generalizing history with
  | nil => exact ⟨fun h => ⟨h, trivial⟩, fun h => h.1⟩
  | cons observation rest ih =>
      have hnodup : (history.reported ++ tracker.gapsOf history observation).Nodup ↔
          history.reported.Nodup ∧ ∀ gap ∈ tracker.gapsOf history observation,
            gap ∉ history.reported := by
        rw [List.nodup_append_comm, List.nodup_append']
        simp [nodup_gapsOf, List.Disjoint]
      rw [List.foldl_cons, ih, Runs.StepsMeet, ← and_assoc]
      exact and_congr_left fun _ => hnodup

theorem recordedFrom_call {observations : List Observation} {history : GapHistory}
    (h : RecordedFrom tracker observations history) {call : TrackerCall}
    (hknown : ∀ observation ∈ call.observations, observation ∈ observations) :
    RecordedFrom tracker observations (tracker.callStep history call) := by
  rw [callStep_eq]
  have hrun := Runs.always_of_known tracker.observationStep (RecordedFrom tracker observations)
    (fun _ _ hrecorded hmem => recordedFrom_step hrecorded hmem) history call.observations hknown h
  exact hrun.last

/-- On a grid, nothing up to the greatest observation is ever missed. -/
theorem always_covered {calls : List TrackerCall}
    (hgrid : tracker.OnGrid (calls.flatMap TrackerCall.observations)) :
    Runs.Always tracker.callStep tracker.Covered GapHistory.start calls := by
  have hrecorded := Runs.always_of_known tracker.callStep
    (RecordedFrom tracker (calls.flatMap TrackerCall.observations))
    (fun _ _ h hknown => recordedFrom_call h hknown) GapHistory.start calls
    (fun call hcall _ hmem => List.mem_flatMap.mpr ⟨call, hcall, hmem⟩) (recordedFrom_start _)
  exact hrecorded.imp _ fun _ h => h.covered hgrid

theorem stepsMeet_new_iff {observations : List Observation}
    (hgrid : tracker.OnGrid observations) :
    Runs.StepsMeet tracker.observationStep
        (fun history observation => ∀ gap ∈ tracker.gapsOf history observation,
          gap ∉ history.reported ∧ gap.timestamp ∉ history.observed gap.symbol)
        GapHistory.start observations ↔ tracker.Admitted observations := by
  have hpart : ∀ history observation, (tracker.observationStep history observation).observed =
      observedAfter history.observed observation := fun _ _ => rfl
  have hadmits := @Runs.stepsMeet_part _ _ tracker.observationStep _ GapHistory.observed
    observedAfter hpart
    (fun observed observation => Admits tracker.interval (observed observation.1) observation.2)
    GapHistory.start observations
  exact (Runs.stepsMeet_congr_of _ (RecordedFrom tracker observations) (· ∈ observations)
    (fun _ _ h hknown _ => recordedFrom_step h hknown)
    (fun _ observation h _ => gapsOf_new_iff h hgrid observation) _ _ (fun _ hmem => hmem)
    (recordedFrom_start _)).trans hadmits

/-- Where all timestamps are on a grid, the tracker reports each missing slot once exactly when the
observations are admitted one after the other. -/
theorem reportsOnce_iff_admitted (tracker : GapRecoveryTracker) (calls : List TrackerCall)
    (hgrid : tracker.OnGrid (calls.flatMap TrackerCall.observations)) :
    tracker.ReportsOnce calls ↔ tracker.Admitted (calls.flatMap TrackerCall.observations) := by
  have honce := @nodup_reported_iff tracker GapHistory.start
    (calls.flatMap TrackerCall.observations)
  rw [← foldl_callStep] at honce
  rw [← stepsMeet_new_iff hgrid]
  constructor
  · rintro ⟨hnodup, hunseen, _⟩
    have hboth := (Runs.stepsMeet_and _).mpr ⟨(honce.mp hnodup).2, hunseen⟩
    refine Runs.StepsMeet.imp _ (fun _ => True) (fun _ _ _ => trivial) ?_ trivial hboth
    rintro history observation - ⟨hnew, hfresh⟩ gap hgap
    exact ⟨hnew gap hgap, hfresh gap hgap⟩
  · intro hnew
    refine ⟨honce.mpr ⟨List.nodup_nil, ?_⟩, ?_, always_covered hgrid⟩
    · exact Runs.StepsMeet.imp _ (fun _ => True) (fun _ _ _ => trivial)
        (fun _ _ _ h gap hgap => (h gap hgap).1) trivial hnew
    · exact Runs.StepsMeet.imp _ (fun _ => True) (fun _ _ _ => trivial)
        (fun _ _ _ h gap hgap => (h gap hgap).2) trivial hnew

/-! ### Samples -/

def sampleTracker : GapRecoveryTracker := ⟨60000000, "1m".toList, by decide⟩

def sampleCall (minutes : ℤ) : TrackerCall :=
  .observe "600519.SH".toList (some (minutes * 60000000))

theorem sample_onGrid (minutes : List ℤ) :
    sampleTracker.OnGrid ((minutes.map sampleCall).flatMap TrackerCall.observations) := by
  intro symbol timestamp other hmem hother
  have hof : ∀ time, (symbol, time) ∈
      (minutes.map sampleCall).flatMap TrackerCall.observations → sampleTracker.interval ∣ time := by
    intro time htime
    simp only [sampleCall, TrackerCall.observations, List.mem_flatMap, List.mem_map,
      exists_exists_and_eq_and, Option.mem_toList, Option.some.injEq, Prod.mk.injEq] at htime
    obtain ⟨minute, _, _, rfl, _, rfl⟩ := htime
    exact Dvd.intro_left _ rfl
  exact dvd_sub (hof timestamp hmem) (hof other hother)

/-- A bar that fills a reported slot, and a repeated one. -/
theorem sample_reportsOnce :
    sampleTracker.ReportsOnce ([0, 3, 3, 4, 2, 3].map sampleCall) := by
  apply (reportsOnce_iff_admitted _ _ (sample_onGrid _)).mpr
  simp [Admitted, Runs.StepsMeet, sampleCall, TrackerCall.observations, observedAfter, Admits,
    sampleTracker]

/-- After a late bar the slots between it and the next one are reported again, also the one that has
been observed. -/
theorem sample_not_reportsOnce :
    sampleTracker.OnGrid (([0, 3, 1, 4].map sampleCall).flatMap TrackerCall.observations) ∧
      ¬ sampleTracker.ReportsOnce ([0, 3, 1, 4].map sampleCall) := by
  refine ⟨sample_onGrid _, fun h => ?_⟩
  exact absurd h.once (by decide +kernel)

end GapRecoveryTracker

end QuantWorkbench.Runtime
