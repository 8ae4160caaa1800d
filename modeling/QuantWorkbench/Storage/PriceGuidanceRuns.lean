import QuantWorkbench.Lib.Runs
import QuantWorkbench.Storage.PriceGuidance

/-!
The artifact of price guidance over a run of calls on a clock that does not go back: it can be
opened again exactly as long as what is written is not larger than what is read.
-/

namespace QuantWorkbench.Storage

open Lib Advisory

/-! ### A process with a store -/

/-- A program with the store, and its clock in microseconds. -/
structure GuidanceProcess where
  file : Option Text
  memory : GuidanceMemory
  clock : ℤ

/-- A call at some time after the one before. Writing may fail. -/
inductive GuidanceCall where
  | replacePlans (plans : List PriceGuidancePlan) (elapsed : ℕ) (fault : Option String)
  | appendObservation (observation : PriceGuidanceObservation) (elapsed : ℕ) (fault : Option String)

namespace GuidanceCall

def elapsed : GuidanceCall → ℕ
  | replacePlans _ elapsed _ => elapsed
  | appendObservation _ elapsed _ => elapsed

def fault : GuidanceCall → Option String
  | replacePlans _ _ fault => fault
  | appendObservation _ _ fault => fault

/-- The content that the call is to leave. An observation has been made by then, so it is in
time. -/
def change (call : GuidanceCall) (memory : GuidanceMemory) (now : ℤ) :
    Except String GuidanceMemory :=
  match call with
  | replacePlans plans _ _ => Storage.replacePlans memory plans
  | appendObservation observation _ _ => do
      require (observation.InTime now) "observed_at cannot be in the future"
      Storage.appendObservation memory observation

end GuidanceCall

namespace GuidanceProcess

def time (process : GuidanceProcess) (call : GuidanceCall) : ℤ := process.clock + call.elapsed

/-- The new content and the new file of a call that returns. -/
def accept (process : GuidanceProcess) (call : GuidanceCall) : Except String
    (GuidanceMemory × Text) := do
  let memory ← call.change process.memory (process.time call)
  let text ← persistGuidance memory call.fault
  return (memory, text)

/-- A call that raises leaves content and file as they were. -/
def step (process : GuidanceProcess) (call : GuidanceCall) : GuidanceProcess :=
  match process.accept call with
  | .ok (memory, text) => ⟨some text, memory, process.time call⟩
  | .error _ => { process with clock := process.time call }

/-- What the call is to leave is not larger than what is read. -/
def FitsLimit (process : GuidanceProcess) (call : GuidanceCall) : Prop :=
  call.fault = none → ∀ memory, call.change process.memory (process.time call) = .ok memory →
    memory.text.utf8.length ≤ guidanceLimit

end GuidanceProcess

theorem replacePlans_consistent {memory changed : GuidanceMemory} {plans : List PriceGuidancePlan}
    {now : ℤ} (h : memory.Consistent now) (hchange : replacePlans memory plans = .ok changed) :
    changed.Consistent now := by
  obtain ⟨_, _, hchange⟩ := bind_eq_ok_iff.mp hchange
  split at hchange
  · cases hchange
    constructor
    · intro observation hobservation
      exact of_decide_eq_true (Keyed.mem_values_filter.mp hobservation).2
    · intro observation hobservation
      exact h.inTime observation (Keyed.mem_values_filter.mp hobservation).1
  · cases hchange

theorem appendObservation_consistent {memory changed : GuidanceMemory}
    {observation : PriceGuidanceObservation} {now : ℤ} (h : memory.Consistent now)
    (htime : observation.InTime now)
    (hchange : appendObservation memory observation = .ok changed) : changed.Consistent now := by
  obtain ⟨_, hknown, hchange⟩ := bind_eq_ok_iff.mp hchange
  obtain ⟨_, _, hchange⟩ := bind_eq_ok_iff.mp hchange
  obtain ⟨_, _, hchange⟩ := bind_eq_ok_iff.mp hchange
  cases hchange
  constructor
  · intro other hother
    rcases Keyed.mem_values_put.mp hother with rfl | ⟨hold, _⟩
    · exact require_eq_ok_iff.mp hknown
    · exact h.known other hold
  · intro other hother
    rcases Keyed.mem_values_put.mp hother with rfl | ⟨hold, _⟩
    · exact htime
    · exact h.inTime other hold

theorem change_consistent {call : GuidanceCall} {memory changed : GuidanceMemory} {now : ℤ}
    (h : memory.Consistent now) (hchange : call.change memory now = .ok changed) :
    changed.Consistent now := by
  cases call with
  | replacePlans plans elapsed fault => exact replacePlans_consistent h hchange
  | appendObservation observation elapsed fault =>
      obtain ⟨_, htime, hchange⟩ := bind_eq_ok_iff.mp hchange
      exact appendObservation_consistent h (require_eq_ok_iff.mp htime) hchange

namespace GuidanceProcess

theorem clock_le_time (process : GuidanceProcess) (call : GuidanceCall) :
    process.clock ≤ process.time call := by
  unfold time
  omega

theorem accept_eq_ok {process : GuidanceProcess} {call : GuidanceCall} {memory : GuidanceMemory}
    {text : Text} :
    process.accept call = .ok (memory, text) ↔
      call.change process.memory (process.time call) = .ok memory ∧ call.fault = none ∧
        text = memory.text := by
  constructor
  · intro h
    obtain ⟨changed, hchange, h⟩ := bind_eq_ok_iff.mp h
    obtain ⟨written, hwritten, h⟩ := bind_eq_ok_iff.mp h
    cases h
    cases hfault : call.fault with
    | none =>
        rw [hfault] at hwritten
        cases hwritten
        exact ⟨hchange, rfl, rfl⟩
    | some error =>
        rw [hfault] at hwritten
        cases hwritten
  · rintro ⟨hchange, hfault, rfl⟩
    refine bind_eq_ok_iff.mpr ⟨memory, hchange, bind_eq_ok_iff.mpr ⟨memory.text, ?_, rfl⟩⟩
    rw [hfault]
    rfl

theorem step_consistent {process : GuidanceProcess} {call : GuidanceCall}
    (h : process.memory.Consistent process.clock) :
    (process.step call).memory.Consistent (process.step call).clock := by
  have hlater := h.later (process.clock_le_time call)
  unfold step
  split
  · rename_i memory text haccept
    exact change_consistent hlater (accept_eq_ok.mp haccept).1
  · exact hlater

end GuidanceProcess

/-! ### Reading later -/

theorem assembleGuidance_eq_some {now : ℤ} {plans : List PriceGuidancePlan}
    {observations : List PriceGuidanceObservation} {memory : GuidanceMemory} :
    assembleGuidance now plans observations = some memory ↔
      memory.plans.values = plans ∧ memory.observations.values = observations ∧
        memory.Consistent now := by
  constructor
  · intro h
    rw [assembleGuidance] at h
    split at h
    · split at h
      · simp only [Option.bind_eq_bind, Option.bind_eq_some_iff] at h
        obtain ⟨_, hknown, _, htime, hsame⟩ := h
        cases hsame
        exact ⟨rfl, rfl, guard_eq_some_iff.mp hknown, guard_eq_some_iff.mp htime⟩
      · cases h
    · cases h
  · rintro ⟨rfl, rfl, hconsistent⟩
    rw [assembleGuidance, dif_pos memory.plans.nodup, dif_pos memory.observations.nodup]
    refine Option.bind_eq_some_iff.mpr ⟨(), guard_eq_some_iff.mpr hconsistent.known, ?_⟩
    exact Option.bind_eq_some_iff.mpr ⟨(), guard_eq_some_iff.mpr hconsistent.inTime, rfl⟩

section

variable [CaseTable]

/-- What is read at one time is read at any later time. -/
theorem decodeGuidance_later {now later : ℤ} (hlater : now ≤ later) {text : Text}
    {memory : GuidanceMemory} (h : decodeGuidance now text = some memory) :
    decodeGuidance later text = some memory := by
  simp only [decodeGuidance, Option.bind_eq_bind, Option.bind_eq_some_iff] at h ⊢
  obtain ⟨_, hsize, payload, hpayload, _, hkeys, body, hbody, _, hversion, _, hbodyKeys, _, hmode,
    _, hdigest, plans, hplans, observations, hobservations, hassemble⟩ := h
  refine ⟨_, hsize, payload, hpayload, _, hkeys, body, hbody, _, hversion, _, hbodyKeys, _, hmode,
    _, hdigest, plans, hplans, observations, ?_, ?_⟩
  · exact Json.field_asList_imp (fun _ _ => PriceGuidanceObservation.fromDict_later hlater)
      hobservations
  · obtain ⟨hplanList, hobservationList, hconsistent⟩ := assembleGuidance_eq_some.mp hassemble
    exact assembleGuidance_eq_some.mpr ⟨hplanList, hobservationList, hconsistent.later hlater⟩

theorem openGuidance_later {now later : ℤ} (hlater : now ≤ later) {file : Option Text}
    {memory : GuidanceMemory} (h : openGuidance now file = .ok memory) :
    openGuidance later file = .ok memory := by
  cases file with
  | none => exact h
  | some text =>
      exact orRaise_eq_ok_iff.mpr (decodeGuidance_later hlater (orRaise_eq_ok_iff.mp h))

theorem openGuidance_consistent {now : ℤ} {file : Option Text} {memory : GuidanceMemory}
    (h : openGuidance now file = .ok memory) : memory.Consistent now := by
  cases file with
  | none =>
      cases h
      exact ⟨fun _ hobservation => (nomatch hobservation), fun _ hobservation => nomatch
        hobservation⟩
  | some text =>
      have hdecode := orRaise_eq_ok_iff.mp h
      simp only [decodeGuidance, Option.bind_eq_bind, Option.bind_eq_some_iff] at hdecode
      obtain ⟨_, _, _, _, _, _, _, _, _, _, _, _, _, _, _, _, _, _, _, _, hassemble⟩ := hdecode
      exact (assembleGuidance_eq_some.mp hassemble).2.2

/-! ### What a step does to the file -/

namespace GuidanceProcess

/-- A store that is opened now has the plans and the observations of this one. -/
def Reopens (process : GuidanceProcess) : Prop :=
  ∃ reopened, openGuidance process.clock process.file = .ok reopened ∧
    reopened.planList = process.memory.planList ∧
    reopened.observationList = process.memory.observationList

/-- A store whose content was written reopens exactly if the file is not too large. -/
theorem reopens_written_iff {memory : GuidanceMemory} {now : ℤ} (h : memory.Consistent now) :
    Reopens ⟨some memory.text, memory, now⟩ ↔ memory.text.utf8.length ≤ guidanceLimit := by
  constructor
  · rintro ⟨reopened, hopen, _⟩
    have hdecode := orRaise_eq_ok_iff.mp hopen
    by_contra hsize
    rw [decodeGuidance_text h, if_neg hsize] at hdecode
    cases hdecode
  · intro hsize
    refine ⟨memory.inOrder, ?_, memory.planList_inOrder, memory.observationList_inOrder⟩
    exact orRaise_eq_ok_iff.mpr ((decodeGuidance_text h).trans (if_pos hsize))

/-- A step keeps the store open exactly if what it is to leave fits. -/
theorem reopens_step_iff {process : GuidanceProcess} {call : GuidanceCall}
    (hconsistent : process.memory.Consistent process.clock) (hreopens : process.Reopens) :
    (process.step call).Reopens ↔ process.FitsLimit call := by
  have hlater := hconsistent.later (process.clock_le_time call)
  unfold step
  split
  · rename_i memory text haccept
    obtain ⟨hchange, hfault, rfl⟩ := accept_eq_ok.mp haccept
    rw [reopens_written_iff (change_consistent hlater hchange)]
    constructor
    · intro hsize _ other hother
      cases hchange.symm.trans hother
      exact hsize
    · intro hfits
      exact hfits hfault memory hchange
  · rename_i error herror
    constructor
    · intro _ hfault memory hchange
      have haccept := accept_eq_ok.mpr ⟨hchange, hfault, rfl⟩
      rw [herror] at haccept
      cases haccept
    · intro _
      obtain ⟨reopened, hopen, hplans, hobservations⟩ := hreopens
      exact ⟨reopened, openGuidance_later (process.clock_le_time call) hopen, hplans, hobservations⟩

end GuidanceProcess

/-! ### Runs -/

/-- Whatever calls are made, the artifact can always be opened again, with the same plans and
observations, exactly if what each accepted call leaves fits the limit of the reader. -/
theorem guidance_always_reopens_iff {now : ℤ} {file : Option Text} {memory : GuidanceMemory}
    (hopen : openGuidance now file = .ok memory) (calls : List GuidanceCall) :
    Runs.Always GuidanceProcess.step GuidanceProcess.Reopens ⟨file, memory, now⟩ calls ↔
      Runs.StepsMeet GuidanceProcess.step GuidanceProcess.FitsLimit ⟨file, memory, now⟩ calls :=
  Runs.always_iff_stepsMeet GuidanceProcess.step
    (fun process => process.memory.Consistent process.clock)
    (fun _ _ h => GuidanceProcess.step_consistent h)
    (fun _ _ hconsistent hreopens => GuidanceProcess.reopens_step_iff hconsistent hreopens)
    _ calls (openGuidance_consistent hopen) ⟨memory, hopen, rfl, rfl⟩

end

section Sample

attribute [local instance] CaseTable.caseless

theorem not_isSpace_replicate {n : ℕ} : ∀ c ∈ List.replicate n 'x', Text.isSpace c = false := by
  intro c hc
  rw [List.eq_of_mem_replicate hc]
  rfl

/-- A reason of some length. -/
def longReason (n : ℕ) : RequiredText where
  text := List.replicate (n + 1) 'x'
  stripped := DecimalText.strip_of_noSpace not_isSpace_replicate
  nonempty := by simp

def samplePlan (reasons : List RequiredText) : PriceGuidancePlan :=
  { PriceGuidancePlan.reference with
    state := .waitForPrice
    evidenceCutoff := ⟨.of 2026 1 5, 7, 0, 0, 0⟩
    reasonCodes := reasons }

theorem text_length (memory : GuidanceMemory) :
    memory.text.length = (Json.encode memory.artifact).length + 1 := by
  rw [GuidanceMemory.text, Json.dumps, memory.artifact_canonical.sorted, List.length_append,
    List.length_singleton]

/-- The file of a plan is longer than each of its reasons. -/
theorem reason_lt_text {memory : GuidanceMemory} {plan : PriceGuidancePlan} {reason : RequiredText}
    (hplan : plan ∈ memory.plans.values) (hreason : reason ∈ plan.reasonCodes) :
    reason.text.length < memory.text.utf8.length := by
  have hquote := Json.length_le_quote reason.text
  have hreasons : (Json.encode (.str reason.text)).length ≤ (Json.encode
      (.arr ((plan.reasonCodes.map RequiredText.text).map Json.str))).length :=
    Json.encode_le_arr (List.mem_map_of_mem (List.mem_map_of_mem hreason))
  have hplanText : (Json.encode (.arr ((plan.reasonCodes.map RequiredText.text).map
      Json.str))).length ≤ (Json.encode plan.toDict).length :=
    @Json.encode_le_obj "reason_codes".toList _ _ (by simp)
  have hplans : (Json.encode plan.toDict).length ≤
      (Json.encode (.arr (memory.planList.map PriceGuidancePlan.toDict))).length :=
    Json.encode_le_arr (List.mem_map_of_mem (memory.planList_perm.mem_iff.mpr hplan))
  have hbody : (Json.encode (.arr (memory.planList.map PriceGuidancePlan.toDict))).length ≤
      (Json.encode memory.body).length :=
    @Json.encode_le_obj "plans".toList _ _ (by simp)
  have hartifact : (Json.encode memory.body).length ≤ (Json.encode memory.artifact).length :=
    @Json.encode_le_obj "body".toList _ _ (by simp)
  have hbytes := Json.length_le_utf8 memory.text
  have htext := text_length memory
  rw [Json.encode] at hreasons
  omega

def samplePlans (reasons : List RequiredText) : GuidanceMemory :=
  ⟨⟨[samplePlan reasons], List.nodup_singleton _⟩, .empty⟩

/-- A plan with a reason of sixteen mebibytes is accepted and written, and the file cannot be opened
again. -/
theorem longReason_not_reopens :
    ¬ Runs.Always GuidanceProcess.step GuidanceProcess.Reopens ⟨none, .empty, 0⟩
      [.replacePlans [samplePlan [longReason guidanceLimit]] 0 none] := by
  rintro ⟨hstart, hreopens⟩
  have hopen : openGuidance 0 none = .ok .empty := rfl
  have hfits := (GuidanceProcess.reopens_step_iff (openGuidance_consistent hopen) hstart).mp
    hreopens
  have hchange : (GuidanceCall.replacePlans [samplePlan [longReason guidanceLimit]] 0 none).change
      .empty 0 = .ok (samplePlans [longReason guidanceLimit]) := rfl
  have hsize := hfits rfl _ hchange
  have hplan : samplePlan [longReason guidanceLimit] ∈
      (samplePlans [longReason guidanceLimit]).plans.values := List.mem_cons_self
  have hlong := reason_lt_text hplan List.mem_cons_self
  have hlength : (longReason guidanceLimit).text.length = guidanceLimit + 1 :=
    List.length_replicate
  omega

/-- The digest and the names around a body are short. -/
theorem text_length_le (memory : GuidanceMemory) :
    memory.text.length ≤ (Json.encode memory.body).length + 600 := by
  have hdigest := Json.quote_length_le (GuidanceMemory.bodyDigest memory.body)
  have hlength : (GuidanceMemory.bodyDigest memory.body).length = 64 := Sha256.hexdigest_length _
  have hartifact : (Json.encode memory.artifact).length ≤
      (GuidanceMemory.artifactFields.map fun key => (Json.quote key).length).sum +
        ([memory.body, .int 1, .str (GuidanceMemory.bodyDigest memory.body)].map fun value =>
          (Json.encode value).length).sum + 2 * 3 + 2 := Json.encode_obj_length rfl rfl
  have hnames : (GuidanceMemory.artifactFields.map fun key => (Json.quote key).length).sum = 30
    := rfl
  have htext := text_length memory
  have hone : (Json.encode (.int 1)).length = 1 := by decide
  have hquote : (Json.encode (.str (GuidanceMemory.bodyDigest memory.body))).length =
      (Json.quote (GuidanceMemory.bodyDigest memory.body)).length := by rw [Json.encode]
  simp only [List.map_cons, List.map_nil, List.sum_cons, List.sum_nil] at hartifact
  omega

/-- The file with one plan is opened again. -/
theorem onePlan_reopens :
    Runs.Always GuidanceProcess.step GuidanceProcess.Reopens ⟨none, .empty, 0⟩
      [.replacePlans [samplePlan []] 0 none] := by
  have hopen : openGuidance 0 none = .ok .empty := rfl
  refine (guidance_always_reopens_iff hopen _).mpr ⟨fun _ memory hchange => ?_, trivial⟩
  have hsample : (GuidanceCall.replacePlans [samplePlan []] 0 none).change .empty 0 =
      .ok (samplePlans []) := rfl
  cases hsample.symm.trans hchange
  have hlength := text_length_le (samplePlans [])
  have hbody : (Json.encode (samplePlans []).body).length ≤ 1000 := by decide +kernel
  have hbytes := Json.utf8_length_le (samplePlans []).text
  have hlimit : guidanceLimit = 16777216 := rfl
  omega

end Sample

end QuantWorkbench.Storage
