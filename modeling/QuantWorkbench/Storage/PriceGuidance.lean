import QuantWorkbench.Advisory.PriceContracts
import QuantWorkbench.Lib.Keyed
import QuantWorkbench.Lib.Sha256

/-!
The artifact of price guidance: plans and the observations against them, in one file that
carries the digest of its body and is replaced as a whole.
-/

namespace QuantWorkbench.Storage

open Lib Advisory

/-! ### The content of a store -/

abbrev PlansById := Keyed PriceGuidancePlan.planId

abbrev ObservationsById := Keyed PriceGuidanceObservation.observationId

structure GuidanceMemory where
  plans : PlansById
  observations : ObservationsById

namespace GuidanceMemory

def empty : GuidanceMemory := ⟨.empty, .empty⟩

def planOrder (plan : PriceGuidancePlan) : Date ×ₗ Text := toLex (plan.validFor, plan.symbol.text)

def observationOrder (observation : PriceGuidanceObservation) : UtcDateTime ×ₗ Text :=
  toLex (observation.observedAt, observation.observationId.text)

def planList (memory : GuidanceMemory) : List PriceGuidancePlan :=
  memory.plans.values.insertionSort fun plan other => planOrder plan ≤ planOrder other

def observationList (memory : GuidanceMemory) : List PriceGuidanceObservation :=
  memory.observations.values.insertionSort fun observation other =>
    observationOrder observation ≤ observationOrder other

/-! ### The file -/

def bodyFields : List Text := ["observations".toList, "operating_mode".toList, "plans".toList]

def body (memory : GuidanceMemory) : Json :=
  .obj [("observations".toList,
      .arr (memory.observationList.map PriceGuidanceObservation.toDict)),
    ("operating_mode".toList, .str "PAPER_ONLY".toList),
    ("plans".toList, .arr (memory.planList.map PriceGuidancePlan.toDict))]

def artifactFields : List Text := ["body".toList, "format_version".toList, "sha256".toList]

def bodyDigest (body : Json) : Text := Sha256.ofText (Json.dumps body)

def artifact (memory : GuidanceMemory) : Json :=
  .obj [("body".toList, memory.body), ("format_version".toList, .int 1),
    ("sha256".toList, .str (bodyDigest memory.body))]

/-- What `_persist` writes. -/
def text (memory : GuidanceMemory) : Text := Json.dumps memory.artifact ++ ['\n']

end GuidanceMemory

def guidanceLimit : ℕ := 16 * 1024 * 1024

/-! ### The order of the file -/

namespace GuidanceMemory

theorem body_canonical (memory : GuidanceMemory) : memory.body.Canonical := by
  have hplans := Json.Canonical.arr_map PriceGuidancePlan.toDict_canonical memory.planList
  have hobservations :=
    Json.Canonical.arr_map PriceGuidanceObservation.toDict_canonical memory.observationList
  refine Json.Canonical.obj bodyFields rfl (by decide) ?_
  simp [Json.Canonical.str, hplans, hobservations]

theorem artifact_canonical (memory : GuidanceMemory) : memory.artifact.Canonical := by
  refine Json.Canonical.obj artifactFields rfl (by decide) ?_
  simp [Json.Canonical.str, Json.Canonical.int, memory.body_canonical]

theorem planList_perm (memory : GuidanceMemory) : memory.planList.Perm memory.plans.values :=
  List.perm_insertionSort _ _

theorem observationList_perm (memory : GuidanceMemory) :
    memory.observationList.Perm memory.observations.values :=
  List.perm_insertionSort _ _

theorem planList_nodup (memory : GuidanceMemory) :
    (memory.planList.map PriceGuidancePlan.planId).Nodup :=
  (memory.planList_perm.map _).nodup_iff.mpr memory.plans.nodup

theorem observationList_nodup (memory : GuidanceMemory) :
    (memory.observationList.map PriceGuidanceObservation.observationId).Nodup :=
  (memory.observationList_perm.map _).nodup_iff.mpr memory.observations.nodup

/-- The content in the order of the file. -/
def inOrder (memory : GuidanceMemory) : GuidanceMemory where
  plans := ⟨memory.planList, memory.planList_nodup⟩
  observations := ⟨memory.observationList, memory.observationList_nodup⟩

theorem planList_inOrder (memory : GuidanceMemory) : memory.inOrder.planList = memory.planList := by
  have : Std.Total fun plan other : PriceGuidancePlan => planOrder plan ≤ planOrder other :=
    ⟨fun _ _ => le_total _ _⟩
  have : IsTrans PriceGuidancePlan fun plan other => planOrder plan ≤ planOrder other :=
    ⟨fun _ _ _ => le_trans⟩
  exact (List.pairwise_insertionSort _ memory.plans.values).insertionSort_eq

theorem observationList_inOrder (memory : GuidanceMemory) :
    memory.inOrder.observationList = memory.observationList := by
  have : Std.Total fun observation other : PriceGuidanceObservation =>
      observationOrder observation ≤ observationOrder other := ⟨fun _ _ => le_total _ _⟩
  have : IsTrans PriceGuidanceObservation fun observation other =>
      observationOrder observation ≤ observationOrder other := ⟨fun _ _ _ => le_trans⟩
  exact (List.pairwise_insertionSort _ memory.observations.values).insertionSort_eq

/-- Every observation is against a plan that is there, and in time. -/
structure Consistent (memory : GuidanceMemory) (now : ℤ) : Prop where
  known : ∀ observation ∈ memory.observations.values, observation.planId ∈ memory.plans.keys
  inTime : ∀ observation ∈ memory.observations.values, observation.InTime now

theorem Consistent.later {memory : GuidanceMemory} {now later : ℤ} (h : memory.Consistent now)
    (hlater : now ≤ later) : memory.Consistent later :=
  ⟨h.known, fun observation hobservation => (h.inTime observation hobservation).mono hlater⟩

end GuidanceMemory

/-! ### Calls -/

def replacePlans (memory : GuidanceMemory) (plans : List PriceGuidancePlan) :
    Except String GuidanceMemory := do
  require (plans.length ≤ 5000) "price guidance artifact is invalid"
  if nodup : (plans.map PriceGuidancePlan.planId).Nodup then
    return ⟨⟨plans, nodup⟩, memory.observations.filter fun observation =>
      observation.planId ∈ plans.map PriceGuidancePlan.planId⟩
  else .error "price guidance artifact is invalid"

def appendObservation (memory : GuidanceMemory) (observation : PriceGuidanceObservation) :
    Except String GuidanceMemory := do
  require (observation.planId ∈ memory.plans.keys) "unknown plan for observation"
  require (observation.observationId ∉ memory.observations.keys) "duplicate observation"
  require (memory.observations.values.length < 100000) "price guidance artifact is invalid"
  return { memory with observations := memory.observations.put observation }

/-- `_persist`, which may fail before the file is replaced. -/
def persistGuidance (memory : GuidanceMemory) : Option String → Except String Text
  | none => return memory.text
  | some fault => .error fault

/-! ### Reading -/

variable [CaseTable]

/-- The content that plans and observations have together. -/
def assembleGuidance (now : ℤ) (plans : List PriceGuidancePlan)
    (observations : List PriceGuidanceObservation) : Option GuidanceMemory :=
  if hplans : (plans.map PriceGuidancePlan.planId).Nodup then
    if hobservations : (observations.map PriceGuidanceObservation.observationId).Nodup then do
      guard (∀ observation ∈ observations,
        observation.planId ∈ plans.map PriceGuidancePlan.planId)
      guard (∀ observation ∈ observations, observation.InTime now)
      return ⟨⟨plans, hplans⟩, ⟨observations, hobservations⟩⟩
    else none
  else none

/-- What `_load` reads at some time. -/
def decodeGuidance (now : ℤ) (text : Text) : Option GuidanceMemory := do
  guard (text ≠ [] ∧ text.utf8.length ≤ guidanceLimit)
  let payload ← Json.loads text
  guard (payload.hasKeys GuidanceMemory.artifactFields = true)
  let body ← payload.member? "body".toList
  guard (payload.count? "format_version" = some 1)
  guard (body.hasKeys GuidanceMemory.bodyFields = true)
  guard (body.text? "operating_mode" = some "PAPER_ONLY".toList)
  guard (payload.text? "sha256" = some (GuidanceMemory.bodyDigest body))
  let plans ← body.field "plans" (Json.asList PriceGuidancePlan.fromDict)
  let observations ← body.field "observations" (Json.asList (PriceGuidanceObservation.fromDict now))
  assembleGuidance now plans observations

/-- The constructor of the store. -/
def openGuidance (now : ℤ) : Option Text → Except String GuidanceMemory
  | none => return .empty
  | some text => orRaise (decodeGuidance now text) "price guidance artifact is invalid"

open GuidanceMemory in
/-- Consistent content is read back from a file exactly if the file is not too large. -/
theorem decodeGuidance_text {memory : GuidanceMemory} {now : ℤ} (h : memory.Consistent now) :
    decodeGuidance now memory.text =
      if memory.text.utf8.length ≤ guidanceLimit then some memory.inOrder else none := by
  have hnonempty : memory.text ≠ [] := List.append_ne_nil_of_right_ne_nil _ (by simp)
  have hkeys : memory.artifact.hasKeys artifactFields = true := Json.hasKeys_obj artifactFields rfl
  have hbody : memory.artifact.member? "body".toList = some memory.body := rfl
  have hversion : memory.artifact.count? "format_version" = some 1 := rfl
  have hbodyKeys : memory.body.hasKeys bodyFields = true := Json.hasKeys_obj bodyFields rfl
  have hmode : memory.body.text? "operating_mode" = some "PAPER_ONLY".toList := rfl
  have hdigest : memory.artifact.text? "sha256" = some (bodyDigest memory.body) := rfl
  have hplans : memory.body.field "plans" (Json.asList PriceGuidancePlan.fromDict) =
      some memory.planList := Json.asList_map PriceGuidancePlan.fromDict_toDict _
  have hmem : ∀ observation ∈ memory.observationList,
      observation ∈ memory.observations.values :=
    fun _ hobservation => memory.observationList_perm.mem_iff.mp hobservation
  have hobservations : memory.body.field "observations"
      (Json.asList (PriceGuidanceObservation.fromDict now)) = some memory.observationList :=
    Json.mapM_map_of_mem fun observation hobservation =>
      PriceGuidanceObservation.fromDict_toDict
        (h.inTime observation (hmem observation hobservation))
  have hknown : ∀ observation ∈ memory.observationList,
      observation.planId ∈ memory.planList.map PriceGuidancePlan.planId := by
    intro observation hobservation
    rw [(memory.planList_perm.map _).mem_iff]
    exact h.known observation (hmem observation hobservation)
  have hassemble : assembleGuidance now memory.planList memory.observationList =
      some memory.inOrder := by
    rw [assembleGuidance, dif_pos memory.planList_nodup, dif_pos memory.observationList_nodup]
    simp only [guard]
    rw [if_pos hknown, if_pos fun observation hobservation =>
      h.inTime observation (hmem observation hobservation)]
    rfl
  rw [decodeGuidance]
  split
  · rename_i hsize
    simp only [guard, if_pos (And.intro hnonempty hsize), Option.bind_eq_bind, Option.bind_some,
      Option.pure_def]
    rw [text, memory.artifact_canonical.loads_dumps_newline]
    simp only [Option.bind_some, hkeys, hbody, hversion, hbodyKeys, hmode, hdigest, hplans,
      hobservations, if_true, hassemble]
  · rename_i hsize
    simp only [guard, if_neg fun hboth : _ ∧ _ => hsize hboth.2]
    rfl

end QuantWorkbench.Storage
