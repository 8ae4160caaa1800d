import QuantWorkbench.Lib.Fields
import QuantWorkbench.Lib.Floats
import QuantWorkbench.Lib.JsonBytes
import QuantWorkbench.Lib.Raising
import QuantWorkbench.Lib.Runs
import QuantWorkbench.Lib.Tables

/-!
`ProviderRegistry` of `data/providers/registry.py`: the formal provider, the comparisons that
authorize another one, and the evidence file that holds both. A promotion that cannot be written is
taken back, while a comparison that cannot be written stays in memory.
-/

namespace QuantWorkbench.Data

open Lib

/-! ### Comparisons -/

variable {F : Type} [JsonFloats F]

def validCoverage (measure : Scalar F) : Bool :=
  (Measure.float? measure).any fun ratio =>
    Number.atMost (.finite 0) ratio && Number.atMost ratio (.finite 1)

def validDrift (measure : Scalar F) : Bool :=
  (Measure.float? measure).any fun seconds => !Number.less seconds (.finite 0)

structure ProviderAcceptancePolicy where
  minimumCoverageRatio : Number
  maximumTimestampDriftSeconds : Number
  minimum_range : Number.atMost (.finite 0) minimumCoverageRatio = true ∧
    Number.atMost minimumCoverageRatio (.finite 1) = true
  maximum_range : Number.less maximumTimestampDriftSeconds (.finite 0) = false

/-- The floating-point number nearest to 0.98, and a minute. -/
def ProviderAcceptancePolicy.default : ProviderAcceptancePolicy where
  minimumCoverageRatio := .finite (2206763817411543 / 2251799813685248)
  maximumTimestampDriftSeconds := .finite 60
  minimum_range := by decide +kernel
  maximum_range := by decide +kernel

structure ProviderComparison (F : Type) [JsonFloats F] where
  incumbent : Text
  candidate : Text
  asOf : Day
  coverageRatio : Scalar F
  maxTimestampDriftSeconds : Scalar F
  adjustmentMatch : Bool
  identifierMatch : Bool
  suspensionMatch : Bool
  named : ¬ (Text.strip incumbent = [] ∨ Text.strip candidate = [])
  distinct : incumbent ≠ candidate
  coverage_valid : validCoverage coverageRatio = true
  drift_valid : validDrift maxTimestampDriftSeconds = true

namespace ProviderComparison

/-- `__post_init__`; `none` where it raises. -/
def make (incumbent candidate : Text) (asOf : Day) (coverageRatio drift : Scalar F)
    (adjustmentMatch identifierMatch suspensionMatch : Bool) : Option (ProviderComparison F) :=
  if hnamed : Text.strip incumbent = [] ∨ Text.strip candidate = [] then none
  else if hdistinct : incumbent = candidate then none
  else if hcoverage : validCoverage coverageRatio = true then
    if hdrift : validDrift drift = true then
      some {
        incumbent := incumbent
        candidate := candidate
        asOf := asOf
        coverageRatio := coverageRatio
        maxTimestampDriftSeconds := drift
        adjustmentMatch := adjustmentMatch
        identifierMatch := identifierMatch
        suspensionMatch := suspensionMatch
        named := hnamed
        distinct := hdistinct
        coverage_valid := hcoverage
        drift_valid := hdrift }
    else none
  else none

theorem make_self (comparison : ProviderComparison F) :
    make comparison.incumbent comparison.candidate comparison.asOf comparison.coverageRatio
      comparison.maxTimestampDriftSeconds comparison.adjustmentMatch comparison.identifierMatch
      comparison.suspensionMatch = some comparison := by
  rw [make, dif_neg comparison.named, dif_neg comparison.distinct,
    dif_pos comparison.coverage_valid, dif_pos comparison.drift_valid]

/-- `passes`. A measure that is a text raises, which authorizes nothing either. -/
def passes (comparison : ProviderComparison F) (policy : ProviderAcceptancePolicy) : Bool :=
  ((Measure.number? comparison.coverageRatio).any fun ratio =>
      Number.atMost policy.minimumCoverageRatio ratio) &&
    ((Measure.number? comparison.maxTimestampDriftSeconds).any fun seconds =>
      Number.atMost seconds policy.maximumTimestampDriftSeconds) &&
    comparison.adjustmentMatch && comparison.identifierMatch && comparison.suspensionMatch

def key (comparison : ProviderComparison F) : Text × Text :=
  (comparison.incumbent, comparison.candidate)

/-- `==` of two comparisons that were made apart from each other. -/
def Equal (comparison other : ProviderComparison F) : Prop :=
  comparison = other ∧ Measure.isNan comparison.maxTimestampDriftSeconds = false

/-! ### The evidence file -/

def fields : List Text :=
  ["adjustment_match".toList, "as_of".toList, "candidate".toList, "coverage_ratio".toList,
    "identifier_match".toList, "incumbent".toList, "max_timestamp_drift_seconds".toList,
    "suspension_match".toList]

/-- A comparison in the file, with its keys in order. -/
def toJson (comparison : ProviderComparison F) : Json :=
  .obj [
    ("adjustment_match".toList, .bool comparison.adjustmentMatch),
    ("as_of".toList, .str comparison.asOf.isoformat),
    ("candidate".toList, .str comparison.candidate),
    ("coverage_ratio".toList, Measure.toJson comparison.coverageRatio),
    ("identifier_match".toList, .bool comparison.identifierMatch),
    ("incumbent".toList, .str comparison.incumbent),
    ("max_timestamp_drift_seconds".toList, Measure.toJson comparison.maxTimestampDriftSeconds),
    ("suspension_match".toList, .bool comparison.suspensionMatch)]

def ofJson? (item : Json) : Option (ProviderComparison F) := do
  guard (item.hasKeys fields = true)
  let incumbent ← item.field "incumbent" Json.asText
  let candidate ← item.field "candidate" Json.asText
  let asOf ← (item.field "as_of" Json.asText).bind Day.fromisoformat
  let coverageRatio ← item.field "coverage_ratio" Measure.ofJson?
  let drift ← item.field "max_timestamp_drift_seconds" Measure.ofJson?
  let adjustmentMatch ← item.field "adjustment_match" Json.asBool
  let identifierMatch ← item.field "identifier_match" Json.asBool
  let suspensionMatch ← item.field "suspension_match" Json.asBool
  make incumbent candidate asOf coverageRatio drift adjustmentMatch identifierMatch suspensionMatch

theorem toJson_canonical (comparison : ProviderComparison F) : comparison.toJson.Canonical := by
  refine Json.Canonical.obj fields rfl (by decide) fun member hmember => ?_
  simp only [List.mem_cons, List.not_mem_nil, or_false] at hmember
  rcases hmember with rfl | rfl | rfl | rfl | rfl | rfl | rfl | rfl
  · exact Json.Canonical.bool _
  · exact Json.Canonical.str _
  · exact Json.Canonical.str _
  · exact Measure.toJson_canonical _
  · exact Json.Canonical.bool _
  · exact Json.Canonical.str _
  · exact Measure.toJson_canonical _
  · exact Json.Canonical.bool _

/-- A comparison is read back exactly if its day is no datetime. -/
theorem ofJson?_toJson (comparison : ProviderComparison F) :
    ofJson? comparison.toJson =
      if comparison.asOf.isDate = true then some comparison else none := by
  have hkeys : comparison.toJson.hasKeys fields = true := Json.hasKeys_obj _ rfl
  have hincumbent : comparison.toJson.field "incumbent" Json.asText = some comparison.incumbent :=
    rfl
  have hcandidate : comparison.toJson.field "candidate" Json.asText = some comparison.candidate :=
    rfl
  have hasOf : comparison.toJson.field "as_of" Json.asText = some comparison.asOf.isoformat := rfl
  have hcoverage : comparison.toJson.field "coverage_ratio" Measure.ofJson? =
      some comparison.coverageRatio := Measure.ofJson?_toJson _
  have hdrift : comparison.toJson.field "max_timestamp_drift_seconds" Measure.ofJson? =
      some comparison.maxTimestampDriftSeconds := Measure.ofJson?_toJson _
  have hadjustment : comparison.toJson.field "adjustment_match" Json.asBool =
      some comparison.adjustmentMatch := rfl
  have hidentifier : comparison.toJson.field "identifier_match" Json.asBool =
      some comparison.identifierMatch := rfl
  have hsuspension : comparison.toJson.field "suspension_match" Json.asBool =
      some comparison.suspensionMatch := rfl
  simp only [ofJson?, hkeys, hincumbent, hcandidate, hasOf, hcoverage, hdrift, hadjustment,
    hidentifier, hsuspension, Day.fromisoformat_isoformat, guard_true, Option.bind_eq_bind,
    Option.bind_some, Option.pure_def]
  split
  · rw [Option.bind_some, comparison.make_self]
  · rfl

end ProviderComparison

/-- The comparisons by their providers, in the order in which they were first recorded. -/
abbrev Comparisons (F : Type) [JsonFloats F] := Keyed (ProviderComparison.key (F := F))

/-- The dictionaries are equal. -/
def SameComparisons (comparisons others : Comparisons F) : Prop :=
  ∀ key, Option.Rel ProviderComparison.Equal (comparisons.get? key) (others.get? key)

def maxEvidenceBytes : ℕ := 1048576

def evidenceFields : List Text :=
  ["comparisons".toList, "formal_provider".toList, "format_version".toList]

def writtenOrder (comparisons : Comparisons F) : List (ProviderComparison F) :=
  sortValues (fun comparison => toLex comparison.key) comparisons.values

def evidencePayload (formal : Text) (comparisons : Comparisons F) : Json :=
  .obj [
    ("comparisons".toList, .arr ((writtenOrder comparisons).map ProviderComparison.toJson)),
    ("formal_provider".toList, .str formal),
    ("format_version".toList, .int 1)]

def evidenceBytes (formal : Text) (comparisons : Comparisons F) : List UInt8 :=
  (Json.dumps (evidencePayload formal comparisons) ++ ['\n']).utf8

/-- What `_load_evidence` makes of a file; `none` is its error. -/
def readEvidence (formal : Text) (raw : List UInt8) : Option (Comparisons F) := do
  guard (raw ≠ [] ∧ raw.length ≤ maxEvidenceBytes)
  let payload ← Json.ofBytes? raw
  guard (payload.hasKeys evidenceFields = true)
  guard (payload.count? "format_version" = some 1)
  let written ← payload.text? "formal_provider"
  guard (Text.strip written = formal)
  let entries ← payload.field "comparisons" (Json.asList ProviderComparison.ofJson?)
  return entries.foldl Keyed.put Keyed.empty

/-- What a written file has to be to be read. -/
structure Readable (formal : Text) (comparisons : Comparisons F) : Prop where
  dates : ∀ comparison ∈ comparisons.values, comparison.asOf.isDate = true
  size : (evidenceBytes formal comparisons).length ≤ maxEvidenceBytes

theorem mem_writtenOrder {comparisons : Comparisons F} {comparison : ProviderComparison F} :
    comparison ∈ writtenOrder comparisons ↔ comparison ∈ comparisons.values :=
  mem_sortValues

theorem canonical_evidencePayload (formal : Text) (comparisons : Comparisons F) :
    (evidencePayload formal comparisons).Canonical := by
  refine Json.Canonical.obj evidenceFields rfl (by decide) fun member hmember => ?_
  simp only [List.mem_cons, List.not_mem_nil, or_false] at hmember
  rcases hmember with rfl | rfl | rfl
  · exact Json.Canonical.arr_map ProviderComparison.toJson_canonical _
  · exact Json.Canonical.str _
  · exact Json.Canonical.int _

/-- The comparisons as they are read again, in the order of the file. -/
def reread (comparisons : Comparisons F) : Comparisons F :=
  (writtenOrder comparisons).foldl Keyed.put Keyed.empty

theorem values_reread (comparisons : Comparisons F) :
    (reread comparisons).values = writtenOrder comparisons := by
  have hnodup : ((writtenOrder comparisons).map ProviderComparison.key).Nodup :=
    ((perm_sortValues comparisons.values).map _).nodup_iff.mpr comparisons.nodup
  have hnew : ∀ comparison ∈ writtenOrder comparisons,
      comparison.key ∉ (Keyed.empty : Comparisons F).keys := fun _ _ => List.not_mem_nil
  exact (Keyed.values_foldl_put_new hnodup hnew).trans (List.nil_append _)

theorem get?_reread (comparisons : Comparisons F) (key : Text × Text) :
    (reread comparisons).get? key = comparisons.get? key := by
  apply Option.ext
  intro comparison
  rw [Keyed.get?_eq_some_iff, Keyed.get?_eq_some_iff, values_reread, mem_writtenOrder]

/-- A written file is read exactly if its days are no datetimes and it is not too large. -/
theorem readEvidence_evidenceBytes {formal : Text} (hformal : Text.strip formal = formal)
    (comparisons : Comparisons F) :
    (Readable formal comparisons →
      readEvidence formal (evidenceBytes formal comparisons) = some (reread comparisons)) ∧
    (readEvidence formal (evidenceBytes formal comparisons) ≠ (none : Option (Comparisons F)) →
      Readable formal comparisons) := by
  have hne : evidenceBytes formal comparisons ≠ [] := by
    rw [evidenceBytes, Json.utf8_line]
    exact List.append_ne_nil_of_right_ne_nil _ (List.cons_ne_nil _ _)
  have hloads : Json.ofBytes? (evidenceBytes formal comparisons) =
      some (evidencePayload formal comparisons) := by
    rw [Json.ofBytes?, evidenceBytes, Text.decodeUtf8_utf8, Option.bind_some,
      (canonical_evidencePayload formal comparisons).loads_dumps_newline]
  have hkeys : (evidencePayload formal comparisons).hasKeys evidenceFields = true :=
    Json.hasKeys_obj _ rfl
  have hversion : (evidencePayload formal comparisons).count? "format_version" = some 1 := rfl
  have hwritten : (evidencePayload formal comparisons).text? "formal_provider" = some formal := rfl
  have hentries : (evidencePayload formal comparisons).field "comparisons"
      (Json.asList (ProviderComparison.ofJson? (F := F))) =
        ((writtenOrder comparisons).map ProviderComparison.toJson).mapM
          ProviderComparison.ofJson? := rfl
  have hread : readEvidence formal (evidenceBytes formal comparisons) =
      (guard ((evidenceBytes formal comparisons).length ≤ maxEvidenceBytes) : Option Unit).bind
        fun _ => (((writtenOrder comparisons).map ProviderComparison.toJson).mapM
          (ProviderComparison.ofJson? (F := F))).bind fun entries =>
            some (entries.foldl Keyed.put Keyed.empty) := by
    simp only [readEvidence, hne, hloads, hkeys, hversion, hwritten, hformal, hentries, ne_eq,
      not_false_eq_true, true_and, guard_true, Option.bind_eq_bind, Option.bind_some,
      Option.pure_def]
  constructor
  · rintro ⟨hdates, hsize⟩
    have hmapM : ((writtenOrder comparisons).map ProviderComparison.toJson).mapM
        (ProviderComparison.ofJson? (F := F)) = some (writtenOrder comparisons) := by
      refine Json.mapM_map_of_mem fun comparison hcomparison => ?_
      rw [ProviderComparison.ofJson?_toJson, if_pos (hdates _ (mem_writtenOrder.mp hcomparison))]
    rw [hread, guard, if_pos hsize, hmapM]
    rfl
  · intro hsome
    rw [hread] at hsome
    by_cases hsize : (evidenceBytes formal comparisons).length ≤ maxEvidenceBytes
    · refine ⟨fun comparison hcomparison => ?_, hsize⟩
      cases hmapM : ((writtenOrder comparisons).map ProviderComparison.toJson).mapM
          (ProviderComparison.ofJson? (F := F)) with
      | none =>
          rw [hmapM] at hsome
          exact absurd (by rw [Option.bind_none, Option.bind_fun_none]) hsome
      | some entries =>
          obtain ⟨read, hitem⟩ := Json.exists_of_mapM hmapM
            (List.mem_map_of_mem (mem_writtenOrder.mpr hcomparison))
          rw [ProviderComparison.ofJson?_toJson] at hitem
          by_contra hdatetime
          rw [if_neg hdatetime] at hitem
          cases hitem
    · rw [guard, if_neg hsize] at hsome
      exact absurd rfl hsome

/-! ### The registry -/

/-- A registry in memory and its evidence file. -/
structure RegistryState (F : Type) [JsonFloats F] where
  formalProvider : Text
  comparisons : Comparisons F
  file : List UInt8

/-- `ProviderRegistry(formal_provider, evidence_path)`. The error of a write that fails is given. -/
def openRegistry (formal : Text) (fault : Option String) (file : Option (List UInt8)) :
    Except String (RegistryState F) := do
  require (Text.strip formal ≠ []) "formal_provider is required"
  match file, fault with
  | some raw, _ =>
      let comparisons ← orRaise (readEvidence (Text.strip formal) raw)
        "provider evidence is invalid"
      return ⟨Text.strip formal, comparisons, raw⟩
  | none, some error => .error error
  | none, none =>
      return {
        formalProvider := Text.strip formal
        comparisons := Keyed.empty
        file := evidenceBytes (F := F) (Text.strip formal) Keyed.empty }

def authorizes (policy : ProviderAcceptancePolicy) (comparisons : Comparisons F)
    (formal candidate : Text) : Bool :=
  (comparisons.get? (formal, candidate)).any fun comparison => comparison.passes policy

namespace RegistryState

abbrev Method (F : Type) [JsonFloats F] := Raising String (RegistryState F) Unit

def persistEvidence : Option String → Method F
  | some error => Raising.raise error
  | none => Raising.change fun registry =>
      { registry with file := evidenceBytes registry.formalProvider registry.comparisons }

def recordComparison (comparison : ProviderComparison F) (fault : Option String) : Method F := do
  let formal ← Raising.read RegistryState.formalProvider
  Raising.check (comparison.incumbent = formal)
    "comparison incumbent must be the current formal provider"
  Raising.change fun registry =>
    { registry with comparisons := registry.comparisons.put comparison }
  persistEvidence fault

def promote (policy : ProviderAcceptancePolicy) (candidate : Text) (fault : Option String) :
    Method F := do
  let normalized := Text.strip candidate
  let authorized ← Raising.read fun registry =>
    authorizes policy registry.comparisons registry.formalProvider normalized
  Raising.check (authorized = true)
    "comparison evidence does not authorize provider promotion"
  let previous ← Raising.read RegistryState.formalProvider
  Raising.change fun registry => { registry with formalProvider := normalized }
  (persistEvidence fault).onRaise (fun _ => true) (Raising.change fun registry =>
    { registry with formalProvider := previous })

def save (fault : Option String) : Method F := persistEvidence fault

end RegistryState

/-- The calls that may change a registry, each with the error its write may end in. -/
inductive RegistryCall (F : Type) [JsonFloats F] where
  | recordComparison (comparison : ProviderComparison F) (fault : Option String)
  | promote (candidate : Text) (fault : Option String)
  | save (fault : Option String)

namespace RegistryCall

def fault : RegistryCall F → Option String
  | recordComparison _ fault => fault
  | promote _ fault => fault
  | save fault => fault

variable (policy : ProviderAcceptancePolicy)

def run : RegistryCall F → RegistryState.Method F
  | recordComparison comparison fault => RegistryState.recordComparison comparison fault
  | promote candidate fault => RegistryState.promote policy candidate fault
  | save fault => RegistryState.save fault

/-- The registry after a call, whether it returned or raised. -/
def step (registry : RegistryState F) (call : RegistryCall F) : RegistryState F :=
  (call.run policy registry).2

/-- What a call sets out to write: the formal provider and the comparisons. -/
def written (registry : RegistryState F) : RegistryCall F → Option (Text × Comparisons F)
  | recordComparison comparison _ =>
      if comparison.incumbent = registry.formalProvider then
        some (registry.formalProvider, registry.comparisons.put comparison)
      else none
  | promote candidate _ =>
      if authorizes policy registry.comparisons registry.formalProvider
          (Text.strip candidate) = true then
        some (Text.strip candidate, registry.comparisons)
      else none
  | save _ => some (registry.formalProvider, registry.comparisons)

variable {policy} {registry : RegistryState F} {call : RegistryCall F}

/-- A call that is refused changes nothing. -/
theorem run_refused (h : call.written policy registry = none) :
    ∃ error, call.run policy registry = (.error error, registry) := by
  cases call with
  | recordComparison comparison fault =>
      have hother : ¬ comparison.incumbent = registry.formalProvider := by
        intro hsame
        rw [written, if_pos hsame] at h
        cases h
      exact ⟨_, Raising.check_not_bind hother⟩
  | promote candidate fault =>
      have hunauthorized : ¬ authorizes policy registry.comparisons registry.formalProvider
          (Text.strip candidate) = true := by
        intro hauthorized
        rw [written, if_pos hauthorized] at h
        cases h
      exact ⟨_, Raising.check_not_bind hunauthorized⟩
  | save fault => cases h

/-- A call whose write succeeds. -/
theorem run_written {formal : Text} {comparisons : Comparisons F} (hfault : call.fault = none)
    (h : call.written policy registry = some (formal, comparisons)) :
    call.run policy registry =
      (.ok (), ⟨formal, comparisons, evidenceBytes formal comparisons⟩) := by
  cases call with
  | recordComparison comparison fault =>
      obtain rfl : fault = none := hfault
      obtain ⟨hsame, heq⟩ := Option.ite_none_right_eq_some.mp h
      cases heq
      exact Raising.check_bind hsame
  | promote candidate fault =>
      obtain rfl : fault = none := hfault
      obtain ⟨hauthorized, heq⟩ := Option.ite_none_right_eq_some.mp h
      cases heq
      exact Raising.check_bind hauthorized
  | save fault =>
      obtain rfl : fault = none := hfault
      cases h
      rfl

/-- A call whose write fails leaves the file and the formal provider, but not the comparisons. -/
theorem run_failed {formal : Text} {comparisons : Comparisons F} {error : String}
    (hfault : call.fault = some error)
    (h : call.written policy registry = some (formal, comparisons)) :
    call.run policy registry = (.error error, { registry with comparisons := comparisons }) := by
  cases call with
  | recordComparison comparison fault =>
      obtain rfl : fault = some error := hfault
      obtain ⟨hsame, heq⟩ := Option.ite_none_right_eq_some.mp h
      cases heq
      exact Raising.check_bind hsame
  | promote candidate fault =>
      obtain rfl : fault = some error := hfault
      obtain ⟨hauthorized, heq⟩ := Option.ite_none_right_eq_some.mp h
      cases heq
      exact Raising.check_bind hauthorized
  | save fault =>
      obtain rfl : fault = some error := hfault
      cases h
      rfl

end RegistryCall

/-! ### Registries opened again -/

/-- Written comparisons that are read as they were: none of them is about a datetime, none has a
drift that is not a number, and the file is not too large. -/
structure Durable (formal : Text) (comparisons : Comparisons F) : Prop
    extends Readable formal comparisons where
  numbers : ∀ comparison ∈ comparisons.values,
    Measure.isNan comparison.maxTimestampDriftSeconds = false

def Reopens (formal : Text) (file : List UInt8) (comparisons : Comparisons F) : Prop :=
  ∃ opened : RegistryState F, openRegistry formal none (some file) = .ok opened ∧
    SameComparisons opened.comparisons comparisons

theorem openRegistry_some {formal : Text} {fault : Option String} {raw : List UInt8}
    {registry : RegistryState F} :
    openRegistry formal fault (some raw) = .ok registry ↔
      Text.strip formal ≠ [] ∧ ∃ comparisons, readEvidence (Text.strip formal) raw =
        some comparisons ∧ registry = ⟨Text.strip formal, comparisons, raw⟩ := by
  constructor
  · intro h
    obtain ⟨_, hnamed, h⟩ := bind_eq_ok_iff.mp h
    obtain ⟨comparisons, hread, h⟩ := bind_eq_ok_iff.mp h
    cases h
    exact ⟨require_eq_ok_iff.mp hnamed, comparisons, orRaise_eq_ok_iff.mp hread, rfl⟩
  · rintro ⟨hnamed, comparisons, hread, rfl⟩
    rw [openRegistry, require_of hnamed, ok_bind]
    simp only [hread]
    rfl

theorem sameComparisons_reread {comparisons : Comparisons F}
    (hnumbers : ∀ comparison ∈ comparisons.values,
      Measure.isNan comparison.maxTimestampDriftSeconds = false) :
    SameComparisons (reread comparisons) comparisons := by
  intro key
  rw [get?_reread]
  cases hfound : comparisons.get? key with
  | none => exact Option.Rel.none
  | some comparison =>
      have hmem := (Keyed.get?_eq_some_iff.mp hfound).1
      exact Option.Rel.some ⟨rfl, hnumbers comparison hmem⟩

theorem reopens_iff {formal : Text} (hstripped : Text.strip formal = formal)
    (hnamed : formal ≠ []) (comparisons : Comparisons F) :
    Reopens formal (evidenceBytes formal comparisons) comparisons ↔ Durable formal comparisons := by
  have hread := readEvidence_evidenceBytes hstripped comparisons
  constructor
  · rintro ⟨opened, hopen, hsame⟩
    obtain ⟨_, read, hfile, rfl⟩ := openRegistry_some.mp hopen
    rw [hstripped] at hfile
    have hreadable := hread.2 (by rw [hfile]; exact Option.some_ne_none read)
    obtain rfl : reread comparisons = read := Option.some.inj ((hread.1 hreadable).symm.trans hfile)
    refine ⟨hreadable, fun comparison hcomparison => ?_⟩
    have hfound : comparisons.get? comparison.key = some comparison :=
      Keyed.get?_eq_some_iff.mpr ⟨hcomparison, rfl⟩
    have hkey := hsame comparison.key
    rw [get?_reread, hfound] at hkey
    cases hkey with
    | some hequal => exact hequal.2
  · intro hdurable
    have hopen : openRegistry formal none (some (evidenceBytes formal comparisons)) =
        .ok ⟨formal, reread comparisons, evidenceBytes formal comparisons⟩ := by
      rw [openRegistry_some, hstripped]
      exact ⟨hnamed, _, hread.1 hdurable.toReadable, rfl⟩
    exact ⟨_, hopen, sameComparisons_reread hdurable.numbers⟩

/-! ### Runs of calls -/

/-- Each comparison in memory is in the evidence that the file reads to. -/
structure Recorded (registry : RegistryState F) : Prop where
  stripped : Text.strip registry.formalProvider = registry.formalProvider
  named : registry.formalProvider ≠ []
  held : ∀ key comparison, registry.comparisons.get? key = some comparison →
    ∃ evidence, readEvidence registry.formalProvider registry.file = some evidence ∧
      evidence.get? key = some comparison

theorem recorded_of_openRegistry {formal : Text} {fault : Option String}
    {file : Option (List UInt8)} {registry : RegistryState F}
    (h : openRegistry formal fault file = .ok registry) : Recorded registry := by
  cases file with
  | some raw =>
      obtain ⟨hnamed, comparisons, hread, rfl⟩ := openRegistry_some.mp h
      refine ⟨Text.strip_strip formal, hnamed, fun key comparison hfound => ?_⟩
      exact ⟨comparisons, hread, hfound⟩
  | none =>
      obtain ⟨_, hnamed, h⟩ := bind_eq_ok_iff.mp h
      cases fault with
      | some error => cases h
      | none =>
          cases h
          refine ⟨Text.strip_strip formal, require_eq_ok_iff.mp hnamed, ?_⟩
          intro key comparison hfound
          cases hfound

namespace RegistryCall

variable (policy : ProviderAcceptancePolicy)

/-- The formal provider changes only to a candidate that the evidence file authorizes, a call that
raises leaves memory and file, and after one that returns the registry can be opened again. -/
structure Kept (registry : RegistryState F) (call : RegistryCall F) : Prop where
  backed : (call.step policy registry).formalProvider ≠ registry.formalProvider →
    ∃ evidence : Comparisons F,
      readEvidence registry.formalProvider registry.file = some evidence ∧
        authorizes policy evidence registry.formalProvider
          (call.step policy registry).formalProvider = true
  unchanged : ∀ error after, call.run policy registry = (.error error, after) → after = registry
  reopens : ∀ after, call.run policy registry = (.ok (), after) →
    Reopens after.formalProvider after.file after.comparisons

/-- What is written can be read as it was, and a comparison whose write fails was recorded
before. -/
def Sound (registry : RegistryState F) (call : RegistryCall F) : Prop :=
  ∀ formal comparisons, call.written policy registry = some (formal, comparisons) →
    match call.fault with
    | none => Durable formal comparisons
    | some _ => comparisons = registry.comparisons

variable {policy} {registry : RegistryState F} {call : RegistryCall F}

/-- What a call writes has a stripped name, and another formal provider only if the comparisons in
memory authorize it. -/
theorem written_spec (hrecorded : Recorded registry) {formal : Text} {comparisons : Comparisons F}
    (h : call.written policy registry = some (formal, comparisons)) :
    Text.strip formal = formal ∧ formal ≠ [] ∧ (formal = registry.formalProvider ∨
      authorizes policy registry.comparisons registry.formalProvider formal = true) := by
  cases call with
  | recordComparison comparison fault =>
      obtain ⟨_, heq⟩ := Option.ite_none_right_eq_some.mp h
      cases heq
      exact ⟨hrecorded.stripped, hrecorded.named, Or.inl rfl⟩
  | promote candidate fault =>
      obtain ⟨hauthorized, heq⟩ := Option.ite_none_right_eq_some.mp h
      cases heq
      refine ⟨Text.strip_strip candidate, ?_, Or.inr hauthorized⟩
      obtain ⟨comparison, hfound, _⟩ := (Option.any_eq_true _ _).mp hauthorized
      have hkey : comparison.candidate = Text.strip candidate :=
        congrArg Prod.snd (Keyed.get?_eq_some_iff.mp hfound).2
      have hnamed := (not_or.mp comparison.named).2
      rwa [hkey, Text.strip_strip] at hnamed
  | save fault =>
      cases h
      exact ⟨hrecorded.stripped, hrecorded.named, Or.inl rfl⟩

/-- What the comparisons in memory authorize is authorized by the file. -/
theorem backed_of_recorded (hrecorded : Recorded registry) {candidate : Text}
    (h : authorizes policy registry.comparisons registry.formalProvider candidate = true) :
    ∃ evidence : Comparisons F,
      readEvidence registry.formalProvider registry.file = some evidence ∧
        authorizes policy evidence registry.formalProvider candidate = true := by
  obtain ⟨comparison, hfound, hpasses⟩ := (Option.any_eq_true _ _).mp h
  obtain ⟨evidence, hread, hheld⟩ := hrecorded.held _ comparison hfound
  exact ⟨evidence, hread, (Option.any_eq_true _ _).mpr ⟨comparison, hheld, hpasses⟩⟩

/-- One call does what it should exactly if it is sound. -/
theorem kept_iff_sound (hrecorded : Recorded registry) :
    call.Kept policy registry ↔ call.Sound policy registry := by
  cases hwritten : call.written policy registry with
  | none =>
      obtain ⟨error, hrun⟩ := run_refused hwritten
      have hstep : call.step policy registry = registry := by rw [step, hrun]
      have hsound : call.Sound policy registry := by
        intro formal comparisons hsome
        rw [hwritten] at hsome
        cases hsome
      refine iff_of_true ⟨fun hchanged => ?_, fun error' after h => ?_, fun after h => ?_⟩ hsound
      · exact absurd (congrArg RegistryState.formalProvider hstep) hchanged
      · exact (Prod.mk.inj (h.symm.trans hrun)).2
      · cases h.symm.trans hrun
  | some target =>
      obtain ⟨formal, comparisons⟩ := target
      obtain ⟨hstripped, hnamed, hsource⟩ := written_spec hrecorded hwritten
      cases hfault : call.fault with
      | some error =>
          have hrun := run_failed hfault hwritten
          have hstep : call.step policy registry =
              { registry with comparisons := comparisons } := by rw [step, hrun]
          constructor
          · intro hkept formal' comparisons' h
            obtain ⟨_, rfl⟩ := Prod.mk.inj (Option.some.inj (hwritten.symm.trans h))
            rw [hfault]
            exact congrArg RegistryState.comparisons (hkept.unchanged error _ hrun)
          · intro hsound
            have hsame := hsound formal comparisons hwritten
            rw [hfault] at hsame
            obtain rfl : comparisons = registry.comparisons := hsame
            refine ⟨fun hchanged => ?_, fun error' after h => ?_, fun after h => ?_⟩
            · exact absurd (congrArg RegistryState.formalProvider hstep) hchanged
            · exact (Prod.mk.inj (h.symm.trans hrun)).2
            · cases h.symm.trans hrun
      | none =>
          have hrun := run_written hfault hwritten
          have hstep : call.step policy registry =
              ⟨formal, comparisons, evidenceBytes formal comparisons⟩ := by rw [step, hrun]
          have hreopens := reopens_iff hstripped hnamed comparisons
          constructor
          · intro hkept formal' comparisons' h
            obtain ⟨rfl, rfl⟩ := Prod.mk.inj (Option.some.inj (hwritten.symm.trans h))
            rw [hfault]
            exact hreopens.mp (hkept.reopens _ hrun)
          · intro hsound
            have hdurable := hsound formal comparisons hwritten
            rw [hfault] at hdurable
            refine ⟨fun hchanged => ?_, fun error after h => ?_, fun after h => ?_⟩
            · rw [hstep] at hchanged ⊢
              exact backed_of_recorded hrecorded (hsource.resolve_left hchanged)
            · cases h.symm.trans hrun
            · obtain rfl := (Prod.mk.inj (h.symm.trans hrun)).2
              exact hreopens.mpr hdurable

/-- A sound call leaves every comparison in the evidence of the file. -/
theorem recorded_step (hrecorded : Recorded registry) (hsound : call.Sound policy registry) :
    Recorded (call.step policy registry) := by
  cases hwritten : call.written policy registry with
  | none =>
      obtain ⟨error, hrun⟩ := run_refused hwritten
      rw [step, hrun]
      exact hrecorded
  | some target =>
      obtain ⟨formal, comparisons⟩ := target
      have hmeets := hsound formal comparisons hwritten
      cases hfault : call.fault with
      | some error =>
          rw [hfault] at hmeets
          obtain rfl : comparisons = registry.comparisons := hmeets
          rw [step, run_failed hfault hwritten]
          exact hrecorded
      | none =>
          rw [hfault] at hmeets
          obtain ⟨hstripped, hnamed, _⟩ := written_spec hrecorded hwritten
          have hread := (readEvidence_evidenceBytes hstripped comparisons).1 hmeets.toReadable
          rw [step, run_written hfault hwritten]
          refine ⟨hstripped, hnamed, fun key comparison hfound => ⟨_, hread, ?_⟩⟩
          rw [get?_reread]
          exact hfound

end RegistryCall

/-- The formal provider is durable and backed by evidence along a run exactly if every call of it
that writes writes what can be read as it was, and no call fails to write a comparison that was not
recorded before. -/
theorem formalProvider_durable_iff (policy : ProviderAcceptancePolicy) {formal : Text}
    {fault : Option String} {file : Option (List UInt8)} {registry : RegistryState F}
    (hopen : openRegistry formal fault file = .ok registry) (calls : List (RegistryCall F)) :
    Runs.StepsMeet (RegistryCall.step policy) (RegistryCall.Kept policy) registry calls ↔
      Runs.StepsMeet (RegistryCall.step policy) (RegistryCall.Sound policy) registry calls := by
  refine Runs.stepsMeet_congr _ Recorded (fun registry call hrecorded hsound => ?_)
    (fun registry call hrecorded => ?_) registry calls (recorded_of_openRegistry hopen)
  · exact RegistryCall.recorded_step hrecorded hsound
  · exact RegistryCall.kept_iff_sound hrecorded

section Sample

attribute [local instance] JsonFloats.one

def sampleComparison : ProviderComparison Unit where
  incumbent := "akshare".toList
  candidate := "tushare".toList
  asOf := .date (.of 2026 1 5)
  coverageRatio := .float ()
  maxTimestampDriftSeconds := .float ()
  adjustmentMatch := true
  identifierMatch := true
  suspensionMatch := true
  named := by decide
  distinct := by decide
  coverage_valid := by decide +kernel
  drift_valid := by decide +kernel

def sampleRegistry : RegistryState Unit :=
  ⟨"akshare".toList, Keyed.empty, evidenceBytes (F := Unit) "akshare".toList Keyed.empty⟩

theorem openRegistry_sample :
    openRegistry " akshare".toList none none = .ok sampleRegistry := by rfl

/-- A comparison that is written authorizes the promotion after it. -/
theorem sample_durable :
    Runs.StepsMeet (RegistryCall.step .default) (RegistryCall.Kept .default) sampleRegistry
      [.recordComparison sampleComparison none, .promote "tushare".toList none] := by
  have hsize (formal : Text) (h : formal = "akshare".toList ∨ formal = "tushare".toList) :
      (evidenceBytes formal (sampleRegistry.comparisons.put sampleComparison)).length ≤
        maxEvidenceBytes := by
    rcases h with rfl | rfl <;> decide +kernel
  have hdurable (formal : Text) (h : formal = "akshare".toList ∨ formal = "tushare".toList) :
      Durable formal (sampleRegistry.comparisons.put sampleComparison) := by
    refine ⟨⟨fun comparison hcomparison => ?_, hsize formal h⟩, fun comparison hcomparison => ?_⟩
    · obtain rfl := List.mem_singleton.mp hcomparison
      rfl
    · obtain rfl := List.mem_singleton.mp hcomparison
      rfl
  refine (formalProvider_durable_iff .default openRegistry_sample _).mpr ⟨?_, ?_, trivial⟩
  · intro formal comparisons hwritten
    cases hwritten
    exact hdurable _ (Or.inl rfl)
  · intro formal comparisons hwritten
    have hpromoted : (RegistryCall.promote "tushare".toList none).written .default
        (RegistryCall.step .default sampleRegistry (.recordComparison sampleComparison none)) =
          some ("tushare".toList, sampleRegistry.comparisons.put sampleComparison) := by
      have hauthorized : authorizes .default (sampleRegistry.comparisons.put sampleComparison)
          "akshare".toList (Text.strip "tushare".toList) = true := by decide +kernel
      exact if_pos hauthorized
    cases hwritten.symm.trans hpromoted
    exact hdurable _ (Or.inr rfl)

/-- A comparison that cannot be written stays in memory, and the promotion after it is not backed
by the file. -/
theorem sample_not_durable :
    openRegistry " akshare".toList none none = .ok sampleRegistry ∧
      ¬ Runs.StepsMeet (RegistryCall.step .default) (RegistryCall.Kept .default) sampleRegistry
        [.recordComparison sampleComparison (some "provider evidence cannot be written"),
          .promote "tushare".toList none] := by
  refine ⟨openRegistry_sample, fun h => ?_⟩
  have hkept := h.1.unchanged _ _ rfl
  have hvalues := congrArg (fun registry => registry.comparisons.values.length) hkept
  cases hvalues

end Sample

end QuantWorkbench.Data
