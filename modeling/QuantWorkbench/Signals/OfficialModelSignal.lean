import QuantWorkbench.Data.Normalization
import QuantWorkbench.Lib.DecimalText
import QuantWorkbench.Lib.Fields
import QuantWorkbench.Lib.Floats

/-!
The contract of an official model signal: a daily candidate of a strategy with the evidence it
was made from.
-/

namespace QuantWorkbench.Signals

open Lib Data

/-! ### Fields -/

/-- The data modes that an official signal may have. -/
inductive DataMode where
  | historical
  | paper
  deriving DecidableEq

namespace DataMode

def text : DataMode → Text
  | historical => "historical".toList
  | paper => "paper".toList

def check (raw : Text) : Except String DataMode := do
  let mode := (Text.strip raw).map Char.toLower
  require (mode ∈ ["fixture".toList, "historical".toList, "paper".toList])
    "data_mode must be one of: fixture, historical, paper"
  orRaise ([historical, paper].find? fun allowed => allowed.text = mode)
    "fixture data cannot become an official model signal"

@[simp] theorem check_text (mode : DataMode) : check mode.text = .ok mode := by
  cases mode <;> decide

end DataMode

/-- `str.casefold`. -/
class FoldTable where
  casefold : Text → Text

def nonMarketSources : List Text :=
  ["fixture".toList, "replay".toList, "synthetic".toList, "test".toList, "test-data".toList]

structure SignalSource [FoldTable] extends RequiredText where
  market : FoldTable.casefold text ∉ nonMarketSources
  deriving DecidableEq

def SignalSource.check [FoldTable] (raw : Text) : Except String SignalSource :=
  if market : FoldTable.casefold (Text.strip raw) ∈ nonMarketSources then
    .error "non-market data cannot become an official model signal"
  else if nonempty : Text.strip raw = [] then .error "source is required"
  else .ok ⟨⟨Text.strip raw, Text.strip_strip raw, nonempty⟩, market⟩

@[simp] theorem SignalSource.check_text [FoldTable] (source : SignalSource) :
    check source.text = .ok source := by
  obtain ⟨⟨text, stripped, nonempty⟩, market⟩ := source
  rw [check, dif_neg (by rwa [stripped]), dif_neg (by rwa [stripped])]
  simp only [stripped]

/-- A text without blanks at its ends, which may be empty. -/
structure StrippedText where
  text : Text
  stripped : Text.strip text = text

def StrippedText.ofText (raw : Text) : StrippedText := ⟨Text.strip raw, Text.strip_strip raw⟩

@[simp] theorem StrippedText.ofText_text (value : StrippedText) : ofText value.text = value := by
  obtain ⟨text, stripped⟩ := value
  simp only [ofText, stripped]

def reasonTexts (raw : List Text) : List RequiredText := raw.filterMap RequiredText.ofText?

theorem reasonTexts_texts (reasons : List RequiredText) :
    reasonTexts (reasons.map RequiredText.text) = reasons := by
  induction reasons with
  | nil => rfl
  | cons reason rest ih =>
      rw [reasonTexts] at ih ⊢
      rw [List.map_cons, List.filterMap_cons, RequiredText.ofText?_text, ih]

/-- The digest of a model bundle, or nothing. -/
structure BundleDigest where
  text : Text
  digest : text = [] ∨ text.length = 64 ∧ ∀ c ∈ text, c ∈ "0123456789abcdef".toList
  deriving DecidableEq

namespace BundleDigest

def check (raw : Text) : Except String BundleDigest :=
  let bundle := (Text.strip raw).map Char.toLower
  if h : bundle = [] ∨ bundle.length = 64 ∧ ∀ c ∈ bundle, c ∈ "0123456789abcdef".toList then
    .ok ⟨bundle, h⟩
  else .error "model_bundle_digest must be a sha256 digest"

theorem hexDigits_plain :
    ∀ c ∈ "0123456789abcdef".toList, Text.isSpace c = false ∧ c.toLower = c := by decide

theorem mem_hexDigits (bundle : BundleDigest) {c : Char} (h : c ∈ bundle.text) :
    c ∈ "0123456789abcdef".toList := by
  rcases bundle.digest with hnil | ⟨_, hdigits⟩
  · rw [hnil] at h
    cases h
  · exact hdigits c h

@[simp] theorem check_text (bundle : BundleDigest) : check bundle.text = .ok bundle := by
  have hplain : ∀ c ∈ bundle.text, Text.isSpace c = false ∧ c.toLower = c :=
    fun c hc => hexDigits_plain c (bundle.mem_hexDigits hc)
  have hlower : bundle.text.map Char.toLower = bundle.text :=
    (List.map_congr_left fun c hc => (hplain c hc).2).trans (List.map_id _)
  have hstrip : Text.strip bundle.text = bundle.text :=
    DecimalText.strip_of_noSpace fun c hc => (hplain c hc).1
  rw [check]
  simp only [hstrip, hlower]
  exact dif_pos bundle.digest

end BundleDigest

variable {F : Type} [FloatFormat F]

/-- A score that the model gives, as it was given. -/
structure NormalizedScore (F : Type) [FloatFormat F] where
  score : Scalar F
  number : F
  converted : score.float? = some number
  range : 0 ≤ FloatFormat.value number ∧ FloatFormat.value number ≤ 100

def NormalizedScore.check (score : Scalar F) : Except String (NormalizedScore F) :=
  match converted : score.float? with
  | none => .error "could not convert normalized_score to float"
  | some number =>
      if range : 0 ≤ FloatFormat.value number ∧ FloatFormat.value number ≤ 100 then
        .ok ⟨score, number, converted, range⟩
      else .error "normalized_score must be between 0 and 100"

@[simp] theorem NormalizedScore.check_score (score : NormalizedScore F) :
    check score.score = .ok score := by
  obtain ⟨score, number, converted, range⟩ := score
  rw [check]
  split
  · rename_i hnone
    rw [converted] at hnone
    cases hnone
  · rename_i other hother
    cases converted.symm.trans hother
    exact dif_pos range

/-- A price or an amount, which is positive. -/
structure Positive (F : Type) [FloatFormat F] where
  number : F
  positive : 0 < FloatFormat.value number

def Positive.check (field : String) (raw : Option (Scalar F)) :
    Except String (Option (Positive F)) :=
  match raw with
  | none => .ok none
  | some scalar => do
      let number ← orRaise scalar.float? s!"could not convert {field} to float"
      if positive : 0 < FloatFormat.value number then return some ⟨number, positive⟩
      else .error s!"{field} must be positive and finite"

def Positive.scalar (value : Positive F) : Scalar F := .float value.number

@[simp] theorem Positive.check_scalar (field : String) (value : Option (Positive F)) :
    check field (value.map Positive.scalar) = .ok value := by
  cases value with
  | none => rfl
  | some value =>
      obtain ⟨number, positive⟩ := value
      exact dif_pos positive

/-! ### Signals -/

structure OfficialModelSignal (F : Type) [FloatFormat F] [FoldTable] where
  signalDate : Day
  symbol : Symbol
  normalizedScore : NormalizedScore F
  strategyVersion : Text
  name : StrippedText
  modelVersion : RequiredText
  featureVersion : RequiredText
  dataMode : DataMode
  source : SignalSource
  dataCutoff : Day
  generatedAt : UtcDateTime
  rank : Option ℕ
  reasons : List RequiredText
  referencePrice : Option (Positive F)
  averageAmount : Option (Positive F)
  invalidationPrice : Option (Positive F)
  modelBundleDigest : BundleDigest
  strategyNamed : strategyVersion ≠ []
  cutoffNotLater : dataCutoff.after? signalDate = some false
  rankPositive : ∀ place ∈ rank, 1 ≤ place

variable [FoldTable]

def OfficialModelSignal.create (signalDate : Day) (symbol : Text) (normalizedScore : Scalar F)
    (strategyVersion name modelVersion featureVersion dataMode source : Text)
    (dataCutoff : Option Day) (generatedAt : UtcDateTime) (rank : Option ℤ) (reasons : List Text)
    (referencePrice averageAmount invalidationPrice : Option (Scalar F))
    (modelBundleDigest : Text) : Except String (OfficialModelSignal F) := do
  let symbol ← checkSymbol symbol
  let normalizedScore ← NormalizedScore.check normalizedScore
  if strategyNamed : strategyVersion ≠ [] then
    let dataMode ← DataMode.check dataMode
    let source ← SignalSource.check source
    let modelVersion ← RequiredText.check "model_version" modelVersion
    let featureVersion ← RequiredText.check "feature_version" featureVersion
    if cutoffNotLater : (dataCutoff.getD signalDate).after? signalDate = some false then
      if rankPositive : ∀ place ∈ rank, 1 ≤ place then
        let referencePrice ← Positive.check "reference_price" referencePrice
        let averageAmount ← Positive.check "average_amount" averageAmount
        let invalidationPrice ← Positive.check "invalidation_price" invalidationPrice
        let modelBundleDigest ← BundleDigest.check modelBundleDigest
        return {
          signalDate
          symbol
          normalizedScore
          strategyVersion
          name := StrippedText.ofText name
          modelVersion
          featureVersion
          dataMode
          source
          dataCutoff := dataCutoff.getD signalDate
          generatedAt
          rank := rank.map Int.toNat
          reasons := reasonTexts reasons
          referencePrice
          averageAmount
          invalidationPrice
          modelBundleDigest
          strategyNamed
          cutoffNotLater
          rankPositive := by
            rintro place hplace
            obtain ⟨given, hgiven, rfl⟩ := Option.map_eq_some_iff.mp hplace
            have := rankPositive given hgiven
            omega }
      else .error "rank must be a positive integer"
    else .error "data_cutoff cannot be after signal_date"
  else .error "strategy_version is required"

theorem OfficialModelSignal.create_keeps {signalDate : Day} {symbol : Text}
    {normalizedScore : Scalar F}
    {strategyVersion name modelVersion featureVersion dataMode source : Text}
    {dataCutoff : Option Day} {generatedAt : UtcDateTime} {rank : Option ℤ} {reasons : List Text}
    {referencePrice averageAmount invalidationPrice : Option (Scalar F)} {modelBundleDigest : Text}
    {signal : OfficialModelSignal F}
    (h : create signalDate symbol normalizedScore strategyVersion name modelVersion featureVersion
      dataMode source dataCutoff generatedAt rank reasons referencePrice averageAmount
      invalidationPrice modelBundleDigest = .ok signal) :
    signal.signalDate = signalDate ∧ checkSymbol symbol = .ok signal.symbol := by
  obtain ⟨_, hsymbol, h⟩ := bind_eq_ok_iff.mp h
  obtain ⟨_, _, h⟩ := bind_eq_ok_iff.mp h
  split at h
  · obtain ⟨_, _, h⟩ := bind_eq_ok_iff.mp h
    obtain ⟨_, _, h⟩ := bind_eq_ok_iff.mp h
    obtain ⟨_, _, h⟩ := bind_eq_ok_iff.mp h
    obtain ⟨_, _, h⟩ := bind_eq_ok_iff.mp h
    split at h
    · split at h
      · obtain ⟨_, _, h⟩ := bind_eq_ok_iff.mp h
        obtain ⟨_, _, h⟩ := bind_eq_ok_iff.mp h
        obtain ⟨_, _, h⟩ := bind_eq_ok_iff.mp h
        obtain ⟨_, _, h⟩ := bind_eq_ok_iff.mp h
        cases h
        exact ⟨rfl, hsymbol⟩
      · cases h
    · cases h
  · cases h

/-- A signal is accepted unchanged when it is checked again. -/
theorem OfficialModelSignal.create_self (signal : OfficialModelSignal F) :
    create signal.signalDate signal.symbol.text signal.normalizedScore.score signal.strategyVersion
      signal.name.text signal.modelVersion.text signal.featureVersion.text signal.dataMode.text
      signal.source.text (some signal.dataCutoff) signal.generatedAt
      (signal.rank.map Int.ofNat) (signal.reasons.map RequiredText.text)
      (signal.referencePrice.map Positive.scalar) (signal.averageAmount.map Positive.scalar)
      (signal.invalidationPrice.map Positive.scalar) signal.modelBundleDigest.text =
      .ok signal := by
  have hrank : ∀ place ∈ signal.rank.map Int.ofNat, 1 ≤ place := by
    rintro place hplace
    obtain ⟨kept, hkept, rfl⟩ := Option.map_eq_some_iff.mp hplace
    change (1 : ℤ) ≤ (kept : ℤ)
    exact_mod_cast signal.rankPositive kept hkept
  have hranks : (signal.rank.map Int.ofNat).map Int.toNat = signal.rank := by
    cases signal.rank <;> rfl
  rw [create, checkSymbol_text, NormalizedScore.check_score, DataMode.check_text,
    SignalSource.check_text, RequiredText.check_text, RequiredText.check_text,
    Positive.check_scalar, Positive.check_scalar, Positive.check_scalar, BundleDigest.check_text]
  simp only [bind, Except.bind, dif_pos signal.strategyNamed, dif_pos hrank]
  rw [dif_pos (show ((some signal.dataCutoff).getD signal.signalDate).after? signal.signalDate =
    some false from signal.cutoffNotLater)]
  simp only [StrippedText.ofText_text, reasonTexts_texts, hranks, Option.getD_some]
  rfl

end QuantWorkbench.Signals
