import QuantWorkbench.Advisory.PriceOverlay
import QuantWorkbench.Intelligence.Contracts
import QuantWorkbench.Signals.OfficialModelSignal

/-!
The rows of the dashboard of `workbench/service.py` that show a price guidance: the daily
candidates, whose plans are shown as they were frozen, and the monitored quotes, whose plans are
evaluated at a quote. `refreshPublicRiskView` computes both again on a read.
-/

namespace QuantWorkbench.Workbench

open Lib Data Advisory Intelligence Signals

/-! ### Quotes -/

/-- The fields of a `RealTimeQuote` that the rows show. -/
structure DashboardQuote (F : Type) [FloatFormat F] where
  symbol : Symbol
  name : Option Text
  timestampExchange : AwareDateTime
  timestampReceived : AwareDateTime
  last : Option (Positive F)
  changePct : Option F
  source : Text
  qualityFlag : DataQualityStatus
  isStale : Bool
  staleFlagged : isStale = true → qualityFlag ≠ .good

variable {F : Type} [FloatFormat F]

namespace DashboardQuote

def dataAgeSeconds (quote : DashboardQuote F) (now : AwareDateTime) : ℚ :=
  max 0 (((now.utc.microseconds - quote.timestampExchange.utc.microseconds : ℤ) : ℚ) / 1000000)

def effectiveQuality (quote : DashboardQuote F) (batchQuality : DataQualityStatus)
    (now : AwareDateTime) (staleAfterSeconds : ℚ) : DataQualityStatus :=
  if batchQuality = .failed ∨ batchQuality = .stale then batchQuality
  else if quote.isStale = true ∨ now.utc < quote.timestampExchange.utc ∨
      staleAfterSeconds < quote.dataAgeSeconds now then .stale
  else quote.qualityFlag

/-- `str(quote.last)`. -/
def priceText (quote : DashboardQuote F) : Option Text :=
  quote.last.map fun last => FloatFormat.repr last.number

/-- `replace(quote, quality_flag=DataQualityStatus.STALE, is_stale=True)`. -/
def asCached (quote : DashboardQuote F) : DashboardQuote F :=
  { quote with
    qualityFlag := .stale
    isStale := true
    staleFlagged := fun _ => nofun }

theorem fresh_of_effectiveQuality {quote : DashboardQuote F} {batchQuality : DataQualityStatus}
    {now : AwareDateTime} {staleAfterSeconds : ℚ}
    (h : quote.effectiveQuality batchQuality now staleAfterSeconds = .good) :
    quote.qualityFlag = .good ∧ quote.timestampExchange.utc ≤ now.utc ∧
      quote.dataAgeSeconds now ≤ staleAfterSeconds := by
  rw [effectiveQuality] at h
  split at h
  · rename_i hbatch
    rcases hbatch with hbatch | hbatch
    · rw [hbatch] at h
      cases h
    · rw [hbatch] at h
      cases h
  · split at h
    · cases h
    · rename_i hfresh
      push Not at hfresh
      exact ⟨h, hfresh.2.1, hfresh.2.2⟩

end DashboardQuote

abbrev QuotesBySymbol (F : Type) [FloatFormat F] :=
  Keyed fun quote : DashboardQuote F => quote.symbol

/-! ### Price guidance -/

/-- The entries of a `price_guidance` object. The other fields of the plan are spread into it
unchanged. -/
structure GuidancePayload where
  plan : Option PriceGuidancePlan
  state : GuidanceState
  entryLower : Option Price
  entryUpper : Option Price
  maximumAcceptablePrice : Option Price
  invalidationPrice : Option Price
  currentPrice : Option ℚ
  dataQuality : Option DataQualityStatus
  quoteTimestamp : Option UtcDateTime
  observedAt : Option UtcDateTime
  reasonCodes : List Text
  noticeZh : Option Text

def guidanceReasonZh : List (String × String) :=
  [("INVALIDATION_NOT_BELOW_ENTRY", "失效价不低于入场下限"),
    ("ENTRY_RANGE_INVERTED", "入场区间上下限倒置"),
    ("ENTRY_ABOVE_MAXIMUM", "入场上限超过最高可接受价"),
    ("PRICE_BOUNDARIES_INCONSISTENT", "价格边界不一致"),
    ("RISK_DISTANCE_TOO_HIGH", "风险距离超过 12%"),
    ("RISK_DISTANCE_TOO_LOW", "风险距离低于 2%"),
    ("INSUFFICIENT_HISTORY", "历史数据不足 252 个交易日"),
    ("UNSUPPORTED_SECURITY_RULES", "证券交易规则不受支持"),
    ("PRICE_PLAN_MISSING", "尚未生成冻结价格计划"),
    ("PLAN_OR_QUOTE_INVALID", "计划已过期或行情时间无效"),
    ("NO_RELIABLE_GUIDANCE", "未通过价格边界或风险距离安全校验")]

def unavailableGuidanceNotice (reasonCodes : List Text) : Text :=
  let reasons := reasonCodes.map fun code =>
    ((guidanceReasonZh.find? fun entry => entry.1.toList = code).map
      fun entry => entry.2.toList).getD code
  let detail := if reasons = [] then "未提供具体原因".toList
    else ['；'].intercalate reasons
  "暂无可靠指导价；原因：".toList ++ detail ++ ['。']

def planPayload (plan : PriceGuidancePlan) : GuidancePayload where
  plan := some plan
  state := plan.state
  entryLower := plan.entryLower
  entryUpper := plan.entryUpper
  maximumAcceptablePrice := plan.maximumAcceptablePrice
  invalidationPrice := plan.invalidationPrice
  currentPrice := none
  dataQuality := none
  quoteTimestamp := none
  observedAt := none
  reasonCodes := plan.reasonCodes.map RequiredText.text
  noticeZh := none

def missingPlanPayload : GuidancePayload where
  plan := none
  state := .noReliableGuidance
  entryLower := none
  entryUpper := none
  maximumAcceptablePrice := none
  invalidationPrice := none
  currentPrice := none
  dataQuality := none
  quoteTimestamp := none
  observedAt := none
  reasonCodes := ["PRICE_PLAN_MISSING".toList]
  noticeZh := some (unavailableGuidanceNotice ["PRICE_PLAN_MISSING".toList])

def officialPriceGuidancePayload : Option PriceGuidancePlan → GuidancePayload
  | none => missingPlanPayload
  | some plan =>
      if plan.state = .noReliableGuidance then
        { planPayload plan with
          noticeZh := some (unavailableGuidanceNotice (plan.reasonCodes.map RequiredText.text)) }
      else planPayload plan

theorem frozen_of_reliable {plan : Option PriceGuidancePlan}
    (h : (officialPriceGuidancePayload plan).state ≠ .noReliableGuidance) :
    ∃ frozen, plan = some frozen ∧ officialPriceGuidancePayload plan = planPayload frozen := by
  cases plan with
  | none => exact absurd rfl h
  | some frozen =>
      refine ⟨frozen, rfl, ?_⟩
      rw [officialPriceGuidancePayload] at h ⊢
      split at h
      · rename_i hstate
        exact absurd hstate h
      · rename_i hstate
        rw [if_neg hstate]

/-- `{**plan.to_dict(), **result.to_dict()}` with its notice. -/
def evaluatedPayload (plan : PriceGuidancePlan) (result : PriceGuidanceObservationResult) :
    GuidancePayload where
  plan := some plan
  state := result.state
  entryLower := result.entryLower
  entryUpper := result.entryUpper
  maximumAcceptablePrice := result.maximumAcceptablePrice
  invalidationPrice := result.invalidationPrice
  currentPrice := result.currentPrice
  dataQuality := some result.dataQuality
  quoteTimestamp := result.quoteTimestamp
  observedAt := some result.observedAt
  reasonCodes := result.reasonCodes
  noticeZh := some (if plan.guidanceLevel = .researchReference then
    "研究参考区间，尚未通过正式模型晋升门槛。".toList
    else "仅供人工复核，系统不会提交委托。".toList)

def overlayQuote (quote : DashboardQuote F) (dataQuality : DataQualityStatus) : OverlayQuote where
  currentPrice := quote.priceText
  dataQuality
  quoteTimestamp := some quote.timestampExchange
  observedAt := some quote.timestampReceived

def quoteGuidancePayload (plan : Option PriceGuidancePlan) (quote : Option (DashboardQuote F))
    (dataQuality : DataQualityStatus) (now : AwareDateTime) : GuidancePayload :=
  match plan with
  | none => missingPlanPayload
  | some plan =>
      if plan.state = .noReliableGuidance then
        { planPayload plan with
          currentPrice := quote.bind fun quote =>
            quote.last.map fun last => FloatFormat.value last.number
          dataQuality := some dataQuality
          noticeZh := some (unavailableGuidanceNotice (plan.reasonCodes.map RequiredText.text)) }
      else
        match quote with
        | none =>
            { planPayload plan with
              state := .noReliableGuidance
              dataQuality := some dataQuality
              noticeZh := some "暂无可靠指导价；原因：尚无经过核验的盘中行情。".toList }
        | some quote =>
            match PriceGuidanceOverlay.evaluate plan (overlayQuote quote dataQuality) now with
            | .ok result => evaluatedPayload plan result
            | .error _ =>
                { planPayload plan with
                  state := .noReliableGuidance
                  dataQuality := some dataQuality
                  reasonCodes := ["PLAN_OR_QUOTE_INVALID".toList]
                  noticeZh := some "暂无可靠指导价；原因：计划已过期或行情时间无效。".toList }

/-- A guidance that was evaluated at a quote, when it could be. -/
structure EvaluatedAt (payload : GuidancePayload) (plan : PriceGuidancePlan)
    (quote : DashboardQuote F) (now : AwareDateTime) : Prop where
  planned : payload.plan = some plan
  valid : now.date ≤ plan.validFor
  quoteTimestamp : payload.quoteTimestamp = some quote.timestampExchange.utc
  observedAt : payload.observedAt = some quote.timestampReceived.utc
  currentPrice : PriceGuidanceOverlay.observedPrice quote.priceText = .ok payload.currentPrice
  state : payload.state =
    (PriceGuidanceOverlay.stateAt plan .good payload.quoteTimestamp payload.currentPrice).1

theorem evaluatedAt_of_reliable {plan : Option PriceGuidancePlan}
    {quote : Option (DashboardQuote F)} {dataQuality : DataQualityStatus} {now : AwareDateTime}
    (h : (quoteGuidancePayload plan quote dataQuality now).state ≠ .noReliableGuidance) :
    ∃ frozen used, plan = some frozen ∧ quote = some used ∧ dataQuality = .good ∧
      EvaluatedAt (quoteGuidancePayload plan quote dataQuality now) frozen used now := by
  cases plan with
  | none => exact absurd rfl h
  | some frozen =>
      simp only [quoteGuidancePayload] at h ⊢
      by_cases hstate : frozen.state = .noReliableGuidance
      · rw [if_pos hstate] at h
        exact absurd hstate h
      · rw [if_neg hstate] at h ⊢
        cases quote with
        | none => exact absurd rfl h
        | some used =>
            cases hresult : PriceGuidanceOverlay.evaluate frozen (overlayQuote used dataQuality)
                now with
            | error message =>
                simp only [hresult] at h
                exact absurd rfl h
            | ok result =>
                simp only [hresult] at h ⊢
                have hinTime := PriceGuidanceOverlay.inTime_of_evaluate hresult
                have hgood : dataQuality = .good := by
                  by_contra hbad
                  exact h (hinTime.state.trans (PriceGuidanceOverlay.stateAt_unreliable hbad))
                subst hgood
                exact ⟨frozen, used, rfl, rfl, rfl, rfl, hinTime.valid, hinTime.timestamp,
                  congrArg some hinTime.observed, hinTime.price, hinTime.state⟩

/-! ### Event risk -/

variable [CaseTable] [UrlTable]

/-- The reasons that `effective_risk_assessment` adds. -/
inductive ExpiryReason where
  | futureTimestamp
  | expired
  | refreshFailed

def ExpiryReason.code : ExpiryReason → Code
  | futureTimestamp =>
      { text := "PUBLIC_RISK_FUTURE_TIMESTAMP".toList
        stripped := by decide
        nonempty := by decide
        upper := CaseTable.upper_of_capitals _ (by decide) }
  | expired =>
      { text := "PUBLIC_RISK_EXPIRED".toList
        stripped := by decide
        nonempty := by decide
        upper := CaseTable.upper_of_capitals _ (by decide) }
  | refreshFailed =>
      { text := "PUBLIC_RISK_REFRESH_FAILED".toList
        stripped := by decide
        nonempty := by decide
        upper := CaseTable.upper_of_capitals _ (by decide) }

def notChecked : Code where
  text := "PUBLIC_RISK_NOT_CHECKED".toList
  stripped := by decide
  nonempty := by decide
  upper := CaseTable.upper_of_capitals _ (by decide)

/-- What is against an assessment at `now`. -/
def expiryReasons (assessment : PublicRiskAssessment) (now : AwareDateTime)
    (refreshStatus : Text) (maximumAgeSeconds : ℚ) : List ExpiryReason :=
  let age : ℚ :=
    ((now.utc.microseconds - assessment.checkedAt.microseconds : ℤ) : ℚ) / 1000000
  (if age < 0 then [.futureTimestamp] else if maximumAgeSeconds < age then [.expired] else []) ++
    if refreshStatus = "FRESH".toList ∨ refreshStatus = "PARTIAL".toList then []
    else [.refreshFailed]

/-- An expired clearance is no clearance; adverse evidence is kept. -/
def effectiveRiskAssessment (assessment : PublicRiskAssessment) (now : AwareDateTime)
    (refreshStatus : Text) (maximumAgeSeconds : ℚ) : PublicRiskAssessment :=
  let reasons := expiryReasons assessment now refreshStatus maximumAgeSeconds
  if reasons = [] then assessment
  else
    { assessment with
      level :=
        if assessment.level = .blocked ∨ assessment.level = .review then assessment.level
        else .unknown
      reasonCodes :=
        ⟨fromKeys (assessment.reasonCodes.codes ++ reasons.map ExpiryReason.code),
          nodup_fromKeys _⟩ }

/-- The `event_risk` object of a row; a level is missing while nothing was checked. -/
structure EventRiskPayload where
  level : Option EventRiskLevel
  reasonCodes : List Text
  events : List PublicRiskEvent
  checkedAt : Option UtcDateTime

def publicRiskPayload (assessment : PublicRiskAssessment) : EventRiskPayload where
  level := some assessment.level
  reasonCodes := assessment.reasonCodes.texts
  events := assessment.events
  checkedAt :=
    if assessment.level = .unknown ∧ assessment.reasonCodes.codes = [notChecked] ∧
        assessment.events = [] then none
    else some assessment.checkedAt

def eventRiskPayload : Option PublicRiskAssessment → EventRiskPayload
  | some assessment => publicRiskPayload assessment
  | none => ⟨none, [], [], none⟩

/-- The symbol's event risk is clear, or there is no assessment of it. -/
def ClearOrAbsent (assessment : Option PublicRiskAssessment) : Prop :=
  ∀ assessed ∈ assessment, assessed.level = .clear

instance (assessment : Option PublicRiskAssessment) : Decidable (ClearOrAbsent assessment) :=
  inferInstanceAs (Decidable (∀ assessed ∈ assessment, _))

def applyEventRisk (guidance : GuidancePayload) : Option PublicRiskAssessment → GuidancePayload
  | none => guidance
  | some assessment =>
      if assessment.level = .clear then guidance
      else
        let own := assessment.reasonCodes.texts
        let reasons := if own = [] then ["PUBLIC_EVENT_RISK".toList] else own
        { guidance with
          state := .noReliableGuidance
          entryLower := none
          entryUpper := none
          maximumAcceptablePrice := none
          invalidationPrice := none
          reasonCodes :=
            fromKeys ("PUBLIC_EVENT_RISK".toList :: (reasons ++ guidance.reasonCodes))
          noticeZh := some (if assessment.level = .review ∨ assessment.level = .blocked then
            "暂无可靠指导价；巨潮公告包含需要人工核查的重大事件。".toList
            else "暂无可靠指导价；该股票的公告风险检查未成功完成。".toList) }

theorem clearOrAbsent_of_reliable {guidance : GuidancePayload}
    {assessment : Option PublicRiskAssessment}
    (h : (applyEventRisk guidance assessment).state ≠ .noReliableGuidance) :
    ClearOrAbsent assessment ∧ applyEventRisk guidance assessment = guidance := by
  cases assessment with
  | none => exact ⟨fun _ hnone => (nomatch hnone), rfl⟩
  | some assessed =>
      rw [applyEventRisk] at h ⊢
      split at h
      · rename_i hclear
        rw [if_pos hclear]
        refine ⟨fun other hother => ?_, rfl⟩
        cases hother
        exact hclear
      · exact absurd rfl h

/-! ### Rows -/

variable [FoldTable]

/-- A row of `official_daily_candidates`. -/
structure DailyRow (F : Type) [FloatFormat F] where
  signal : OfficialModelSignal F
  priceGuidance : GuidancePayload
  eventRisk : EventRiskPayload

def officialSignalPayload (signal : OfficialModelSignal F) (plan : Option PriceGuidancePlan)
    (eventRisk : Option PublicRiskAssessment) : DailyRow F where
  signal
  priceGuidance := applyEventRisk (officialPriceGuidancePayload plan) eventRisk
  eventRisk := eventRiskPayload eventRisk

/-- A row of `intraday_monitor`: what it shows of a quote, and its guidance. A candidate without a
quote shows none of it. -/
structure MonitorRow (F : Type) where
  symbol : Symbol
  name : Option Text
  dataQuality : DataQualityStatus
  currentPrice : Option F
  changePct : Option F
  source : Text
  quoteTimestamp : Option Text
  quoteReceivedAt : Option Text
  officialModelSignal : Bool
  priceGuidance : GuidancePayload
  eventRisk : EventRiskPayload

def MonitorRow.SameQuote (row : MonitorRow F) (quote : DashboardQuote F) : Prop :=
  row.quoteTimestamp = some quote.timestampExchange.isoformat ∧
    row.currentPrice.map FloatFormat.value =
      quote.last.map fun last => FloatFormat.value last.number

instance (row : MonitorRow F) (quote : DashboardQuote F) : Decidable (row.SameQuote quote) :=
  inferInstanceAs (Decidable (_ ∧ _))

def monitorPayload (quote : DashboardQuote F) (official : Option (OfficialModelSignal F))
    (dataQuality : DataQualityStatus) (guidance : GuidancePayload)
    (eventRisk : Option PublicRiskAssessment) : MonitorRow F where
  symbol := quote.symbol
  name := (quote.name.filter (· ≠ [])).or (official.map fun signal => signal.name.text)
  dataQuality
  currentPrice := quote.last.map Positive.number
  changePct := quote.changePct
  source := quote.source
  quoteTimestamp := some quote.timestampExchange.isoformat
  quoteReceivedAt := some quote.timestampReceived.isoformat
  officialModelSignal := official.isSome
  priceGuidance := applyEventRisk guidance eventRisk
  eventRisk := eventRiskPayload eventRisk

def staleCandidatePayload (signal : OfficialModelSignal F) (guidance : GuidancePayload)
    (eventRisk : Option PublicRiskAssessment) : MonitorRow F where
  symbol := signal.symbol
  name := some signal.name.text
  dataQuality := .failed
  currentPrice := none
  changePct := none
  source := signal.source.text
  quoteTimestamp := none
  quoteReceivedAt := none
  officialModelSignal := true
  priceGuidance := applyEventRisk guidance eventRisk
  eventRisk := eventRiskPayload eventRisk

end QuantWorkbench.Workbench
