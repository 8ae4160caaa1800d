import QuantWorkbench.Intelligence.Contracts
import QuantWorkbench.Lib.TextPatterns

/-!
What the title of an announcement says about risk. Only the title is read, and the phrases that
lift a risk are taken out of it before it is searched for phrases that state one.
-/

namespace QuantWorkbench.Intelligence

open Lib

/-- `html.unescape`. -/
class HtmlTable where
  unescape : Text → Text

/-! ### Phrases -/

def phrase (text : String) : Branch := [.literal text.toList]

def spaced (first : String) (limit : Option ℕ) (second : String) : Branch :=
  [.literal first.toList, .gap limit, .literal second.toList]

def anyOf (branches : List Branch) : Pattern := ⟨[], branches⟩

def phrases (texts : List String) : Pattern := anyOf (texts.map phrase)

/-- `(?<!申请)撤销.*?退市风险警示`. -/
def delistingWarningLifted : Pattern :=
  ⟨"申请".toList, [spaced "撤销" none "退市风险警示"]⟩

def otherWarningLifted : Pattern :=
  ⟨"申请".toList, [spaced "撤销" none "其他风险警示"]⟩

def RELIEF_PATTERNS : List Pattern :=
  [delistingWarningLifted, otherWarningLifted, phrases ["解除冻结"], phrases ["解除质押"],
    phrases ["复牌"]]

def RESOLUTION_PATTERNS : List (Text × Pattern) :=
  [("DELISTING_RISK".toList, delistingWarningLifted),
    ("TRADING_SUSPENSION".toList, phrases ["复牌"])]

def BLOCK_PATTERNS : List (Text × Pattern) :=
  [("DELISTING_RISK".toList, phrases ["退市风险警示", "终止上市", "退市整理", "重大违法强制退市"]),
    ("REGULATORY_INVESTIGATION".toList,
      anyOf [spaced "证监会" (some 12) "立案", spaced "中国证券监督管理委员会" (some 12) "立案",
        phrase "立案调查", phrase "立案告知"]),
    ("TRADING_SUSPENSION".toList, phrases ["停牌"]),
    ("BANKRUPTCY_RISK".toList, phrases ["破产清算", "被申请破产", "预重整", "破产重整"])]

def REVIEW_PATTERNS : List (Text × Pattern) :=
  [("OTHER_RISK_WARNING".toList,
      anyOf [spaced "被" none "其他风险警示", spaced "继续" none "其他风险警示",
        spaced "实施" none "其他风险警示"]),
    ("REGULATORY_ACTION".toList,
      phrases ["行政处罚", "监管措施", "警示函", "监管工作函", "纪律处分"]),
    ("LITIGATION_RISK".toList, phrases ["重大诉讼", "重大仲裁", "诉讼进展", "仲裁进展"]),
    ("OWNERSHIP_RISK".toList,
      phrases ["司法冻结", "轮候冻结", "减持计划", "被动减持", "控制权变更"]),
    ("DEBT_RISK".toList, phrases ["债务逾期", "债券违约", "未能清偿", "违规担保", "担保逾期"]),
    ("IMPAIRMENT_RISK".toList, anyOf [spaced "计提" none "减值", phrase "资产减值准备"]),
    ("EARNINGS_RISK".toList, phrases ["业绩预亏", "业绩预减", "预计亏损", "由盈转亏"]),
    ("MARKET_ABNORMALITY".toList,
      phrases ["股票交易异常波动", "严重异常波动", "风险提示公告"]),
    ("AUDIT_RISK".toList,
      anyOf [phrase "无法表示意见", phrase "否定意见", spaced "保留意见" none "审计",
        spaced "内部控制" none "否定意见"])]

/-! ### Titles -/

/-- `<[^>]+>`. -/
def tagLength (_ rest : Text) : Option ℕ :=
  match rest with
  | '<' :: inside =>
      let name := inside.takeWhile (· ≠ '>')
      if name ≠ [] ∧ name.length < inside.length then some (name.length + 2) else none
  | _ => none

def splitBlanks (text : Text) : List Text := (text.splitOnP Text.isSpace).filter (· ≠ [])

variable [HtmlTable]

def cleanTitle (value : Text) : Text :=
  let cleaned := (HtmlTable.unescape (removeFrom tagLength [] 0 value)).map fun c =>
    if c = '\u3000' then ' ' else c
  Text.strip ([' '].intercalate (splitBlanks cleaned))

@[simp] theorem strip_cleanTitle (value : Text) : Text.strip (cleanTitle value) = cleanTitle value :=
  Text.strip_strip _

/-- The title without the phrases that lift a risk. -/
def riskText (title : Text) : Text :=
  RELIEF_PATTERNS.foldl (fun text pattern => pattern.remove text) (cleanTitle title)

def foundCodes (table : List (Text × Pattern)) (text : Text) : List Text :=
  (table.filter fun entry => entry.2.search text).map Prod.fst

def classifyAnnouncementTitle (title : Text) : EventRiskLevel × List Text :=
  let blocked := foundCodes BLOCK_PATTERNS (riskText title)
  if blocked ≠ [] then (.blocked, blocked)
  else
    let review := foundCodes REVIEW_PATTERNS (riskText title)
    if review ≠ [] then (.review, review) else (.clear, [])

def resolvedReasons (title : Text) : List Text := foundCodes RESOLUTION_PATTERNS title

/-! ### What a classification is -/

omit [HtmlTable] in
theorem foundCodes_sublist (table : List (Text × Pattern)) (text : Text) :
    (foundCodes table text).Sublist (table.map Prod.fst) :=
  List.filter_sublist.map Prod.fst

/-- The codes of the tables of adverse phrases. -/
def riskCodes : List Text := (BLOCK_PATTERNS ++ REVIEW_PATTERNS).map Prod.fst

omit [HtmlTable] in
theorem riskCodes_nodup : riskCodes.Nodup := by decide

theorem classify_cases (title : Text) :
    (∃ codes, codes ≠ [] ∧ codes.Sublist riskCodes ∧
      (classifyAnnouncementTitle title = (.blocked, codes) ∨
        classifyAnnouncementTitle title = (.review, codes))) ∨
    classifyAnnouncementTitle title = (.clear, []) := by
  have hblock := foundCodes_sublist BLOCK_PATTERNS (riskText title)
  have hreview := foundCodes_sublist REVIEW_PATTERNS (riskText title)
  rw [classifyAnnouncementTitle]
  split
  · rename_i hfound
    refine Or.inl ⟨_, hfound, ?_, Or.inl rfl⟩
    rw [riskCodes, List.map_append]
    exact hblock.trans (List.sublist_append_left _ _)
  · by_cases hfound : foundCodes REVIEW_PATTERNS (riskText title) ≠ []
    · refine Or.inl ⟨_, hfound, ?_, Or.inr (if_pos hfound)⟩
      rw [riskCodes, List.map_append]
      exact hreview.trans (List.sublist_append_right _ _)
    · exact Or.inr (if_neg hfound)

theorem reasons_sublist (title : Text) :
    (classifyAnnouncementTitle title).2.Sublist riskCodes := by
  rcases classify_cases title with ⟨codes, _, hsublist, hlevel | hlevel⟩ | hclear
  · rwa [hlevel]
  · rwa [hlevel]
  · rw [hclear]
    exact List.nil_sublist _

section

omit [HtmlTable]

/-- A code as the tables have it: capitals, and no blank at its ends. -/
def IsPlainCode (text : Text) : Prop :=
  Text.strip text = text ∧ text ≠ [] ∧ ∀ c ∈ text, c.isUpper ∨ c = '_'

instance : DecidablePred IsPlainCode := fun text =>
  inferInstanceAs (Decidable (Text.strip text = text ∧ text ≠ [] ∧ ∀ c ∈ text, c.isUpper ∨ c = '_'))

theorem isPlainCode_of_mem_riskCodes : ∀ text ∈ riskCodes, IsPlainCode text := by decide

variable [CaseTable]

theorem exists_code {text : Text} (h : IsPlainCode text) :
    ∃ code : Code, Code.ofText? text = some code ∧ code.text = text := by
  obtain ⟨hstrip, hne, hcapitals⟩ := h
  have hupper : CaseTable.upper text = text := CaseTable.upper_of_capitals text hcapitals
  exact ⟨⟨⟨text, hstrip, hne⟩, hupper⟩, Code.ofText?_text ⟨⟨text, hstrip, hne⟩, hupper⟩, rfl⟩

theorem exists_codes {texts : List Text} (h : ∀ text ∈ texts, IsPlainCode text) :
    ∃ codes : List Code, texts.mapM Code.ofText? = some codes ∧
      codes.map (fun code => code.text) = texts := by
  induction texts with
  | nil => exact ⟨[], rfl, rfl⟩
  | cons text rest ih =>
      obtain ⟨hfirst, hrest⟩ := List.forall_mem_cons.mp h
      obtain ⟨code, hcode, htext⟩ := exists_code hfirst
      obtain ⟨codes, hcodes, htexts⟩ := ih hrest
      refine ⟨code :: codes, ?_, ?_⟩
      · rw [List.mapM_cons, hcode, hcodes]
        rfl
      · rw [List.map_cons, htext, htexts]

/-- The constructors of events and assessments accept such codes and keep those that are
distinct as they are. -/
theorem exists_reasonCodes {texts : List Text} (h : ∀ text ∈ texts, IsPlainCode text) :
    ∃ reasons, ReasonCodes.check texts = .ok reasons ∧ (texts.Nodup → reasons.texts = texts) := by
  obtain ⟨codes, hcodes, rfl⟩ := exists_codes h
  rw [ReasonCodes.check, hcodes]
  refine ⟨_, rfl, ?_⟩
  intro hnodup
  exact congrArg (List.map fun code => code.text) (fromKeys_of_nodup hnodup.of_map)

end

end QuantWorkbench.Intelligence
