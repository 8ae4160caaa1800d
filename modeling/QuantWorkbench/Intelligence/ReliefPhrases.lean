import QuantWorkbench.Intelligence.AnnouncementTitles

/-!
What the relief phrases hide. A withdrawal is taken out of a title from its first word to the
warning it ends with, and with it every other risk that is named in between.
-/

namespace QuantWorkbench.Intelligence

open Lib

def reliefWords : List Text := ["解除冻结".toList, "解除质押".toList, "复牌".toList]

/-- The place behind `before` has a character in common with a relief word of the text. -/
def OverlapsRelief (text before found : Text) : Prop :=
  ∃ word ∈ reliefWords, ∃ before' after, text = before' ++ word ++ after ∧
    before'.length < before.length + found.length ∧ before.length < before'.length + word.length

/-- The pattern matches at a place that overlaps no relief word. -/
def StandsClear (pattern : Pattern) (text : Text) : Prop :=
  ∃ before found after, text = before ++ found ++ after ∧ pattern.Occurs before found ∧
    ¬ OverlapsRelief text before found

/-- What is left of a text when the places of some patterns are taken out, one after another. -/
def Leaves : List Pattern → Text → Text → Prop
  | [], text, left => left = text
  | pattern :: rest, text, left =>
      ∃ middle, Pattern.Removes pattern [] text middle ∧ Leaves rest middle left

theorem leaves_iff {patterns : List Pattern} (h : ∀ pattern ∈ patterns, pattern.TakesShortest)
    {text left : Text} :
    Leaves patterns text left ↔
      left = patterns.foldl (fun text pattern => pattern.remove text) text := by
  induction patterns generalizing text with
  | nil => exact Iff.rfl
  | cons pattern rest ih =>
      obtain ⟨hpattern, hrest⟩ := List.forall_mem_cons.mp h
      unfold Leaves
      simp only [Pattern.removes_iff hpattern, exists_eq_left, List.foldl_cons]
      exact ih hrest

theorem reliefPatterns_shortest : ∀ pattern ∈ RELIEF_PATTERNS, pattern.TakesShortest := by
  unfold RELIEF_PATTERNS
  simp only [List.forall_mem_cons]
  refine ⟨?_, ?_, ?_, ?_, ?_, fun _ h => absurd h List.not_mem_nil⟩
  · exact Pattern.takesShortest_spaced (by decide)
  · exact Pattern.takesShortest_spaced (by decide)
  · exact Pattern.takesShortest_word (by decide)
  · exact Pattern.takesShortest_word (by decide)
  · exact Pattern.takesShortest_word (by decide)

/-- A code of a table without repetitions is found exactly if its pattern matches. -/
theorem mem_foundCodes_iff {table : List (Text × Pattern)} (h : (table.map Prod.fst).Nodup)
    {entry : Text × Pattern} (hentry : entry ∈ table) (text : Text) :
    entry.1 ∈ foundCodes table text ↔ entry.2.Named text := by
  rw [← entry.2.search_iff]
  unfold foundCodes
  constructor
  · intro hcode
    obtain ⟨other, hother, hsame⟩ := List.mem_map.mp hcode
    obtain ⟨hmem, hfound⟩ := List.mem_filter.mp hother
    rwa [List.inj_on_of_nodup_map h hmem hentry hsame] at hfound
  · intro hfound
    exact List.mem_map_of_mem (List.mem_filter.mpr ⟨hentry, hfound⟩)

theorem foundCodes_ne_nil_iff (table : List (Text × Pattern)) (text : Text) :
    foundCodes table text ≠ [] ↔ ∃ entry ∈ table, entry.2.Named text := by
  simp only [foundCodes, ne_eq, List.map_eq_nil_iff, List.filter_eq_nil_iff, not_forall,
    not_not, Pattern.search_iff, exists_prop]

variable [HtmlTable]

/-- A risk that a title names clear of the relief words is among its reasons if it blocks, and
otherwise the title is not clear. -/
structure ReliefHidesNothing (title : Text) : Prop where
  blocks : ∀ entry ∈ BLOCK_PATTERNS, entry.1 ≠ "DELISTING_RISK".toList →
    StandsClear entry.2 (cleanTitle title) →
      (classifyAnnouncementTitle title).1 = .blocked ∧
        entry.1 ∈ (classifyAnnouncementTitle title).2
  reviews : ∀ entry ∈ REVIEW_PATTERNS, entry.1 ≠ "OTHER_RISK_WARNING".toList →
    StandsClear entry.2 (cleanTitle title) → (classifyAnnouncementTitle title).1 ≠ .clear

/-- Such a risk is also named by what is left of the title without the withdrawals and the relief
words; of a risk to review it is enough that any risk is. -/
structure NamedOutside (title : Text) : Prop where
  blocks : ∀ entry ∈ BLOCK_PATTERNS, entry.1 ≠ "DELISTING_RISK".toList →
    StandsClear entry.2 (cleanTitle title) →
      ∀ left, Leaves RELIEF_PATTERNS (cleanTitle title) left → entry.2.Named left
  reviews : ∀ entry ∈ REVIEW_PATTERNS, entry.1 ≠ "OTHER_RISK_WARNING".toList →
    StandsClear entry.2 (cleanTitle title) →
      ∀ left, Leaves RELIEF_PATTERNS (cleanTitle title) left →
        ∃ other ∈ BLOCK_PATTERNS ++ REVIEW_PATTERNS, other.2.Named left

theorem leaves_riskText_iff {title left : Text} :
    Leaves RELIEF_PATTERNS (cleanTitle title) left ↔ left = riskText title :=
  leaves_iff reliefPatterns_shortest

theorem blocked_iff {title : Text} {entry : Text × Pattern} (hentry : entry ∈ BLOCK_PATTERNS) :
    (classifyAnnouncementTitle title).1 = .blocked ∧
        entry.1 ∈ (classifyAnnouncementTitle title).2 ↔ entry.2.Named (riskText title) := by
  have hnodup : (BLOCK_PATTERNS.map Prod.fst).Nodup := by decide
  rw [← mem_foundCodes_iff hnodup hentry]
  unfold classifyAnnouncementTitle
  simp only
  split
  · exact and_iff_right rfl
  · rename_i hnone
    rw [not_not] at hnone
    rw [hnone]
    constructor
    · rintro ⟨hlevel, _⟩
      split at hlevel <;> cases hlevel
    · exact fun h => absurd h List.not_mem_nil

theorem not_clear_iff {title : Text} :
    (classifyAnnouncementTitle title).1 ≠ .clear ↔
      ∃ entry ∈ BLOCK_PATTERNS ++ REVIEW_PATTERNS, entry.2.Named (riskText title) := by
  have hor : (∃ entry ∈ BLOCK_PATTERNS ++ REVIEW_PATTERNS, entry.2.Named (riskText title)) ↔
      foundCodes BLOCK_PATTERNS (riskText title) ≠ [] ∨
        foundCodes REVIEW_PATTERNS (riskText title) ≠ [] := by
    rw [foundCodes_ne_nil_iff, foundCodes_ne_nil_iff]
    simp only [List.mem_append, or_and_right, exists_or]
  rw [hor]
  unfold classifyAnnouncementTitle
  simp only
  split
  · rename_i hblocked
    exact ⟨fun _ => Or.inl hblocked, fun _ h => by cases h⟩
  · rename_i hnone
    split
    · rename_i hreview
      exact ⟨fun _ => Or.inr hreview, fun _ h => by cases h⟩
    · rename_i hclear
      exact ⟨fun h => absurd rfl h, fun h => (h.elim hnone hclear).elim⟩

/-- No risk is hidden exactly if each is named outside the withdrawals. -/
theorem reliefHidesNothing_iff (title : Text) : ReliefHidesNothing title ↔ NamedOutside title := by
  constructor
  · rintro ⟨hblocks, hreviews⟩
    constructor
    · intro entry hentry hcode hclear left hleft
      rw [leaves_riskText_iff.mp hleft]
      exact (blocked_iff hentry).mp (hblocks entry hentry hcode hclear)
    · intro entry hentry hcode hclear left hleft
      rw [leaves_riskText_iff.mp hleft]
      exact not_clear_iff.mp (hreviews entry hentry hcode hclear)
  · rintro ⟨hblocks, hreviews⟩
    have hleft : Leaves RELIEF_PATTERNS (cleanTitle title) (riskText title) :=
      leaves_riskText_iff.mpr rfl
    constructor
    · intro entry hentry hcode hclear
      exact (blocked_iff hentry).mpr (hblocks entry hentry hcode hclear _ hleft)
    · intro entry hentry hcode hclear
      exact not_clear_iff.mpr (hreviews entry hentry hcode hclear _ hleft)

/-! ### A title that withdraws one warning and states two risks -/

section

omit [HtmlTable]

@[reducible] def titleHtml : HtmlTable := ⟨id⟩

def withdrawnTitle : Text := "关于撤销其他风险警示并因立案调查实施退市风险警示的公告".toList

theorem withdrawnTitle_standsClear :
    StandsClear (anyOf [spaced "证监会" (some 12) "立案",
      spaced "中国证券监督管理委员会" (some 12) "立案", phrase "立案调查", phrase "立案告知"])
      withdrawnTitle := by
  refine ⟨"关于撤销其他风险警示并因".toList, "立案调查".toList, "实施退市风险警示的公告".toList,
    by decide, ⟨fun h => h.1 rfl, phrase "立案调查", by decide, ?_⟩, ?_⟩
  · exact ⟨"立案调查".toList, [], (List.append_nil _).symm, rfl, rfl⟩
  · rintro ⟨word, hword, before, after, htext, _⟩
    have hnone : ∀ word ∈ reliefWords, ¬ word <:+: withdrawnTitle := by decide +kernel
    exact hnone word hword ⟨before, after, htext.symm⟩

/-- Between the withdrawal and the other warning lies the investigation. -/
theorem withdrawnTitle_hidden : ¬ @ReliefHidesNothing titleHtml withdrawnTitle := by
  intro h
  have hclean : @cleanTitle titleHtml withdrawnTitle = withdrawnTitle := by decide +kernel
  have hclear : (@classifyAnnouncementTitle titleHtml withdrawnTitle).1 ≠ .blocked := by
    decide +kernel
  refine hclear (@ReliefHidesNothing.blocks titleHtml _ h _
    (List.mem_cons_of_mem _ List.mem_cons_self) (by decide) ?_).1
  rw [hclean]
  exact withdrawnTitle_standsClear

end

end QuantWorkbench.Intelligence
