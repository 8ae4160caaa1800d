import QuantWorkbench.Lib.Fields
import QuantWorkbench.Runtime.HistoricalBackfill

/-!
The research history of a market data service: unadjusted bars, and for each session the return
between its adjusted close and that of the session before it in the same response.
-/

namespace QuantWorkbench.Runtime

open Lib

/-- One row of a raw response. -/
structure RawSession (Bar : Type) where
  date : ℕ
  /-- The status cells as `_status_text` gives them. -/
  tradeStatus : Text
  isSt : Text
  /-- The columns of the daily bar, if they are valid. -/
  bar : Option Bar
  /-- `pd.to_numeric` of the close. -/
  close : Option ℚ
  deriving DecidableEq

/-- What a research history has beside dates and states. -/
structure ResearchCells (Bar : Type) where
  bar : Bar
  researchReturn : Option ℚ
  deriving DecidableEq

variable {Bar : Type}

/-- Of the rows of one date only the last stays. -/
def keepLast : List (RawSession Bar × Bar) → List (RawSession Bar × Bar)
  | [] => []
  | row :: rest =>
      if ∃ later ∈ rest, later.1.date = row.1.date then keepLast rest else row :: keepLast rest

def normalizeDailyBars (raw : List (RawSession Bar)) : Option (List (RawSession Bar × Bar)) := do
  let rows ← raw.mapM fun session => session.bar.map fun bar => (session, bar)
  return (keepLast rows).insertionSort (·.1.date ≤ ·.1.date)

/-- `shift(1)`: each row with the close of the row before it. -/
def withPrevious (previous : Option ℚ) : List (RawSession Bar) →
    List (RawSession Bar × Option ℚ)
  | [] => []
  | session :: rest => (session, previous) :: withPrevious session.close rest

def onlyRow? {α : Type} (date : α → ℕ) (rows : List α) (day : ℕ) : Option α :=
  match rows.filter fun row => date row = day with
  | [row] => some row
  | _ => none

def isSpecial (session : RawSession Bar) : Bool := session.isSt = ['1']

def sameState (left right : RawSession Bar) : Bool :=
  left.tradeStatus = right.tradeStatus && isSpecial left = isSpecial right

def validState (session : RawSession Bar) : Bool :=
  session.tradeStatus ∈ [['0'], ['1']] && session.isSt ∈ [['0'], ['1']]

/-- A close that is a number and not `<= 0`. -/
def positive? (close : Option ℚ) : Option ℚ := close.filter (0 < ·)

/-- The return of a row, or why it has none. -/
def researchReturn (close previous : Option ℚ) : Except Text ℚ :=
  match positive? close, positive? previous with
  | none, _ => .error "non-numeric adjusted close".toList
  | some _, none => .error "missing previous adjusted close".toList
  | some close, some previous => .ok (close / previous - 1)

def flagText (flag : Bool) : Text := if flag then "True".toList else "False".toList

/-- What the other frames say about a row of the execution frame. -/
structure RowContext (Bar : Type) where
  /-- The reasons that every row of the frame has. -/
  shared : List Text
  axisComplete : Bool
  adjusted : Option (RawSession Bar × Option ℚ)
  status : Option (RawSession Bar)

namespace RowContext

variable (context : RowContext Bar) (session : RawSession Bar)

/-- The reasons not to use the row, in their order. -/
def reasons : List Text :=
  context.shared ++
    match context.adjusted with
    | none => ["missing research date".toList]
    | some (adjusted, previous) =>
        (if sameState session adjusted then [] else ["status conflict".toList]) ++
          (if validState adjusted then [] else ["invalid history status".toList]) ++
          (match researchReturn adjusted.close previous with
            | .error reason => [reason]
            | .ok _ => []) ++
          (if context.status.all validState then [] else ["invalid history status".toList])

/-- Whether the states of the row leave it tradable. -/
def statesAgree : Bool :=
  context.adjusted.all fun adjusted =>
    sameState session adjusted.1 && validState adjusted.1 && context.status.all validState

def returned : Option ℚ :=
  if context.axisComplete then
    context.adjusted.bind fun adjusted => (researchReturn adjusted.1.close adjusted.2).toOption
  else none

def row (symbol : String) (bar : Bar) : HistoryRow (ResearchCells Bar) where
  symbol := symbol
  date := session.date
  tradeStatus := some session.tradeStatus
  isSt := some (flagText (isSpecial session))
  tradable := some (flagText
    (session.tradeStatus = ['1'] && !isSpecial session && context.statesAgree session))
  researchUsable := context.reasons session = []
  unusableReason := "; ".toList.intercalate (fromKeys (context.reasons session))
  cells := ⟨bar, context.returned⟩

end RowContext

def dates (raw : List (RawSession Bar)) : List ℕ := raw.map (·.date)

def axisComplete (execution adjusted : List (RawSession Bar)) : Bool :=
  (dates adjusted).Nodup && (dates adjusted).all (· ∈ dates execution) &&
    (dates execution).all (· ∈ dates adjusted)

def sharedReasons (execution adjusted : List (RawSession Bar)) : List Text :=
  (if (dates execution).Nodup then [] else ["duplicate execution date".toList]) ++
    (if (dates adjusted).Nodup then [] else ["duplicate research date".toList]) ++
    (if axisComplete execution adjusted then [] else ["research date axis mismatch".toList])

/-- What the frames say about the row of a date. -/
def rowContext (execution adjusted : List (RawSession Bar)) (day : ℕ) : RowContext Bar where
  shared := sharedReasons execution adjusted
  axisComplete := axisComplete execution adjusted
  adjusted := onlyRow? (·.1.date)
    (withPrevious none (adjusted.insertionSort (·.date ≤ ·.date))) day
  status := onlyRow? (·.date) execution day

/-- The frame that `get_research_history` makes of the two responses. -/
def researchFrame (symbol : String) (execution adjusted : List (RawSession Bar)) :
    Except ProviderFailure (HistoryFrame (ResearchCells Bar)) :=
  match normalizeDailyBars execution with
  | none => .error (.permanent "BaoStock response validation failed: research history")
  | some rows => .ok (rows.map fun (session, bar) =>
      (rowContext execution adjusted session.date).row session symbol bar)

/-- What the service answers for a symbol and a range, unadjusted and adjusted. -/
structure HistoryService (Bar : Type) where
  unadjusted : String → ℕ → ℕ → Except ProviderFailure (List (RawSession Bar))
  forwardAdjusted : String → ℕ → ℕ → Except ProviderFailure (List (RawSession Bar))

def HistoryService.getResearchHistory (service : HistoryService Bar) (symbol : String)
    (startDay endDay : ℕ) : Except ProviderFailure (HistoryFrame (ResearchCells Bar)) := do
  if endDay < startDay then
    throw (.permanent "invalid BaoStock history date range")
  let execution ← service.unadjusted symbol startDay endDay
  let adjusted ← service.forwardAdjusted symbol startDay endDay
  researchFrame symbol execution adjusted

/-! ### Consistent responses -/

/-- The row of a session where both responses have it, behind a session with a given close. -/
def sessionRow (symbol : String) (session : RawSession Bar) (bar : Bar) (previous : Option ℚ) :
    HistoryRow (ResearchCells Bar) :=
  RowContext.row ⟨[], true, some (session, previous), some session⟩ session symbol bar

/-- The rows of sessions in their order, the first one behind a given close. -/
def sessionRows (symbol : String) (previous : Option ℚ) :
    List (RawSession Bar × Bar) → HistoryFrame (ResearchCells Bar)
  | [] => []
  | (session, bar) :: rest =>
      sessionRow symbol session bar previous :: sessionRows symbol session.close rest

def withBars (raw : List (RawSession Bar)) : Option (List (RawSession Bar × Bar)) :=
  raw.mapM fun session => session.bar.map fun bar => (session, bar)

/-- The sessions are in the order of their dates, one for each date. -/
def Ascending (raw : List (RawSession Bar)) : Prop := raw.Pairwise fun a b => a.date < b.date

theorem Ascending.nodup {raw : List (RawSession Bar)} (h : Ascending raw) : (dates raw).Nodup :=
  List.pairwise_map.mpr (h.imp ne_of_lt)

theorem map_fst_of_withBars {raw : List (RawSession Bar)} {rows : List (RawSession Bar × Bar)}
    (h : withBars raw = some rows) : rows.map Prod.fst = raw := by
  induction raw generalizing rows with
  | nil =>
      cases h
      rfl
  | cons session rest ih =>
      simp only [withBars, List.mapM_cons, Option.bind_eq_bind, Option.bind_eq_some_iff,
        Option.pure_def, Option.some.injEq] at h
      obtain ⟨first, hfirst, others, hothers, rfl⟩ := h
      obtain ⟨_, _, rfl⟩ := Option.map_eq_some_iff.mp hfirst
      rw [List.map_cons, ih hothers]

theorem keepLast_of_distinct {rows : List (RawSession Bar × Bar)}
    (h : (rows.map fun row => row.1.date).Nodup) : keepLast rows = rows := by
  induction rows with
  | nil => rfl
  | cons row rest ih =>
      rw [List.map_cons, List.nodup_cons] at h
      rw [keepLast, if_neg, ih h.2]
      rintro ⟨later, hlater, hsame⟩
      exact h.1 (List.mem_map.mpr ⟨later, hlater, hsame⟩)

theorem normalizeDailyBars_of_ascending {raw : List (RawSession Bar)} (h : Ascending raw) :
    normalizeDailyBars raw = withBars raw := by
  change (withBars raw).bind _ = withBars raw
  cases hrows : withBars raw with
  | none => rfl
  | some rows =>
      have hfst := map_fst_of_withBars hrows
      have hdates : rows.map (fun row => row.1.date) = dates raw := by
        rw [← hfst, dates, List.map_map]
        rfl
      have hsorted : rows.Pairwise fun row other => row.1.date ≤ other.1.date := by
        have hordered : (rows.map Prod.fst).Pairwise fun a b => a.date < b.date := hfst ▸ h
        exact (List.pairwise_map.mp hordered).imp le_of_lt
      rw [Option.bind_some, keepLast_of_distinct (hdates ▸ h.nodup)]
      exact congrArg some (List.Pairwise.insertionSort_eq hsorted)

theorem onlyRow?_of_mem {α : Type} {date : α → ℕ} {rows : List α} (h : (rows.map date).Nodup)
    {row : α} (hrow : row ∈ rows) : onlyRow? date rows (date row) = some row := by
  have honly : rows.filter (fun other => date other = date row) = [row] := by
    induction rows with
    | nil => cases hrow
    | cons first rest ih =>
        rw [List.map_cons, List.nodup_cons] at h
        rcases List.mem_cons.mp hrow with rfl | hrest
        · rw [List.filter_cons_of_pos (by simp), List.filter_eq_nil_iff.mpr]
          intro other hother
          have hne : date other ≠ date row := fun heq =>
            h.1 (List.mem_map.mpr ⟨other, hother, heq⟩)
          simpa using hne
        · have hne : date first ≠ date row := fun heq =>
            h.1 (heq ▸ List.mem_map_of_mem hrest)
          rw [List.filter_cons_of_neg (by simpa using hne), ih h.2 hrest]
  rw [onlyRow?, honly]

theorem map_fst_withPrevious (previous : Option ℚ) (raw : List (RawSession Bar)) :
    (withPrevious previous raw).map Prod.fst = raw := by
  induction raw generalizing previous with
  | nil => rfl
  | cons session rest ih => rw [withPrevious, List.map_cons, ih]

/-- The close behind which a list of sessions is continued. -/
def lastClose (previous : Option ℚ) : List (RawSession Bar) → Option ℚ
  | [] => previous
  | session :: rest => lastClose session.close rest

theorem mem_withPrevious (previous : Option ℚ) (before : List (RawSession Bar))
    (session : RawSession Bar) (after : List (RawSession Bar)) :
    (session, lastClose previous before) ∈ withPrevious previous (before ++ session :: after) := by
  induction before generalizing previous with
  | nil => exact List.mem_cons_self
  | cons first rest ih => exact List.mem_cons_of_mem _ (ih first.close)

theorem lastClose_append (previous : Option ℚ) (before : List (RawSession Bar))
    (session : RawSession Bar) : lastClose previous (before ++ [session]) = session.close := by
  induction before generalizing previous with
  | nil => rfl
  | cons first rest ih => exact ih first.close

theorem axisComplete_self {raw : List (RawSession Bar)} (h : (dates raw).Nodup) :
    axisComplete raw raw = true := by
  simp [axisComplete, h]

theorem rowContext_self {raw before after : List (RawSession Bar)} {session : RawSession Bar}
    (h : Ascending raw) (hsplit : raw = before ++ session :: after) :
    rowContext raw raw session.date =
      ⟨[], true, some (session, lastClose none before), some session⟩ := by
  have hsorted : raw.insertionSort (fun a b => a.date ≤ b.date) = raw :=
    List.Pairwise.insertionSort_eq (h.imp le_of_lt)
  have hprevious : ((withPrevious none raw).map fun row => row.1.date).Nodup := by
    have hdates : (withPrevious none raw).map (fun row => row.1.date) = dates raw := by
      conv_rhs => rw [← map_fst_withPrevious none raw]
      rw [dates, List.map_map]
      rfl
    exact hdates ▸ h.nodup
  have hmem : (session, lastClose none before) ∈ withPrevious none raw :=
    hsplit ▸ mem_withPrevious none before session after
  have hsession : session ∈ raw := hsplit ▸ List.mem_append_right before List.mem_cons_self
  have hadjusted := onlyRow?_of_mem hprevious hmem
  have hstatus := onlyRow?_of_mem h.nodup hsession
  rw [rowContext, sharedReasons, axisComplete_self h.nodup, if_pos h.nodup, if_pos h.nodup,
    if_pos rfl, hsorted, hadjusted, hstatus]
  rfl

/-- Where both responses have the same sessions, each row has the return behind the session
before it, and none of the other reasons. -/
theorem researchFrame_self {raw : List (RawSession Bar)} (h : Ascending raw) (symbol : String) :
    researchFrame symbol raw raw =
      match withBars raw with
      | none => .error (.permanent "BaoStock response validation failed: research history")
      | some rows => .ok (sessionRows symbol none rows) := by
  rw [researchFrame, normalizeDailyBars_of_ascending h]
  cases hrows : withBars raw with
  | none => rfl
  | some rows =>
      have hfst := map_fst_of_withBars hrows
      have hrest : ∀ (before : List (RawSession Bar)) (rest : List (RawSession Bar × Bar)),
          raw = before ++ rest.map Prod.fst →
          rest.map (fun row => (rowContext raw raw row.1.date).row row.1 symbol row.2) =
            sessionRows symbol (lastClose none before) rest := by
        intro before rest
        induction rest generalizing before with
        | nil => exact fun _ => rfl
        | cons row later ih =>
            intro hsplit
            have hnext := ih (before ++ [row.1]) (by rw [hsplit]; simp)
            rw [lastClose_append] at hnext
            rw [List.map_cons, hnext, rowContext_self h hsplit]
            rfl
      exact congrArg Except.ok (hrest [] rows hfst.symm)

end QuantWorkbench.Runtime
