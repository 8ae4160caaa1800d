import QuantWorkbench.Lib.Columns
import QuantWorkbench.Lib.Fallible

/-!
The frames of the historical screen that are derived from a verified return artifact: lagged
features of the closes of a symbol, and labels of the closes five sessions later.
-/

namespace QuantWorkbench.Runtime

open Lib

/-! ### Frames -/

/-- A row of a return artifact. -/
structure ReturnRow (F : Type) where
  date : DateCell
  close : Option F
  researchUsable : Bool
  researchReturn : Option F

structure ReturnFrame (F : Type) where
  columns : List String
  rows : List (ReturnRow F)

/-- A usable row. -/
structure Session (F : Type) where
  date : Date
  close : F
  deriving DecidableEq

structure ScreenFeature (F : Type) where
  symbol : Text
  date : Date
  close : F
  momentum5 : F
  momentum20 : F
  volatility20 : F
  availableAt : Date
  deriving DecidableEq

structure ScreenLabel (F : Type) where
  symbol : Text
  date : Date
  forwardReturn5 : F
  maturityDate : Date
  deriving DecidableEq

variable {F : Type} [Field F] [LinearOrder F]

def ReturnRow.session? (row : ReturnRow F) : Option (Session F) := do
  let date ← row.date.day?
  let close ← row.close
  if row.researchUsable = true ∧ 0 < close then some ⟨date, close⟩ else none

/-- The usable sessions in the order of their dates. -/
def workingSessions (rows : List (ReturnRow F)) : List (Session F) :=
  sortValues Session.date (rows.filterMap ReturnRow.session?)

def sessionLabel (symbol : Text) : List (Session F) → Option (ScreenLabel F)
  | now :: later =>
      ((now :: later)[5]?).map fun outcome => {
        symbol
        date := now.date
        forwardReturn5 := outcome.close / now.close - 1
        maturityDate := outcome.date }
  | [] => none

def screenLabels (symbol : Text) (working : List (Session F)) : List (ScreenLabel F) :=
  (lookAhead (sessionLabel symbol) working).filterMap id

variable [SquareRoot F]

/-- The momentum over five and twenty sessions and the volatility, each lagged by one session. -/
def featureColumns (closes : List F) : List (Option F × Option F × Option F) :=
  let daily := column (pctChange 1) closes
  (column (shifted 1) (column (rolling 5 List.sum) daily)).zip
    ((column (shifted 1) (column (rolling 20 List.sum) daily)).zip
      (column (shifted 1) (column (rolling 20 (std 1)) daily)))

def sessionFeature (symbol : Text) (session : Session F)
    (columns : Option F × Option F × Option F) : Option (ScreenFeature F) := do
  let momentum5 ← columns.1
  let momentum20 ← columns.2.1
  let volatility20 ← columns.2.2
  return {
    symbol
    date := session.date
    close := session.close
    momentum5
    momentum20
    volatility20
    availableAt := session.date }

def screenFeatures (symbol : Text) (working : List (Session F)) : List (ScreenFeature F) :=
  (working.zip (featureColumns (working.map Session.close))).filterMap fun row =>
    sessionFeature symbol row.1 row.2

def derivedScreenFrames (frame : ReturnFrame F) (symbol : Text) :
    Except String (List (ScreenFeature F) × List (ScreenLabel F)) := do
  require (∀ name ∈ ["date", "close", "research_usable"], name ∈ frame.columns)
    "verified return schema is incomplete"
  let working := workingSessions frame.rows
  require (working ≠ [] ∧ (working.map Session.date).Nodup) "verified return sessions are invalid"
  let symbol := zfill 6 symbol
  return (screenFeatures symbol working, screenLabels symbol working)

end QuantWorkbench.Runtime

/-!
What the derived frames make of corporate actions and of later rows. A price jump enters them
exactly if it lies between the usable sessions of an artifact that has at least six of them, and
rows after a session never change its features.
-/

namespace QuantWorkbench.Runtime

open Lib

variable {F : Type} [Field F]

/-! ### Adjusted artifacts -/

/-- The row with its raw close multiplied from a date on. -/
def ReturnRow.adjusted (exDate : Date) (factor : F) (row : ReturnRow F) : ReturnRow F :=
  if row.date.day?.any fun day => exDate ≤ day then
    { row with close := row.close.map fun close => factor * close }
  else row

def ReturnFrame.adjusted (exDate : Date) (factor : F) (frame : ReturnFrame F) : ReturnFrame F :=
  { frame with rows := frame.rows.map (ReturnRow.adjusted exDate factor) }

def Session.adjusted (exDate : Date) (factor : F) (session : Session F) : Session F :=
  if exDate ≤ session.date then { session with close := factor * session.close } else session

@[simp] theorem Session.date_adjusted (exDate : Date) (factor : F) (session : Session F) :
    (session.adjusted exDate factor).date = session.date := by
  unfold Session.adjusted
  split <;> rfl

theorem session?_adjusted [LinearOrder F] [IsStrictOrderedRing F] {exDate : Date} {factor : F}
    (hfactor : 0 < factor) (row : ReturnRow F) :
    (row.adjusted exDate factor).session? =
      row.session?.map (Session.adjusted exDate factor) := by
  obtain ⟨date, close, usable, researchReturn⟩ := row
  cases hday : date.day? with
  | none => simp [ReturnRow.adjusted, ReturnRow.session?, hday]
  | some day =>
      cases close with
      | none =>
          by_cases hlater : exDate ≤ day <;>
            simp [ReturnRow.adjusted, ReturnRow.session?, hday, hlater]
      | some close =>
          have hpositive : 0 < factor * close ↔ 0 < close := mul_pos_iff_of_pos_left hfactor
          by_cases hlater : exDate ≤ day
          · by_cases hclose : usable = true ∧ 0 < close
            · simp [ReturnRow.adjusted, ReturnRow.session?, hday, hlater, hclose, hpositive,
                Session.adjusted]
            · simp [ReturnRow.adjusted, ReturnRow.session?, hday, hlater, hclose, hpositive]
          · by_cases hclose : usable = true ∧ 0 < close
            · simp [ReturnRow.adjusted, ReturnRow.session?, hday, hlater, hclose, Session.adjusted]
            · simp [ReturnRow.adjusted, ReturnRow.session?, hday, hlater, hclose]

theorem workingSessions_adjusted [LinearOrder F] [IsStrictOrderedRing F] {exDate : Date}
    {factor : F} (hfactor : 0 < factor) (rows : List (ReturnRow F)) :
    workingSessions (rows.map (ReturnRow.adjusted exDate factor)) =
      (workingSessions rows).map (Session.adjusted exDate factor) := by
  have hsessions : (rows.map (ReturnRow.adjusted exDate factor)).filterMap ReturnRow.session? =
      (rows.filterMap ReturnRow.session?).map (Session.adjusted exDate factor) := by
    rw [List.filterMap_map, List.map_filterMap]
    refine List.filterMap_congr fun row _ => ?_
    exact session?_adjusted hfactor row
  rw [workingSessions, hsessions, sortValues_map]
  simp only [Session.date_adjusted]
  rfl

theorem close_pos [LinearOrder F] {rows : List (ReturnRow F)} {session : Session F}
    (h : session ∈ workingSessions rows) : 0 < session.close := by
  obtain ⟨row, _, hsession⟩ := List.mem_filterMap.mp (mem_sortValues.mp h)
  obtain ⟨day, _, hsession⟩ := Option.bind_eq_some_iff.mp hsession
  obtain ⟨close, _, hsession⟩ := Option.bind_eq_some_iff.mp hsession
  split at hsession
  · rename_i hpositive
    cases hsession
    exact hpositive.2
  · cases hsession

/-! ### Frames of adjusted sessions -/

section

variable [SquareRoot F]

/-- What a feature says apart from the raw close, which the evaluation needs. -/
def ScreenFeature.signals (feature : ScreenFeature F) : Text × Date × F × F × F × Date :=
  (feature.symbol, feature.date, feature.momentum5, feature.momentum20, feature.volatility20,
    feature.availableAt)

theorem featureColumns_scaled {factor : F} (h : factor ≠ 0) (closes : List F) :
    featureColumns (closes.map fun close => factor * close) = featureColumns closes := by
  have hdaily : column (pctChange 1) (closes.map fun close => factor * close) =
      column (pctChange 1) closes := by
    rw [column_map]
    simp only [pctChange_scaled 1 h]
  rw [featureColumns, featureColumns, hdaily]

theorem signals_congr (symbol : Text) {working others : List (Session F)}
    (hdates : working.map Session.date = others.map Session.date)
    (hcolumns : featureColumns (working.map Session.close) =
      featureColumns (others.map Session.close)) :
    (screenFeatures symbol working).map ScreenFeature.signals =
      (screenFeatures symbol others).map ScreenFeature.signals := by
  have hsignals : ∀ (sessions : List (Session F))
      (columns : List (Option F × Option F × Option F)),
      ((sessions.zip columns).filterMap fun row => sessionFeature symbol row.1 row.2).map
          ScreenFeature.signals =
        ((sessions.map Session.date).zip columns).filterMap fun row =>
          (sessionFeature symbol ⟨row.1, 0⟩ row.2).map ScreenFeature.signals := by
    intro sessions columns
    rw [List.map_filterMap, List.zip_map_left, List.filterMap_map]
    refine List.filterMap_congr fun row _ => ?_
    obtain ⟨session, momentum5, momentum20, volatility20⟩ := row
    cases momentum5 <;> cases momentum20 <;> cases volatility20 <;> rfl
  rw [screenFeatures, screenFeatures, hsignals, hsignals, hdates, hcolumns]

end

theorem sessionLabel_scaled (symbol : Text) {factor : F} (h : factor ≠ 0)
    (sessions : List (Session F)) :
    sessionLabel symbol (sessions.map fun session =>
        { session with close := factor * session.close }) = sessionLabel symbol sessions := by
  cases sessions with
  | nil => rfl
  | cons now later =>
      simp only [List.map_cons, sessionLabel, List.getElem?_cons_succ, List.getElem?_map,
        Option.map_map]
      congr 1
      funext outcome
      simp only [Function.comp_apply, mul_div_mul_left _ _ h]

/-- What a run of the derivation shows, apart from the raw closes. -/
def shown (frames : List (ScreenFeature F) × List (ScreenLabel F)) :
    List (Text × Date × F × F × F × Date) × List (ScreenLabel F) :=
  (frames.1.map ScreenFeature.signals, frames.2)

theorem dates_adjusted (exDate : Date) (factor : F) (sessions : List (Session F)) :
    (sessions.map (Session.adjusted exDate factor)).map Session.date =
      sessions.map Session.date := by
  rw [List.map_map]
  exact List.map_congr_left fun session _ => Session.date_adjusted exDate factor session

theorem mem_screenLabels {symbol : Text} {sessions : List (Session F)} {label : ScreenLabel F} :
    label ∈ screenLabels symbol sessions ↔
      ∃ i now outcome, sessions[i]? = some now ∧ sessions[i + 5]? = some outcome ∧
        label = ⟨symbol, now.date, outcome.close / now.close - 1, outcome.date⟩ := by
  have hentry : ∀ i, sessionLabel symbol (sessions.drop i) = some label ↔
      ∃ now outcome, sessions[i]? = some now ∧ sessions[i + 5]? = some outcome ∧
        label = ⟨symbol, now.date, outcome.close / now.close - 1, outcome.date⟩ := by
    intro i
    have hnow : (sessions.drop i)[0]? = sessions[i]? := by rw [List.getElem?_drop, Nat.add_zero]
    have hlater : (sessions.drop i)[5]? = sessions[i + 5]? := List.getElem?_drop
    rw [← hnow, ← hlater]
    cases sessions.drop i with
    | nil => simp [sessionLabel]
    | cons now later =>
        cases houtcome : (now :: later)[5]? with
        | none => simp [sessionLabel, houtcome]
        | some outcome =>
            rw [sessionLabel, houtcome]
            simp [eq_comm]
  rw [screenLabels, List.mem_filterMap]
  constructor
  · rintro ⟨cell, hcell, hlabel⟩
    obtain ⟨i, _, rfl⟩ := mem_lookAhead.mp hcell
    exact ⟨i, (hentry i).mp hlabel⟩
  · intro hlabel
    obtain ⟨i, now, outcome, hnow, hoff⟩ := hlabel
    have hlt : i < sessions.length := (List.getElem?_eq_some_iff.mp hnow).1
    have hcell := (hentry i).mpr ⟨now, outcome, hnow, hoff⟩
    exact ⟨some label, mem_lookAhead.mpr ⟨i, hlt, hcell⟩, rfl⟩

/-- Fewer than six sessions have no features and no labels. -/
theorem screenLabels_eq_nil (symbol : Text) {sessions : List (Session F)}
    (h : sessions.length < 6) : screenLabels symbol sessions = [] := by
  rw [List.eq_nil_iff_forall_not_mem]
  intro label hlabel
  obtain ⟨i, _, _, _, houtcome, _⟩ := mem_screenLabels.mp hlabel
  have hlt : i + 5 < sessions.length := (List.getElem?_eq_some_iff.mp houtcome).1
  omega

section

variable [SquareRoot F]

/-- Sessions on one side of the date are all kept or all scaled. -/
theorem shown_of_oneSide [LinearOrder F] [IsStrictOrderedRing F] (symbol : Text) {exDate : Date}
    {factor : F} (hfactor : 0 < factor) {sessions : List (Session F)}
    (h : factor = 1 ∨ (∀ session ∈ sessions, session.date < exDate) ∨
      ∀ session ∈ sessions, exDate ≤ session.date) :
    shown (screenFeatures symbol (sessions.map (Session.adjusted exDate factor)),
        screenLabels symbol (sessions.map (Session.adjusted exDate factor))) =
      shown (screenFeatures symbol sessions, screenLabels symbol sessions) := by
  have hunchanged : (∀ session ∈ sessions, session.adjusted exDate factor = session) →
      sessions.map (Session.adjusted exDate factor) = sessions := by
    intro hsame
    rw [List.map_congr_left hsame, List.map_id']
  rcases h with rfl | hbefore | hfrom
  · rw [hunchanged]
    intro session _
    unfold Session.adjusted
    split <;> simp
  · rw [hunchanged]
    intro session hsession
    exact if_neg (hbefore session hsession).not_ge
  · have hscaled : sessions.map (Session.adjusted exDate factor) =
        sessions.map fun session => { session with close := factor * session.close } :=
      List.map_congr_left fun session hsession => if_pos (hfrom session hsession)
    have hcloses : (sessions.map fun session : Session F =>
          { session with close := factor * session.close }).map Session.close =
        (sessions.map Session.close).map fun close => factor * close := by
      rw [List.map_map, List.map_map]
      rfl
    have hdates := dates_adjusted exDate factor sessions
    rw [hscaled] at hdates ⊢
    rw [shown, shown, signals_congr symbol hdates (by rw [hcloses, featureColumns_scaled
      hfactor.ne']), screenLabels, screenLabels, lookAhead_map]
    simp only [sessionLabel_scaled symbol hfactor.ne']

theorem screenFeatures_eq_nil (symbol : Text) {sessions : List (Session F)}
    (h : sessions.length < 6) : screenFeatures symbol sessions = [] := by
  rw [screenFeatures, List.filterMap_eq_nil_iff]
  rintro ⟨session, momentum5, columns⟩ hrow
  have hcolumns := (List.of_mem_zip hrow).2
  obtain ⟨_, hlater⟩ := List.of_mem_zip hcolumns
  obtain ⟨hmomentum, _⟩ := List.of_mem_zip hlater
  -- the window of twenty changes is never full
  have hmissing : columns.1 = none := by
    cases hvalue : columns.1 with
    | none => rfl
    | some value =>
        exfalso
        rw [hvalue] at hmomentum
        obtain ⟨seen, hseen, hentry⟩ := exists_of_mem_column hmomentum
        have hcell := mem_of_shifted hentry
        obtain ⟨window, hwindow, hrolling⟩ :=
          exists_of_mem_column (List.mem_reverse.mp (hseen.subset hcell))
        have hfull := size_le_of_rolling hrolling
        have hbound := hwindow.length_le
        rw [List.length_reverse, length_column, List.length_map] at hbound
        omega
  cases momentum5 with
  | none => rfl
  | some momentum5 =>
      change (columns.1).bind _ = none
      rw [hmissing]
      rfl

end

/-! ### A jump between the sessions -/

section

variable {exDate : Date} {factor : F}

omit [Field F] in
/-- Of six sessions around a date, two that are five sessions apart lie on its two sides. -/
theorem exists_across {sessions : List (Session F)} (hsorted : Increasing Session.date sessions)
    (hlong : 6 ≤ sessions.length) {early late : Session F} (hearly : early ∈ sessions)
    (hbefore : early.date < exDate) (hlate : late ∈ sessions) (hfrom : exDate ≤ late.date) :
    ∃ i now outcome, sessions[i]? = some now ∧ sessions[i + 5]? = some outcome ∧
      now.date < exDate ∧ exDate ≤ outcome.date := by
  have hmono : ∀ {i j : ℕ} {a b : Session F}, sessions[i]? = some a → sessions[j]? = some b →
      i ≤ j → a.date ≤ b.date := by
    intro i j a b ha hb hij
    obtain ⟨hi, rfl⟩ := List.getElem?_eq_some_iff.mp ha
    obtain ⟨hj, rfl⟩ := List.getElem?_eq_some_iff.mp hb
    rcases hij.lt_or_eq with hlt | rfl
    · exact (List.pairwise_iff_getElem.mp hsorted i j hi hj hlt).le
    · exact le_rfl
  obtain ⟨first, hfirst⟩ := List.getElem?_of_mem hearly
  obtain ⟨last, hlast⟩ := List.getElem?_of_mem hlate
  -- the first session from the date on
  have hexists : ∃ j, ∃ b : Session F, sessions[j]? = some b ∧ exDate ≤ b.date :=
    ⟨last, late, hlast, hfrom⟩
  classical
  obtain ⟨b, hb, hbdate⟩ := Nat.find_spec hexists
  have hearlier : ∀ {i : ℕ} {a : Session F}, i < Nat.find hexists → sessions[i]? = some a →
      a.date < exDate := by
    intro i a hi ha
    by_contra hnot
    exact Nat.find_min hexists hi ⟨a, ha, not_lt.mp hnot⟩
  have hpos : 0 < Nat.find hexists := by
    by_contra hzero
    have hle : b.date ≤ early.date := hmono hb hfirst (by omega)
    exact absurd (hbdate.trans hle) hbefore.not_ge
  have hbound : Nat.find hexists < sessions.length := (List.getElem?_eq_some_iff.mp hb).1
  generalize Nat.find hexists = edge at hb hearlier hpos hbound
  have hnow := List.getElem?_eq_getElem (l := sessions) (i := edge - 5) (by omega)
  have houtcome := List.getElem?_eq_getElem (l := sessions) (i := edge - 5 + 5) (by omega)
  refine ⟨edge - 5, _, _, hnow, houtcome, hearlier (by omega) hnow, ?_⟩
  exact hbdate.trans (hmono hb houtcome (by omega))

theorem oneSide_of_labels [LinearOrder F] [IsStrictOrderedRing F] {symbol : Text}
    {sessions : List (Session F)} (hsorted : Increasing Session.date sessions)
    (hclose : ∀ session ∈ sessions, 0 < session.close) (hlong : 6 ≤ sessions.length)
    (h : screenLabels symbol (sessions.map (Session.adjusted exDate factor)) =
      screenLabels symbol sessions) :
    factor = 1 ∨ (∀ session ∈ sessions, session.date < exDate) ∨
      ∀ session ∈ sessions, exDate ≤ session.date := by
  by_contra hsides
  push Not at hsides
  obtain ⟨hfactor, ⟨late, hlate, hfrom⟩, early, hearly, hbefore⟩ := hsides
  obtain ⟨i, now, outcome, hnow, houtcome, hnowDate, houtcomeDate⟩ :=
    exists_across hsorted hlong hearly hbefore hlate hfrom
  have hkept : now.adjusted exDate factor = now := if_neg hnowDate.not_ge
  have hscaled : outcome.adjusted exDate factor =
      { outcome with close := factor * outcome.close } := if_pos houtcomeDate
  have hadjusted : (⟨symbol, now.date, factor * outcome.close / now.close - 1, outcome.date⟩ :
      ScreenLabel F) ∈ screenLabels symbol (sessions.map (Session.adjusted exDate factor)) := by
    refine mem_screenLabels.mpr
      ⟨i, now, { outcome with close := factor * outcome.close }, ?_, ?_, rfl⟩
    · rw [List.getElem?_map, hnow, Option.map_some, hkept]
    · rw [List.getElem?_map, houtcome, Option.map_some, hscaled]
  rw [h] at hadjusted
  obtain ⟨j, same, outcome', hsame, houtcome', hlabel⟩ := mem_screenLabels.mp hadjusted
  obtain ⟨_, hdate, hreturn, _⟩ := (ScreenLabel.mk.injEq ..).mp hlabel
  -- dates are distinct, so the label is the one of the same session
  have hindex : i = j := by
    have hdates : (sessions.map Session.date)[i]? = (sessions.map Session.date)[j]? := by
      rw [List.getElem?_map, List.getElem?_map, hnow, hsame, Option.map_some, Option.map_some,
        hdate]
    have hlt : i < (sessions.map Session.date).length := by
      rw [List.length_map]
      exact (List.getElem?_eq_some_iff.mp hnow).1
    exact (List.getElem?_inj hlt hsorted.nodup).mp hdates
  subst hindex
  obtain rfl : now = same := Option.some.inj (hnow.symm.trans hsame)
  obtain rfl : outcome = outcome' := Option.some.inj (houtcome.symm.trans houtcome')
  have hnowPos := hclose now (List.mem_of_getElem? hnow)
  have houtcomePos := hclose outcome (List.mem_of_getElem? houtcome)
  have hratio : factor * outcome.close / now.close = outcome.close / now.close :=
    sub_left_injective hreturn
  have hequal := (div_left_inj' hnowPos.ne').mp hratio
  exact hfactor ((mul_eq_right₀ houtcomePos.ne').mp hequal)

end

/-! ### Rows after a session -/

section

variable [LinearOrder F]

def ReturnRow.datedBy (day : Date) (row : ReturnRow F) : Bool := row.date.day?.any (· ≤ day)

theorem workingSessions_upTo (day : Date) (rows : List (ReturnRow F)) :
    (workingSessions rows).filter (fun session => session.date ≤ day) =
      workingSessions (rows.filter (ReturnRow.datedBy day)) := by
  rw [workingSessions, workingSessions, filter_sortValues, filter_filterMap]
  have hrows : (rows.filter fun row => row.session?.any fun session => session.date ≤ day).filterMap
      ReturnRow.session? = (rows.filter (ReturnRow.datedBy day)).filterMap ReturnRow.session? := by
    rw [List.filterMap_filter, List.filterMap_filter]
    refine List.filterMap_congr fun row _ => ?_
    cases hsession : row.session? with
    | none => simp
    | some session =>
        obtain ⟨date, hdate, hrest⟩ := Option.bind_eq_some_iff.mp hsession
        obtain ⟨close, _, hrest⟩ := Option.bind_eq_some_iff.mp hrest
        have hsame : session.date = date := by
          split at hrest <;> cases hrest
          rfl
        simp [ReturnRow.datedBy, hdate, hsame]
  rw [hrows]

omit [Field F] [LinearOrder F] in
theorem date_of_sessionFeature {symbol : Text} {session : Session F}
    {columns : Option F × Option F × Option F} {feature : ScreenFeature F}
    (h : sessionFeature symbol session columns = some feature) : feature.date = session.date := by
  obtain ⟨_, _, h⟩ := Option.bind_eq_some_iff.mp h
  obtain ⟨_, _, h⟩ := Option.bind_eq_some_iff.mp h
  obtain ⟨_, _, h⟩ := Option.bind_eq_some_iff.mp h
  cases h
  rfl

variable [SquareRoot F]

omit [LinearOrder F] in
theorem causal_featureColumns : Causal (featureColumns (F := F)) :=
  ((causal_column _).comp ((causal_column _).comp (causal_column _))).zip
    (((causal_column _).comp ((causal_column _).comp (causal_column _))).zip
      ((causal_column _).comp ((causal_column _).comp (causal_column _))))

omit [LinearOrder F] in
theorem screenFeatures_upTo (symbol : Text) {sessions : List (Session F)}
    (hsorted : sessions.Pairwise fun a b => a.date ≤ b.date) (day : Date) :
    (screenFeatures symbol sessions).filter (fun feature => feature.date ≤ day) =
      screenFeatures symbol (sessions.filter fun session => session.date ≤ day) := by
  set early := sessions.filter fun session => session.date ≤ day with hearly
  set later := sessions.filter fun session => day < session.date with hlater
  have hsplit : sessions = early ++ later := @upTo_append_behind _ _ _ Session.date _ hsorted day
  obtain ⟨values, hvalues⟩ :=
    causal_featureColumns.append (early.map Session.close) (later.map Session.close)
  have hlength : early.length = (featureColumns (early.map Session.close)).length := by
    rw [causal_featureColumns.length, List.length_map]
  have happend : screenFeatures symbol sessions = screenFeatures symbol early ++
      (later.zip values).filterMap fun row => sessionFeature symbol row.1 row.2 := by
    rw [hsplit, screenFeatures, List.map_append, hvalues, List.zip_append hlength,
      List.filterMap_append]
    rfl
  have hkept : (screenFeatures symbol early).filter (fun feature => feature.date ≤ day) =
      screenFeatures symbol early := by
    rw [List.filter_eq_self]
    intro feature hfeature
    obtain ⟨row, hrow, hfeature⟩ := List.mem_filterMap.mp hfeature
    have hdate := (List.mem_filter.mp (List.of_mem_zip hrow).1).2
    rw [date_of_sessionFeature hfeature]
    exact hdate
  have hnone : ((later.zip values).filterMap fun row => sessionFeature symbol row.1 row.2).filter
      (fun feature => feature.date ≤ day) = [] := by
    rw [List.filter_eq_nil_iff]
    intro feature hfeature
    obtain ⟨row, hrow, hfeature⟩ := List.mem_filterMap.mp hfeature
    have hdate := (List.mem_filter.mp (List.of_mem_zip hrow).1).2
    rw [date_of_sessionFeature hfeature]
    simpa using hdate
  rw [happend, List.filter_append, hkept, hnone, List.append_nil]

end

/-! ### The derived frames -/

section

variable [LinearOrder F]

/-- The artifact has the columns of the derivation and one usable row for each of its dates. -/
def ReturnFrame.accepted (frame : ReturnFrame F) : Prop :=
  (∀ name ∈ ["date", "close", "research_usable"], name ∈ frame.columns) ∧
    workingSessions frame.rows ≠ [] ∧ ((workingSessions frame.rows).map Session.date).Nodup

/-- No price jump of the date lies between the usable sessions of the artifact, or they are too
few for a label. -/
def ReturnFrame.NoJump (frame : ReturnFrame F) (exDate : Date) (factor : F) : Prop :=
  ¬ frame.accepted ∨ factor = 1 ∨ (workingSessions frame.rows).length < 6 ∨
    (∀ session ∈ workingSessions frame.rows, session.date < exDate) ∨
    ∀ session ∈ workingSessions frame.rows, exDate ≤ session.date

variable [SquareRoot F]

theorem derivedScreenFrames_eq (frame : ReturnFrame F) (symbol : Text) :
    derivedScreenFrames frame symbol =
      if ¬ ∀ name ∈ ["date", "close", "research_usable"], name ∈ frame.columns then
        .error "verified return schema is incomplete"
      else if workingSessions frame.rows ≠ [] ∧
          ((workingSessions frame.rows).map Session.date).Nodup then
        .ok (screenFeatures (zfill 6 symbol) (workingSessions frame.rows),
          screenLabels (zfill 6 symbol) (workingSessions frame.rows))
      else .error "verified return sessions are invalid" := by
  unfold derivedScreenFrames require
  by_cases hcolumns : ∀ name ∈ ["date", "close", "research_usable"], name ∈ frame.columns
  · rw [if_pos hcolumns, if_neg (not_not_intro hcolumns)]
    by_cases hsessions : workingSessions frame.rows ≠ [] ∧
        ((workingSessions frame.rows).map Session.date).Nodup
    · simp only [if_pos hsessions]
      rfl
    · simp only [if_neg hsessions]
      rfl
  · rw [if_neg hcolumns, if_pos hcolumns]
    rfl

theorem derivedScreenFrames_of_accepted {frame : ReturnFrame F} (h : frame.accepted)
    (symbol : Text) :
    derivedScreenFrames frame symbol =
      .ok (screenFeatures (zfill 6 symbol) (workingSessions frame.rows),
        screenLabels (zfill 6 symbol) (workingSessions frame.rows)) := by
  rw [derivedScreenFrames_eq, if_neg (not_not_intro h.1), if_pos h.2]

theorem accepted_of_ok {frame : ReturnFrame F} {symbol : Text}
    {frames : List (ScreenFeature F) × List (ScreenLabel F)}
    (h : derivedScreenFrames frame symbol = .ok frames) : frame.accepted := by
  rw [derivedScreenFrames_eq] at h
  split_ifs at h with hcolumns hsessions
  · exact ⟨hcolumns, hsessions⟩

omit [SquareRoot F] in
theorem accepted_adjusted [IsStrictOrderedRing F] (exDate : Date) {factor : F}
    (hfactor : 0 < factor) (frame : ReturnFrame F) :
    (frame.adjusted exDate factor).accepted ↔ frame.accepted := by
  unfold ReturnFrame.accepted ReturnFrame.adjusted
  rw [workingSessions_adjusted hfactor, dates_adjusted, ne_eq, List.map_eq_nil_iff]

/-- A refused artifact is refused in the same words when it is adjusted. -/
theorem derivedScreenFrames_of_not_accepted [IsStrictOrderedRing F] {exDate : Date} {factor : F}
    (hfactor : 0 < factor) {frame : ReturnFrame F} (h : ¬ frame.accepted) (symbol : Text) :
    derivedScreenFrames (frame.adjusted exDate factor) symbol =
      derivedScreenFrames frame symbol := by
  have hcolumns : (frame.adjusted exDate factor).columns = frame.columns := rfl
  have hsessions : workingSessions (frame.adjusted exDate factor).rows =
      (workingSessions frame.rows).map (Session.adjusted exDate factor) :=
    workingSessions_adjusted hfactor frame.rows
  have hrefused : (∀ name ∈ ["date", "close", "research_usable"], name ∈ frame.columns) →
      ¬ (workingSessions frame.rows ≠ [] ∧ ((workingSessions frame.rows).map Session.date).Nodup) :=
    fun hpresent hsessions => h ⟨hpresent, hsessions⟩
  rw [derivedScreenFrames_eq, derivedScreenFrames_eq, hcolumns, hsessions, dates_adjusted]
  by_cases hpresent : ∀ name ∈ ["date", "close", "research_usable"], name ∈ frame.columns
  · have hadjusted : ¬ ((workingSessions frame.rows).map (Session.adjusted exDate factor) ≠ [] ∧
        ((workingSessions frame.rows).map Session.date).Nodup) := by
      rw [ne_eq, List.map_eq_nil_iff]
      exact hrefused hpresent
    rw [if_neg (not_not_intro hpresent), if_neg (not_not_intro hpresent), if_neg hadjusted,
      if_neg (hrefused hpresent)]
  · rw [if_pos hpresent, if_pos hpresent]

/-- Adjusting an artifact leaves its derived signals and labels as they are exactly if no jump
enters them. -/
theorem shown_adjusted_iff [IsStrictOrderedRing F] (frame : ReturnFrame F) (symbol : Text)
    (exDate : Date) {factor : F} (hfactor : 0 < factor) :
    (derivedScreenFrames (frame.adjusted exDate factor) symbol).map shown =
        (derivedScreenFrames frame symbol).map shown ↔ frame.NoJump exDate factor := by
  by_cases haccepted : frame.accepted
  · have hadjusted := (accepted_adjusted exDate hfactor frame).mpr haccepted
    have hsessions : workingSessions (frame.adjusted exDate factor).rows =
        (workingSessions frame.rows).map (Session.adjusted exDate factor) :=
      workingSessions_adjusted hfactor frame.rows
    rw [derivedScreenFrames_of_accepted hadjusted, derivedScreenFrames_of_accepted haccepted,
      hsessions]
    refine (Except.ok.injEq _ _).to_iff.trans ?_
    have hnodup : ((frame.rows.filterMap ReturnRow.session?).map Session.date).Nodup :=
      ((perm_sortValues _).map Session.date).nodup_iff.mp haccepted.2.2
    constructor
    · intro hshown
      by_cases hfew : (workingSessions frame.rows).length < 6
      · exact Or.inr (Or.inr (Or.inl hfew))
      · rcases oneSide_of_labels (increasing_sortValues hnodup) (fun _ => close_pos)
          (not_lt.mp hfew) (congrArg Prod.snd hshown) with hone | hbefore | hfrom
        · exact Or.inr (Or.inl hone)
        · exact Or.inr (Or.inr (Or.inr (Or.inl hbefore)))
        · exact Or.inr (Or.inr (Or.inr (Or.inr hfrom)))
    · rintro (hrefused | hone | hfew | hsides)
      · exact absurd haccepted hrefused
      · exact shown_of_oneSide (zfill 6 symbol) hfactor (Or.inl hone)
      · have hlength : ((workingSessions frame.rows).map
            (Session.adjusted exDate factor)).length < 6 := by rwa [List.length_map]
        rw [screenFeatures_eq_nil _ hfew, screenLabels_eq_nil _ hfew,
          screenFeatures_eq_nil _ hlength, screenLabels_eq_nil _ hlength]
      · exact shown_of_oneSide (zfill 6 symbol) hfactor (Or.inr hsides)
  · refine ⟨fun _ => Or.inl haccepted, fun _ => ?_⟩
    rw [derivedScreenFrames_of_not_accepted hfactor haccepted]

/-- Derived frames are neutral to a corporate action exactly if its jump does not lie between the
usable sessions. Rows after a day never change the features up to it. -/
theorem derivedScreenFrames_neutral_iff [IsStrictOrderedRing F] (frame : ReturnFrame F)
    (symbol : Text) (exDate : Date) (factor : F) (hfactor : 0 < factor) :
    ((derivedScreenFrames (frame.adjusted exDate factor) symbol).map shown =
        (derivedScreenFrames frame symbol).map shown ↔ frame.NoJump exDate factor) ∧
      ∀ (other : ReturnFrame F) (day : Date)
        (frames others : List (ScreenFeature F) × List (ScreenLabel F)),
        frame.rows.filter (ReturnRow.datedBy day) = other.rows.filter (ReturnRow.datedBy day) →
        derivedScreenFrames frame symbol = .ok frames →
        derivedScreenFrames other symbol = .ok others →
        frames.1.filter (fun feature => feature.date ≤ day) =
          others.1.filter (fun feature => feature.date ≤ day) := by
  refine ⟨shown_adjusted_iff frame symbol exDate hfactor, ?_⟩
  intro other day frames others hagree hframe hother
  have hframes := hframe.symm.trans (derivedScreenFrames_of_accepted (accepted_of_ok hframe) symbol)
  have hothers := hother.symm.trans (derivedScreenFrames_of_accepted (accepted_of_ok hother) symbol)
  have hsorted : ∀ rows : List (ReturnRow F),
      (workingSessions rows).Pairwise fun a b => a.date ≤ b.date :=
    fun rows => pairwise_sortValues _
  rw [Except.ok.inj hframes, Except.ok.inj hothers, screenFeatures_upTo _ (hsorted _),
    screenFeatures_upTo _ (hsorted _), workingSessions_upTo, workingSessions_upTo, hagree]

end

section Sample

/-- Square roots of rationals, exact for squares. -/
instance : SquareRoot ℚ := ⟨Rat.sqrt⟩

def splitSession (i : Fin 6) : Date := .daysFrom 2026 3 2 i

/-- Six usable sessions without a move. -/
def splitArtifact : ReturnFrame ℚ where
  columns := ["date", "close", "research_usable", "research_return"]
  rows := [0, 1, 2, 3, 4, 5].map fun i => ⟨.date (splitSession i), some 10, true, some 0⟩

/-- A split on the last session leaves the returns as they are and becomes a loss in a label. -/
theorem split_entersLabels :
    (derivedScreenFrames (splitArtifact.adjusted (splitSession 5) (1 / 2))
        "000001".toList).map shown ≠
      (derivedScreenFrames splitArtifact "000001".toList).map shown := by
  intro hsame
  have hlabels := congrArg (fun result => result.toOption.map Prod.snd) hsame
  revert hlabels
  decide +kernel

/-- A split behind the last session changes nothing. -/
theorem splitAfterwards_neutral :
    (derivedScreenFrames (splitArtifact.adjusted ⟨2026, 4, 1, by decide, by decide, by decide⟩
        (1 / 2)) "000001".toList).map shown =
      (derivedScreenFrames splitArtifact "000001".toList).map shown := by
  have h := derivedScreenFrames_neutral_iff splitArtifact "000001".toList
    ⟨2026, 4, 1, by decide, by decide, by decide⟩ (1 / 2 : ℚ) (by norm_num)
  refine h.1.mpr (Or.inr (Or.inr (Or.inr (Or.inl ?_))))
  decide +kernel

end Sample

end QuantWorkbench.Runtime
