import Mathlib.Order.Cover
import QuantWorkbench.Lib.Fields

/-!
The days before and after a date, as far as the calendar goes.
-/

namespace QuantWorkbench.Lib

namespace Date

theorem one_le_daysInMonth (year month : ℕ) : 1 ≤ daysInMonth year month := by
  unfold daysInMonth
  split_ifs <;> omega

/-- `day + timedelta(days=1)`. -/
def next? (d : Date) : Option Date :=
  if hday : d.day < daysInMonth d.year d.month then
    some ⟨d.year, d.month, d.day + 1, d.year_range, d.month_range, by omega, hday⟩
  else if hmonth : d.month < 12 then
    some ⟨d.year, d.month + 1, 1, d.year_range, by omega, le_refl 1, one_le_daysInMonth _ _⟩
  else if hyear : d.year < 9999 then
    some ⟨d.year + 1, 1, 1, by omega, by omega, le_refl 1, one_le_daysInMonth _ _⟩
  else none

def previous? (d : Date) : Option Date :=
  if hday : 1 < d.day then
    some ⟨d.year, d.month, d.day - 1, d.year_range, d.month_range, by omega,
      (Nat.sub_le _ _).trans d.day_range.2⟩
  else if hmonth : 1 < d.month then
    some ⟨d.year, d.month - 1, daysInMonth d.year (d.month - 1), d.year_range,
      by have := d.month_range; omega, one_le_daysInMonth _ _, le_refl _⟩
  else if hyear : 1 < d.year then
    some ⟨d.year - 1, 12, 31, by have := d.year_range; omega, by omega, by omega, le_refl _⟩
  else none

theorem covBy_of_next? {day next : Date} (h : day.next? = some next) : day ⋖ next := by
  obtain ⟨year, month, dayOfMonth, hyear, hmonth, hday⟩ := day
  unfold next? at h
  split at h
  · cases h
    refine ⟨lt_iff_fields.mpr (by simp), fun other hafter hbefore => ?_⟩
    rw [lt_iff_fields] at hafter hbefore
    simp only at hafter hbefore
    omega
  · rename_i hlast
    split at h
    · cases h
      refine ⟨lt_iff_fields.mpr (by simp), fun other hafter hbefore => ?_⟩
      have hother := other.day_range
      rw [lt_iff_fields] at hafter hbefore
      simp only at hlast hafter hbefore
      rcases hafter with hafter | ⟨hsame, hafter | ⟨hsame', hafter⟩⟩
      · omega
      · omega
      · rw [hsame, hsame'] at hlast
        omega
    · rename_i hdecember
      split at h
      · cases h
        refine ⟨lt_iff_fields.mpr (by simp), fun other hafter hbefore => ?_⟩
        have hother := other.day_range
        have hmonths := other.month_range
        rw [lt_iff_fields] at hafter hbefore
        simp only at hlast hafter hbefore hdecember
        rcases hafter with hafter | ⟨hsame, hafter | ⟨hsame', hafter⟩⟩
        · omega
        · omega
        · rw [hsame, hsame'] at hlast
          omega
      · cases h

theorem isMax_of_next? {day : Date} (h : day.next? = none) : IsMax day := by
  rw [isMax_iff_forall_not_lt]
  intro other hlt
  have hday := other.day_range
  have hmonth := other.month_range
  have hyear := other.year_range
  rw [lt_iff_fields] at hlt
  unfold next? at h
  split at h
  · cases h
  · split at h
    · cases h
    · split at h
      · cases h
      · rcases hlt with hlt | ⟨hsame, hlt | ⟨hsame', hlt⟩⟩
        · omega
        · omega
        · rw [← hsame, ← hsame'] at hday
          omega

theorem next?_of_previous? {day previous : Date} (h : day.previous? = some previous) :
    previous.next? = some day := by
  obtain ⟨year, month, dayOfMonth, hyear, hmonth, hday⟩ := day
  unfold previous? at h
  split at h
  · rename_i hlater
    cases h
    simp only at hlater
    have hback : dayOfMonth - 1 + 1 = dayOfMonth := by omega
    simp only [next?, hback]
    rw [dif_pos (by omega)]
  · rename_i hfirst
    split at h
    · rename_i hlater
      cases h
      simp only at hfirst hlater
      have hback : month - 1 + 1 = month := by omega
      obtain rfl : dayOfMonth = 1 := by omega
      simp only [next?, hback]
      rw [dif_neg (by omega), dif_pos (by omega)]
    · rename_i hjanuary
      split at h
      · rename_i hlater
        cases h
        simp only at hfirst hjanuary hlater
        have hback : year - 1 + 1 = year := by omega
        obtain rfl : dayOfMonth = 1 := by omega
        obtain rfl : month = 1 := by omega
        have hdays : daysInMonth (year - 1) 12 = 31 := rfl
        simp only [next?, hback, hdays]
        rw [dif_neg (by omega), dif_neg (by omega), dif_pos (by omega)]
      · cases h

theorem isMin_of_previous? {day : Date} (h : day.previous? = none) : IsMin day := by
  rw [isMin_iff_forall_not_lt]
  intro other hlt
  have hday := other.day_range
  have hmonth := other.month_range
  have hyear := other.year_range
  rw [lt_iff_fields] at hlt
  unfold previous? at h
  split at h
  · cases h
  · split at h
    · cases h
    · split at h
      · cases h
      · omega

def back? (d : Date) : ℕ → Option Date
  | 0 => some d
  | days + 1 => (d.back? days).bind previous?

def ahead? (d : Date) : ℕ → Option Date
  | 0 => some d
  | days + 1 => (d.ahead? days).bind next?

def shift? (d : Date) : ℤ → Option Date
  | .ofNat days => d.ahead? days
  | .negSucc days => d.back? (days + 1)

end Date

theorem Day.toordinal_next {day next : Date} (h : day.next? = some next) :
    Day.toordinal next = Day.toordinal day + 1 := by
  obtain ⟨year, month, dayOfMonth, hyear, hmonth, hday⟩ := day
  simp only [Date.next?] at h
  split at h
  · cases h
    simp only [Day.toordinal]
    push_cast
    ring
  · rename_i hlast
    have hend : dayOfMonth = daysInMonth year month := by omega
    split at h
    · cases h
      obtain ⟨m, rfl⟩ : ∃ m, month = m + 1 := ⟨month - 1, by omega⟩
      simp only [Day.toordinal, Nat.add_sub_cancel, List.range_succ, List.map_append,
        List.sum_append, List.map_cons, List.map_nil, List.sum_cons, List.sum_nil, hend]
      push_cast
      ring
    · split at h
      · cases h
        have hmonth' : month = 12 := by omega
        subst hmonth'
        have hsum : ((List.range 11).map fun month => daysInMonth year (month + 1)).sum =
            if isLeapYear year then 335 else 334 := by
          simp only [daysInMonth]
          cases isLeapYear year <;> rfl
        have hdays : daysInMonth year 12 = 31 := rfl
        have hleap : isLeapYear year = true ↔
            (year % 4 = 0 ∧ (year % 100 ≠ 0 ∨ year % 400 = 0)) := by
          simp [isLeapYear]
        simp only [Day.toordinal, Nat.sub_self, List.range_zero, List.map_nil, List.sum_nil, hsum,
          hend, hdays]
        push_cast
        by_cases hl : isLeapYear year = true
        · rw [if_pos hl]
          rw [hleap] at hl
          omega
        · rw [if_neg hl]
          rw [hleap] at hl
          omega
      · cases h

theorem Date.toordinal_ahead? {day later : Date} {days : ℕ} (h : day.ahead? days = some later) :
    Day.toordinal later = Day.toordinal day + days := by
  induction days generalizing later with
  | zero =>
      cases h
      simp
  | succ days ih =>
      obtain ⟨before, hbefore, hnext⟩ := Option.bind_eq_some_iff.mp h
      have hfirst := ih hbefore
      have hstep := Day.toordinal_next hnext
      push_cast
      omega

theorem Date.toordinal_back? {day earlier : Date} {days : ℕ} (h : day.back? days = some earlier) :
    Day.toordinal earlier = Day.toordinal day - days := by
  induction days generalizing earlier with
  | zero =>
      cases h
      simp
  | succ days ih =>
      obtain ⟨after, hafter, hprevious⟩ := Option.bind_eq_some_iff.mp h
      have hfirst := ih hafter
      have hstep := Day.toordinal_next (next?_of_previous? hprevious)
      push_cast
      omega

theorem Date.toordinal_shift? {day shifted : Date} {days : ℤ} (h : day.shift? days = some shifted) :
    Day.toordinal shifted = Day.toordinal day + days := by
  cases days with
  | ofNat days => exact toordinal_ahead? h
  | negSucc days =>
      have hback := toordinal_back? h
      rw [Int.negSucc_eq]
      push_cast at hback
      omega

/-- Later days have greater ordinals. -/
theorem Day.toordinal_strictMono : StrictMono Day.toordinal := by
  -- a rank that grows along the order bounds the steps between two days
  let rank : Date → ℕ := fun day => (day.year * 13 + day.month) * 32 + day.day
  have hrank : StrictMono rank := by
    intro day other hlt
    have hday := day.day_range.2.trans (daysInMonth_le day.year day.month)
    have hmonth := day.month_range
    have hother := other.day_range
    rw [Date.lt_iff_fields] at hlt
    simp only [rank]
    omega
  have hsteps : ∀ (steps : ℕ) (day other : Date), day < other → rank other - rank day ≤ steps →
      Day.toordinal day < Day.toordinal other := by
    intro steps
    induction steps with
    | zero =>
        intro day other hlt hle
        have := hrank hlt
        omega
    | succ steps ih =>
        intro day other hlt hle
        cases hnext : day.next? with
        | none => exact absurd hlt (Date.isMax_of_next? hnext).not_lt
        | some next =>
            have hcover := Date.covBy_of_next? hnext
            have hordinal := Day.toordinal_next hnext
            rcases (hcover.ge_of_gt hlt).eq_or_lt with rfl | hafter
            · omega
            · have hshorter := hrank hcover.lt
              have := ih next other hafter (by omega)
              omega
  exact fun day other hlt => hsteps _ day other hlt le_rfl

theorem Day.toordinal_range (day : Date) : 1 ≤ Day.toordinal day ∧ Day.toordinal day ≤ 3652059 := by
  have hfirst : (⟨1, 1, 1, by decide, by decide, by decide⟩ : Date) ≤ day := by
    rw [← not_lt, Date.lt_iff_fields]
    simp only
    have hday := day.day_range
    have hmonth := day.month_range
    have hyear := day.year_range
    omega
  have hlast : day ≤ (⟨9999, 12, 31, by decide, by decide, by decide⟩ : Date) := by
    rw [← not_lt, Date.lt_iff_fields]
    simp only
    have hday := day.day_range.2.trans (daysInMonth_le day.year day.month)
    have hmonth := day.month_range
    have hyear := day.year_range
    omega
  exact ⟨Day.toordinal_strictMono.monotone hfirst, Day.toordinal_strictMono.monotone hlast⟩

/-!
The order of days: dates and times of one kind are compared, and those of different kinds are not.
-/

namespace Day

def Key.le : Key → Key → Prop
  | .date value, .date other => value ≤ other
  | .naive value, .naive other => value ≤ other
  | .instant moment, .instant other => moment ≤ other
  | _, _ => False

/-- Days of different kinds are not compared. -/
instance : PartialOrder Key where
  le := Key.le
  le_refl day := by cases day <;> exact le_refl _
  le_trans day other last h h' := by
    cases day <;> cases other <;> cases last <;> first | cases h | cases h' | exact le_trans h h'
  le_antisymm day other h h' := by
    cases day <;> cases other <;> first | cases h | exact congrArg _ (le_antisymm h h')

/-- A day is not after another one that it can be compared with. -/
theorem not_after?_iff {day other : Day} : day.after? other = some false ↔ day.key ≤ other.key := by
  change _ ↔ Key.le day.key other.key
  rcases day with _ | ⟨_, _ | _⟩ <;> rcases other with _ | ⟨_, _ | _⟩ <;>
    simp [after?, key, Key.le]

theorem after?_iff {day other : Day} : day.after? other = some true ↔ other.key < day.key := by
  rw [lt_iff_le_not_ge]
  change _ ↔ Key.le other.key day.key ∧ ¬ Key.le day.key other.key
  rcases day with _ | ⟨_, _ | _⟩ <;> rcases other with _ | ⟨_, _ | _⟩ <;>
    simp [after?, key, Key.le] <;> exact le_of_lt

/-- Days that are not after a third one can be compared. -/
theorem le_total_of_le {day other last : Key} (h : day ≤ last) (h' : other ≤ last) :
    day ≤ other ∨ other ≤ day := by
  match day, other, last with
  | .date value, .date value', .date _ => exact le_total value value'
  | .naive value, .naive value', .naive _ => exact le_total value value'
  | .instant moment, .instant moment', .instant _ => exact le_total moment moment'

end Day

end QuantWorkbench.Lib
