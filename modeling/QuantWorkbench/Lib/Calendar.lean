import Mathlib.Data.Prod.Lex
import Mathlib.Tactic

/-!
Calendar dates of the proleptic Gregorian calendar in the range of the standard
library, and instants in universal time with microseconds.
-/

namespace QuantWorkbench.Lib

def isLeapYear (year : ℕ) : Bool :=
  year % 4 == 0 && (year % 100 != 0 || year % 400 == 0)

def daysInMonth (year month : ℕ) : ℕ :=
  if month = 2 then if isLeapYear year then 29 else 28
  else if month = 4 ∨ month = 6 ∨ month = 9 ∨ month = 11 then 30
  else 31

theorem daysInMonth_le (year month : ℕ) : daysInMonth year month ≤ 31 := by
  unfold daysInMonth
  split_ifs <;> omega

structure Date where
  year : ℕ
  month : ℕ
  day : ℕ
  year_range : 1 ≤ year ∧ year ≤ 9999
  month_range : 1 ≤ month ∧ month ≤ 12
  day_range : 1 ≤ day ∧ day ≤ daysInMonth year month
  deriving DecidableEq

theorem january_range : 1 ≤ 1 ∧ 1 ≤ 12 := by decide

theorem year2026_range : 1 ≤ 2026 ∧ 2026 ≤ 9999 := by decide

/-- The date that its literals name. -/
def Date.of (year month day : ℕ)
    (h : decide ((1 ≤ year ∧ year ≤ 9999) ∧ (1 ≤ month ∧ month ≤ 12) ∧
      1 ≤ day ∧ day ≤ daysInMonth year month) = true := by exact Eq.refl true) : Date where
  year := year
  month := month
  day := day
  year_range := (of_decide_eq_true h).1
  month_range := (of_decide_eq_true h).2.1
  day_range := (of_decide_eq_true h).2.2

/-- One of the `n` days from the first one on, all in its month. -/
def Date.daysFrom (year month first : ℕ) {n : ℕ} (i : Fin n)
    (h : decide ((1 ≤ year ∧ year ≤ 9999) ∧ (1 ≤ month ∧ month ≤ 12) ∧
      1 ≤ first ∧ first + n ≤ daysInMonth year month + 1) = true := by exact Eq.refl true) :
    Date where
  year := year
  month := month
  day := i + first
  year_range := (of_decide_eq_true h).1
  month_range := (of_decide_eq_true h).2.1
  day_range := by
    obtain ⟨_, _, hfirst, hlast⟩ := of_decide_eq_true h
    omega

/-- The fields in the order in which two dates are compared. -/
def Date.key (d : Date) : ℕ ×ₗ ℕ ×ₗ ℕ := toLex (d.year, toLex (d.month, d.day))

theorem Date.key_injective : Function.Injective Date.key := by
  rintro ⟨y, m, d, _, _, _⟩ ⟨y', m', d', _, _, _⟩ h
  simp only [Date.key, EmbeddingLike.apply_eq_iff_eq, Prod.mk.injEq] at h
  obtain ⟨rfl, rfl, rfl⟩ := h
  rfl

instance : LinearOrder Date := LinearOrder.lift' Date.key Date.key_injective

theorem Date.lt_iff_fields {day other : Date} :
    day < other ↔ day.year < other.year ∨ day.year = other.year ∧
      (day.month < other.month ∨ day.month = other.month ∧ day.day < other.day) := by
  change day.key < other.key ↔ _
  simp [Date.key, Prod.Lex.toLex_lt_toLex]

instance neZero24 : NeZero 24 := ⟨by decide⟩

instance neZero60 : NeZero 60 := ⟨by decide⟩

instance neZeroMillion : NeZero 1000000 := ⟨by decide⟩

structure UtcDateTime where
  date : Date
  hour : Fin 24
  minute : Fin 60
  second : Fin 60
  microsecond : Fin 1000000
  deriving DecidableEq

def UtcDateTime.key (t : UtcDateTime) : Date ×ₗ Fin 24 ×ₗ Fin 60 ×ₗ Fin 60 ×ₗ Fin 1000000 :=
  toLex (t.date, toLex (t.hour, toLex (t.minute, toLex (t.second, t.microsecond))))

theorem UtcDateTime.key_injective : Function.Injective UtcDateTime.key := by
  rintro ⟨d, h, m, s, u⟩ ⟨d', h', m', s', u'⟩ heq
  simp only [UtcDateTime.key, EmbeddingLike.apply_eq_iff_eq, Prod.mk.injEq] at heq
  obtain ⟨rfl, rfl, rfl, rfl, rfl⟩ := heq
  rfl

instance : LinearOrder UtcDateTime :=
  LinearOrder.lift' UtcDateTime.key UtcDateTime.key_injective

end QuantWorkbench.Lib
