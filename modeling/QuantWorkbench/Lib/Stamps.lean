import QuantWorkbench.Lib.DaySteps

/-!
Local times with their offset from universal time, and the texts that `datetime.isoformat` and
`datetime.fromisoformat` make of them.
-/

namespace QuantWorkbench.Lib

/-! ### Shifted times -/

namespace UtcDateTime

def sinceMidnight (t : UtcDateTime) : ℤ :=
  ((t.hour * 60 + t.minute) * 60 + t.second) * 1000000 + t.microsecond

theorem microseconds_eq (t : UtcDateTime) :
    t.microseconds = Day.toordinal t.date * 86400000000 + t.sinceMidnight := by
  rw [microseconds, Day.instant, sinceMidnight]
  ring

theorem sinceMidnight_range (t : UtcDateTime) :
    0 ≤ t.sinceMidnight ∧ t.sinceMidnight < 86400000000 := by
  have hhour := t.hour.isLt
  have hminute := t.minute.isLt
  have hsecond := t.second.isLt
  have hmicrosecond := t.microsecond.isLt
  rw [sinceMidnight]
  omega

/-- The time of a day that is so many microseconds after midnight. -/
def atMidnightPlus (date : Date) (microseconds : ℕ) : UtcDateTime :=
  ⟨date, Fin.ofNat 24 (microseconds / 3600000000), Fin.ofNat 60 (microseconds / 60000000),
    Fin.ofNat 60 (microseconds / 1000000), Fin.ofNat 1000000 microseconds⟩

theorem sinceMidnight_atMidnightPlus (date : Date) {microseconds : ℕ}
    (h : microseconds < 86400000000) :
    (atMidnightPlus date microseconds).sinceMidnight = microseconds := by
  simp only [sinceMidnight, atMidnightPlus, Fin.ofNat]
  omega

def shift? (value : UtcDateTime) (microseconds : ℤ) : Option UtcDateTime :=
  let total := value.sinceMidnight + microseconds
  (value.date.shift? (total / 86400000000)).map fun date =>
    atMidnightPlus date (total % 86400000000).toNat

theorem microseconds_shift? {value shifted : UtcDateTime} {microseconds : ℤ}
    (h : value.shift? microseconds = some shifted) :
    shifted.microseconds = value.microseconds + microseconds := by
  obtain ⟨date, hdate, rfl⟩ := Option.map_eq_some_iff.mp h
  have hordinal := Date.toordinal_shift? hdate
  have hrest : ((value.sinceMidnight + microseconds) % 86400000000).toNat < 86400000000 := by
    omega
  have hsince := sinceMidnight_atMidnightPlus date hrest
  rw [microseconds_eq, microseconds_eq, hsince]
  change Day.toordinal date * _ + _ = _
  rw [hordinal]
  omega

end UtcDateTime

/-! ### Offsets -/

/-- An offset of less than a day, in microseconds. -/
structure ZoneOffset where
  microseconds : ℤ
  bounded : microseconds.natAbs < 86400000000
  deriving DecidableEq

namespace ZoneOffset

/-- The offset of China. -/
def eightHours : ZoneOffset := ⟨28800000000, by decide⟩

def ofMicroseconds? (microseconds : ℤ) : Option ZoneOffset :=
  if h : microseconds.natAbs < 86400000000 then some ⟨microseconds, h⟩ else none

def secondsText (second microsecond : ℕ) : Text :=
  if second = 0 ∧ microsecond = 0 then []
  else ':' :: (digitsText 2 second ++
    if microsecond = 0 then [] else '.' :: digitsText 6 microsecond)

def text (offset : ZoneOffset) : Text :=
  let size := offset.microseconds.natAbs
  (if offset.microseconds < 0 then '-' else '+') ::
    (digitsText 2 (size / 3600000000) ++ ':' :: (digitsText 2 (size / 60000000 % 60) ++
      secondsText (size / 1000000 % 60) (size % 1000000)))

def scanSeconds : Text → Option (ℕ × ℕ)
  | [] => some (0, 0)
  | text => do
      let text ← expect ':' text
      let (second, text) ← takeDigits 2 text
      let (microsecond, text) ← UtcDateTime.scanFraction text
      if text = [] then some (second, microsecond) else none

def fromText (text : Text) : Option ZoneOffset := do
  let sign ← text.head?
  let (hour, text) ← takeDigits 2 text.tail
  let text ← expect ':' text
  let (minute, text) ← takeDigits 2 text
  let (second, microsecond) ← scanSeconds text
  let size : ℤ := ((hour * 60 + minute) * 60 + second) * 1000000 + microsecond
  if sign = '+' then ofMicroseconds? size
  else if sign = '-' then ofMicroseconds? (-size)
  else none

theorem scanSeconds_secondsText {second microsecond : ℕ} (hsecond : second < 60)
    (hmicrosecond : microsecond < 1000000) :
    scanSeconds (secondsText second microsecond) = some (second, microsecond) := by
  have hdigits : second < 10 ^ 2 := by omega
  by_cases hnone : second = 0 ∧ microsecond = 0
  · rw [secondsText, if_pos hnone, hnone.1, hnone.2]
    rfl
  · rw [secondsText, if_neg hnone, scanSeconds]
    · by_cases hwhole : microsecond = 0
      · have htaken := takeDigits_digitsText [] hdigits
        simp only [expect_cons, hwhole, if_true, htaken, Option.bind_eq_bind, Option.bind_some]
        rfl
      · have htaken := takeDigits_digitsText ('.' :: digitsText 6 microsecond) hdigits
        have hfraction : UtcDateTime.scanFraction ('.' :: digitsText 6 microsecond) =
            some (microsecond, []) := by
          have hscan := @takeDigits_digitsText 6 _ [] hmicrosecond
          rw [List.append_nil] at hscan
          rw [UtcDateTime.scanFraction, expect_cons]
          exact hscan
        simp only [expect_cons, if_neg hwhole, htaken, hfraction, Option.bind_eq_bind,
          Option.bind_some, if_true]
    · exact List.cons_ne_nil _ _

theorem fromText_text (offset : ZoneOffset) : fromText offset.text = some offset := by
  obtain ⟨microseconds, hbounded⟩ := offset
  have hhour : microseconds.natAbs / 3600000000 < 10 ^ 2 := by omega
  have hminute : microseconds.natAbs / 60000000 % 60 < 10 ^ 2 := by omega
  have hsecond : microseconds.natAbs / 1000000 % 60 < 60 := Nat.mod_lt _ (by decide)
  have hmicrosecond : microseconds.natAbs % 1000000 < 1000000 := Nat.mod_lt _ (by decide)
  have hsize : (((microseconds.natAbs / 3600000000 : ℕ) * 60 +
      (microseconds.natAbs / 60000000 % 60 : ℕ)) * 60 +
      (microseconds.natAbs / 1000000 % 60 : ℕ)) * 1000000 +
      (microseconds.natAbs % 1000000 : ℕ) = (microseconds.natAbs : ℤ) := by omega
  simp only [text, fromText, List.head?_cons, List.tail_cons, takeDigits_digitsText _ hhour,
    takeDigits_digitsText _ hminute, expect_cons, scanSeconds_secondsText hsecond hmicrosecond,
    hsize, Option.bind_eq_bind, Option.bind_some]
  by_cases hnegative : microseconds < 0
  · have habs : -(microseconds.natAbs : ℤ) = microseconds := by omega
    rw [if_pos hnegative, if_neg (by decide), if_pos rfl, habs, ofMicroseconds?, dif_pos hbounded]
  · have habs : (microseconds.natAbs : ℤ) = microseconds := by omega
    rw [if_neg hnegative, if_pos rfl, habs, ofMicroseconds?, dif_pos hbounded]

theorem head?_text (offset : ZoneOffset) : offset.text.head? ≠ some '.' := by
  rw [text, List.head?_cons]
  split <;> decide

end ZoneOffset

/-! ### Aware times -/

/-- A local time and its offset. -/
structure AwareTime where
  value : UtcDateTime
  offset : ZoneOffset
  deriving DecidableEq

namespace AwareTime

/-- The microseconds up to the instant, by which aware times are compared. -/
def instant (time : AwareTime) : ℤ := time.value.microseconds - time.offset.microseconds

/-- The local time of a zone, which is given by its offset at each universal time
(`datetime.astimezone`). -/
def astimezone (time : AwareTime) (offset : UtcDateTime → ZoneOffset) : Option UtcDateTime := do
  let utc ← time.value.shift? (-time.offset.microseconds)
  utc.shift? (offset utc).microseconds

theorem microseconds_astimezone {time : AwareTime} {offset : UtcDateTime → ZoneOffset}
    {localTime : UtcDateTime} (h : time.astimezone offset = some localTime) :
    ∃ utc : UtcDateTime, utc.microseconds = time.instant ∧
      localTime.microseconds = utc.microseconds + (offset utc).microseconds := by
  obtain ⟨utc, hutc, hlocal⟩ := Option.bind_eq_some_iff.mp h
  have hshifted := UtcDateTime.microseconds_shift? hutc
  refine ⟨utc, ?_, UtcDateTime.microseconds_shift? hlocal⟩
  rw [hshifted, instant]
  ring

def isoformat (time : AwareTime) : Text :=
  time.value.date.isoformat ++ 'T' :: (time.value.timeText ++ time.offset.text)

end AwareTime

/-- A time that `datetime` holds, with or without an offset. -/
inductive Stamp where
  | naive (value : UtcDateTime)
  | aware (time : AwareTime)
  deriving DecidableEq

/-- `datetime.fromisoformat`. The formats it takes besides that of `isoformat` depend on the
version of the language. -/
class IsoReader where
  read : Text → Option Stamp
  read_isoformat : ∀ time : AwareTime, read time.isoformat = some (.aware time)

namespace Stamp

theorem scanFraction_append (microsecond : Fin 1000000) {rest : Text} (h : rest.head? ≠ some '.') :
    UtcDateTime.scanFraction ((if microsecond = 0 then [] else '.' :: digitsText 6 microsecond) ++
      rest) = some (microsecond.val, rest) := by
  by_cases hzero : microsecond = 0
  · rw [if_pos hzero, hzero, List.nil_append, UtcDateTime.scanFraction, expect, if_neg h]
    rfl
  · rw [if_neg hzero, List.cons_append, UtcDateTime.scanFraction, expect_cons]
    exact takeDigits_digitsText _ microsecond.isLt

/-- `datetime.fromisoformat` on texts of the format of `isoformat`. -/
def fromisoformat (text : Text) : Option Stamp := do
  let (date, text) ← Date.scan text
  let text ← expect 'T' text
  let (hour, text) ← takeDigits 2 text
  let text ← expect ':' text
  let (minute, text) ← takeDigits 2 text
  let text ← expect ':' text
  let (second, text) ← takeDigits 2 text
  let (microsecond, text) ← UtcDateTime.scanFraction text
  let value ← UtcDateTime.ofParts? date hour minute second microsecond
  if text = [] then some (.naive value)
  else (ZoneOffset.fromText text).map fun offset => .aware ⟨value, offset⟩

theorem fromisoformat_isoformat (time : AwareTime) :
    fromisoformat time.isoformat = some (.aware time) := by
  obtain ⟨value, offset⟩ := time
  have hhour : value.hour.val < 10 ^ 2 := by omega
  have hminute : value.minute.val < 10 ^ 2 := by omega
  have hsecond : value.second.val < 10 ^ 2 := by omega
  have hparts : UtcDateTime.ofParts? value.date value.hour value.minute value.second
      value.microsecond = some value := by
    rw [UtcDateTime.ofParts?, dif_pos ⟨value.hour.isLt, value.minute.isLt, value.second.isLt,
      value.microsecond.isLt⟩]
  have hoffset : offset.text ≠ [] := List.cons_ne_nil _ _
  rw [AwareTime.isoformat, UtcDateTime.timeText]
  simp only [List.append_assoc, List.cons_append]
  rw [fromisoformat]
  simp only [Date.scan_isoformat, takeDigits_digitsText _ hhour, takeDigits_digitsText _ hminute,
    takeDigits_digitsText _ hsecond, expect_cons, scanFraction_append _ offset.head?_text, hparts,
    Option.bind_eq_bind, Option.bind_some, if_neg hoffset, offset.fromText_text, Option.map_some]

@[reducible] def isoReader : IsoReader := ⟨fromisoformat, fromisoformat_isoformat⟩

end Stamp

end QuantWorkbench.Lib
