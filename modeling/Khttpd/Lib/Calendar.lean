import Mathlib.Algebra.Order.Ring.Int
import Mathlib.Tactic.IntervalCases

/-!
# The proleptic Gregorian calendar

Days are counted from the first of January of year 0, by the lengths of the years and months before.
Months count from 0. A date is determined by its number, and the number has a closed form in which
the year starts in March.
-/

set_option autoImplicit false

namespace Calendar

/-- A leap year. -/
def IsLeap (year : ℕ) : Prop := year % 4 = 0 ∧ (year % 100 = 0 → year % 400 = 0)

instance (year : ℕ) : Decidable (IsLeap year) := inferInstanceAs (Decidable (_ ∧ _))

def yearLength (year : ℕ) : ℕ := if IsLeap year then 366 else 365

def monthLength (year : ℕ) : ℕ → ℕ
  | 1 => if IsLeap year then 29 else 28
  | 3 | 5 | 8 | 10 => 30
  | _ => 31

def daysBeforeYear : ℕ → ℕ
  | 0 => 0
  | year + 1 => daysBeforeYear year + yearLength year

def daysBeforeMonth (year : ℕ) : ℕ → ℕ
  | 0 => 0
  | month + 1 => daysBeforeMonth year month + monthLength year month

/-- The written form of an instant. -/
structure DateTime where
  year : ℕ
  month : ℕ
  day : ℕ
  hour : ℕ
  min : ℕ
  sec : ℕ
  deriving DecidableEq

namespace DateTime

/-- The date exists, and the time too. -/
structure Valid (d : DateTime) : Prop where
  month : d.month < 12
  day_pos : 0 < d.day
  day_le : d.day ≤ monthLength d.year d.month
  hour : d.hour < 24
  min : d.min < 60
  sec : d.sec < 60

/-- The number of a date. -/
def dayNumber (d : DateTime) : ℕ :=
  daysBeforeYear d.year + daysBeforeMonth d.year d.month + (d.day - 1)

/-- The seconds since the first of January 1970. -/
def timestamp (d : DateTime) : ℤ :=
  ((d.dayNumber : ℤ) - 719528) * 86400 + (d.hour * 3600 + d.min * 60 + d.sec : ℕ)

end DateTime

/-! ## Years and months -/

/-- Every fourth year is a leap year, but of the hundredth years only every fourth is. -/
theorem daysBeforeYear_eq (year : ℕ) :
    daysBeforeYear year + (year + 99) / 100 = 365 * year + (year + 3) / 4 + (year + 399) / 400 := by
  induction year with
  | zero => rfl
  | succ year ih =>
    rw [daysBeforeYear, yearLength]
    split
    · rename_i hleap
      obtain ⟨hfour, hhundred⟩ := hleap
      omega
    · rename_i hleap
      by_cases hfour : year % 4 = 0
      · have hhundred : year % 100 = 0 ∧ year % 400 ≠ 0 := by
          simp only [IsLeap, not_and] at hleap
          simpa using hleap hfour
        omega
      · have hpos : 0 < year % 4 ∧ 0 < year % 100 ∧ 0 < year % 400 := by omega
        clear hfour hleap
        omega

theorem daysBeforeYear_epoch : daysBeforeYear 1970 = 719528 := by
  have h := daysBeforeYear_eq 1970
  omega

theorem daysBeforeYear_mono {a b : ℕ} (h : a ≤ b) : daysBeforeYear a ≤ daysBeforeYear b := by
  induction h with
  | refl => exact le_rfl
  | step _ ih => exact le_trans ih (Nat.le_add_right _ _)

theorem daysBeforeMonth_mono (year : ℕ) {a b : ℕ} (h : a ≤ b) :
    daysBeforeMonth year a ≤ daysBeforeMonth year b := by
  induction h with
  | refl => exact le_rfl
  | step _ ih => exact le_trans ih (Nat.le_add_right _ _)

/-- The months fill the year. -/
theorem daysBeforeMonth_twelve (year : ℕ) : daysBeforeMonth year 12 = yearLength year := by
  simp only [daysBeforeMonth, monthLength, yearLength]
  split <;> rfl

/-! ## The number of a date -/

section DayNumber

variable {d e : DateTime}

theorem dayNumber_lt_month (hd : d.Valid) :
    d.dayNumber < daysBeforeYear d.year + daysBeforeMonth d.year (d.month + 1) := by
  have hpos := hd.day_pos
  have hle := hd.day_le
  rw [DateTime.dayNumber, daysBeforeMonth]
  omega

theorem dayNumber_lt_year (hd : d.Valid) : d.dayNumber < daysBeforeYear (d.year + 1) := by
  have hmonth := dayNumber_lt_month hd
  have hmono := daysBeforeMonth_mono d.year (show d.month + 1 ≤ 12 from hd.month)
  rw [daysBeforeMonth_twelve] at hmono
  rw [daysBeforeYear]
  omega

theorem le_dayNumber (d : DateTime) : daysBeforeYear d.year + daysBeforeMonth d.year d.month ≤
    d.dayNumber := Nat.le_add_right _ _

/-- Dates of an earlier year have smaller numbers. -/
theorem dayNumber_lt_of_year (hd : d.Valid) (h : d.year < e.year) : d.dayNumber < e.dayNumber := by
  have hyear := dayNumber_lt_year hd
  have hmono := daysBeforeYear_mono (show d.year + 1 ≤ e.year from h)
  have hle := le_dayNumber e
  omega

/-- Dates of an earlier month of a year have smaller numbers. -/
theorem dayNumber_lt_of_month (hd : d.Valid) (hyear : d.year = e.year) (h : d.month < e.month) :
    d.dayNumber < e.dayNumber := by
  have hmonth := dayNumber_lt_month hd
  have hmono := daysBeforeMonth_mono d.year (show d.month + 1 ≤ e.month from h)
  have hle := le_dayNumber e
  rw [hyear] at hmonth hmono
  omega

/-- A date is determined by its number. -/
theorem date_of_dayNumber (hd : d.Valid) (he : e.Valid) (h : d.dayNumber = e.dayNumber) :
    d.year = e.year ∧ d.month = e.month ∧ d.day = e.day := by
  have hyear : d.year = e.year := by
    rcases Nat.lt_trichotomy d.year e.year with hlt | heq | hlt
    · exact absurd h (dayNumber_lt_of_year hd hlt).ne
    · exact heq
    · exact absurd h.symm (dayNumber_lt_of_year he hlt).ne
  have hmonth : d.month = e.month := by
    rcases Nat.lt_trichotomy d.month e.month with hlt | heq | hlt
    · exact absurd h (dayNumber_lt_of_month hd hyear hlt).ne
    · exact heq
    · exact absurd h.symm (dayNumber_lt_of_month he hyear.symm hlt).ne
  have hdpos := hd.day_pos
  have hepos := he.day_pos
  unfold DateTime.dayNumber at h
  rw [hyear, hmonth] at h
  exact ⟨hyear, hmonth, by omega⟩

/-- An instant has one written form. -/
theorem timestamp_injective (hd : d.Valid) (he : e.Valid) (h : d.timestamp = e.timestamp) :
    d = e := by
  obtain ⟨-, -, -, hdhour, hdmin, hdsec⟩ := id hd
  obtain ⟨-, -, -, hehour, hemin, hesec⟩ := id he
  unfold DateTime.timestamp at h
  have hnumber : d.dayNumber = e.dayNumber := by omega
  obtain ⟨hyear, hmonth, hday⟩ := date_of_dayNumber hd he hnumber
  cases d
  cases e
  simp only [DateTime.mk.injEq] at *
  omega

/-- The years of the instants from the epoch to the end of the year 9999. -/
theorem year_bounds (hd : d.Valid) (hlow : 0 ≤ d.timestamp) (hhigh : d.timestamp ≤ 253402300799) :
    1970 ≤ d.year ∧ d.year ≤ 9999 := by
  obtain ⟨-, -, -, hhour, hmin, hsec⟩ := id hd
  have hepoch := daysBeforeYear_epoch
  have hend : daysBeforeYear 10000 = 3652425 := by
    have h := daysBeforeYear_eq 10000
    omega
  have hle := le_dayNumber d
  have hlt := dayNumber_lt_year hd
  unfold DateTime.timestamp at hlow hhigh
  constructor
  · by_contra hyear
    have hmono := daysBeforeYear_mono (show d.year + 1 ≤ 1970 by omega)
    omega
  · by_contra hyear
    have hmono := daysBeforeYear_mono (show 10000 ≤ d.year by omega)
    omega

end DayNumber

/-! ## Years that start in March -/

/-- Gauss' formula for the number of a day: the months count from 1 in March, and the year is the
one that started in March. -/
def marchNumber (year month day : ℤ) : ℤ :=
  365 * year + year / 4 - year / 100 + year / 400 + 367 * month / 12 - 30 + day - 1 + 60

/-- From March on, the length of the year says whether February was longer. -/
theorem daysBeforeMonth_late (year : ℕ) {month : ℕ} (hlow : 2 ≤ month) (hhigh : month < 12) :
    daysBeforeMonth year month + 365 = 367 * (month - 1) / 12 + 29 + yearLength year := by
  unfold yearLength
  by_cases hleap : IsLeap year
  · interval_cases month <;> simp [daysBeforeMonth, monthLength, hleap]
  · interval_cases month <;> simp [daysBeforeMonth, monthLength, hleap]

theorem marchNumber_late (year day : ℕ) {month : ℕ} (hlow : 2 ≤ month) (hhigh : month < 12)
    (hday : 0 < day) : ((daysBeforeYear year + daysBeforeMonth year month + (day - 1) : ℕ) : ℤ) =
      marchNumber year (month - 1 : ℕ) day := by
  have hyear := daysBeforeYear_eq (year + 1)
  have hmonth := daysBeforeMonth_late year hlow hhigh
  rw [daysBeforeYear] at hyear
  unfold marchNumber
  omega

theorem marchNumber_early (year day : ℕ) {month : ℕ} (hmonth : month < 2) (hday : 0 < day) :
    ((daysBeforeYear (year + 1) + daysBeforeMonth (year + 1) month + (day - 1) : ℕ) : ℤ) =
      marchNumber year (month + 11 : ℕ) day := by
  have hyear := daysBeforeYear_eq (year + 1)
  unfold marchNumber
  interval_cases month <;> simp only [daysBeforeMonth, monthLength] <;> omega

end Calendar
