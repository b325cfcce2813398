import Mathlib.Tactic.Ring
import Mathlib.Tactic.Linarith

/-!
# The proleptic Gregorian calendar

Dates in every year, before and after the reform alike, and the number of days between them. The
days before a year are given in closed form and those before a month are added up; what makes the
two together a calendar is `dayNumber_next`, that the number goes up by one from one day to the
next, from `dayNumber_epoch` on. This is the definition that programs have to agree with, and it is
stated over all of time so that no century has to be treated apart.

`dayNumber_lt` is the order of dates: with `before_trichotomy` it makes the number of a day tell its
date. `exists_march_year` is where a day number lies in years that begin in March, which is how
algorithms get rid of the leap day: it is then the last day of its year, and everything in front of
it is where it would be without it.
-/

namespace Abora.Lib.Calendar

/-- The Gregorian rule, in every year of either sign: each fourth, but of the centuries only each
fourth. -/
def IsLeap (year : Int) : Prop := year % 4 = 0 ∧ (year % 100 ≠ 0 ∨ year % 400 = 0)

instance (year : Int) : Decidable (IsLeap year) := inferInstanceAs (Decidable (_ ∧ (_ ∨ _)))

def daysInMonth (year : Int) : Nat → Nat
  | 1 => 31
  | 2 => if IsLeap year then 29 else 28
  | 3 => 31
  | 4 => 30
  | 5 => 31
  | 6 => 30
  | 7 => 31
  | 8 => 31
  | 9 => 30
  | 10 => 31
  | 11 => 30
  | 12 => 31
  | _ => 0

def yearLength (year : Int) : Nat := if IsLeap year then 366 else 365

/-- A date that exists. -/
@[ext]
structure Date where
  year : Int
  month : Nat
  day : Nat
  month_pos : 1 ≤ month
  month_le : month ≤ 12
  day_pos : 1 ≤ day
  day_le : day ≤ daysInMonth year month
  deriving DecidableEq

/-- From 1 January 1970 to 1 January of the year; negative before. The quotients round towards minus
infinity, so the formula needs no case for years before the common era. -/
def daysBeforeYear (year : Int) : Int :=
  365 * (year - 1970) + ((year - 1) / 4 - (year - 1) / 100 + (year - 1) / 400) - 477

/-- From 1 January to the first of the month. -/
def daysBeforeMonth (year : Int) : Nat → Nat
  | 0 => 0
  | month + 1 => daysBeforeMonth year month + daysInMonth year month

namespace Date

/-- Days since 1 January 1970. -/
def dayNumber (d : Date) : Int :=
  daysBeforeYear d.year + daysBeforeMonth d.year d.month + (d.day - 1)

def newYear (year : Int) : Date where
  year := year
  month := 1
  day := 1
  month_pos := by decide
  month_le := by decide
  day_pos := by decide
  day_le := by
    show 1 ≤ 31
    decide

def epoch : Date := newYear 1970

end Date

/-! ## Years and months -/

theorem daysBeforeYear_succ (year : Int) :
    daysBeforeYear (year + 1) = daysBeforeYear year + yearLength year := by
  unfold daysBeforeYear yearLength
  by_cases hleap : IsLeap year
  · rw [if_pos hleap]
    unfold IsLeap at hleap
    omega
  · rw [if_neg hleap]
    unfold IsLeap at hleap
    omega

theorem daysBeforeYear_le {a b : Int} (h : a ≤ b) : daysBeforeYear a ≤ daysBeforeYear b := by
  unfold daysBeforeYear
  omega

theorem daysBeforeMonth_eq (year : Int) (month : Nat) (hpos : 1 ≤ month) (hle : month ≤ 13) :
    daysBeforeMonth year month =
      if month ≤ 2 then 31 * (month - 1)
      else (153 * (month - 3) + 2) / 5 + (if IsLeap year then 60 else 59) := by
  have hmonths : month = 1 ∨ month = 2 ∨ month = 3 ∨ month = 4 ∨ month = 5 ∨ month = 6 ∨ month = 7 ∨
      month = 8 ∨ month = 9 ∨ month = 10 ∨ month = 11 ∨ month = 12 ∨ month = 13 := by omega
  rcases hmonths with rfl | rfl | rfl | rfl | rfl | rfl | rfl | rfl | rfl | rfl | rfl | rfl | rfl <;>
    by_cases hleap : IsLeap year <;> simp [daysBeforeMonth, daysInMonth, hleap]

theorem daysInMonth_le (year : Int) (month : Nat) : daysInMonth year month ≤ 31 := by
  unfold daysInMonth
  split <;> try split
  all_goals decide

theorem daysBeforeMonth_mono (year : Int) {a b : Nat} (h : a ≤ b) :
    daysBeforeMonth year a ≤ daysBeforeMonth year b :=
  monotone_nat_of_le_succ (fun _ => Nat.le_add_right _ _) h

theorem daysBeforeMonth_thirteen (year : Int) : daysBeforeMonth year 13 = yearLength year := by
  rw [daysBeforeMonth_eq year 13 (by decide) (by decide)]
  rw [if_neg (by decide)]
  unfold yearLength
  split <;> rfl

namespace Date

theorem day_le_thirtyOne (d : Date) : d.day ≤ 31 :=
  Nat.le_trans d.day_le (daysInMonth_le d.year d.month)

/-! ## One day after the other -/

theorem day_lt_yearLength (d : Date) :
    daysBeforeMonth d.year d.month + d.day ≤ yearLength d.year := by
  have hmonth : daysBeforeMonth d.year (d.month + 1) ≤ daysBeforeMonth d.year 13 :=
    daysBeforeMonth_mono d.year (Nat.succ_le_succ d.month_le)
  rw [daysBeforeMonth_thirteen] at hmonth
  exact Nat.le_trans (Nat.add_le_add_left d.day_le _) hmonth

theorem one_le_daysInMonth (year : Int) {month : Nat} (hpos : 1 ≤ month) (hle : month ≤ 12) :
    1 ≤ daysInMonth year month := by
  have hmonths : month = 1 ∨ month = 2 ∨ month = 3 ∨ month = 4 ∨ month = 5 ∨ month = 6 ∨ month = 7 ∨
      month = 8 ∨ month = 9 ∨ month = 10 ∨ month = 11 ∨ month = 12 := by omega
  rcases hmonths with rfl | rfl | rfl | rfl | rfl | rfl | rfl | rfl | rfl | rfl | rfl | rfl <;>
    by_cases hleap : IsLeap year <;> simp [daysInMonth, hleap]

/-- Tomorrow. -/
def next (d : Date) : Date :=
  if hday : d.day < daysInMonth d.year d.month then
    { d with day := d.day + 1, day_pos := Nat.le_add_left 1 _, day_le := hday }
  else if hmonth : d.month < 12 then
    { year := d.year
      month := d.month + 1
      day := 1
      month_pos := Nat.le_add_left 1 _
      month_le := hmonth
      day_pos := Nat.le_refl 1
      day_le := one_le_daysInMonth d.year (Nat.le_add_left 1 _) hmonth }
  else newYear (d.year + 1)

theorem dayNumber_epoch : epoch.dayNumber = 0 := by decide

theorem dayNumber_newYear (year : Int) : (newYear year).dayNumber = daysBeforeYear year := by
  show daysBeforeYear year + ((0 + daysInMonth year 0 : Nat) : Int) + (1 - 1) = _
  simp [daysInMonth]

/-- **Day by day the number goes up by one.** -/
theorem dayNumber_next (d : Date) : d.next.dayNumber = d.dayNumber + 1 := by
  have hpos := d.day_pos
  have hle := d.day_le
  unfold next
  split
  · show daysBeforeYear d.year + daysBeforeMonth d.year d.month +
      (((d.day + 1 : Nat) : Int) - 1) = _
    unfold dayNumber
    omega
  · rename_i hday
    have hlast : d.day = daysInMonth d.year d.month := by omega
    split
    · show daysBeforeYear d.year + ((daysBeforeMonth d.year d.month +
        daysInMonth d.year d.month : Nat) : Int) + (1 - 1) = _
      unfold dayNumber
      omega
    · rename_i hmonth
      have hmonth : d.month = 12 := by
        have hle := d.month_le
        omega
      have hyear : daysBeforeMonth d.year 12 + daysInMonth d.year 12 = yearLength d.year :=
        daysBeforeMonth_thirteen d.year
      rw [dayNumber_newYear, daysBeforeYear_succ, ← hyear]
      unfold dayNumber
      rw [hlast, hmonth]
      omega

/-! ## The order of dates -/

/-- Earlier in the order of year, month and day. -/
def Before (a b : Date) : Prop :=
  a.year < b.year ∨ a.year = b.year ∧ (a.month < b.month ∨ a.month = b.month ∧ a.day < b.day)

/-- **An earlier date has the smaller number.** -/
theorem dayNumber_lt {a b : Date} (h : a.Before b) : a.dayNumber < b.dayNumber := by
  have hday := a.day_pos
  have hday' := b.day_pos
  unfold dayNumber
  rcases h with hyear | ⟨hyear, hmonth | ⟨hmonth, hlt⟩⟩
  · have hin := a.day_lt_yearLength
    have hnext := daysBeforeYear_le (show a.year + 1 ≤ b.year from hyear)
    rw [daysBeforeYear_succ] at hnext
    omega
  · have hin := a.day_le
    have hnext := daysBeforeMonth_mono a.year (show a.month + 1 ≤ b.month from hmonth)
    have hsucc : daysBeforeMonth a.year (a.month + 1) =
      daysBeforeMonth a.year a.month + daysInMonth a.year a.month := rfl
    rw [← hyear]
    omega
  · rw [hyear, hmonth]
    omega

theorem before_trichotomy (a b : Date) : a.Before b ∨ a = b ∨ b.Before a := by
  unfold Before
  have hext : a.year = b.year → a.month = b.month → a.day = b.day → a = b := Date.ext
  by_cases hyear : a.year = b.year
  · by_cases hmonth : a.month = b.month
    · by_cases hday : a.day = b.day
      · exact .inr (.inl (hext hyear hmonth hday))
      · omega
    · omega
  · omega

end Date

/-! ## Years that begin in March -/

/-- A day of a cycle of 400 years: the century, the four years in it, the year in those, and the
day of that year. A year has a 366th day only if the next one is a leap year. -/
theorem exists_march_year {n : Nat} (h : n < 146097) :
    ∃ b q t u, n = 36524 * b + 1461 * q + 365 * t + u ∧ b ≤ 3 ∧ q ≤ 24 ∧ t ≤ 3 ∧
      (u ≤ 364 ∨ u = 365 ∧ t = 3 ∧ (q < 24 ∨ b = 3)) := by
  obtain ⟨b, r, hn, hb, hr, hcentury⟩ : ∃ b r, n = 36524 * b + r ∧ b ≤ 3 ∧ r ≤ 36524 ∧
      (r = 36524 → b = 3) := by
    by_cases hlast : n = 146096
    · exact ⟨3, 36524, by omega, by omega, by omega, fun _ => rfl⟩
    · exact ⟨n / 36524, n % 36524, by omega, by omega, by omega, by omega⟩
  obtain ⟨q, s, hr', hq, hs, hfour⟩ : ∃ q s, r = 1461 * q + s ∧ q ≤ 24 ∧ s ≤ 1460 ∧
      (s = 1460 → q < 24 ∨ b = 3) :=
    ⟨r / 1461, r % 1461, by omega, by omega, by omega, by omega⟩
  by_cases hleap : s = 1460
  · exact ⟨b, q, 3, 365, by omega, hb, hq, by decide, .inr ⟨rfl, rfl, hfour hleap⟩⟩
  · exact ⟨b, q, s / 365, s % 365, by omega, hb, hq, by omega, .inl (by omega)⟩

/-- **The date of a day of such a year**: months have 31 and 30 days by turns, February comes last
and has what is left, and January and February are in the calendar's next year. -/
theorem exists_date_of_march {year : Int} {u : Nat} (hu : u ≤ 365)
    (hleap : u = 365 → IsLeap (year + 1)) :
    ∃ d : Date, d.day = u - (153 * ((5 * u + 2) / 153) + 2) / 5 + 1 ∧
      d.month = (if (5 * u + 2) / 153 < 10 then (5 * u + 2) / 153 + 3 else (5 * u + 2) / 153 - 9) ∧
      d.year = (if d.month ≤ 2 then year + 1 else year) ∧
      d.dayNumber = daysBeforeYear (year + 1) - 306 + u := by
  have hmp : (5 * u + 2) / 153 ≤ 11 := by omega
  have hfirst : (153 * ((5 * u + 2) / 153) + 2) / 5 ≤ u := by omega
  have hlast : u - (153 * ((5 * u + 2) / 153) + 2) / 5 ≤ 30 := by omega
  generalize hmp' : (5 * u + 2) / 153 = mp at hmp hfirst hlast ⊢
  -- March to December belong to the year, January and February to the next
  by_cases hlt : mp < 10
  · have hday : u - (153 * mp + 2) / 5 + 1 ≤ daysInMonth year (mp + 3) := by
      have hmonths : mp = 0 ∨ mp = 1 ∨ mp = 2 ∨ mp = 3 ∨ mp = 4 ∨ mp = 5 ∨ mp = 6 ∨ mp = 7 ∨
          mp = 8 ∨ mp = 9 := by omega
      rcases hmonths with rfl | rfl | rfl | rfl | rfl | rfl | rfl | rfl | rfl | rfl <;>
        simp only [daysInMonth] <;> omega
    refine ⟨⟨year, mp + 3, u - (153 * mp + 2) / 5 + 1, by omega, by omega, by omega, hday⟩, rfl,
      (if_pos hlt).symm, (if_neg (by simp)).symm, ?_⟩
    have hbefore := daysBeforeMonth_eq year (mp + 3) (by omega) (by omega)
    rw [if_neg (by omega), Nat.add_sub_cancel] at hbefore
    rw [daysBeforeYear_succ]
    unfold Date.dayNumber yearLength
    dsimp only
    rw [hbefore]
    split <;> omega
  · have hday : u - (153 * mp + 2) / 5 + 1 ≤ daysInMonth (year + 1) (mp - 9) := by
      have hmonths : mp = 10 ∨ mp = 11 := by omega
      rcases hmonths with rfl | rfl
      · simp only [daysInMonth]
        omega
      · by_cases hlong : u = 365
        · simp [daysInMonth, hleap hlong, hlong]
        · simp only [daysInMonth]
          split <;> omega
    refine ⟨⟨year + 1, mp - 9, u - (153 * mp + 2) / 5 + 1, by omega, by omega, by omega, hday⟩, rfl,
      (if_neg hlt).symm, (if_pos (show mp - 9 ≤ 2 by omega)).symm, ?_⟩
    have hbefore := daysBeforeMonth_eq (year + 1) (mp - 9) (by omega) (by omega)
    rw [if_pos (by omega)] at hbefore
    unfold Date.dayNumber
    dsimp only
    rw [hbefore]
    omega

end Abora.Lib.Calendar
