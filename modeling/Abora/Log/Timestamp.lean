import Abora.Config.Schedule
import Abora.Lib.Calendar
import Abora.Lib.Decimal
import Mathlib.Data.String.Basic

/-!
# Timestamps (`utc_rfc3339_millis` in `abora-log/src/lib.rs`)

The date comes from a count of days by way of eras of 400 years that begin on 1 March, with unsigned
subtractions in between; `civilFromDays` has them checked. `civilFromDays_eq` is that none
underflows and the date is the one with that day number, for every day there is.

What the right date is, is said by the calendar of `Abora.Lib.Calendar`, which counts days and knows
nothing of eras. A day of an era is a century, a cycle of four years, a year of it and a day of that
year (`yearOfEra_eq`), and the source's four divisions find the year from that; the rest of the date
is the position in a year that begins in March. The instant is the date's number with the time of
the day, and everything about timestamps is said in terms of it: the text says an instant
(`utcRfc3339Millis_eq`), an instant has one text, and in years of four digits the texts are ordered
as the instants are (`text_lt`), field by field.
-/

namespace Abora.Log

open Lib.Text Lib.Calendar

/-- `u64` subtraction; `none` is an underflow. -/
def checkedSub (a b : Nat) : Option Nat := if b ≤ a then some (a - b) else none

/-- `as i64`. -/
def asI64 (n : Nat) : Int := Int.bmod n (2 ^ 64)

/-- `as u64`. -/
def asU64 (n : Int) : Nat := (n % 2 ^ 64).toNat

/-- `civil_from_days`: year, month and day. The names of the source's intermediate values are
kept. -/
def civilFromDays (days : Int) : Option (Int × Nat × Nat) := do
  let z := days + 719468
  let era := (if 0 ≤ z then z else z - 146096).tdiv 146097
  let doe := asU64 (z - era * 146097)
  let noLeap ← checkedSub doe (doe / 1460)
  let noEra ← checkedSub (noLeap + doe / 36524) (doe / 146096)
  let yoe := noEra / 365
  let y := (yoe : Int) + era * 400
  let untilYear ← checkedSub (365 * yoe + yoe / 4) (yoe / 100)
  let doy ← checkedSub doe untilYear
  let mp := (5 * doy + 2) / 153
  let d ← (checkedSub doy ((153 * mp + 2) / 5)).map (· + 1)
  let m ← if mp < 10 then some (mp + 3) else checkedSub mp 9
  let y := if m ≤ 2 then y + 1 else y
  some (y, m, d)

/-- `{year:04}`, for a signed number. -/
def yearText (year : Int) : Chars :=
  if year < 0 then '-' :: zeroPadded 3 year.natAbs else zeroPadded 4 year.natAbs

def stampText (year : Int) (month day hour minute second milli : Nat) : Chars :=
  yearText year ++ '-' :: (zeroPadded 2 month ++ '-' :: (zeroPadded 2 day ++ 'T' ::
    (zeroPadded 2 hour ++ ':' :: (zeroPadded 2 minute ++ ':' :: (zeroPadded 2 second ++ '.' ::
      (zeroPadded 3 milli ++ ['Z']))))))

/-- `as_millis`. -/
def asMillis (d : Duration) : Nat := d / 1000000

/-- `subsec_millis`. -/
def subsecMillis (d : Duration) : Nat := d % 1000000000 / 1000000

/-- `utc_rfc3339_millis`; `none` is an underflow. The clock's seconds are cast, not converted. -/
def utcRfc3339Millis (epoch : Duration) : Option String := do
  let secs := asI64 epoch.asSecs
  let millis := subsecMillis epoch
  let (days, daySecs) := (secs / 86400, (secs % 86400).toNat)
  let (year, month, day) ← civilFromDays days
  let (h, mi, s) := (daySecs / 3600, daySecs % 3600 / 60, daySecs % 60)
  some (String.ofList (stampText year month day h mi s millis))

/-- An instant as a timestamp says it, to the millisecond. Its date exists, and so does its time. -/
structure DateTime where
  date : Date
  hour : Nat
  minute : Nat
  second : Nat
  milli : Nat
  hour_lt : hour < 24
  minute_lt : minute < 60
  second_lt : second < 60
  milli_lt : milli < 1000

namespace DateTime

def text (t : DateTime) : String :=
  String.ofList (stampText t.date.year t.date.month t.date.day t.hour t.minute t.second t.milli)

/-- Milliseconds since 1 January 1970. -/
def millis (t : DateTime) : Int :=
  (((t.date.dayNumber * 24 + t.hour) * 60 + t.minute) * 60 + t.second) * 1000 + t.milli

end DateTime

/-! ## The date of a day -/

theorem checkedSub_eq {a b : Nat} (h : b ≤ a) : checkedSub a b = some (a - b) := if_pos h

/-- The era is the quotient rounded down, as the source arranges for it with a division that rounds
towards zero. -/
theorem era_eq (z : Int) : (if 0 ≤ z then z else z - 146096).tdiv 146097 = z / 146097 := by
  split
  · rename_i hz
    exact Int.tdiv_eq_ediv_of_nonneg hz
  · rename_i hz
    have hneg : z - 146096 = -(146096 - z) := by omega
    rw [hneg, Int.neg_tdiv, Int.tdiv_eq_ediv_of_nonneg (by omega)]
    omega

/-- **The four divisions find the year of the era.** A day is given by the century, cycle, year and
day it is in, with the two ways a 366th day can be. -/
theorem yearOfEra_eq {n b q t u : Nat} (hn : n = 36524 * b + 1461 * q + 365 * t + u) (hb : b ≤ 3)
    (hq : q ≤ 24) (ht : t ≤ 3) (hu : u ≤ 364 ∨ u = 365 ∧ t = 3 ∧ (q < 24 ∨ b = 3)) :
    (n - n / 1460 + n / 36524 - n / 146096) / 365 = 100 * b + 4 * q + t := by
  -- one leap day too many is taken off in the last days of a leap year, and nowhere else
  have hfour : n / 1460 = 25 * b + q + (24 * b + q + 365 * t + u) / 1460 := by omega
  have hcentury : n / 36524 = b + n / 146096 := by
    by_cases hlast : n = 146096
    · have hb : b = 3 := by omega
      omega
    · have hzero : n / 146096 = 0 := by omega
      omega
  have hextra : (24 * b + q + 365 * t + u) / 1460 ≤ u ∧
      u - (24 * b + q + 365 * t + u) / 1460 ≤ 364 := by omega
  generalize (24 * b + q + 365 * t + u) / 1460 = e at hfour hextra
  generalize n / 146096 = g at hcentury ⊢
  rw [hfour, hcentury]
  omega

theorem untilYear_eq {b q t : Nat} (hb : b ≤ 3) (hq : q ≤ 24) (ht : t ≤ 3) :
    (100 * b + 4 * q + t) / 100 ≤ 365 * (100 * b + 4 * q + t) + (100 * b + 4 * q + t) / 4 ∧
      365 * (100 * b + 4 * q + t) + (100 * b + 4 * q + t) / 4 - (100 * b + 4 * q + t) / 100 =
        36524 * b + 1461 * q + 365 * t := by
  have hfour : (100 * b + 4 * q + t) / 4 = 25 * b + q := by omega
  have hcentury : (100 * b + 4 * q + t) / 100 = b := by omega
  rw [hfour, hcentury]
  omega

theorem asU64_natCast {n : Nat} (h : n < 2 ^ 64) : asU64 n = n := by
  unfold asU64
  omega

/-- The year that a March year ends in is a leap year if it has a 366th day. -/
theorem isLeap_of_long {b q t : Nat} (era : Int) (hq : q ≤ 24) (ht : t = 3)
    (h : q < 24 ∨ b = 3) : IsLeap (((100 * b + 4 * q + t : Nat) : Int) + era * 400 + 1) := by
  subst ht
  unfold IsLeap
  omega

theorem daysBeforeYear_era {b q t : Nat} (era : Int) (hb : b ≤ 3) (hq : q ≤ 24) (ht : t ≤ 3) :
    daysBeforeYear (((100 * b + 4 * q + t : Nat) : Int) + era * 400 + 1) =
      era * 146097 + (36524 * b + 1461 * q + 365 * t : Nat) - 719468 + 306 := by
  unfold daysBeforeYear
  have hfour : (((100 * b + 4 * q + t : Nat) : Int) + era * 400 + 1 - 1) / 4 =
      25 * b + q + era * 100 := by omega
  have hcentury : (((100 * b + 4 * q + t : Nat) : Int) + era * 400 + 1 - 1) / 100 =
      b + era * 4 := by omega
  have hera : (((100 * b + 4 * q + t : Nat) : Int) + era * 400 + 1 - 1) / 400 = era := by omega
  rw [hfour, hcentury, hera]
  omega

/-- **No subtraction underflows, and the date is the one with that number**, for every day. -/
theorem civilFromDays_eq (days : Int) :
    ∃ d : Date, civilFromDays days = some (d.year, d.month, d.day) ∧ d.dayNumber = days := by
  obtain ⟨era, n, hdays, hlt⟩ : ∃ (era : Int) (n : Nat), days + 719468 = era * 146097 + n ∧
      n < 146097 :=
    ⟨(days + 719468) / 146097, ((days + 719468) % 146097).toNat, by omega, by omega⟩
  have hera : (days + 719468) / 146097 = era := by omega
  have hdoe : asU64 (days + 719468 - era * 146097) = n := by
    have hsub : days + 719468 - era * 146097 = n := by omega
    rw [hsub]
    exact asU64_natCast (by omega)
  -- day `n` of an era is day `u` of a year of centuries `b`, four-year cycles `q` and years `t`
  obtain ⟨b, q, t, u, hsplit, hb, hq, ht, hu⟩ := exists_march_year hlt
  have hshort : u ≤ 365 := by omega
  have hleap (hlong : u = 365) : IsLeap (((100 * b + 4 * q + t : Nat) : Int) + era * 400 + 1) := by
    rcases hu with hu | ⟨-, ht, hq'⟩
    · omega
    · exact isLeap_of_long era hq ht hq'
  obtain ⟨d, hday, hmonth, hyear, hnumber⟩ := exists_date_of_march hshort hleap
  refine ⟨d, ?_, ?_⟩
  · have hyoe := yearOfEra_eq hsplit hb hq ht hu
    -- none of the subtractions is below zero, so the checked ones succeed one after the other
    have hnoEra : n / 146096 ≤ n - n / 1460 + n / 36524 := by
      clear hsplit hdoe hera hdays hleap hyoe
      omega
    obtain ⟨hcentury, huntil⟩ := untilYear_eq hb hq ht
    have hmonthStart : (153 * ((5 * u + 2) / 153) + 2) / 5 ≤ u := by
      clear hsplit hdoe hera hdays hleap hyoe hnoEra
      omega
    have hdoy : n - (36524 * b + 1461 * q + 365 * t) = u := by
      rw [hsplit, Nat.add_sub_cancel_left]
    have hstart : 36524 * b + 1461 * q + 365 * t ≤ n := hsplit ▸ Nat.le_add_right _ _
    unfold civilFromDays
    dsimp only
    rw [era_eq, hera, hdoe, checkedSub_eq (Nat.div_le_self _ _)]
    dsimp only [Option.bind_eq_bind, Option.bind_some]
    rw [checkedSub_eq hnoEra]
    dsimp only [Option.bind_some]
    rw [hyoe, checkedSub_eq hcentury]
    dsimp only [Option.bind_some]
    rw [huntil, checkedSub_eq hstart]
    dsimp only [Option.bind_some]
    rw [hdoy, checkedSub_eq hmonthStart]
    dsimp only [Option.map_some, Option.bind_some]
    -- January and February are the last months of a year that begins in March
    by_cases hmp : (5 * u + 2) / 153 < 10
    · rw [if_pos hmp] at hmonth
      rw [if_pos hmp, ← hmonth, ← hday, ← hyear]
    · rw [if_neg hmp] at hmonth
      rw [if_neg hmp, checkedSub_eq (by omega)]
      dsimp only [Option.bind_some]
      rw [← hmonth, ← hday, ← hyear]
  · rw [hnumber, daysBeforeYear_era era hb hq ht]
    have hback : (n : Int) = (36524 * b + 1461 * q + 365 * t : Nat) + u := by
      rw [hsplit, Nat.cast_add]
    clear hsplit hdoe hera hleap hnumber hyear hmonth hday hu
    omega

/-! ## The instant -/

theorem asI64_natCast {n : Nat} (h : n < 2 ^ 63) : asI64 n = n := by
  unfold asI64
  rw [Int.bmod_def]
  omega

theorem asMillis_eq (d : Duration) : asMillis d = d.asSecs * 1000 + subsecMillis d := by
  have hsplit (n : Nat) : n / 1000000 = n / 1000000000 * 1000 + n % 1000000000 / 1000000 := by
    rw [← Nat.mul_add_div (by decide)]
    congr 1
    omega
  exact hsplit d

theorem subsecMillis_lt (d : Duration) : subsecMillis d < 1000 := by
  have hlt (n : Nat) : n % 1000000000 / 1000000 < 1000 := by omega
  exact hlt d

/-- What a timestamp says about an instant whose seconds fit an `i64`. -/
theorem utcRfc3339Millis_eq {epoch : Duration} (h : epoch.asSecs < 2 ^ 63) :
    ∃ t : DateTime, utcRfc3339Millis epoch = some t.text ∧ t.millis = asMillis epoch := by
  obtain ⟨date, hdate, hnumber⟩ := civilFromDays_eq ((epoch.asSecs : Int) / 86400)
  rw [asMillis_eq]
  generalize hsecs : epoch.asSecs = secs at h hdate hnumber ⊢
  have hdaySecs : ((secs : Int) % 86400).toNat = secs % 86400 := by omega
  have hlt : secs % 86400 < 86400 := Nat.mod_lt _ (by decide)
  refine ⟨⟨date, secs % 86400 / 3600, secs % 86400 % 3600 / 60, secs % 86400 % 60,
    subsecMillis epoch, by omega, by omega, by omega, subsecMillis_lt epoch⟩, ?_, ?_⟩
  · unfold utcRfc3339Millis
    rw [hsecs, asI64_natCast h]
    dsimp only
    rw [hdate, hdaySecs]
    rfl
  · have hclock : secs % 86400 = (secs % 86400 / 3600 * 60 + secs % 86400 % 3600 / 60) * 60 +
      secs % 86400 % 60 := by omega
    have hday : secs = secs / 86400 * 86400 + secs % 86400 := by omega
    unfold DateTime.millis
    dsimp only
    rw [hnumber]
    generalize secs % 86400 / 3600 = hour at hclock ⊢
    generalize secs % 86400 % 3600 / 60 = minute at hclock ⊢
    generalize secs % 86400 % 60 = second at hclock ⊢
    omega

theorem newline_not_mem_stampText (year : Int) (month day hour minute second milli : Nat) :
    '\n' ∉ stampText year month day hour minute second milli := by
  have hpad {w n : Nat} : '\n' ∉ zeroPadded w n := fun hmem => by
    have hdigit := mem_zeroPadded hmem
    cases hdigit
  have hyear : '\n' ∉ yearText year := by
    unfold yearText
    split
    · exact fun hmem => (List.mem_cons.mp hmem).elim (by decide) hpad
    · exact hpad
  simp [stampText, hpad, hyear]

/-- Every clock has a timestamp, which is one line. -/
theorem exists_utcRfc3339Millis (epoch : Duration) :
    ∃ s, utcRfc3339Millis epoch = some s ∧ '\n' ∉ s.toList := by
  obtain ⟨date, hdate, -⟩ := civilFromDays_eq (asI64 epoch.asSecs / 86400)
  unfold utcRfc3339Millis
  dsimp only
  rw [hdate]
  refine ⟨_, rfl, ?_⟩
  rw [String.toList_ofList]
  exact newline_not_mem_stampText _ _ _ _ _ _ _

/-! ## The order -/

namespace DateTime

/-- An earlier instant is earlier in the order of date, hour, minute, second and millisecond. -/
theorem cases_of_millis_lt {a b : DateTime} (h : a.millis < b.millis) :
    a.date.Before b.date ∨ a.date = b.date ∧ (a.hour < b.hour ∨ a.hour = b.hour ∧
      (a.minute < b.minute ∨ a.minute = b.minute ∧ (a.second < b.second ∨
        a.second = b.second ∧ a.milli < b.milli))) := by
  have hhour := b.hour_lt
  have hminute := b.minute_lt
  have hsecond := b.second_lt
  have hmilli := b.milli_lt
  unfold millis at h
  rcases Date.before_trichotomy a.date b.date with hbefore | hsame | hafter
  · exact .inl hbefore
  · rw [hsame] at h
    refine .inr ⟨hsame, ?_⟩
    omega
  · have hlt := Date.dayNumber_lt hafter
    omega

theorem millis_lt_of_before {a b : DateTime} (h : a.date.Before b.date) :
    a.millis < b.millis := by
  have hlt := Date.dayNumber_lt h
  have hhour := a.hour_lt
  have hminute := a.minute_lt
  have hsecond := a.second_lt
  have hmilli := a.milli_lt
  unfold millis
  omega

theorem text_eq {a b : DateTime} (h : a.millis = b.millis) : a.text = b.text := by
  have hdate : a.date = b.date := by
    rcases Date.before_trichotomy a.date b.date with hbefore | hsame | hafter
    · exact absurd h (Int.ne_of_lt (millis_lt_of_before hbefore))
    · exact hsame
    · exact absurd h (Int.ne_of_gt (millis_lt_of_before hafter))
  have hminute := a.minute_lt
  have hsecond := a.second_lt
  have hmilli := a.milli_lt
  have hminute' := b.minute_lt
  have hsecond' := b.second_lt
  have hmilli' := b.milli_lt
  unfold millis at h
  rw [hdate] at h
  have hclock : a.hour = b.hour ∧ a.minute = b.minute ∧ a.second = b.second ∧
    a.milli = b.milli := by omega
  unfold text
  rw [hdate, hclock.1, hclock.2.1, hclock.2.2.1, hclock.2.2.2]

theorem yearText_eq {year : Int} (h : 0 ≤ year) : yearText year = zeroPadded 4 year.natAbs :=
  if_neg (Int.not_lt.mpr h)

/-- A field and what follows it: texts of one width compare like the numbers, and a tie is broken by
the rest. -/
theorem field_lt (w : Nat) (sep : Char) {a b : Nat} {s t : Chars} (hb : b < 10 ^ (w + 1))
    (h : a < b ∨ a = b ∧ s < t) :
    zeroPadded (w + 1) a ++ sep :: s < zeroPadded (w + 1) b ++ sep :: t := by
  rcases h with hlt | ⟨rfl, hrest⟩
  · have hlen := (length_zeroPadded w (Nat.lt_trans hlt hb)).trans (length_zeroPadded w hb).symm
    exact append_lt_append _ _ hlen (zeroPadded_lt w hb hlt)
  · exact List.append_left_lt (List.cons_lt_cons_iff.mpr (.inr ⟨rfl, hrest⟩))

/-- **In years of four digits, an earlier instant has the smaller text.** -/
theorem text_lt {a b : DateTime} (hpos : 0 ≤ a.date.year) (hle : b.date.year < 10000)
    (h : a.millis < b.millis) : a.text < b.text := by
  have hmonth := b.date.month_le
  have hday := b.date.day_le_thirtyOne
  have hhour := b.hour_lt
  have hminute := b.minute_lt
  have hsecond := b.second_lt
  have hyear : a.date.year ≤ b.date.year := by
    rcases cases_of_millis_lt h with (hlt | ⟨heq, -⟩) | ⟨heq, -⟩
    · exact Int.le_of_lt hlt
    · exact Int.le_of_eq heq
    · exact Int.le_of_eq (congrArg Date.year heq)
  rw [String.lt_iff]
  unfold text
  rw [String.toList_ofList, String.toList_ofList]
  unfold stampText
  rw [yearText_eq hpos, yearText_eq (Int.le_trans hpos hyear)]
  -- the first field that differs decides
  refine field_lt 3 '-' (by omega) ?_
  rcases cases_of_millis_lt h with (hlt | ⟨hsame, hlt | ⟨hsame', hlt⟩⟩) | ⟨hdate, hclock⟩
  · exact .inl (by omega)
  · exact .inr ⟨congrArg Int.natAbs hsame, field_lt 1 '-' (by omega) (.inl hlt)⟩
  · refine .inr ⟨congrArg Int.natAbs hsame, field_lt 1 '-' (by omega) (.inr ⟨hsame', ?_⟩)⟩
    exact field_lt 1 'T' (by omega) (.inl hlt)
  · rw [hdate]
    refine .inr ⟨rfl, field_lt 1 '-' (by omega) (.inr ⟨rfl, ?_⟩)⟩
    refine field_lt 1 'T' (by omega) (.inr ⟨rfl, field_lt 1 ':' (by omega) ?_⟩)
    rcases hclock with hlt | ⟨hh, hlt | ⟨hm, hlt | ⟨hs, hlt⟩⟩⟩
    · exact .inl hlt
    · exact .inr ⟨hh, field_lt 1 ':' (by omega) (.inl hlt)⟩
    · exact .inr ⟨hh, field_lt 1 ':' (by omega) (.inr ⟨hm, field_lt 1 '.' (by omega) (.inl hlt)⟩)⟩
    · refine .inr ⟨hh, field_lt 1 ':' (by omega) (.inr ⟨hm, ?_⟩)⟩
      exact field_lt 1 '.' (by omega) (.inr ⟨hs, field_lt 2 'Z' b.milli_lt (.inl hlt)⟩)

end DateTime

theorem utcRfc3339Millis_of_lt {epoch : Duration}
    (h : epoch.asSecs < 86400 * (Date.newYear 10000).dayNumber) :
    ∃ t : DateTime, utcRfc3339Millis epoch = some t.text ∧ t.millis = asMillis epoch ∧
      0 ≤ t.date.year ∧ t.date.year < 10000 := by
  have hyears : (Date.newYear 10000).dayNumber = 2932897 := by decide
  rw [hyears] at h
  have hrange : epoch.asSecs < 2 ^ 63 := by omega
  obtain ⟨t, htext, hmillis⟩ := utcRfc3339Millis_eq hrange
  have hnumber : 0 ≤ t.date.dayNumber ∧ t.date.dayNumber < 2932897 := by
    have hsub := subsecMillis_lt epoch
    have hhour := t.hour_lt
    have hminute := t.minute_lt
    have hsecond := t.second_lt
    have hmilli := t.milli_lt
    rw [asMillis_eq] at hmillis
    unfold DateTime.millis at hmillis
    omega
  refine ⟨t, htext, hmillis, ?_, ?_⟩
  · by_contra hneg
    have hlt := Date.dayNumber_lt (a := t.date) (b := Date.epoch) (.inl (by
      show t.date.year < 1970
      omega))
    rw [Date.dayNumber_epoch] at hlt
    omega
  · by_contra hlate
    have hle : daysBeforeYear 10000 ≤ daysBeforeYear t.date.year := daysBeforeYear_le (by omega)
    have hday := t.date.day_pos
    have hstart : daysBeforeYear 10000 = 2932897 := by decide
    unfold Date.dayNumber at hnumber
    omega

/-! ## The whole -/

/-- **A timestamp is the instant's date and time, and timestamps sort like instants.** The days are
numbered from the epoch one by one, every number is turned into the date that has it without an
underflow, and the text says a date that exists and a time of day which together are the instant to
the millisecond. -/
theorem timestamp_exact :
    (Date.epoch.dayNumber = 0 ∧ ∀ d : Date, d.next.dayNumber = d.dayNumber + 1) ∧
    (∀ days : Int, ∃ d : Date,
      civilFromDays days = some (d.year, d.month, d.day) ∧ d.dayNumber = days) ∧
    (∀ epoch : Duration, epoch.asSecs < 2 ^ 63 →
      ∃ t : DateTime, utcRfc3339Millis epoch = some t.text ∧ t.millis = asMillis epoch) ∧
    (∀ a b : Duration, a.asSecs < 86400 * (Date.newYear 10000).dayNumber →
      b.asSecs < 86400 * (Date.newYear 10000).dayNumber →
      ∃ s t : String, utcRfc3339Millis a = some s ∧ utcRfc3339Millis b = some t ∧
        (s < t ↔ asMillis a < asMillis b) ∧ (s = t ↔ asMillis a = asMillis b)) := by
  refine ⟨⟨Date.dayNumber_epoch, Date.dayNumber_next⟩, civilFromDays_eq,
    fun _ h => utcRfc3339Millis_eq h, ?_⟩
  intro a b ha hb
  obtain ⟨s, hs, hsm, hspos, hslt⟩ := utcRfc3339Millis_of_lt ha
  obtain ⟨t, ht, htm, htpos, htlt⟩ := utcRfc3339Millis_of_lt hb
  refine ⟨s.text, t.text, hs, ht, ?_⟩
  rcases Nat.lt_trichotomy (asMillis a) (asMillis b) with hlt | heq | hgt
  · have htext := DateTime.text_lt hspos htlt (by omega)
    exact ⟨iff_of_true htext hlt, iff_of_false (ne_of_lt htext) (Nat.ne_of_lt hlt)⟩
  · have htext := DateTime.text_eq (a := s) (b := t) (by omega)
    rw [htext]
    exact ⟨iff_of_false (lt_irrefl t.text) (by omega), iff_of_true rfl heq⟩
  · have htext := DateTime.text_lt htpos hslt (by omega)
    exact ⟨iff_of_false (lt_asymm htext) (by omega), iff_of_false (ne_of_gt htext) (by omega)⟩

/-- The last millisecond of a leap day, and the next. -/
theorem timestamp_exact_leap_day : ∃ s t : String,
    utcRfc3339Millis (1709251199999 * 1000000 : Nat) = some s ∧
    utcRfc3339Millis (1709251200000 * 1000000 : Nat) = some t ∧ s < t := by
  obtain ⟨s, t, hs, ht, hlt, -⟩ := timestamp_exact.2.2.2 (1709251199999 * 1000000 : Nat)
    (1709251200000 * 1000000 : Nat) (by decide) (by decide)
  exact ⟨s, t, hs, ht, hlt.mpr (by decide)⟩

example : utcRfc3339Millis (1700000000123 * 1000000 : Nat) = some "2023-11-14T22:13:20.123Z" := by
  decide

end Abora.Log
