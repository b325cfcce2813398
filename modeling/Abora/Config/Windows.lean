import Abora.Config.Schedule
import Abora.Config.Validate

/-!
# What an accepted window list means

The validator and the evaluator read the same clock texts, each for itself, and the evaluator
ignores what it cannot read. `parseClock_ok_iff` says which texts those are: exactly `HH:MM`. From
there both sides speak of numbers, and on an accepted configuration the evaluator skips nothing.

The local time takes the same way: `date` prints it, the program reads it back
(`parseDateOutput_dateOutput`), so the policy is asked about the minute it is.

The other question is what can be *said* in this language. A window is a set of weekdays and an
interval `start ≤ now < stop` of clock readings; the last reading is `23:59`, so no window reaches
the last minute of a day (`windowOpen_lt`), and that is the only thing it lacks. `expressible_iff`
takes a schedule as a list of periods of single weekdays, up to midnight, and says which of them
some accepted configuration has.
-/

namespace Abora

open Lib Lib.Text Update

/-! ## Clock texts -/

/-- The last minute a clock can name, `23:59`. -/
def lastMinute : Nat := 1439

/-- The clock text of a minute of the day. -/
def clock (minutes : Nat) : String :=
  String.ofList (twoDigits (minutes / 60) ++ ':' :: twoDigits (minutes % 60))

/-- `s` is `HH:MM` with `00 ≤ HH ≤ 23` and `00 ≤ MM ≤ 59`, and that is `minutes`. -/
def ClockText (s : String) (minutes : Nat) : Prop :=
  ∃ hour minute, hour ≤ 23 ∧ minute ≤ 59 ∧
    s.toList = twoDigits hour ++ ':' :: twoDigits minute ∧ minutes = hour * 60 + minute

theorem clock_clockText {minutes : Nat} (h : minutes ≤ lastMinute) :
    ClockText (clock minutes) minutes := by
  unfold lastMinute at h
  exact ⟨minutes / 60, minutes % 60, by omega, by omega, String.toList_ofList, by omega⟩

theorem ClockText.le {s : String} {minutes : Nat} (h : ClockText s minutes) :
    minutes ≤ lastMinute := by
  obtain ⟨hour, minute, hh, hm, -, rfl⟩ := h
  unfold lastMinute
  omega

theorem colon_not_mem_twoDigits {n : Nat} (h : n < 100) : ':' ∉ twoDigits n := by
  intro hmem
  have hdigit := List.all_eq_true.mp (twoDigits_isDigit h) ':' hmem
  cases hdigit

theorem byteLen_twoDigits {n : Nat} (h : n < 100) : byteLen (twoDigits n) = 2 := by
  have hsize : ∀ c ∈ twoDigits n, c.utf8Size = 1 := by
    intro c hc
    have hdigit := List.all_eq_true.mp (twoDigits_isDigit h) c hc
    exact utf8Size_of_alphanum (by simp [Char.isAlphanum, hdigit])
  rw [byteLen_eq_length hsize]
  rfl

/-- Two bytes of ASCII digits are two digits. A digit has one byte, so the length in bytes is
enough. -/
theorem eq_twoDigits {s : Chars} (hlen : byteLen s = 2) (hdigits : s.all Char.isDigit = true) :
    ∃ n < 100, s = twoDigits n := by
  have hall := List.all_eq_true.mp hdigits
  have hsize : ∀ c ∈ s, c.utf8Size = 1 := fun c hc =>
    utf8Size_of_alphanum (by simp [Char.isAlphanum, hall c hc])
  rw [byteLen_eq_length hsize] at hlen
  match s, hlen with
  | [c, d], _ => exact exists_twoDigits (hall c (by simp)) (hall d (by simp))

/-- **`parse_clock` reads `HH:MM` and nothing else.** Both numbers are below 100 as they have two
digits, so the 32 bits they are parsed into never matter. -/
theorem parseClock_ok_iff {s : String} {minutes : Nat} :
    parseClock s = .ok minutes ↔ ClockText s minutes := by
  constructor
  -- what is parsed is two digits, a colon and two digits, since only these pass the checks
  · intro h
    unfold parseClock at h
    cases hcut : splitOnce ':' s.toList with
    | none =>
      rw [hcut] at h
      cases h
    | some p =>
      obtain ⟨hour, minute⟩ := p
      simp only [hcut] at h
      split at h
      · cases h
      rename_i hlen
      split at h
      · cases h
      rename_i hdigits
      rw [not_or, not_not, not_not] at hlen
      rw [Bool.not_eq_false, Bool.and_eq_true] at hdigits
      obtain ⟨a, ha, rfl⟩ := eq_twoDigits hlen.1 hdigits.1
      obtain ⟨b, hb, rfl⟩ := eq_twoDigits hlen.2 hdigits.2
      rw [parseUnsigned_twoDigits ha (by decide), parseUnsigned_twoDigits hb (by decide)] at h
      dsimp only at h
      split at h
      · cases h
      split at h
      · cases h
      cases h
      exact ⟨a, b, by omega, by omega, (splitOnce_eq_some hcut).1, rfl⟩
  · rintro ⟨hour, minute, hh, hm, hs, rfl⟩
    have hhour : hour < 100 := by omega
    have hminute : minute < 100 := by omega
    have hparsed {n : Nat} (h : n < 100) : parseUnsigned 32 (twoDigits n) = some n :=
      parseUnsigned_twoDigits h (by decide)
    have hcut : splitOnce ':' s.toList = some (twoDigits hour, twoDigits minute) := by
      rw [hs]
      exact splitOnce_append _ (colon_not_mem_twoDigits hhour)
    unfold parseClock
    simp [hcut, byteLen_twoDigits hhour, byteLen_twoDigits hminute, twoDigits_isDigit hhour,
      twoDigits_isDigit hminute, hparsed hhour, hparsed hminute, Nat.not_lt.mpr hh,
      Nat.not_lt.mpr hm]

theorem ClockText.functional {s : String} {a b : Nat} (ha : ClockText s a) (hb : ClockText s b) :
    a = b := by
  have h := parseClock_ok_iff.mpr ha
  rw [parseClock_ok_iff.mpr hb] at h
  exact (Except.ok.inj h).symm

/-! ## The local time -/

/-- `%u`. -/
def dayDigit : Weekday → Char
  | .monday => '1'
  | .tuesday => '2'
  | .wednesday => '3'
  | .thursday => '4'
  | .friday => '5'
  | .saturday => '6'
  | .sunday => '7'

/-- What `date +"%u %H:%M"` prints at a local time. -/
def dateOutput (t : LocalTime) : Chars :=
  dayDigit t.weekday :: ' ' :: (clock t.minutes).toList ++ ['\n']

/-- The policy is asked about the time that `date` printed: nothing is lost between the program and
the evaluator, at any minute of the week. -/
theorem parseDateOutput_dateOutput {t : LocalTime} (h : t.minutes ≤ lastMinute) :
    parseDateOutput (String.ofList (dateOutput t)) = some t := by
  unfold lastMinute at h
  obtain ⟨weekday, minutes⟩ := t
  dsimp only at h
  have hhour : minutes / 60 < 100 := by omega
  have hminute : minutes % 60 < 100 := by omega
  have hparsed {n : Nat} (h : n < 100) : parseUnsigned 32 (twoDigits n) = some n :=
    parseUnsigned_twoDigits h (by decide)
  have hday : parseWeekday [dayDigit weekday] = some weekday := by cases weekday <;> rfl
  have hblank : ' ' ∉ [dayDigit weekday] := by cases weekday <;> decide
  have htext : trim (dateOutput ⟨weekday, minutes⟩) =
      [dayDigit weekday] ++ ' ' :: (twoDigits (minutes / 60) ++ ':' :: twoDigits (minutes % 60)) := by
    have hdigit : isWhitespace (Nat.digitChar (minutes % 60 % 10)) = false := by
      have hlt : minutes % 60 % 10 < 10 := Nat.mod_lt _ (by decide)
      generalize minutes % 60 % 10 = d at hlt ⊢
      revert d
      decide
    unfold dateOutput clock
    rw [String.toList_ofList, trim_concat (by decide), trim_eq_self_iff.mpr]
    · rfl
    · constructor
      · cases weekday <;> simp [dayDigit] <;> decide
      · simpa [twoDigits] using hdigit
  unfold parseDateOutput
  rw [String.toList_ofList, htext, splitOnce_append _ hblank]
  simp only [Option.bind_eq_bind, Option.bind_some,
    splitOnce_append _ (colon_not_mem_twoDigits hhour), hday, hparsed hhour, hparsed hminute]
  rw [if_pos ⟨by omega, by omega⟩, Nat.div_add_mod']

/-! ## Windows as intervals -/

/-- The window is open at `now`: its days, and its clocks as numbers. The end is not part of it. -/
def Covers (w : MaintenanceWindow) (now : LocalTime) : Prop :=
  now.weekday ∈ w.days ∧ ∃ start stop, ClockText w.start start ∧ ClockText w.stop stop ∧
    start ≤ now.minutes ∧ now.minutes < stop

theorem windowOpen_iff {w : MaintenanceWindow} {now : LocalTime} :
    windowOpen w now = true ↔ Covers w now := by
  unfold windowOpen Covers
  simp only [← parseClock_ok_iff]
  cases parseClock w.start with
  | error e => simp
  | ok start =>
    cases parseClock w.stop with
    | error e => simp
    | ok stop => simp [and_assoc]

theorem inWindow_iff {windows : List MaintenanceWindow} {now : LocalTime} :
    inWindow windows now = true ↔ ∃ w ∈ windows, Covers w now := by
  simp [inWindow, windowOpen_iff]

/-- **No window reaches the end of a day.** The last minute would have to be before some end, and
there is no later clock. -/
theorem windowOpen_lt {w : MaintenanceWindow} {now : LocalTime} (h : windowOpen w now = true) :
    now.minutes < lastMinute := by
  obtain ⟨-, start, stop, -, hstop, -, hlt⟩ := windowOpen_iff.mp h
  exact Nat.lt_of_lt_of_le hlt hstop.le

theorem ValidWindow.bounds {w : MaintenanceWindow} (h : ValidWindow w) :
    ∃ start stop, ClockText w.start start ∧ ClockText w.stop stop ∧ start < stop := by
  obtain ⟨start, stop, hstart, hstop, hlt⟩ := h.clocks
  exact ⟨start, stop, parseClock_ok_iff.mp hstart, parseClock_ok_iff.mp hstop, hlt⟩

/-- An accepted window is open at its start, on the first of its days. -/
theorem ValidWindow.opens {w : MaintenanceWindow} (h : ValidWindow w) :
    ∃ now : LocalTime, now.minutes ≤ lastMinute ∧ windowOpen w now = true := by
  obtain ⟨start, stop, hstart, hstop, hlt⟩ := h.bounds
  obtain ⟨day, hday⟩ := List.exists_mem_of_ne_nil w.days h.days
  exact ⟨⟨day, start⟩, hstart.le,
    windowOpen_iff.mpr ⟨hday, start, stop, hstart, hstop, Nat.le_refl start, hlt⟩⟩

/-- **Validated windows mean what they say.** None is skipped and each opens; the evaluator is the
plain reading of the clocks; and the permissions are those of the policy, of which an unknown local
time leaves nothing but an `always` reboot. -/
theorem validated_windows {config : Config} (h : config.validate = .ok ()) :
    (∀ w ∈ config.maintenance.windows, ∃ start stop,
        ClockText w.start start ∧ ClockText w.stop stop ∧ start < stop ∧
          parseClock w.start = .ok start ∧ parseClock w.stop = .ok stop) ∧
      (∀ w ∈ config.maintenance.windows, ∃ now : LocalTime,
        now.minutes ≤ lastMinute ∧ inWindow [w] now = true) ∧
      (∀ now, inWindow config.maintenance.windows now = true ↔
        ∃ w ∈ config.maintenance.windows, Covers w now) ∧
      (∀ s minutes, parseClock s = .ok minutes ↔ ClockText s minutes) ∧
      (∀ now,
        let opened := config.maintenance.enabled = true ∧
          ∃ t, now = some t ∧ ∃ w ∈ config.maintenance.windows, Covers w t
        ((permissions config now).applyPermitted = true ↔ opened) ∧
          ((permissions config now).installsPermitted = true ↔
            config.updates.automatic = true ∧ opened) ∧
          ((permissions config now).rebootPermitted = true ↔
            config.updates.rebootPolicy = .always ∨ config.updates.rebootPolicy = .ask ∧ opened)) ∧
      permissions config none =
        ⟨none, false, false, decide (config.updates.rebootPolicy = .always)⟩ := by
  have hvalid := (validate_ok_iff.mp h).windows
  refine ⟨fun w hw => ?_, fun w hw => ?_, fun now => inWindow_iff, fun s m => parseClock_ok_iff,
    fun now => ?_, ?_⟩
  · obtain ⟨start, stop, hstart, hstop, hlt⟩ := (hvalid w hw).bounds
    exact ⟨start, stop, hstart, hstop, hlt, parseClock_ok_iff.mpr hstart,
      parseClock_ok_iff.mpr hstop⟩
  · obtain ⟨now, hle, hopen⟩ := (hvalid w hw).opens
    exact ⟨now, hle, by simp [inWindow, hopen]⟩
  · have hopen : OpenAt config now ↔ config.maintenance.enabled = true ∧
        ∃ t, now = some t ∧ ∃ w ∈ config.maintenance.windows, Covers w t := by
      simp only [OpenAt, inWindow_iff]
    dsimp only
    rw [← hopen]
    exact ⟨applyPermitted_iff, installsPermitted_iff, rebootPermitted_iff⟩
  · cases hp : config.updates.rebootPolicy <;> simp [permissions, hp]

/-- A night window on weekends. -/
theorem validated_windows_weekend :
    let w : MaintenanceWindow := ⟨[.saturday, .sunday], "02:00", "04:00", some 90⟩
    let config : Config := { maintenance := { windows := [w] } }
    config.validate = .ok () ∧ inWindow [w] ⟨.sunday, 120⟩ = true ∧
      inWindow [w] ⟨.sunday, 240⟩ = false ∧
      ∃ now : LocalTime, now.minutes ≤ lastMinute ∧ inWindow [w] now = true := by
  intro w config
  have hvalid : config.validate = .ok () := by decide +kernel
  exact ⟨hvalid, by decide +kernel, by decide +kernel,
    (validated_windows hvalid).2.1 w (List.mem_singleton.mpr rfl)⟩

/-! ## Which schedules can be written down -/

/-- A stretch of one weekday, in minutes: `start ≤ minute < stop`, up to midnight. Unlike a window
it may end there. -/
structure Period where
  day : Weekday
  start : Nat
  stop : Nat
  nonempty : start < stop
  fits : stop ≤ 1440

namespace Period

def Holds (p : Period) (now : LocalTime) : Prop :=
  now.weekday = p.day ∧ p.start ≤ now.minutes ∧ now.minutes < p.stop

/-- The window with the same bounds, which is one only if the period does not end at midnight. -/
def toWindow (p : Period) : MaintenanceWindow := ⟨[p.day], clock p.start, clock p.stop, none⟩

theorem start_le (p : Period) : p.start ≤ lastMinute := by
  have hlt := p.nonempty
  have hle := p.fits
  unfold lastMinute
  omega

theorem toWindow_valid {p : Period} (h : p.stop ≤ lastMinute) : ValidWindow p.toWindow where
  days := List.cons_ne_nil _ _
  clocks := ⟨p.start, p.stop, parseClock_ok_iff.mpr (clock_clockText p.start_le),
    parseClock_ok_iff.mpr (clock_clockText h), p.nonempty⟩
  maxDuration := fun h => by cases h

theorem covers_toWindow_iff {p : Period} (h : p.stop ≤ lastMinute) {now : LocalTime} :
    Abora.Covers p.toWindow now ↔ p.Holds now := by
  have hstart := clock_clockText p.start_le
  have hstop := clock_clockText h
  unfold Abora.Covers Holds
  constructor
  · intro ⟨hday, a, b, ha, hb, hle, hlt⟩
    rw [ha.functional hstart] at hle
    rw [hb.functional hstop] at hlt
    exact ⟨List.mem_singleton.mp hday, hle, hlt⟩
  · intro ⟨hday, hle, hlt⟩
    exact ⟨List.mem_singleton.mpr hday, _, _, hstart, hstop, hle, hlt⟩

end Period

/-- The windows of an accepted configuration are open exactly in the schedule's periods. Whether
maintenance is enabled does not matter. -/
def Expressible (schedule : List Period) : Prop :=
  ∃ config : Config, config.validate = .ok () ∧
    ∀ now, inWindow config.maintenance.windows now = true ↔ ∃ p ∈ schedule, p.Holds now

theorem validate_windows_of_valid {windows : List MaintenanceWindow}
    (h : ∀ w ∈ windows, ValidWindow w) :
    ({ maintenance := { windows := windows } } : Config).validate = .ok () := by
  have hbase : ({} : Config).Valid := validate_ok_iff.mp rfl
  exact validate_ok_iff.mpr { hbase with windows := h }

/-- A period that ends at midnight holds at 23:59, where no window is open. -/
theorem Expressible.stop_le {schedule : List Period} (h : Expressible schedule) :
    ∀ p ∈ schedule, p.stop ≤ lastMinute := by
  obtain ⟨config, -, hexact⟩ := h
  intro p hp
  by_contra hlate
  have hholds : p.Holds ⟨p.day, lastMinute⟩ := ⟨rfl, p.start_le, Nat.lt_of_not_le hlate⟩
  have hopen := (hexact ⟨p.day, lastMinute⟩).mpr ⟨p, hp, hholds⟩
  obtain ⟨w, -, hw⟩ := List.any_eq_true.mp hopen
  exact Nat.lt_irrefl lastMinute (windowOpen_lt hw)

/-- **The language lacks the last minute of a day, and nothing else.** Period by period a window has
the same bounds, and a list of windows is open where one of them is. -/
theorem expressible_iff (schedule : List Period) :
    Expressible schedule ↔ ∀ p ∈ schedule, p.stop ≤ lastMinute := by
  constructor
  · exact Expressible.stop_le
  · intro h
    refine ⟨{ maintenance := { windows := schedule.map Period.toWindow } },
      validate_windows_of_valid fun w hw => ?_, fun now => ?_⟩
    · obtain ⟨p, hp, rfl⟩ := List.mem_map.mp hw
      exact Period.toWindow_valid (h p hp)
    · rw [inWindow_iff]
      constructor
      · intro ⟨w, hw, hcovers⟩
        obtain ⟨p, hp, rfl⟩ := List.mem_map.mp hw
        exact ⟨p, hp, (Period.covers_toWindow_iff (h p hp)).mp hcovers⟩
      · intro ⟨p, hp, hholds⟩
        exact ⟨p.toWindow, List.mem_map_of_mem hp,
          (Period.covers_toWindow_iff (h p hp)).mpr hholds⟩

/-- **A night cannot be split at midnight**: Monday from 22:00 up to 24:00 has no window. -/
theorem evening_not_expressible :
    ¬ ∀ schedule : List Period, Expressible schedule := by
  intro h
  let evening : Period := ⟨.monday, 1320, 1440, by decide, by decide⟩
  have hle : 1440 ≤ lastMinute := (h [evening]).stop_le evening (List.mem_singleton.mpr rfl)
  exact absurd hle (by decide)

end Abora
