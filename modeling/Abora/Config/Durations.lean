import Abora.Config.Schedule
import Abora.Config.Validate
import Abora.Lib.Decimal
import Abora.Lib.Machine

/-!
# Durations

`parse_duration` multiplies a number that fits in 64 bits by the seconds of its unit, and nothing
looks at the product. What the multiplication then does is a matter of the build: with overflow
checks it panics, without them it wraps. `parseDurationIn` is the function under either, and
`duration_exact_iff` says that the product is the only thing that can go wrong.

What a text *says* is stated without the parser (`DurationText`): a run of digits with a value and a
unit with its seconds. `parseDurationIn_cases` then says of every text that the parser multiplies
the two or refuses it, and the rest is arithmetic. The interval of an accepted configuration is read
by the same function, so the second half of the result needs nothing new.
-/

namespace Abora

open Lib Lib.Text Update

/-- `parse_duration` as compiled; `none` is a panic. -/
def parseDurationIn (build : Build) (value : String) : Option (Except String Nat) :=
  let value := trim value.toList
  let digits := value.takeWhile Char.isDigit
  let unit := value.dropWhile Char.isDigit
  if unit = [] then some (.error "missing unit (s, m, h, d)")
  else
    match parseUnsigned 64 digits with
    | none => some (.error "invalid number")
    | some number =>
      match unitSeconds unit with
      | none => some (.error s!"unknown unit `{String.ofList unit}` (expected s, m, h, d)")
      | some mult =>
        if number = 0 then some (.error "duration must be greater than zero")
        else (build.mul number mult).map .ok

/-- The configuration is read by release builds, so `parseDuration` is the same function in one of
them. -/
theorem parseDurationIn_release (value : String) :
    parseDurationIn .release value = some (parseDuration value) := by
  unfold parseDurationIn parseDuration
  dsimp only
  by_cases hunit : (trim value.toList).dropWhile Char.isDigit = []
  · rw [if_pos hunit, if_pos hunit]
  rw [if_neg hunit, if_neg hunit]
  cases parseUnsigned 64 ((trim value.toList).takeWhile Char.isDigit) with
  | none => rfl
  | some number =>
    cases unitSeconds ((trim value.toList).dropWhile Char.isDigit) with
    | none => rfl
    | some mult =>
      by_cases hzero : number = 0
      · simp only [hzero, if_true]
      · simp only [if_neg hzero, Build.mul, fit, Option.map_some]

/-! ## What a duration text says -/

/-- `value`, trimmed, is a run of digits and a unit: the number, and the seconds of the unit. -/
def DurationText (value : String) (number mult : Nat) : Prop :=
  ∃ digits unit, trim value.toList = digits ++ unit ∧ parseDigits digits = some number ∧
    unitSeconds unit = some mult

theorem unitSeconds_spec {unit : Chars} {mult : Nat} (h : unitSeconds unit = some mult) :
    0 < mult ∧ ∃ c, unit = [c] ∧ c.isDigit = false := by
  unfold unitSeconds at h
  split at h
  · cases h
    exact ⟨by decide, _, rfl, by decide⟩
  · cases h
    exact ⟨by decide, _, rfl, by decide⟩
  · cases h
    exact ⟨by decide, _, rfl, by decide⟩
  · cases h
    exact ⟨by decide, _, rfl, by decide⟩
  · cases h

/-- The two parts of a duration text are where the digits end: no unit begins with a digit. -/
theorem DurationText.cut {value : String} {number mult : Nat} (h : DurationText value number mult) :
    parseDigits ((trim value.toList).takeWhile Char.isDigit) = some number ∧
      unitSeconds ((trim value.toList).dropWhile Char.isDigit) = some mult := by
  obtain ⟨digits, unit, hcut, hnumber, hunit⟩ := h
  obtain ⟨-, hdigits, -⟩ := parseDigits_eq_some_iff.mp hnumber
  obtain ⟨-, c, rfl, hc⟩ := unitSeconds_spec hunit
  have hstop : ¬ c.isDigit = true := by simp [hc]
  have htake : (digits ++ [c]).takeWhile Char.isDigit = digits := by
    rw [List.takeWhile_append_of_pos hdigits, List.takeWhile_cons_of_neg hstop, List.append_nil]
  have hdrop : (digits ++ [c]).dropWhile Char.isDigit = [c] := by
    rw [List.dropWhile_append_of_pos hdigits, List.dropWhile_cons_of_neg hstop]
  rw [hcut, htake, hdrop]
  exact ⟨hnumber, hunit⟩

theorem durationText_of_cut {value : String} {number mult : Nat}
    (hnumber : parseDigits ((trim value.toList).takeWhile Char.isDigit) = some number)
    (hunit : unitSeconds ((trim value.toList).dropWhile Char.isDigit) = some mult) :
    DurationText value number mult :=
  ⟨_, _, List.takeWhile_append_dropWhile.symm, hnumber, hunit⟩

theorem DurationText.unique {value : String} {a b m n : Nat} (h : DurationText value a m)
    (h' : DurationText value b n) : a = b ∧ m = n := by
  obtain ⟨ha, hm⟩ := h.cut
  obtain ⟨hb, hn⟩ := h'.cut
  rw [ha] at hb
  rw [hm] at hn
  exact ⟨Option.some.inj hb, Option.some.inj hn⟩

/-- **What `parse_duration` does with any text.** It multiplies the number of a duration text, if
that is positive and fits; every other text is an error. Neither case depends on the build, except
for what the multiplication comes to. -/
theorem parseDurationIn_cases (build : Build) (value : String) :
    (∃ number mult, DurationText value number mult ∧ 0 < number ∧ number < 2 ^ 64 ∧
        parseDurationIn build value = (build.mul number mult).map .ok) ∨
      ((∀ number mult, DurationText value number mult → number = 0 ∨ 2 ^ 64 ≤ number) ∧
        ∃ e, parseDurationIn build value = some (.error e)) := by
  have hrun : ∀ c ∈ (trim value.toList).takeWhile Char.isDigit, c.isDigit = true :=
    List.all_eq_true.mp List.all_takeWhile
  unfold parseDurationIn
  dsimp only
  -- the tests in the order of the source: digits, a number of 64 bits, the unit, and not nothing
  rw [parseUnsigned_of_digits hrun]
  split
  · rename_i hempty
    refine .inr ⟨fun number mult h => ?_, _, rfl⟩
    have hunit := h.cut.2
    rw [hempty] at hunit
    cases hunit
  split
  · rename_i hnone
    refine .inr ⟨fun number mult h => ?_, _, rfl⟩
    rw [h.cut.1] at hnone
    have hbig : ¬ number < 2 ^ 64 := by
      intro hlt
      simp only [Option.filter_some, decide_eq_true hlt, if_true] at hnone
      cases hnone
    exact .inr (Nat.le_of_not_lt hbig)
  rename_i number hsome
  obtain ⟨hnumber, hlt⟩ := Option.filter_eq_some_iff.mp hsome
  have hlt : number < 2 ^ 64 := of_decide_eq_true hlt
  split
  · rename_i hunit
    refine .inr ⟨fun a mult h => ?_, _, rfl⟩
    rw [h.cut.2] at hunit
    cases hunit
  rename_i mult hunit
  have htext := durationText_of_cut hnumber hunit
  split
  · rename_i hzero
    refine .inr ⟨fun a m h => .inl ?_, _, rfl⟩
    rw [(h.unique htext).1, hzero]
  · rename_i hpos
    exact .inl ⟨number, mult, htext, Nat.pos_of_ne_zero hpos, hlt, rfl⟩

/-! ## When it is exact -/

/-- `value` is a duration text, and `secs` the exact, positive product, which fits in 64 bits. Zero
is said by no text, as the parser refuses it. -/
def SaysSeconds (value : String) (secs : Nat) : Prop :=
  ∃ number mult, DurationText value number mult ∧ secs = number * mult ∧ 0 < secs ∧ secs < 2 ^ 64

/-- A number that fits in 64 bits with a unit that takes it out of them. Every unit but `s` can. -/
def Overflows (value : String) : Prop :=
  ∃ number mult, DurationText value number mult ∧ number < 2 ^ 64 ∧ 2 ^ 64 ≤ number * mult

/-- It returns, and `Ok` exactly with what the text says. -/
def ExactOn (build : Build) (value : String) : Prop :=
  ∃ answer, parseDurationIn build value = some answer ∧
    ∀ secs, answer = .ok secs ↔ SaysSeconds value secs

theorem DurationText.saysSeconds_iff {value : String} {number mult : Nat}
    (h : DurationText value number mult) (hpos : 0 < number) {secs : Nat} :
    SaysSeconds value secs ↔ secs = number * mult ∧ number * mult < 2 ^ 64 := by
  constructor
  · rintro ⟨a, m, ha, rfl, -, hfits⟩
    obtain ⟨rfl, rfl⟩ := ha.unique h
    exact ⟨rfl, hfits⟩
  · rintro ⟨rfl, hfits⟩
    exact ⟨number, mult, h, rfl, Nat.mul_pos hpos (unitSeconds_spec h.cut.2).1, hfits⟩

theorem DurationText.overflows_iff {value : String} {number mult : Nat}
    (h : DurationText value number mult) (hlt : number < 2 ^ 64) :
    Overflows value ↔ ¬ number * mult < 2 ^ 64 := by
  rw [Nat.not_lt]
  constructor
  · intro ⟨a, m, ha, _, hbig⟩
    obtain ⟨rfl, rfl⟩ := ha.unique h
    exact hbig
  · intro hbig
    exact ⟨number, mult, h, hlt, hbig⟩

/-- A text whose number is zero or too big says nothing, and does not overflow either. -/
theorem silent_of_number {value : String}
    (h : ∀ number mult, DurationText value number mult → number = 0 ∨ 2 ^ 64 ≤ number) :
    (∀ secs, ¬ SaysSeconds value secs) ∧ ¬ Overflows value := by
  constructor
  · rintro secs ⟨number, mult, htext, rfl, hpos, hfits⟩
    rcases h number mult htext with rfl | hbig
    · simp at hpos
    · have hle : number ≤ number * mult :=
        Nat.le_mul_of_pos_right number (Nat.pos_of_mul_pos_left hpos)
      omega
  · intro ⟨number, mult, htext, hlt, hbig⟩
    rcases h number mult htext with rfl | hge
    · simp at hbig
    · omega

/-- One text, in one build: the product decides. A text that says nothing is refused in both builds,
which is exact as well. -/
theorem exactOn_iff {build : Build} {value : String} : ExactOn build value ↔ ¬ Overflows value := by
  rcases parseDurationIn_cases build value with
    ⟨number, mult, htext, hpos, hlt, hparse⟩ | ⟨hnot, e, hparse⟩
  · rw [htext.overflows_iff hlt, not_not]
    constructor
    · intro ⟨answer, hanswer, hexact⟩
      -- a text that says nothing may not be answered `Ok`
      by_contra hbig
      rw [hparse] at hanswer
      cases hmul : build.mul number mult with
      | none =>
        rw [hmul] at hanswer
        cases hanswer
      | some n =>
        rw [hmul] at hanswer
        cases hanswer
        exact hbig ((htext.saysSeconds_iff hpos).mp ((hexact n).mp rfl)).2
    · intro hfits
      refine ⟨.ok (number * mult), ?_, fun secs => ?_⟩
      · rw [hparse, Build.mul_exact_iff.mpr hfits]
        rfl
      · rw [htext.saysSeconds_iff hpos, Except.ok.injEq, eq_comm]
        exact (and_iff_left hfits).symm
  · obtain ⟨hsilent, hnoover⟩ := silent_of_number hnot
    refine iff_of_true ⟨.error e, hparse, fun secs => ?_⟩ hnoover
    exact ⟨fun h => (by cases h), fun h => absurd h (hsilent secs)⟩

/-- The interval of an accepted configuration: the release arithmetic, and no fallback, as the value
has been parsed once before. -/
theorem checkInterval_exact_iff {config : Config} (h : config.validate = .ok ()) :
    (∃ secs, SaysSeconds config.updates.checkInterval secs ∧
        checkInterval config = Duration.fromSecs secs) ↔
      ¬ Overflows config.updates.checkInterval := by
  obtain ⟨secs, hok⟩ := (validate_ok_iff.mp h).checkInterval
  have hinterval : checkInterval config = Duration.fromSecs secs := by
    unfold checkInterval
    rw [hok]
  have hparse := parseDurationIn_release config.updates.checkInterval
  rw [hok] at hparse
  constructor
  · rintro ⟨n, ⟨number, mult, htext, rfl, -, hfits⟩, -⟩ ⟨a, m, ha, -, hbig⟩
    obtain ⟨rfl, rfl⟩ := ha.unique htext
    omega
  · intro hfits
    obtain ⟨answer, hanswer, hexact⟩ := exactOn_iff.mpr hfits
    rw [hparse, Option.some.injEq] at hanswer
    exact ⟨secs, (hexact secs).mp hanswer.symm, hinterval⟩

/-- **Durations are exact unless the product leaves 64 bits**, whichever way it is compiled; and so
is the interval of an accepted configuration. -/
theorem duration_exact_iff (build : Build) (value : String) :
    (ExactOn build value ↔ ¬ Overflows value) ∧
      ∀ config : Config, config.validate = .ok () → config.updates.checkInterval = value →
        ((∃ secs, SaysSeconds value secs ∧ checkInterval config = Duration.fromSecs secs) ↔
          ¬ Overflows value) := by
  refine ⟨exactOn_iff, fun config h hvalue => ?_⟩
  rw [← hvalue]
  exact checkInterval_exact_iff h

/-- The default interval is six hours. -/
theorem duration_exact_default :
    ({} : Config).validate = .ok () ∧
      ((∃ secs, SaysSeconds "6h" secs ∧ checkInterval {} = Duration.fromSecs secs) ↔
        ¬ Overflows "6h") := by
  exact ⟨validate_default, (duration_exact_iff .release "6h").2 {} validate_default rfl⟩

/-- `2 ^ 57` days are a multiple of `2 ^ 64` seconds: a release build reads them as no time at all,
and a debug build panics. -/
theorem duration_wraps_to_zero :
    parseDuration "144115188075855872d" = .ok 0 ∧
      parseDurationIn .debug "144115188075855872d" = none ∧
      ¬ ∀ build value, ExactOn build value := by
  have hzero : parseDuration "144115188075855872d" = .ok 0 := by decide +kernel
  have hpanic : parseDurationIn .debug "144115188075855872d" = none := by decide +kernel
  refine ⟨hzero, hpanic, fun h => ?_⟩
  obtain ⟨answer, hanswer, -⟩ := h .debug "144115188075855872d"
  rw [hpanic] at hanswer
  cases hanswer

end Abora
