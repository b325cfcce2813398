import Mathlib.Data.Rat.Floor
import Mathlib.Tactic.Linarith

/-!
# Numbers as a program has them

A number either fits the bits it is computed in, or what becomes of it is a matter of how the
program was built: a build with overflow checks panics, one without them keeps the remainder
(`fit`). A panic is `none`, here and wherever a function may panic. What is computed in bits that
suffice is computed exactly (`fit_of_lt`), and a debug build computes nothing else
(`fit_debug_eq_some_iff`). So a result about a computation in fixed width comes in two halves: the
exact value while everything fits, and for the rest either a panic or the value modulo a power of
two — and the two builds differ in the second half only (`fit_exact_iff`).

A floating point number is either a rational or not finite. Only what is done with it afterwards is
described here, and not how it is read or computed: it is rounded to the nearest whole number, a tie
going to the even one (`nearestEven`), which is never further away than one half
(`abs_nearestEven_sub_le`).
-/

namespace Abora.Lib

/-- How unsigned arithmetic is compiled: a debug build checks, a release build wraps. -/
inductive Build where
  | debug
  | release
  deriving DecidableEq, Repr

/-- A value of so many bits, as compiled: the value itself if it fits, and else a panic (`none`) in
a build that checks and what is left of it in `bits` bits in one that does not. -/
def fit (build : Build) (bits n : Nat) : Option Nat :=
  match build with
  | .debug => if n < 2 ^ bits then some n else none
  | .release => some (n % 2 ^ bits)

/-- `number * mult`, for `u64`; `none` is a panic. -/
def Build.mul (build : Build) (number mult : Nat) : Option Nat := fit build 64 (number * mult)

section

variable {build : Build} {bits n m : Nat}

theorem fit_of_lt (h : n < 2 ^ bits) : fit build bits n = some n := by
  cases build with
  | debug => exact if_pos h
  | release => exact congrArg some (Nat.mod_eq_of_lt h)

theorem fit_bind {α : Type} (h : n < 2 ^ bits) (f : Nat → Option α) :
    (fit build bits n).bind f = f n := by
  rw [fit_of_lt h]
  rfl

theorem fit_debug_eq_some_iff : fit .debug bits n = some m ↔ n < 2 ^ bits ∧ m = n := by
  show (if n < 2 ^ bits then some n else none) = some m ↔ _
  by_cases h : n < 2 ^ bits
  · rw [if_pos h, Option.some.injEq, eq_comm]
    exact (and_iff_right h).symm
  · rw [if_neg h]
    exact iff_of_false (fun hnone => by cases hnone) (fun hfits => h hfits.1)

/-- What comes out is what went in wherever that is certain: in a debug build, which would have
panicked otherwise, and in any build if the value fits. -/
theorem eq_of_fit (h : fit build bits n = some m) (hn : build = .debug ∨ n < 2 ^ bits) : n = m := by
  rcases hn with rfl | hn
  · exact (fit_debug_eq_some_iff.mp h).2.symm
  · rw [fit_of_lt hn] at h
    exact Option.some.inj h

/-- A computation is exact just where its result fits, in either build. -/
theorem fit_exact_iff : fit build bits n = some n ↔ n < 2 ^ bits := by
  constructor
  · intro h
    cases build with
    | debug => exact (fit_debug_eq_some_iff.mp h).1
    | release =>
      rw [← Option.some.inj h]
      exact Nat.mod_lt _ (Nat.two_pow_pos bits)
  · exact fit_of_lt

theorem Build.mul_exact_iff {number mult : Nat} :
    build.mul number mult = some (number * mult) ↔ number * mult < 2 ^ 64 :=
  fit_exact_iff

end

/-! ## Floating point numbers -/

/-- An `f64`, as far as it is looked at: a number, or an infinity or no number at all. Both zeros
are the number zero. -/
inductive F64 where
  | notFinite
  | finite (value : ℚ)
  deriving DecidableEq, Repr

/-- The nearest natural number, and of two that are equally near the even one: the rounding mode of
IEEE 754 arithmetic, and of `Duration::from_secs_f64`. Meant for numbers that are not negative. -/
def nearestEven (x : ℚ) : Nat :=
  let down := ⌊x⌋₊
  if x - down < 1 / 2 ∨ x - down = 1 / 2 ∧ down % 2 = 0 then down else down + 1

/-- Rounding moves a number by at most one half. -/
theorem abs_nearestEven_sub_le {x : ℚ} (h : 0 ≤ x) : |(nearestEven x : ℚ) - x| ≤ 1 / 2 := by
  have hdown : (⌊x⌋₊ : ℚ) ≤ x := Nat.floor_le h
  have hup : x < ⌊x⌋₊ + 1 := Nat.lt_floor_add_one x
  unfold nearestEven
  dsimp only
  split
  · rename_i hnear
    have hhalf : x - ⌊x⌋₊ ≤ 1 / 2 := hnear.elim le_of_lt fun htie => le_of_eq htie.1
    rw [abs_le]
    constructor <;> linarith
  · rename_i hfar
    have hhalf : 1 / 2 ≤ x - ⌊x⌋₊ := not_lt.mp fun hlt => hfar (.inl hlt)
    rw [abs_le, Nat.cast_add, Nat.cast_one]
    constructor <;> linarith

end Abora.Lib
