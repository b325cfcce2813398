import Abora.Lib.Text

/-!
# Numerals in a radix

`char::to_digit` and `from_str_radix`, with the value of a digit string as a fold. The library's
number parser has a grammar of its own: a sign is welcome where a caller may have had plain digits
in mind (`fromStrRadix_cons_plus`). That is harmless where a number is read from a field of its own,
and not where a text is cut into pairs that are each handed to the parser: a pair of a sign and a
digit is then a byte.

A text without any digit is refused, as is a number that does not fit the type; for plain digits
that fit, the parser gives their value (`fromStrRadix_of_digits`).
-/

namespace Abora.Lib.Text

/-- `char::to_digit`, for a radix of at most 36. -/
def toDigit (radix : Nat) (c : Char) : Option Nat :=
  let n := c.toNat
  let d :=
    if 48 ≤ n ∧ n ≤ 57 then some (n - 48)
    else if 97 ≤ n ∧ n ≤ 122 then some (n - 87)
    else if 65 ≤ n ∧ n ≤ 90 then some (n - 55)
    else none
  d.filter (· < radix)

def isDigitIn (radix : Nat) (c : Char) : Bool := (toDigit radix c).isSome

/-- The number a text denotes; a character that is no digit counts as zero. Whoever uses it has
looked at the digits before. -/
def numeral (radix : Nat) (s : Chars) : Nat :=
  s.foldl (fun n c => radix * n + (toDigit radix c).getD 0) 0

/-- `from_str_radix` at an unsigned type of `bits` bits: a plus sign or none, then digits, at least
one, and a value the type can hold. -/
def fromStrRadix (bits radix : Nat) (s : Chars) : Option Nat :=
  let digits := if s.head? = some '+' then s.tail else s
  if digits ≠ [] ∧ digits.all (isDigitIn radix) then
    some (numeral radix digits) |>.filter (· < 2 ^ bits)
  else none

/-! ## Digits -/

theorem toDigit_lt {radix d : Nat} {c : Char} (h : toDigit radix c = some d) : d < radix := by
  unfold toDigit at h
  rw [Option.filter_eq_some_iff] at h
  exact of_decide_eq_true h.2

theorem toDigit_range {radix d : Nat} {c : Char} (h : toDigit radix c = some d) :
    48 ≤ c.toNat ∧ c.toNat ≤ 122 := by
  unfold toDigit at h
  rw [Option.filter_eq_some_iff] at h
  have h := h.1
  split at h
  · omega
  split at h
  · omega
  split at h
  · omega
  · cases h

theorem utf8Size_of_digit {radix : Nat} {c : Char} (h : isDigitIn radix c = true) :
    c.utf8Size = 1 := by
  obtain ⟨d, hd⟩ := Option.isSome_iff_exists.mp h
  have hrange := toDigit_range hd
  refine Char.utf8Size_eq_one_iff.mpr ?_
  show c.val.toNat ≤ 127
  have hval : c.val.toNat = c.toNat := rfl
  omega

theorem numeral_pair (radix : Nat) (c d : Char) :
    numeral radix [c, d] = radix * (toDigit radix c).getD 0 + (toDigit radix d).getD 0 := by
  simp [numeral]

theorem toDigit_hexDigit {d : Nat} (h : d < 16) : toDigit 16 (hexDigit d) = some d := by
  revert d
  decide

/-! ## Decimal digits -/

theorem digitChar_spec {d : Nat} (h : d < 10) :
    (Nat.digitChar d).isDigit = true ∧ (Nat.digitChar d).toNat = 48 + d := by
  revert d
  decide

theorem exists_digitChar {c : Char} (h : c.isDigit = true) : ∃ d < 10, c = Nat.digitChar d := by
  have hrange : 48 ≤ c.toNat ∧ c.toNat ≤ 57 := by
    have hval : (decide (c.val ≥ '0'.val) && decide (c.val ≤ '9'.val)) = true := h
    simp only [Bool.and_eq_true, decide_eq_true_eq] at hval
    exact ⟨UInt32.le_iff_toNat_le.mp hval.1, UInt32.le_iff_toNat_le.mp hval.2⟩
  refine ⟨c.toNat - 48, by omega, ?_⟩
  have hd := (digitChar_spec (d := c.toNat - 48) (by omega)).2
  rw [← Char.toNat_inj, hd]
  omega

def twoDigits (n : Nat) : Chars := [Nat.digitChar (n / 10), Nat.digitChar (n % 10)]

theorem twoDigits_isDigit {n : Nat} (h : n < 100) : (twoDigits n).all Char.isDigit = true := by
  have htens := (digitChar_spec (d := n / 10) (by omega)).1
  have hones := (digitChar_spec (d := n % 10) (by omega)).1
  simp [twoDigits, htens, hones]

theorem exists_twoDigits {c d : Char} (hc : c.isDigit = true) (hd : d.isDigit = true) :
    ∃ n < 100, [c, d] = twoDigits n := by
  obtain ⟨a, ha, rfl⟩ := exists_digitChar hc
  obtain ⟨b, hb, rfl⟩ := exists_digitChar hd
  refine ⟨10 * a + b, by omega, ?_⟩
  have htens : (10 * a + b) / 10 = a := by omega
  have hones : (10 * a + b) % 10 = b := by omega
  rw [twoDigits, htens, hones]

theorem parseUnsigned_twoDigits {n : Nat} (h : n < 100) {bits : Nat} (hbits : 7 ≤ bits) :
    parseUnsigned bits (twoDigits n) = some n := by
  have htens := (digitChar_spec (d := n / 10) (by omega)).2
  have hones := (digitChar_spec (d := n % 10) (by omega)).2
  have hplus : Nat.digitChar (n / 10) ≠ '+' := by
    intro he
    rw [he] at htens
    have hval : '+'.toNat = 43 := rfl
    omega
  have hfits : n < 2 ^ bits := by
    have hpow : 2 ^ 7 ≤ 2 ^ bits := Nat.pow_le_pow_right (by decide) hbits
    omega
  have hvalue : 10 * (48 + n / 10 - '0'.toNat) + (48 + n % 10 - '0'.toNat) = n := by
    have hval : '0'.toNat = 48 := rfl
    omega
  have hdigits : parseDigits (twoDigits n) = some n := by
    unfold parseDigits
    rw [if_pos ⟨by simp [twoDigits], twoDigits_isDigit h⟩]
    simp only [twoDigits, List.foldl_cons, List.foldl_nil, htens, hones, Nat.mul_zero, Nat.zero_add,
      hvalue]
  have hhead : (twoDigits n).head? ≠ some '+' := by simp [twoDigits, hplus]
  unfold parseUnsigned
  rw [if_neg hhead, hdigits]
  simp [hfits]

/-! ## The parser's grammar -/

theorem not_isDigitIn_plus (radix : Nat) : isDigitIn radix '+' = false := rfl

theorem fromStrRadix_of_digits {bits radix : Nat} {s : Chars} (hne : s ≠ [])
    (h : s.all (isDigitIn radix) = true) (hlt : numeral radix s < 2 ^ bits) :
    fromStrRadix bits radix s = some (numeral radix s) := by
  have hhead : s.head? ≠ some '+' := by
    intro hplus
    have hdigit := List.all_eq_true.mp h '+' (List.mem_of_mem_head? hplus)
    rw [not_isDigitIn_plus] at hdigit
    cases hdigit
  simp [fromStrRadix, hhead, hne, h, hlt]

theorem fromStrRadix_cons_plus (bits radix : Nat) {s : Chars} (h : s.head? ≠ some '+') :
    fromStrRadix bits radix ('+' :: s) = fromStrRadix bits radix s := by
  simp [fromStrRadix, h]

end Abora.Lib.Text
