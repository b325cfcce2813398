import Mathlib.Data.List.Basic
import Mathlib.Tactic.Ring
import Abora.Lib.Files

/-!
# Numbers in bytes

`leBytes k n` and `beBytes k n` are the `k` bytes of `n`, the lowest or the highest first. Each is
read back by its own reader as long as `n` fits (`ofLe_leBytes`, `ofBe_beBytes`), and whatever `k`
bytes are read, the number fits (`ofLe_lt`, `ofBe_lt`). The headers of binary files are made of such
fields: the boot logo has its size in the one order, the PNG it is made from in the other.
-/

namespace Abora.Lib

/-- The `k` lowest bytes of a number, the lowest first. What does not fit is cut off, as it is by
`to_le_bytes` of a truncated number and not by Python's `struct.pack`, which refuses it. -/
def leBytes : Nat → Nat → Bytes
  | 0, _ => []
  | k + 1, n => UInt8.ofNat (n % 256) :: leBytes k (n / 256)

def ofLe : Bytes → Nat
  | [] => 0
  | b :: bs => b.toNat + 256 * ofLe bs

/-- The highest byte first. -/
def beBytes (k n : Nat) : Bytes := (leBytes k n).reverse

def ofBe (bs : Bytes) : Nat := ofLe bs.reverse

@[simp] theorem length_leBytes (k n : Nat) : (leBytes k n).length = k := by
  induction k generalizing n with
  | zero => rfl
  | succ k ih => rw [leBytes, List.length_cons, ih]

@[simp] theorem length_beBytes (k n : Nat) : (beBytes k n).length = k := by
  rw [beBytes, List.length_reverse, length_leBytes]

theorem ofLe_leBytes {k n : Nat} (h : n < 256 ^ k) : ofLe (leBytes k n) = n := by
  induction k generalizing n with
  | zero =>
    rw [Nat.pow_zero] at h
    rw [leBytes, ofLe, Nat.lt_one_iff.mp h]
  | succ k ih =>
    have hdiv : n / 256 < 256 ^ k := by
      rw [Nat.pow_succ] at h
      exact Nat.div_lt_of_lt_mul (by rwa [Nat.mul_comm])
    have hbyte : (UInt8.ofNat (n % 256)).toNat = n % 256 :=
      UInt8.toNat_ofNat_of_lt' (Nat.mod_lt n (by decide))
    rw [leBytes, ofLe, ih hdiv, hbyte]
    exact Nat.mod_add_div n 256

theorem ofBe_beBytes {k n : Nat} (h : n < 256 ^ k) : ofBe (beBytes k n) = n := by
  rw [ofBe, beBytes, List.reverse_reverse, ofLe_leBytes h]

theorem ofLe_lt (bs : Bytes) : ofLe bs < 256 ^ bs.length := by
  induction bs with
  | nil => exact Nat.one_pos
  | cons b bs ih =>
    have hb := b.toNat_lt
    rw [ofLe, List.length_cons, Nat.pow_succ]
    omega

theorem ofBe_lt (bs : Bytes) : ofBe bs < 256 ^ bs.length := by
  have h := ofLe_lt bs.reverse
  rwa [List.length_reverse] at h

theorem eq_four {bs : Bytes} (h : bs.length = 4) : ∃ a b c d, bs = [a, b, c, d] := by
  match bs, h with
  | [a, b, c, d], _ => exact ⟨a, b, c, d, rfl⟩

end Abora.Lib
