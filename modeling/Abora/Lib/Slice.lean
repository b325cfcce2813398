import Abora.Lib.Text

/-!
# Slicing a text by bytes

`&s[i..j]` counts bytes, and a byte offset inside a character is a panic. `splitAtByte` is the cut
at one offset, `slice` the two of them, and the offsets at which a text may be cut are its character
boundaries (`isCharBoundary_iff`). So a program that has only looked at the *length* of a text
before it slices it may panic, and whether it does depends on characters it has not looked at.

`slice_append` finds a slice behind a prefix whose length is known, which is how a loop over equal
slices is followed from one to the next.
-/

namespace Abora.Lib.Text

/-- What is before and after byte `n`; `none` past the end or inside a character. An offset at
either end of the text is a boundary like any other. -/
def splitAtByte (n : Nat) : Chars → Option (Chars × Chars)
  | [] => if n = 0 then some ([], []) else none
  | c :: cs =>
    if n = 0 then some ([], c :: cs)
    else if c.utf8Size ≤ n then
      (splitAtByte (n - c.utf8Size) cs).map fun p => (c :: p.1, p.2)
    else none

/-- `&s[i..j]`; `none` is a panic. -/
def slice (s : Chars) (i j : Nat) : Option Chars := do
  let (head, _) ← splitAtByte j s
  let (_, middle) ← splitAtByte i head
  some middle

/-- `str::is_char_boundary`. -/
def isCharBoundary (s : Chars) (i : Nat) : Bool := (splitAtByte i s).isSome

@[simp] theorem splitAtByte_zero (s : Chars) : splitAtByte 0 s = some ([], s) := by
  cases s <;> simp [splitAtByte]

theorem byteLen_append (s t : Chars) : byteLen (s ++ t) = byteLen s + byteLen t := by
  simp [byteLen]

theorem splitAtByte_append (s t : Chars) (n : Nat) :
    splitAtByte (byteLen s + n) (s ++ t) = (splitAtByte n t).map fun p => (s ++ p.1, p.2) := by
  induction s with
  | nil => simp
  | cons c s ih =>
    have hpos : 0 < c.utf8Size := c.utf8Size_pos
    have hne : byteLen (c :: s) + n ≠ 0 := by
      rw [byteLen_cons]
      omega
    have hle : c.utf8Size ≤ byteLen (c :: s) + n := by
      rw [byteLen_cons]
      omega
    have hrest : byteLen (c :: s) + n - c.utf8Size = byteLen s + n := by
      rw [byteLen_cons]
      omega
    rw [List.cons_append, splitAtByte, if_neg hne, if_pos hle, hrest, ih, Option.map_map]
    rfl

theorem splitAtByte_eq_some {n : Nat} {s a b : Chars} (h : splitAtByte n s = some (a, b)) :
    s = a ++ b ∧ byteLen a = n := by
  induction s generalizing n a with
  | nil =>
    unfold splitAtByte at h
    split at h
    · rename_i hzero
      cases h
      exact ⟨rfl, hzero.symm⟩
    · cases h
  | cons c s ih =>
    unfold splitAtByte at h
    split at h
    · rename_i hzero
      cases h
      exact ⟨rfl, hzero.symm⟩
    split at h
    · obtain ⟨⟨a', b'⟩, hcut, hp⟩ := Option.map_eq_some_iff.mp h
      cases hp
      obtain ⟨hs, hlen⟩ := ih hcut
      refine ⟨by rw [hs]; rfl, ?_⟩
      rw [byteLen_cons, hlen]
      omega
    · cases h

theorem isCharBoundary_iff {s : Chars} {i : Nat} :
    isCharBoundary s i = true ↔ ∃ a b, s = a ++ b ∧ byteLen a = i := by
  unfold isCharBoundary
  constructor
  · intro h
    obtain ⟨⟨a, b⟩, hcut⟩ := Option.isSome_iff_exists.mp h
    exact ⟨a, b, splitAtByte_eq_some hcut⟩
  · rintro ⟨a, b, rfl, rfl⟩
    have happend := splitAtByte_append a b 0
    rw [Nat.add_zero] at happend
    simp [happend]

/-- **A slice behind a prefix** is one cut of what follows the prefix. -/
theorem slice_append {s : Chars} {i : Nat} (h : byteLen s = i) (t : Chars) (k : Nat) :
    slice (s ++ t) i (i + k) = (splitAtByte k t).map Prod.fst := by
  unfold slice
  rw [← h, splitAtByte_append]
  cases splitAtByte k t with
  | none => rfl
  | some p =>
    have hcut : splitAtByte (byteLen s) (s ++ p.1) = some (s, p.1) := by
      have happend := splitAtByte_append s p.1 0
      rw [Nat.add_zero, splitAtByte_zero, Option.map_some, List.append_nil] at happend
      exact happend
    simp [hcut]

end Abora.Lib.Text
