import Abora.Lib.Slice
import Abora.Update.Runner

/-!
# The end of an error text (`tail` in `abora-update/src/host.rs`)

The root helper and the runner quote the end of what `apt-get` wrote, found by stepping from a byte
offset to the next character boundary. The offset is what is over the limit, so it may be inside a
character, and a slice that begins there is a panic.

The loop here is the source's, with the steps it may take as an argument: it runs out of them when
it would run on, and an offset that is no boundary is a slice that panics. Neither happens, because
a character has at most four bytes and the end of the text is a boundary (`exists_dropBytes`). Four
looks are enough for every text and limit, and what is found is the longest end that fits.
-/

namespace Abora.Update

open Abora.Lib Abora.Lib.Text

/-- The `while` loop of `tail`, for at most `fuel` looks. -/
def nextBoundary (text : Chars) : Nat → Nat → Option Nat
  | 0, _ => none
  | fuel + 1, start =>
    if isCharBoundary text start then some start else nextBoundary text fuel (start + 1)

/-- `tail`, byte by byte; `none` is a loop that is still running, or a panic. -/
def tailIn (fuel : Nat) (text : Chars) (max : Nat) : Option Chars :=
  if byteLen text ≤ max then some (Text.trim text)
  else do
    let start ← nextBoundary text fuel (byteLen text - max)
    let rest ← slice text start (byteLen text)
    some (Text.trim rest)

/-- The longest suffix that fits. A suffix of the characters begins on a boundary, so the definition
does not have to mention any. -/
structure LongestSuffix (max : Nat) (text rest : Chars) : Prop where
  isSuffix : rest <:+ text
  fits : byteLen rest ≤ max
  longest : ∀ other, other <:+ text → byteLen other ≤ max → other <:+ rest

/-! ## The loop -/

/-- The loop stops at the first boundary it comes to, if it has enough looks to get there. -/
theorem nextBoundary_eq {text : Chars} {stop : Nat} (hstop : isCharBoundary text stop = true) :
    ∀ {fuel start : Nat}, start ≤ stop → stop < start + fuel →
      (∀ i, start ≤ i → i < stop → isCharBoundary text i = false) →
      nextBoundary text fuel start = some stop := by
  intro fuel
  induction fuel with
  | zero =>
    intro start hle hlt _
    omega
  | succ fuel ih =>
    intro start hle hlt hnot
    unfold nextBoundary
    rcases Nat.lt_or_eq_of_le hle with h | rfl
    · rw [hnot start (Nat.le_refl _) h, if_neg (by decide)]
      exact ih h (by omega) fun i hi => hnot i (by omega)
    · rw [if_pos hstop]

theorem dropBytes_zero (text : Chars) : dropBytes 0 text = text := by
  cases text with
  | nil => rfl
  | cons c cs => exact if_pos rfl

/-- **The loop steps over at most three bytes**, those of a cut character, and stops where
`dropBytes` does. -/
theorem exists_dropBytes {text : Chars} {n : Nat} (hn : n ≤ byteLen text) :
    ∃ pre, text = pre ++ dropBytes n text ∧ n ≤ byteLen pre ∧ byteLen pre ≤ n + 3 ∧
      ∀ i, n ≤ i → i < byteLen pre → isCharBoundary text i = false := by
  induction text generalizing n with
  | nil => exact ⟨[], rfl, hn, Nat.zero_le _, fun i _ hi => absurd hi (Nat.not_lt_zero i)⟩
  | cons c cs ih =>
    by_cases hzero : n = 0
    · rw [hzero, dropBytes_zero]
      exact ⟨[], rfl, Nat.le_refl _, Nat.zero_le _, fun i _ hi => absurd hi (Nat.not_lt_zero i)⟩
    have hdrop : dropBytes n (c :: cs) = dropBytes (n - c.utf8Size) cs := if_neg hzero
    have hsize : c.utf8Size ≤ 4 := c.utf8Size_le_four
    rw [byteLen_cons] at hn
    -- a boundary behind `c` is one of the rest
    have hbehind {i : Nat} (hi : 0 < i) (hbound : isCharBoundary (c :: cs) i = true) :
        c.utf8Size ≤ i ∧ isCharBoundary cs (i - c.utf8Size) = true := by
      obtain ⟨a, b, hab, rfl⟩ := isCharBoundary_iff.mp hbound
      cases a with
      | nil => exact absurd hi (Nat.lt_irrefl _)
      | cons d a =>
        obtain ⟨rfl, hcs⟩ := List.cons.inj hab
        rw [byteLen_cons]
        exact ⟨Nat.le_add_right _ _, isCharBoundary_iff.mpr ⟨a, b, hcs, (by omega)⟩⟩
    by_cases hinside : n ≤ c.utf8Size
    · rw [hdrop, Nat.sub_eq_zero_of_le hinside, dropBytes_zero]
      have hlen : byteLen [c] = c.utf8Size := by simp
      refine ⟨[c], rfl, by omega, by omega, fun i hi hlt => ?_⟩
      rw [Bool.eq_false_iff]
      intro hbound
      have hge := (hbehind (by omega) hbound).1
      omega
    · obtain ⟨pre, hcut, hle, hlt, hnot⟩ := ih (n := n - c.utf8Size) (by omega)
      rw [hdrop]
      refine ⟨c :: pre, congrArg (c :: ·) hcut, by rw [byteLen_cons]; omega,
        by rw [byteLen_cons]; omega, fun i hi hpre => ?_⟩
      rw [byteLen_cons] at hpre
      rw [Bool.eq_false_iff]
      intro hbound
      have hrest := (hbehind (by omega) hbound).2
      rw [hnot _ (by omega) (by omega)] at hrest
      cases hrest

/-! ## What it finds -/

/-- A shorter end of a text ends a longer one. Ends of one text are compared by their lengths. -/
theorem suffix_of_byteLen_le {a b text : Chars} (ha : a <:+ text) (hb : b <:+ text)
    (hle : byteLen a ≤ byteLen b) : a <:+ b := by
  rcases List.suffix_or_suffix_of_suffix ha hb with h | ⟨pre, rfl⟩
  · exact h
  · rw [byteLen_append] at hle
    cases pre with
    | nil => exact List.suffix_rfl
    | cons c pre =>
      have hpos := c.utf8Size_pos
      rw [byteLen_cons] at hle
      omega

theorem longestSuffix_self {max : Nat} {text : Chars} (h : byteLen text ≤ max) :
    LongestSuffix max text text := ⟨List.suffix_rfl, h, fun _ hother _ => hother⟩

theorem longestSuffix_dropBytes {max : Nat} {text : Chars} (h : max < byteLen text) :
    LongestSuffix max text (dropBytes (byteLen text - max) text) := by
  obtain ⟨pre, hcut, hle, -, hnot⟩ := exists_dropBytes (Nat.sub_le (byteLen text) max)
  have hlen : byteLen text = byteLen pre + byteLen (dropBytes (byteLen text - max) text) := by
    rw [← byteLen_append, ← hcut]
  have hsuffix : dropBytes (byteLen text - max) text <:+ text := ⟨pre, hcut.symm⟩
  refine ⟨hsuffix, by omega, fun other hother hfits => ?_⟩
  by_contra hlonger
  have hlt : byteLen (dropBytes (byteLen text - max) text) < byteLen other := by
    refine Nat.lt_of_not_le fun hge => hlonger (suffix_of_byteLen_le hother hsuffix hge)
  -- a longer end that fits would begin on a boundary the loop passed by
  obtain ⟨before, hbefore⟩ := hother
  have hat : byteLen text = byteLen before + byteLen other := by rw [← hbefore, byteLen_append]
  have hbound : isCharBoundary text (byteLen before) = true :=
    isCharBoundary_iff.mpr ⟨before, other, hbefore.symm, rfl⟩
  rw [hnot _ (by omega) (by omega)] at hbound
  cases hbound

/-- **Four looks are enough**, and what is sliced is there: the two ways to get `none` are both out
of reach. -/
theorem tailIn_eq {fuel : Nat} (hfuel : 4 ≤ fuel) (text : Chars) (max : Nat) :
    tailIn fuel text max = some (tail text max) := by
  unfold tailIn tail
  split
  · rfl
  · rename_i hlong
    obtain ⟨pre, hcut, hle, hlt, hnot⟩ := exists_dropBytes (Nat.sub_le (byteLen text) max)
    generalize dropBytes (byteLen text - max) text = rest at hcut ⊢
    have hbound : isCharBoundary text (byteLen pre) = true :=
      isCharBoundary_iff.mpr ⟨pre, rest, hcut, rfl⟩
    have hrest : slice text (byteLen pre) (byteLen text) = some rest := by
      have hend := splitAtByte_append rest [] 0
      rw [hcut, byteLen_append, slice_append rfl]
      rw [Nat.add_zero, List.append_nil] at hend
      simp [hend]
    rw [nextBoundary_eq hbound hle (by omega) hnot]
    simp [hrest]

/-- **The tail of every text**: the loop ends, nothing panics, and what is left is the longest end
that fits, trimmed; a text that fits is trimmed as a whole. -/
theorem tail_longest_suffix {fuel : Nat} (hfuel : 4 ≤ fuel) (text : Chars) (max : Nat) :
    ∃ rest, tailIn fuel text max = some (Text.trim rest) ∧ LongestSuffix max text rest ∧
      (byteLen text ≤ max → rest = text) := by
  rw [tailIn_eq hfuel]
  unfold tail
  split
  · rename_i hfits
    exact ⟨text, rfl, longestSuffix_self hfits, fun _ => rfl⟩
  · rename_i hlong
    exact ⟨_, rfl, longestSuffix_dropBytes (Nat.lt_of_not_le hlong),
      fun h => absurd h hlong⟩

/-- A cut inside the second `ä`: the loop takes one step. -/
theorem tail_longest_suffix_umlauts :
    4 ≤ 4 ∧ ∃ rest, tailIn 4 ['x', 'ä', 'ä', ' '] 2 = some (Text.trim rest) ∧
      LongestSuffix 2 ['x', 'ä', 'ä', ' '] rest ∧
      (byteLen ['x', 'ä', 'ä', ' '] ≤ 2 → rest = ['x', 'ä', 'ä', ' ']) :=
  ⟨Nat.le_refl 4, tail_longest_suffix (Nat.le_refl 4) _ _⟩

end Abora.Update
