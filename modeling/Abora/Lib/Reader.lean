import Abora.Lib.Numerals

/-!
# Reading from the front of a text

The standard library's address parser, as a library: a reader takes characters off the front, or
fails and leaves the text as it was, so an alternative starts where the first attempt did. There is
no other backtracking, and no error but that something did not read.

What a caller wants to know about an accepted text is often only which characters it is made of:
that an address holds no slash says enough about the URL it is put into. `Takes P r` says that `r`
takes none but characters of `P`; it is closed under everything readers are built with, so one line
for every part of a parser is all the work.
-/

namespace Abora.Lib

open Text

abbrev Reader (α : Type) := StateT Chars Option α

namespace Reader

variable {α β : Type} {P : Char → Prop}

/-- Run a reader that must use the whole text. -/
def parse (r : Reader α) (s : Chars) : Option α :=
  match r.run s with
  | some (a, []) => some a
  | _ => none

/-- `read_given_char`. -/
def char (target : Char) : Reader Unit := fun s =>
  match s with
  | [] => none
  | c :: cs => if c = target then some ((), cs) else none

/-- What the reader reads, or nothing at all. -/
def optional (r : Reader α) : Reader (Option α) := fun s =>
  match r s with
  | some (a, rest) => some (some a, rest)
  | none => some (none, s)

def orElse (r t : Reader α) : Reader α := fun s =>
  match r s with
  | some out => some out
  | none => t s

/-- `read_separator`: the separator comes before every item but the first. -/
def separator (sep : Char) (first : Bool) (item : Reader α) : Reader α :=
  if first then item else do
    char sep
    item

/-- `read_number`: all the digits there are, at most `maxDigits` of them, at an unsigned type of
`bits` bits. A zero in front of other digits is refused unless it is allowed. -/
def number (bits radix : Nat) (maxDigits : Option Nat) (allowZeroPrefix : Bool) : Reader Nat :=
  fun s =>
    let digits := s.takeWhile (isDigitIn radix)
    if digits = [] then none
    else if maxDigits.any (· < digits.length) then none
    else if !allowZeroPrefix && digits.head? == some '0' && decide (1 < digits.length) then none
    else if numeral radix digits < 2 ^ bits then
      some (numeral radix digits, s.dropWhile (isDigitIn radix))
    else none

/-! ## What a reader takes -/

/-- Every character the reader takes is one of `P`, whatever it makes of them and wherever it
stops. -/
def Takes (P : Char → Prop) (r : Reader α) : Prop :=
  ∀ s a rest, r s = some (a, rest) → ∃ used, s = used ++ rest ∧ ∀ c ∈ used, P c

theorem takes_pure (a : α) : Takes P (pure a : Reader α) := by
  intro s b rest h
  cases h
  exact ⟨[], rfl, fun c hc => by cases hc⟩

theorem takes_bind {r : Reader α} {f : α → Reader β} (hr : Takes P r)
    (hf : ∀ a, Takes P (f a)) : Takes P (r >>= f) := by
  intro s b rest h
  have hbind : ((r s).bind fun p => f p.1 p.2) = some (b, rest) := h
  obtain ⟨⟨a, mid⟩, ha, hb⟩ := Option.bind_eq_some_iff.mp hbind
  obtain ⟨u, rfl, hu⟩ := hr s a mid ha
  obtain ⟨v, rfl, hv⟩ := hf a mid b rest hb
  refine ⟨u ++ v, (List.append_assoc u v rest).symm, fun c hc => ?_⟩
  rcases List.mem_append.mp hc with hc | hc
  · exact hu c hc
  · exact hv c hc

theorem takes_char {c : Char} (hc : P c) : Takes P (char c) := by
  intro s a rest h
  cases s with
  | nil => cases h
  | cons d cs =>
    by_cases hd : d = c
    · simp only [char, hd, if_true, Option.some.injEq, Prod.mk.injEq] at h
      refine ⟨[d], by rw [← h.2]; rfl, fun e he => ?_⟩
      rw [List.mem_singleton.mp he, hd]
      exact hc
    · simp [char, hd] at h

theorem takes_optional {r : Reader α} (hr : Takes P r) : Takes P (optional r) := by
  intro s o rest h
  unfold optional at h
  cases hrun : r s with
  | none =>
    rw [hrun] at h
    cases h
    exact ⟨[], rfl, fun c hc => by cases hc⟩
  | some p =>
    rw [hrun] at h
    cases h
    exact hr s p.1 p.2 hrun

theorem takes_orElse {r t : Reader α} (hr : Takes P r) (ht : Takes P t) :
    Takes P (orElse r t) := by
  intro s a rest h
  unfold orElse at h
  cases hrun : r s with
  | none =>
    rw [hrun] at h
    exact ht s a rest h
  | some p =>
    rw [hrun] at h
    cases h
    exact hr s a rest hrun

theorem takes_separator {sep : Char} {first : Bool} {item : Reader α} (hsep : P sep)
    (hitem : Takes P item) : Takes P (separator sep first item) := by
  unfold separator
  cases first with
  | true => exact hitem
  | false => exact takes_bind (takes_char hsep) fun _ => hitem

theorem takes_number {bits radix : Nat} {maxDigits : Option Nat} {allowZeroPrefix : Bool}
    (hP : ∀ c, isDigitIn radix c = true → P c) :
    Takes P (number bits radix maxDigits allowZeroPrefix) := by
  intro s n rest h
  unfold number at h
  dsimp only at h
  split at h
  · cases h
  split at h
  · cases h
  split at h
  · cases h
  split at h
  · cases h
    refine ⟨s.takeWhile (isDigitIn radix), List.takeWhile_append_dropWhile.symm, fun c hc => ?_⟩
    exact hP c (List.all_eq_true.mp List.all_takeWhile c hc)
  · cases h

/-- **The characters of an accepted text.** A reader that has to use all of the text and takes only
characters of `P` accepts only texts of such characters. -/
theorem Takes.parse {r : Reader α} (hr : Takes P r) {s : Chars} {a : α}
    (h : r.parse s = some a) : ∀ c ∈ s, P c := by
  unfold Reader.parse at h
  split at h
  · rename_i b hrun
    cases h
    obtain ⟨used, hs, hused⟩ := hr s a [] hrun
    rw [hs, List.append_nil]
    exact hused
  · cases h

end Reader

end Abora.Lib
