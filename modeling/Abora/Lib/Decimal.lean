import Abora.Lib.Numerals

/-!
# Numbers as they are printed

`Display` of an unsigned number is its shortest decimal numeral, and `{:0w$}` fills it up with zeros
on the left. Reading a numeral back gives the number (`parseDigits_toDigits`); printing the number
gives the numeral back exactly when it has no superfluous zero in front (`toDigits_eq_iff`). The
first is what a round trip from a value needs and the second what one from a text needs, and it is
the second that has an exception.

Numerals of one width are in the order of their numbers (`zeroPadded_lt`), which is why a timestamp
whose fields have a fixed width is sorted as text.
-/

namespace Abora.Lib.Text

/-- A zero in front of another digit. -/
def LeadingZero (s : Chars) : Prop := ∃ c rest, s = '0' :: c :: rest

/-- `format!("{n:0w$}")`: zeros in front up to the width, and nothing cut off where the number is
wider. -/
def zeroPadded (w n : Nat) : Chars :=
  let digits := Nat.toDigits 10 n
  List.replicate (w - digits.length) '0' ++ digits

/-! ## Reading what was printed -/

theorem parseDigits_eq_some_iff {s : Chars} {n : Nat} :
    parseDigits s = some n ↔
      s ≠ [] ∧ (∀ c ∈ s, c.isDigit = true) ∧ Nat.ofDigitChars 10 s 0 = n := by
  have hfold : s.foldl (fun n c => 10 * n + (c.toNat - '0'.toNat)) 0 = Nat.ofDigitChars 10 s 0 :=
    Nat.ofDigitChars_eq_foldl.symm
  unfold parseDigits
  rw [hfold]
  constructor
  · intro h
    split at h
    · rename_i hdigits
      exact ⟨hdigits.1, List.all_eq_true.mp hdigits.2, Option.some.inj h⟩
    · cases h
  · intro ⟨hne, hdigits, hn⟩
    rw [if_pos ⟨hne, List.all_eq_true.mpr hdigits⟩, hn]

theorem parseUnsigned_of_digits {s : Chars} (h : ∀ c ∈ s, c.isDigit = true) (bits : Nat) :
    parseUnsigned bits s = (parseDigits s).filter (· < 2 ^ bits) := by
  have hplus : s.head? ≠ some '+' := by
    intro hhead
    have hdigit := h '+' (List.mem_of_mem_head? hhead)
    cases hdigit
  unfold parseUnsigned
  rw [if_neg hplus]

theorem toDigits_isDigit (n : Nat) : ∀ c ∈ Nat.toDigits 10 n, c.isDigit = true := fun _ hc =>
  Nat.isDigit_of_mem_toDigits (by decide) (by decide) hc

theorem parseDigits_toDigits (n : Nat) : parseDigits (Nat.toDigits 10 n) = some n :=
  parseDigits_eq_some_iff.mpr ⟨Nat.toDigits_ne_nil, toDigits_isDigit n,
    Nat.ofDigitChars_toDigits (by decide) (by decide)⟩

/-! ## Printing what was read -/

theorem toDigits_ofDigitChars {s : Chars} (h : ∀ c ∈ s, c.isDigit = true) {n : Nat} (hn : 0 < n) :
    Nat.toDigits 10 (Nat.ofDigitChars 10 s n) = Nat.toDigits 10 n ++ s := by
  induction s generalizing n with
  | nil => rw [Nat.ofDigitChars_nil, List.append_nil]
  | cons c s ih =>
    obtain ⟨d, hd, rfl⟩ := exists_digitChar (h c List.mem_cons_self)
    have hrest := ih (fun e he => h e (List.mem_cons_of_mem _ he)) (n := 10 * n + d) (by omega)
    have hdigit := Nat.toDigits_append_toDigits (b := 10) (by decide) hn hd
    rw [Nat.toDigits_of_lt_base hd] at hdigit
    rw [Nat.ofDigitChars_cons_digitChar_of_lt_ten hd, hrest, ← hdigit, List.append_assoc,
      List.singleton_append]

theorem not_leadingZero_toDigits (n : Nat) : ¬ LeadingZero (Nat.toDigits 10 n) := by
  induction n using Nat.strongRecOn with
  | ind n ih =>
    rintro ⟨c, rest, h⟩
    rw [Nat.toDigits_eq_if (by decide)] at h
    split at h
    · exact absurd (List.cons.inj h).2 (List.cons_ne_nil c rest).symm
    · rename_i hge
      cases hhead : Nat.toDigits 10 (n / 10) with
      | nil => exact Nat.toDigits_ne_nil hhead
      | cons a as =>
        rw [hhead] at h
        obtain ⟨rfl, -⟩ := List.cons.inj h
        cases as with
        | cons b bs => exact ih (n / 10) (by omega) ⟨b, bs, hhead⟩
        | nil =>
          -- one digit before the last, and it is zero
          have hvalue := Nat.ofDigitChars_toDigits (b := 10) (n := n / 10) (by decide) (by decide)
          rw [hhead] at hvalue
          have hzero : Nat.ofDigitChars 10 ['0'] 0 = 0 := rfl
          rw [hzero] at hvalue
          omega

/-- **A numeral is printed as it was written** unless it begins with a superfluous zero. -/
theorem toDigits_eq_iff {s : Chars} {n : Nat} (h : parseDigits s = some n) :
    Nat.toDigits 10 n = s ↔ ¬ LeadingZero s := by
  obtain ⟨hne, hdigits, rfl⟩ := parseDigits_eq_some_iff.mp h
  constructor
  · intro hprinted
    rw [← hprinted]
    exact not_leadingZero_toDigits _
  · intro hzero
    cases s with
    | nil => exact absurd rfl hne
    | cons c s =>
      obtain ⟨d, hd, rfl⟩ := exists_digitChar (hdigits c List.mem_cons_self)
      rw [Nat.ofDigitChars_cons_digitChar_of_lt_ten hd]
      rcases Nat.eq_zero_or_pos d with rfl | hpos
      · cases s with
        | nil => rfl
        | cons e s => exact absurd ⟨e, s, rfl⟩ hzero
      · rw [Nat.mul_zero, Nat.zero_add,
          toDigits_ofDigitChars (fun e he => hdigits e (List.mem_cons_of_mem _ he)) hpos,
          Nat.toDigits_of_lt_base hd]
        rfl

/-! ## Numerals of one width -/

theorem append_lt_append {x y : Chars} (s t : Chars) (hlen : x.length = y.length) (h : x < y) :
    x ++ s < y ++ t := by
  induction x generalizing y with
  | nil =>
    rw [List.eq_nil_of_length_eq_zero hlen.symm] at h
    exact absurd h (List.not_lt_nil [])
  | cons c x ih =>
    cases y with
    | nil => cases hlen
    | cons d y =>
      rw [List.cons_append, List.cons_append, List.cons_lt_cons_iff]
      rcases List.cons_lt_cons_iff.mp h with hlt | ⟨heq, hlt⟩
      · exact .inl hlt
      · exact .inr ⟨heq, ih (Nat.succ.inj hlen) hlt⟩

theorem digitChar_lt {a b : Nat} (hb : b < 10) (h : a < b) :
    Nat.digitChar a < Nat.digitChar b := by
  have hall : ∀ b : Fin 10, ∀ a : Fin b, Nat.digitChar a < Nat.digitChar b := by decide
  exact hall ⟨b, hb⟩ ⟨a, h⟩

theorem mem_zeroPadded {w n : Nat} {c : Char} (h : c ∈ zeroPadded w n) : c.isDigit = true := by
  rcases List.mem_append.mp h with h | h
  · rw [List.eq_of_mem_replicate h]
    rfl
  · exact toDigits_isDigit n c h

theorem zeroPadded_one {n : Nat} (h : n < 10) : zeroPadded 1 n = [Nat.digitChar n] := by
  unfold zeroPadded
  rw [Nat.toDigits_of_lt_base h]
  rfl

/-- The last digit apart: a wider numeral is that of the tenth part with one digit behind it. -/
theorem zeroPadded_succ (w n : Nat) :
    zeroPadded (w + 2) n = zeroPadded (w + 1) (n / 10) ++ [Nat.digitChar (n % 10)] := by
  unfold zeroPadded
  by_cases hlt : n < 10
  · have hzero : n / 10 = 0 := by omega
    have hpad : List.replicate (w + 1) '0' = List.replicate w '0' ++ ['0'] :=
      List.replicate_succ'
    rw [hzero, Nat.mod_eq_of_lt hlt, Nat.toDigits_of_lt_base hlt, Nat.toDigits_zero]
    exact congrArg (· ++ [Nat.digitChar n]) hpad
  · rw [Nat.toDigits_of_base_le (by decide) (by omega)]
    have hlen : (Nat.toDigits 10 (n / 10) ++ [Nat.digitChar (n % 10)]).length =
        (Nat.toDigits 10 (n / 10)).length + 1 := List.length_append
    dsimp only
    rw [hlen, ← List.append_assoc]
    congr 3
    omega

theorem length_zeroPadded (w : Nat) {n : Nat} (h : n < 10 ^ (w + 1)) :
    (zeroPadded (w + 1) n).length = w + 1 := by
  induction w generalizing n with
  | zero =>
    rw [zeroPadded_one h]
    rfl
  | succ w ih =>
    have hrest : n / 10 < 10 ^ (w + 1) := by
      rw [Nat.pow_succ] at h
      omega
    rw [zeroPadded_succ, List.length_append, ih hrest]
    rfl

theorem zeroPadded_lt (w : Nat) {a b : Nat} (hb : b < 10 ^ (w + 1)) (h : a < b) :
    zeroPadded (w + 1) a < zeroPadded (w + 1) b := by
  induction w generalizing a b with
  | zero =>
    rw [zeroPadded_one hb, zeroPadded_one (Nat.lt_trans h hb)]
    exact List.cons_lt_cons_iff.mpr (.inl (digitChar_lt hb h))
  | succ w ih =>
    have hb' : b / 10 < 10 ^ (w + 1) := by
      rw [Nat.pow_succ] at hb
      omega
    rw [zeroPadded_succ, zeroPadded_succ]
    by_cases hrest : a / 10 < b / 10
    · have hlen := (length_zeroPadded w (Nat.lt_trans hrest hb')).trans
        (length_zeroPadded w hb').symm
      exact append_lt_append _ _ hlen (ih hb' hrest)
    · have hsame : a / 10 = b / 10 := by omega
      rw [hsame]
      have hlast : Nat.digitChar (a % 10) < Nat.digitChar (b % 10) :=
        digitChar_lt (by omega) (by omega)
      exact List.append_left_lt (List.cons_lt_cons_iff.mpr (.inl hlast))

end Abora.Lib.Text
