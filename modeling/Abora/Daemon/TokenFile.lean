import Mathlib.Data.List.Forall2
import Abora.Daemon.Reload
import Abora.Lib.Numerals
import Abora.Lib.Slice

/-!
# Reading a token file (`TokenStore::load`, `from_str` and `decode_sha256_hex` in `tokens.rs`)

A hash is written `sha256:` and 64 hexadecimal digits. The decoder tests the length in *bytes*,
slices two bytes at a time, and hands each slice to a number parser, and each of the three speaks of
something slightly different from "two hexadecimal digits". The slice panics when a character of
several bytes lies across its end; the parser takes a sign for a digit.

A `Pair` is what the decoder cuts. `walk_cases` follows the cuts to their three ends, and
`token_file_exact_iff` says for which files the outcome is the one the error messages promise, and
for which a reload survives it.

The source cuts the text at growing offsets, which is `decodeFrom`; `walk` is the same loop on the
text that is left, which is what an induction wants (`decodeFrom_eq_walk`). From the hash upwards
the three outcomes are carried through the entry, the file and the load: a panic at any depth is a
panic of the whole, and what is decoded differs from what is written by signs alone
(`saysHash_iff`).
-/

namespace Abora.Daemon

open Abora.Lib Abora.Lib.Text

/-- A table of `[[tokens]]` as the TOML parser hands it over. -/
structure RawToken where
  name : Option String
  permissions : List String
  secretHash : String
  deriving DecidableEq, Repr

/-- The loop of `decode_sha256_hex`: `n` bytes from pair number `i` on; `none` is a panic. -/
def decodeFrom (hex : Chars) (i : Nat) : Nat → Option (Except String (List UInt8))
  | 0 => some (.ok [])
  | n + 1 =>
    match slice hex (i * 2) (i * 2 + 2) with
    | none => none
    | some pair =>
      match fromStrRadix 8 16 pair with
      | none =>
        some (.error s!"secret_hash contains non-hex characters: `{String.ofList pair}`")
      | some byte =>
        (decodeFrom hex (i + 1) n).map fun rest => rest.map fun bytes => UInt8.ofNat byte :: bytes

def hashOf (bytes : List UInt8) : Hash := Vector.ofFn fun i => bytes.getD i 0

/-- `decode_sha256_hex`; `none` is a panic. The length is one of bytes. -/
def decodeSha256Hex (prefixed : String) : Option (Except String Hash) :=
  match splitOnce ':' prefixed.toList with
  | none =>
    some (.error s!"secret_hash must look like `sha256:<64 hex>`, got `{prefixed}`")
  | some (scheme, hex) =>
    if scheme ≠ "sha256".toList then
      some (.error
        s!"unsupported secret_hash scheme `{String.ofList scheme}` (expected sha256)")
    else if byteLen hex ≠ 64 then
      some (.error s!"secret_hash must be exactly 64 hex characters, got {byteLen hex}")
    else (decodeFrom hex 0 32).map fun bytes => bytes.map hashOf

/-- The loop of `from_str`: the first entry that does not decode ends it. -/
def entriesOf : List RawToken → Option (Except String (List Entry))
  | [] => some (.ok [])
  | t :: ts =>
    match decodeSha256Hex t.secretHash with
    | none => none
    | some (.error e) => some (.error e)
    | some (.ok hash) =>
      (entriesOf ts).map fun rest => rest.map fun entries =>
        ⟨⟨t.name, t.permissions⟩, hash⟩ :: entries

/-- `TokenStore::from_str`; `toml` is the parser. -/
def TokenStore.fromStr (toml : String → Except String (List RawToken)) (text : String) :
    Option (Except String TokenStore) :=
  match toml text with
  | .error e => some (.error s!"invalid TOML: {e}")
  | .ok raw => (entriesOf raw).map fun r => r.map TokenStore.mk

/-- `TokenStore::load`. Its errors name the file. -/
def TokenStore.load (toml : String → Except String (List RawToken))
    (read : PathBuf → Except String String) (path : PathBuf) : Loaded :=
  match read path with
  | .error e => .failed s!"could not read token file `{path.display}`: {e}"
  | .ok text =>
    match TokenStore.fromStr toml text with
    | none => .panicked
    | some (.error message) => .failed s!"token file `{path.display}`: {message}"
    | some (.ok store) => .ok store

/-! ## Pairs -/

/-- Two characters the decoder has cut off. -/
abbrev Pair := Char × Char

def flat (pairs : List Pair) : Chars := pairs.flatMap fun p => [p.1, p.2]

def isHex (c : Char) : Bool := isDigitIn 16 c

/-- Two hexadecimal digits, of either case. -/
def Plain (p : Pair) : Prop := isHex p.1 = true ∧ isHex p.2 = true

/-- A sign and a digit, which the number parser reads as the digit. -/
def Signed (p : Pair) : Prop := p.1 = '+' ∧ isHex p.2 = true

/-- What the decoder reads two bytes as. -/
def Reads (p : Pair) : Prop := Plain p ∨ Signed p

def pairByte (p : Pair) : UInt8 := UInt8.ofNat (numeral 16 [p.1, p.2])

/-- Two bytes on, the text is inside a character: the first is of three bytes or more, or the second
of two or more. -/
def Straddles (s : Chars) : Prop :=
  ∃ c cs, s = c :: cs ∧ (3 ≤ c.utf8Size ∨
    c.utf8Size = 1 ∧ ∃ d ds, cs = d :: ds ∧ 2 ≤ d.utf8Size)

/-- Everything reads until a cut falls inside a character. Behind a cut that does not read, nothing
is cut any more. -/
def Breaks (hex : Chars) : Prop :=
  ∃ pairs rest, hex = flat pairs ++ rest ∧ (∀ p ∈ pairs, Reads p) ∧ Straddles rest

theorem flat_cons (p : Pair) (pairs : List Pair) :
    flat (p :: pairs) = [p.1, p.2] ++ flat pairs := by
  simp [flat]

theorem flat_inj {ps qs : List Pair} (h : flat ps = flat qs) : ps = qs := by
  induction ps generalizing qs with
  | nil =>
    cases qs with
    | nil => rfl
    | cons q qs => cases h
  | cons p ps ih =>
    cases qs with
    | nil => cases h
    | cons q qs =>
      rw [flat_cons, flat_cons] at h
      obtain ⟨hp, hps⟩ := List.append_inj h rfl
      injection hp with hfirst hsecond
      injection hsecond with hsecond
      rw [ih hps, Prod.ext hfirst hsecond]

theorem not_isHex_plus : isHex '+' = false := not_isDigitIn_plus 16

theorem utf8Size_of_isHex {c : Char} (h : isHex c = true) : c.utf8Size = 1 := utf8Size_of_digit h

theorem Plain.not_signed {p : Pair} (h : Plain p) : ¬ Signed p := by
  intro hsigned
  have hhex := h.1
  rw [hsigned.1, not_isHex_plus] at hhex
  cases hhex

theorem Reads.utf8Size {p : Pair} (h : Reads p) : p.1.utf8Size = 1 ∧ p.2.utf8Size = 1 := by
  rcases h with ⟨hfirst, hsecond⟩ | ⟨hfirst, hsecond⟩
  · exact ⟨utf8Size_of_isHex hfirst, utf8Size_of_isHex hsecond⟩
  · refine ⟨?_, utf8Size_of_isHex hsecond⟩
    rw [hfirst]
    decide

theorem Reads.byteLen {p : Pair} (h : Reads p) : byteLen [p.1, p.2] = 2 := by
  simp [h.utf8Size.1, h.utf8Size.2]

theorem byteLen_flat {pairs : List Pair} (h : ∀ p ∈ pairs, Reads p) :
    byteLen (flat pairs) = 2 * pairs.length := by
  induction pairs with
  | nil => rfl
  | cons p pairs ih =>
    obtain ⟨hp, hrest⟩ := List.forall_mem_cons.mp h
    rw [flat_cons, byteLen_append, hp.byteLen, ih hrest, List.length_cons]
    omega

/-! ## One cut -/

theorem Straddles.splitAtByte {s : Chars} (h : Straddles s) : splitAtByte 2 s = none := by
  obtain ⟨c, cs, rfl, hwide | ⟨hone, d, ds, rfl, hwide⟩⟩ := h
  · have hnot : ¬ c.utf8Size ≤ 2 := by omega
    simp [Text.splitAtByte, hnot]
  · have hnot : ¬ d.utf8Size ≤ 1 := by omega
    simp [Text.splitAtByte, hone, hnot]

theorem Straddles.two_le {s : Chars} (h : Straddles s) : 2 ≤ byteLen s := by
  obtain ⟨c, cs, rfl, hwide | ⟨hone, d, ds, rfl, hwide⟩⟩ := h
  · rw [byteLen_cons]
    omega
  · rw [byteLen_cons, byteLen_cons]
    omega

/-- Where two bytes are left, they are cut unless a character lies across the end. -/
theorem cut_cases {s : Chars} (h : 2 ≤ byteLen s) :
    Straddles s ∨ ∃ pair rest, byteLen pair = 2 ∧ splitAtByte 2 s = some (pair, rest) := by
  cases s with
  | nil => simp at h
  | cons c cs =>
    rw [byteLen_cons] at h
    have hpos : 0 < c.utf8Size := c.utf8Size_pos
    by_cases hwide : 3 ≤ c.utf8Size
    · exact .inl ⟨c, cs, rfl, .inl hwide⟩
    by_cases htwo : c.utf8Size = 2
    · exact .inr ⟨[c], cs, by simp [htwo], by simp [Text.splitAtByte, htwo]⟩
    have hone : c.utf8Size = 1 := by omega
    cases cs with
    | nil => simp [hone] at h
    | cons d ds =>
      have hdpos : 0 < d.utf8Size := d.utf8Size_pos
      by_cases hdwide : 2 ≤ d.utf8Size
      · exact .inl ⟨c, d :: ds, rfl, .inr ⟨hone, d, ds, rfl, hdwide⟩⟩
      · have hdone : d.utf8Size = 1 := by omega
        exact .inr ⟨[c, d], ds, by simp [hone, hdone], by simp [Text.splitAtByte, hone, hdone]⟩

theorem numeral_plus {d : Char} : numeral 16 ['+', d] = numeral 16 [d] := by
  rw [numeral_pair]
  rfl

theorem Reads.fromStrRadix {p : Pair} (h : Reads p) :
    fromStrRadix 8 16 [p.1, p.2] = some (numeral 16 [p.1, p.2]) := by
  have hlt (c : Char) (hc : isHex c = true) : (toDigit 16 c).getD 0 < 16 := by
    obtain ⟨d, hd⟩ := Option.isSome_iff_exists.mp hc
    rw [hd]
    exact toDigit_lt hd
  rcases h with ⟨hfirst, hsecond⟩ | ⟨hfirst, hsecond⟩
  · have hdigits : isDigitIn 16 p.1 = true ∧ isDigitIn 16 p.2 = true := ⟨hfirst, hsecond⟩
    refine fromStrRadix_of_digits (List.cons_ne_nil _ _) (by simp [hdigits]) ?_
    have := hlt p.1 hfirst
    have := hlt p.2 hsecond
    rw [numeral_pair]
    omega
  · have hdigit : isDigitIn 16 p.2 = true := hsecond
    have hplus : p.2 ≠ '+' := fun he => by rw [he, not_isHex_plus] at hsecond; cases hsecond
    rw [hfirst, fromStrRadix_cons_plus 8 16 (by simpa using hplus), numeral_plus]
    refine fromStrRadix_of_digits (List.cons_ne_nil _ _) (by simp [hdigit]) ?_
    have := hlt p.2 hsecond
    have hzero : (toDigit 16 '+').getD 0 = 0 := rfl
    rw [← numeral_plus, numeral_pair, hzero]
    omega

/-- And nothing else does: what the number parser takes of two bytes is a plain pair or a signed
one. -/
theorem exists_reads {pair : Chars} {byte : Nat} (hlen : byteLen pair = 2)
    (h : fromStrRadix 8 16 pair = some byte) : ∃ p : Pair, pair = [p.1, p.2] ∧ Reads p := by
  have hdigits : (if pair.head? = some '+' then pair.tail else pair) ≠ [] ∧
      (if pair.head? = some '+' then pair.tail else pair).all (isDigitIn 16) = true := by
    by_contra hnot
    simp only [Text.fromStrRadix, if_neg hnot] at h
    cases h
  cases pair with
  | nil => simp at hlen
  | cons c cs =>
    rw [byteLen_cons] at hlen
    by_cases hplus : c = '+'
    · -- the sign is one byte, so one digit follows it
      subst hplus
      simp only [List.head?_cons, if_true, List.tail_cons, List.all_eq_true] at hdigits
      have hone : '+'.utf8Size = 1 := by decide
      have hcs : byteLen cs = cs.length :=
        byteLen_eq_length fun d hd => utf8Size_of_digit (hdigits.2 d hd)
      have hlength : cs.length = 1 := by omega
      obtain ⟨d, rfl⟩ := List.length_eq_one_iff.mp hlength
      exact ⟨('+', d), rfl, .inr ⟨rfl, hdigits.2 d List.mem_cons_self⟩⟩
    · have hhead : (c :: cs).head? ≠ some '+' := by simpa using hplus
      rw [if_neg hhead] at hdigits
      have hall := List.all_eq_true.mp hdigits.2
      have hc := hall c List.mem_cons_self
      have hsize : c.utf8Size = 1 := utf8Size_of_digit hc
      have hcs : byteLen cs = cs.length :=
        byteLen_eq_length fun d hd => utf8Size_of_digit (hall d (List.mem_cons_of_mem _ hd))
      have hlength : cs.length = 1 := by omega
      obtain ⟨d, rfl⟩ := List.length_eq_one_iff.mp hlength
      exact ⟨(c, d), rfl, .inl ⟨hc, hall d (List.mem_cons_of_mem _ List.mem_cons_self)⟩⟩

/-! ## Every cut -/

/-- The loop, over the text that is left. -/
def walk : Nat → Chars → Option (Except String (List UInt8))
  | 0, _ => some (.ok [])
  | n + 1, s =>
    match splitAtByte 2 s with
    | none => none
    | some (pair, rest) =>
      match fromStrRadix 8 16 pair with
      | none =>
        some (.error s!"secret_hash contains non-hex characters: `{String.ofList pair}`")
      | some byte => (walk n rest).map fun r => r.map fun bytes => UInt8.ofNat byte :: bytes

theorem decodeFrom_eq_walk {s : Chars} {i : Nat} (h : byteLen s = i * 2) (rest : Chars)
    (n : Nat) : decodeFrom (s ++ rest) i n = walk n rest := by
  induction n generalizing s i rest with
  | zero => rfl
  | succ n ih =>
    rw [decodeFrom, walk, slice_append h]
    cases hcut : splitAtByte 2 rest with
    | none => rfl
    | some p =>
      obtain ⟨pair, tail⟩ := p
      obtain ⟨rfl, hlen⟩ := splitAtByte_eq_some hcut
      have hnext : byteLen (s ++ pair) = (i + 1) * 2 := by
        rw [byteLen_append, h, hlen]
        omega
      rw [← List.append_assoc, ih hnext tail]
      rfl

theorem walk_flat {pairs : List Pair} (h : ∀ p ∈ pairs, Reads p) (n : Nat) (rest : Chars) :
    walk (pairs.length + n) (flat pairs ++ rest) =
      (walk n rest).map fun r => r.map fun bytes => pairs.map pairByte ++ bytes := by
  induction pairs with
  | nil =>
    have hflat : flat [] ++ rest = rest := rfl
    rw [List.length_nil, Nat.zero_add, hflat]
    cases walk n rest with
    | none => rfl
    | some r => cases r <;> rfl
  | cons p pairs ih =>
    obtain ⟨hp, hrest⟩ := List.forall_mem_cons.mp h
    have hcount : (p :: pairs).length + n = pairs.length + n + 1 := by
      rw [List.length_cons]
      omega
    have hcut : splitAtByte 2 (flat (p :: pairs) ++ rest) =
        some ([p.1, p.2], flat pairs ++ rest) := by
      have happend := splitAtByte_append [p.1, p.2] (flat pairs ++ rest) 0
      rw [hp.byteLen, splitAtByte_zero] at happend
      rw [flat_cons, List.append_assoc, happend, Option.map_some, List.append_nil]
    rw [hcount, walk, hcut]
    simp only [hp.fromStrRadix, ih hrest]
    cases walk n rest with
    | none => rfl
    | some r => cases r <;> rfl

/-- **The three ends of the loop**: a character lies across a cut, a cut is not a byte, or every cut
is. -/
theorem walk_cases {n : Nat} {s : Chars} (h : byteLen s = 2 * n) :
    walk n s = none ∧ Breaks s ∨
      (∃ e, walk n s = some (.error e)) ∨
      ∃ pairs, pairs.length = n ∧ s = flat pairs ∧ (∀ p ∈ pairs, Reads p) ∧
        walk n s = some (.ok (pairs.map pairByte)) := by
  induction n generalizing s with
  | zero =>
    cases s with
    | nil => exact .inr (.inr ⟨[], rfl, rfl, fun p hp => absurd hp List.not_mem_nil, rfl⟩)
    | cons c cs =>
      have hpos : 0 < c.utf8Size := c.utf8Size_pos
      rw [byteLen_cons] at h
      omega
  | succ n ih =>
    -- the next two bytes may end inside a character, which is where the slice panics
    rcases cut_cases (s := s) (by omega) with hstraddles | ⟨pair, rest, hlen, hcut⟩
    · refine .inl ⟨?_, [], s, rfl, fun p hp => absurd hp List.not_mem_nil, hstraddles⟩
      rw [walk, hstraddles.splitAtByte]
    · cases hbyte : fromStrRadix 8 16 pair with
      | none => exact .inr (.inl ⟨_, by simp only [walk, hcut, hbyte]; rfl⟩)
      | some byte =>
        obtain ⟨p, rfl, hp⟩ := exists_reads hlen hbyte
        obtain ⟨rfl, -⟩ := splitAtByte_eq_some hcut
        have hrest : byteLen rest = 2 * n := by
          rw [byteLen_append, hlen] at h
          omega
        have hone : ∀ q ∈ [p], Reads q := by simpa using hp
        have hwalk : walk (n + 1) ([p.1, p.2] ++ rest) =
            (walk n rest).map fun r => r.map fun bytes => [pairByte p] ++ bytes := by
          rw [Nat.add_comm]
          exact walk_flat hone n rest
        rw [hwalk]
        rcases ih hrest with ⟨hnone, pairs, tail, rfl, hreads, hstraddles⟩ | ⟨e, herr⟩ |
          ⟨pairs, hcount, rfl, hreads, hok⟩
        · refine .inl ⟨by rw [hnone]; rfl, p :: pairs, tail, ?_, ?_, hstraddles⟩
          · rw [flat_cons, List.append_assoc]
          · exact List.forall_mem_cons.mpr ⟨hp, hreads⟩
        · exact .inr (.inl ⟨e, by rw [herr]; rfl⟩)
        · refine .inr (.inr ⟨p :: pairs, by rw [List.length_cons, hcount], ?_, ?_, ?_⟩)
          · rw [flat_cons]
          · exact List.forall_mem_cons.mpr ⟨hp, hreads⟩
          · rw [hok]
            rfl

theorem walk_none_iff {n : Nat} {s : Chars} (h : byteLen s = 2 * n) :
    walk n s = none ↔ Breaks s := by
  constructor
  · intro hnone
    rcases walk_cases h with ⟨-, hbreaks⟩ | ⟨e, herr⟩ | ⟨pairs, -, -, -, hok⟩
    · exact hbreaks
    · rw [hnone] at herr
      cases herr
    · rw [hnone] at hok
      cases hok
  · rintro ⟨pairs, rest, rfl, hreads, hstraddles⟩
    rw [byteLen_append, byteLen_flat hreads] at h
    have htwo := hstraddles.two_le
    obtain ⟨m, rfl⟩ : ∃ m, n = pairs.length + (m + 1) := ⟨n - pairs.length - 1, by omega⟩
    have hnone : walk (m + 1) rest = none := by rw [walk, hstraddles.splitAtByte]
    rw [walk_flat hreads, hnone]
    rfl

theorem walk_ok_iff {n : Nat} {s : Chars} {bytes : List UInt8} (h : byteLen s = 2 * n) :
    walk n s = some (.ok bytes) ↔ ∃ pairs, pairs.length = n ∧ s = flat pairs ∧
      (∀ p ∈ pairs, Reads p) ∧ bytes = pairs.map pairByte := by
  constructor
  · intro hok
    rcases walk_cases h with ⟨hnone, -⟩ | ⟨e, herr⟩ | ⟨pairs, hcount, hs, hreads, hwalk⟩
    · rw [hnone] at hok
      cases hok
    · rw [herr] at hok
      cases hok
    · rw [hwalk] at hok
      cases hok
      exact ⟨pairs, hcount, hs, hreads, rfl⟩
  · rintro ⟨pairs, hcount, rfl, hreads, rfl⟩
    have hwalk := walk_flat hreads 0 []
    rw [Nat.add_zero, hcount, List.append_nil] at hwalk
    rw [hwalk]
    simp [walk, Except.map]

/-! ## One hash -/

/-- `hash` written the way the error messages ask for, in digits of either case. -/
def SaysHash (written : String) (hash : Hash) : Prop :=
  ∃ pairs : List Pair, pairs.length = 32 ∧ written.toList = "sha256:".toList ++ flat pairs ∧
    (∀ p ∈ pairs, Plain p) ∧ hash.toList = pairs.map pairByte

/-- Written so, but for signs in the place of leading digits. This is what the decoder accepts. -/
def ReadsAsHash (written : String) : Prop :=
  ∃ pairs : List Pair, pairs.length = 32 ∧ written.toList = "sha256:".toList ++ flat pairs ∧
    ∀ p ∈ pairs, Reads p

/-- Written so, with at least one sign. -/
def HasSign (written : String) : Prop :=
  ∃ pairs : List Pair, pairs.length = 32 ∧ written.toList = "sha256:".toList ++ flat pairs ∧
    (∀ p ∈ pairs, Reads p) ∧ ∃ p ∈ pairs, Signed p

/-- 64 bytes behind the scheme, and a cut inside a character. -/
def BreaksApart (written : String) : Prop :=
  ∃ hex, written.toList = "sha256:".toList ++ hex ∧ byteLen hex = 64 ∧ Breaks hex

theorem toList_hashOf {bytes : List UInt8} (h : bytes.length = 32) :
    (hashOf bytes).toList = bytes := by
  apply List.ext_getElem
  · rw [Vector.length_toList, h]
  · intro i hi hbytes
    simp [hashOf, hbytes]

/-- The scheme has no colon in it, so the first colon ends it. -/
theorem splitOnce_scheme (hex : Chars) :
    splitOnce ':' ("sha256:".toList ++ hex) = some ("sha256".toList, hex) := by
  have hcolon : ':' ∉ "sha256".toList := by simp
  exact splitOnce_append hex hcolon

theorem decodeSha256Hex_scheme {written : String} {hex : Chars}
    (h : written.toList = "sha256:".toList ++ hex) (hlen : byteLen hex = 64) :
    decodeSha256Hex written = (walk 32 hex).map fun r => r.map hashOf := by
  have hzero : byteLen [] = 0 * 2 := byteLen_nil
  have hwalk : decodeFrom hex 0 32 = walk 32 hex := decodeFrom_eq_walk hzero hex 32
  have hlen' : ¬ byteLen hex ≠ 64 := not_not_intro hlen
  simp only [decodeSha256Hex, h, splitOnce_scheme, ne_eq, not_true, if_false, if_neg hlen', hwalk]

/-- A result that is no error comes out of the loop, over the 64 bytes behind the scheme. -/
theorem decodeSha256Hex_cases (written : String) :
    (∃ e, decodeSha256Hex written = some (.error e)) ∨
      ∃ hex, written.toList = "sha256:".toList ++ hex ∧ byteLen hex = 64 ∧
        decodeSha256Hex written = (walk 32 hex).map fun r => r.map hashOf := by
  cases hcut : splitOnce ':' written.toList with
  | none => exact .inl ⟨_, by simp only [decodeSha256Hex, hcut]; rfl⟩
  | some p =>
    obtain ⟨scheme, hex⟩ := p
    by_cases hscheme : scheme = "sha256".toList
    · by_cases hlen : byteLen hex = 64
      · refine .inr ⟨hex, ?_, hlen, ?_⟩
        · rw [(splitOnce_eq_some hcut).1, hscheme]
          rfl
        · refine decodeSha256Hex_scheme ?_ hlen
          rw [(splitOnce_eq_some hcut).1, hscheme]
          rfl
      · refine .inl ⟨s!"secret_hash must be exactly 64 hex characters, got {byteLen hex}", ?_⟩
        simp only [decodeSha256Hex, hcut, ne_eq, hscheme, not_true, if_false, hlen,
          not_false_eq_true, if_true]
    · refine .inl
        ⟨s!"unsupported secret_hash scheme `{String.ofList scheme}` (expected sha256)", ?_⟩
      simp only [decodeSha256Hex, hcut, ne_eq, hscheme, not_false_eq_true, if_true]

/-- A hash makes the decoder panic exactly when it breaks apart. -/
theorem decode_panics_iff {written : String} :
    decodeSha256Hex written = none ↔ BreaksApart written := by
  constructor
  · intro hnone
    rcases decodeSha256Hex_cases written with ⟨e, herr⟩ | ⟨hex, hwritten, hlen, hdecode⟩
    · rw [hnone] at herr
      cases herr
    · rw [hdecode, Option.map_eq_none_iff] at hnone
      exact ⟨hex, hwritten, hlen, (walk_none_iff hlen).mp hnone⟩
  · intro ⟨hex, hwritten, hlen, hbreaks⟩
    rw [decodeSha256Hex_scheme hwritten hlen, (walk_none_iff hlen).mpr hbreaks]
    rfl

theorem decode_ok_iff {written : String} {hash : Hash} :
    decodeSha256Hex written = some (.ok hash) ↔
      ∃ pairs : List Pair, pairs.length = 32 ∧ written.toList = "sha256:".toList ++ flat pairs ∧
        (∀ p ∈ pairs, Reads p) ∧ hash.toList = pairs.map pairByte := by
  constructor
  · intro hok
    rcases decodeSha256Hex_cases written with ⟨e, herr⟩ | ⟨hex, hwritten, hlen, hdecode⟩
    · rw [hok] at herr
      cases herr
    · rw [hdecode] at hok
      obtain ⟨r, hr, hmap⟩ := Option.map_eq_some_iff.mp hok
      cases r with
      | error e => cases hmap
      | ok bytes =>
        obtain ⟨pairs, hcount, rfl, hreads, rfl⟩ := (walk_ok_iff hlen).mp hr
        have hhash : hashOf (pairs.map pairByte) = hash := Except.ok.inj hmap
        refine ⟨pairs, hcount, hwritten, hreads, ?_⟩
        rw [← hhash, toList_hashOf]
        rw [List.length_map, hcount]
  · intro ⟨pairs, hcount, hwritten, hreads, hhash⟩
    have hlen : byteLen (flat pairs) = 64 := by rw [byteLen_flat hreads, hcount]
    have hwalk : walk 32 (flat pairs) = some (.ok (pairs.map pairByte)) :=
      (walk_ok_iff hlen).mpr ⟨pairs, hcount, rfl, hreads, rfl⟩
    have hvector : hashOf (pairs.map pairByte) = hash := by
      refine Vector.toList_inj.mp ?_
      rw [toList_hashOf (by rw [List.length_map, hcount]), hhash]
    rw [decodeSha256Hex_scheme hwritten hlen, hwalk, ← hvector]
    rfl

/-- The decoder is right about what it reads, and what it reads may have signs in it. -/
theorem readsAsHash_iff {written : String} :
    ReadsAsHash written ↔ ∃ hash, decodeSha256Hex written = some (.ok hash) := by
  constructor
  · intro ⟨pairs, hcount, hwritten, hreads⟩
    refine ⟨hashOf (pairs.map pairByte), decode_ok_iff.mpr ⟨pairs, hcount, hwritten, hreads, ?_⟩⟩
    exact toList_hashOf (by rw [List.length_map, hcount])
  · intro ⟨hash, hok⟩
    obtain ⟨pairs, hcount, hwritten, hreads, -⟩ := decode_ok_iff.mp hok
    exact ⟨pairs, hcount, hwritten, hreads⟩

theorem saysHash_iff {written : String} {hash : Hash} :
    SaysHash written hash ↔
      decodeSha256Hex written = some (.ok hash) ∧ ¬ HasSign written := by
  rw [decode_ok_iff]
  constructor
  · intro ⟨pairs, hcount, hwritten, hplain, hhash⟩
    refine ⟨⟨pairs, hcount, hwritten, fun p hp => .inl (hplain p hp), hhash⟩, ?_⟩
    intro ⟨others, _, hothers, _, p, hp, hsigned⟩
    have hsame : flat pairs = flat others :=
      List.append_cancel_left (hwritten.symm.trans hothers)
    rw [← flat_inj hsame] at hp
    exact (hplain p hp).not_signed hsigned
  · intro ⟨⟨pairs, hcount, hwritten, hreads, hhash⟩, hnone⟩
    refine ⟨pairs, hcount, hwritten, fun p hp => ?_, hhash⟩
    rcases hreads p hp with hplain | hsigned
    · exact hplain
    · exact absurd ⟨pairs, hcount, hwritten, hreads, p, hp, hsigned⟩ hnone

/-! ## The file -/

/-- `store` is what the entries say, one by one and in their order. -/
def Denotes (raw : List RawToken) (store : TokenStore) : Prop :=
  List.Forall₂ (fun t e => e.token = ⟨t.name, t.permissions⟩ ∧ SaysHash t.secretHash e.hash)
    raw store.entries

/-- Parsing returns, and it accepts what the file says and nothing else. -/
def Exact (toml : String → Except String (List RawToken)) (text : String) : Prop :=
  ∃ r, TokenStore.fromStr toml text = some r ∧
    ∀ store, r = .ok store ↔ ∃ raw, toml text = .ok raw ∧ Denotes raw store

/-- The first entry that does not read breaks apart. An entry with any other mistake before it would
have ended the loop with an error. -/
def PanicsOn (raw : List RawToken) : Prop :=
  ∃ pre t post, raw = pre ++ t :: post ∧ (∀ u ∈ pre, ReadsAsHash u.secretHash) ∧
    BreaksApart t.secretHash

/-- Every entry reads, and one of them only because a sign does. -/
def AcceptsSign (raw : List RawToken) : Prop :=
  (∀ t ∈ raw, ReadsAsHash t.secretHash) ∧ ∃ t ∈ raw, HasSign t.secretHash

/-- The file has a reload at work on it, and makes it panic. -/
def TakesDown (toml : String → Except String (List RawToken))
    (read : PathBuf → Except String String) (s : AuthState) (fresh : Except String Config) : Prop :=
  s.watching = true ∧ (∃ source, s.source = .file source) ∧
    ∃ config path text raw, fresh = .ok config ∧ config.security.tokenFile = some path ∧
      read path = .ok text ∧ toml text = .ok raw ∧ PanicsOn raw

theorem entriesOf_none_iff {raw : List RawToken} : entriesOf raw = none ↔ PanicsOn raw := by
  -- the loader reads the entries in order and stops at the first that is no hash, whatever follows
  induction raw with
  | nil =>
    constructor
    · intro h
      cases h
    · intro ⟨pre, t, post, hraw, _⟩
      cases pre <;> cases hraw
  | cons t ts ih =>
    cases hdecode : decodeSha256Hex t.secretHash with
    | none =>
      refine iff_of_true (by simp only [entriesOf, hdecode]) ⟨[], t, ts, rfl, ?_, ?_⟩
      · exact fun u hu => absurd hu List.not_mem_nil
      · exact decode_panics_iff.mp hdecode
    | some r =>
      -- an entry that decodes to something does not break apart
      have hwhole : ¬ BreaksApart t.secretHash := by
        intro hbreaks
        rw [decode_panics_iff.mpr hbreaks] at hdecode
        cases hdecode
      cases r with
      | error e =>
        refine iff_of_false ?_ ?_
        · simp only [entriesOf, hdecode]
          exact Option.some_ne_none _
        · intro ⟨pre, u, post, hraw, hpre, hbreaks⟩
          cases pre with
          | nil =>
            cases hraw
            exact hwhole hbreaks
          | cons v pre =>
            cases hraw
            obtain ⟨hash, hok⟩ := readsAsHash_iff.mp (hpre t List.mem_cons_self)
            rw [hdecode] at hok
            cases hok
      | ok hash =>
        have hrest : entriesOf (t :: ts) = none ↔ entriesOf ts = none := by
          simp only [entriesOf, hdecode, Option.map_eq_none_iff]
        rw [hrest, ih]
        constructor
        · rintro ⟨pre, u, post, rfl, hpre, hbreaks⟩
          refine ⟨t :: pre, u, post, rfl, List.forall_mem_cons.mpr ⟨?_, hpre⟩, hbreaks⟩
          exact readsAsHash_iff.mpr ⟨hash, hdecode⟩
        · intro ⟨pre, u, post, hraw, hpre, hbreaks⟩
          cases pre with
          | nil =>
            cases hraw
            exact absurd hbreaks hwhole
          | cons v pre =>
            cases hraw
            exact ⟨pre, u, post, rfl, (List.forall_mem_cons.mp hpre).2, hbreaks⟩

theorem entriesOf_ok_iff {raw : List RawToken} {entries : List Entry} :
    entriesOf raw = some (.ok entries) ↔
      List.Forall₂ (fun t e => e.token = ⟨t.name, t.permissions⟩ ∧
        decodeSha256Hex t.secretHash = some (.ok e.hash)) raw entries := by
  induction raw generalizing entries with
  | nil =>
    rw [List.forall₂_nil_left_iff]
    constructor
    · intro h
      cases h
      rfl
    · rintro rfl
      rfl
  | cons t ts ih =>
    rw [List.forall₂_cons_left_iff]
    constructor
    · intro h
      cases hdecode : decodeSha256Hex t.secretHash with
      | none => simp [entriesOf, hdecode] at h
      | some r =>
        cases r with
        | error e => simp [entriesOf, hdecode] at h
        | ok hash =>
          simp only [entriesOf, hdecode] at h
          obtain ⟨rest, hrest, hmap⟩ := Option.map_eq_some_iff.mp h
          cases rest with
          | error e => cases hmap
          | ok es =>
            cases hmap
            exact ⟨_, es, ⟨rfl, rfl⟩, ih.mp hrest, rfl⟩
    · rintro ⟨e, es, ⟨htoken, hdecode⟩, hrest, rfl⟩
      simp only [entriesOf, hdecode, ih.mpr hrest, ← htoken]
      rfl

/-- The entries are what the file says when they are what is decoded and no sign was. -/
theorem denotes_iff {raw : List RawToken} {store : TokenStore} :
    Denotes raw store ↔
      entriesOf raw = some (.ok store.entries) ∧ ∀ t ∈ raw, ¬ HasSign t.secretHash := by
  rw [entriesOf_ok_iff]
  obtain ⟨entries⟩ := store
  show List.Forall₂ _ raw entries ↔ List.Forall₂ _ raw entries ∧ _
  induction raw generalizing entries with
  | nil => simp
  | cons t ts ih =>
    cases entries with
    | nil => simp
    | cons e es =>
      rw [List.forall₂_cons, List.forall₂_cons, ih, saysHash_iff, List.forall_mem_cons]
      tauto

theorem reads_iff {raw : List RawToken} :
    (∀ t ∈ raw, ReadsAsHash t.secretHash) ↔ ∃ entries, entriesOf raw = some (.ok entries) := by
  induction raw with
  | nil => exact iff_of_true (fun t ht => absurd ht List.not_mem_nil) ⟨[], rfl⟩
  | cons t ts ih =>
    rw [List.forall_mem_cons, ih, readsAsHash_iff]
    simp only [entriesOf_ok_iff, List.forall₂_cons_left_iff]
    constructor
    · intro ⟨⟨hash, hdecode⟩, entries, hentries⟩
      exact ⟨_, ⟨⟨t.name, t.permissions⟩, hash⟩, entries, ⟨rfl, hdecode⟩, hentries, rfl⟩
    · rintro ⟨-, e, entries, ⟨-, hdecode⟩, hentries, rfl⟩
      exact ⟨⟨e.hash, hdecode⟩, entries, hentries⟩

/-- **Which files are read exactly**: those on which the decoder neither panics nor takes a sign for
a digit. -/
theorem exact_iff (toml : String → Except String (List RawToken)) (text : String) :
    Exact toml text ↔ ¬ ∃ raw, toml text = .ok raw ∧ (PanicsOn raw ∨ AcceptsSign raw) := by
  unfold Exact TokenStore.fromStr
  cases htoml : toml text with
  | error e => simp
  | ok raw =>
    simp only [Except.ok.injEq, exists_eq_left', not_or]
    constructor
    -- what is answered is what the text denotes, so it is no panic and has no sign in it
    · intro ⟨r, hr, hexact⟩
      constructor
      · intro hpanics
        rw [entriesOf_none_iff.mpr hpanics] at hr
        cases hr
      · intro ⟨hreads, t, ht, hsign⟩
        obtain ⟨entries, hentries⟩ := reads_iff.mp hreads
        rw [hentries] at hr
        cases hr
        exact (denotes_iff.mp ((hexact ⟨entries⟩).mp rfl)).2 t ht hsign
    · intro ⟨hsafe, hplain⟩
      cases hraw : entriesOf raw with
      | none => exact absurd (entriesOf_none_iff.mp hraw) hsafe
      | some rest =>
        refine ⟨_, rfl, fun store => ?_⟩
        rw [denotes_iff, hraw]
        cases rest with
        | error e => simp [Except.map]
        | ok entries =>
          have hnone (t : RawToken) (ht : t ∈ raw) : ¬ HasSign t.secretHash :=
            fun hsign => hplain ⟨reads_iff.mpr ⟨entries, hraw⟩, t, ht, hsign⟩
          constructor
          · intro h
            cases h
            exact ⟨rfl, hnone⟩
          · intro ⟨h, _⟩
            cases h
            rfl

theorem load_panicked_iff {toml : String → Except String (List RawToken)}
    {read : PathBuf → Except String String} {path : PathBuf} :
    TokenStore.load toml read path = .panicked ↔
      ∃ text raw, read path = .ok text ∧ toml text = .ok raw ∧ PanicsOn raw := by
  simp only [← entriesOf_none_iff]
  unfold TokenStore.load TokenStore.fromStr
  cases hread : read path with
  | error e => simp
  | ok text =>
    cases htoml : toml text with
    | error e => simp [htoml]
    | ok raw =>
      cases hraw : entriesOf raw with
      | none => simp [htoml, hraw]
      | some r => cases r <;> simp [htoml, hraw, Except.map]

/-- A reload ends the watching task only by a panic in the loading of the configured file. -/
theorem reload_watching_iff {s : AuthState} {ev : ReloadEvent} :
    (reload s ev).watching = false ↔
      s.watching = false ∨ s.watching = true ∧ (∃ source, s.source = .file source) ∧
        ∃ config path, ev.fresh = .ok config ∧ config.security.tokenFile = some path ∧
          ev.load path = .panicked := by
  unfold reload
  cases hwatching : s.watching with
  | false => simp [hwatching]
  | true =>
    cases hsource : s.source with
    | builtin => simp [hwatching]
    | file source =>
      cases hfresh : ev.fresh with
      | error e => simp [hwatching]
      | ok config =>
        cases hfile : config.security.tokenFile with
        | none => simp [applyReload, refreshTokens, hfile, hwatching]
        | some path =>
          cases hload : ev.load path <;>
            simp [applyReload, refreshTokens, hfile, hwatching, hload]

/-- **Token files are parsed exactly** but for two kinds: those on which a cut falls inside a
character, and those that write a sign for a digit. The first kind alone takes a reload down. -/
theorem token_file_exact_iff (toml : String → Except String (List RawToken)) :
    (∀ text, Exact toml text ↔
        ¬ ∃ raw, toml text = .ok raw ∧ (PanicsOn raw ∨ AcceptsSign raw)) ∧
      ∀ read s fresh, (reload s ⟨fresh, TokenStore.load toml read⟩).watching = false ↔
        s.watching = false ∨ TakesDown toml read s fresh := by
  refine ⟨exact_iff toml, fun read s fresh => ?_⟩
  rw [reload_watching_iff]
  simp only [load_panicked_iff, TakesDown, exists_and_left]

/-! ## Two files -/

/-- `sha256:`, a zero, an accented letter of two bytes, and zeros. -/
def accented : String := "sha256:0é" ++ String.ofList (List.replicate 61 '0')

/-- `sha256:` and a sign before every second digit. -/
def signed : String := "sha256:" ++ String.ofList (flat (List.replicate 32 ('+', 'f')))

theorem accented_breaksApart : BreaksApart accented := by
  refine ⟨'0' :: 'é' :: List.replicate 61 '0', ?_, by decide, [], _, rfl, ?_, ?_⟩
  · simp [accented]
  · exact fun p hp => absurd hp List.not_mem_nil
  · exact ⟨_, _, rfl, .inr ⟨by decide, _, _, rfl, by decide⟩⟩

theorem signed_hasSign : HasSign signed := by
  have hpair : Signed ('+', 'f') := ⟨rfl, by decide⟩
  refine ⟨List.replicate 32 ('+', 'f'), List.length_replicate, by simp [signed], ?_, ?_⟩
  · intro p hp
    rw [List.eq_of_mem_replicate hp]
    exact .inr hpair
  · exact ⟨('+', 'f'), List.mem_replicate.mpr ⟨by decide, rfl⟩, hpair⟩

theorem HasSign.reads {written : String} (h : HasSign written) : ReadsAsHash written := by
  obtain ⟨pairs, hcount, hwritten, hreads, -⟩ := h
  exact ⟨pairs, hcount, hwritten, hreads⟩

def fileOf (written : String) : String := "[[tokens]]\nsecret_hash = \"" ++ written ++ "\"\n"

/-- **A sign is taken for a digit, and an accent takes the daemon's watching task down.** -/
theorem token_file_misread :
    (¬ ∀ toml text, Exact toml text) ∧
      ¬ ∀ toml read s fresh, s.watching = true →
        (reload s ⟨fresh, TokenStore.load toml read⟩).watching = true := by
  constructor
  · intro h
    let entry : RawToken := ⟨none, [], signed⟩
    let toml (_ : String) : Except String (List RawToken) := .ok [entry]
    have hreads : ∀ t ∈ [entry], ReadsAsHash t.secretHash := by
      intro t ht
      rw [List.mem_singleton.mp ht]
      exact signed_hasSign.reads
    have haccepts : AcceptsSign [entry] :=
      ⟨hreads, entry, List.mem_singleton.mpr rfl, signed_hasSign⟩
    exact (exact_iff toml (fileOf signed)).mp (h toml _) ⟨_, rfl, .inr haccepts⟩
  · intro h
    let entry : RawToken := ⟨none, [], accented⟩
    let toml (_ : String) : Except String (List RawToken) := .ok [entry]
    let read (_ : PathBuf) : Except String String := .ok (fileOf accented)
    let path := PathBuf.ofString "/etc/abora/tokens.toml"
    let config : Config := { security := { tokenFile := some path } }
    let source := ReloadSource.file (PathBuf.ofString "/etc/abora/config.toml")
    let s : AuthState := ⟨config, some ⟨[]⟩, source, true⟩
    have hpanics : PanicsOn [entry] :=
      ⟨[], entry, [], rfl, fun u hu => absurd hu List.not_mem_nil, accented_breaksApart⟩
    have hpanicked : TokenStore.load toml read path = .panicked :=
      load_panicked_iff.mpr ⟨fileOf accented, [entry], rfl, rfl, hpanics⟩
    have hdown : (reload s ⟨.ok config, TokenStore.load toml read⟩).watching = false :=
      reload_watching_iff.mpr (.inr ⟨rfl, ⟨_, rfl⟩, config, path, rfl, rfl, hpanicked⟩)
    rw [h toml read s (.ok config) rfl] at hdown
    cases hdown

end Abora.Daemon
