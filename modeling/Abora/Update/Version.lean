import Abora.Lib.Decimal
import Abora.Update.Types

/-!
# Version strings (`abora-core/src/lib.rs`)

`Version::parse` looks for the build first and for the prerelease in what is before it, and
`Display` prints them the other way round. So a build may have a `-` in it, and a prerelease may not
have a `+`: the first `+` of the text is always the one in front of the build.

A `VersionText` is a text of the accepted form with its parts and the proofs that they are what they
should be; the parser accepts exactly these (`parse_ok_iff_text`). With the parts at hand, parsing
and printing are two functions of them, and the round trip is a comparison of the two: only the
numbers may come out shorter than they went in, as `01` is a number and is printed as `1`.
-/

namespace Abora.Update

open Abora.Lib.Text

/-- One of the three numbers: digits only, some of them, and within 64 bits. Both refusals say the
same. -/
def versionNumber (part : Chars) : Except String Nat :=
  if part = [] ∨ ¬ part.all Char.isDigit then
    .error s!"invalid version number component `{String.ofList part}`"
  else
    match parseUnsigned 64 part with
    | some n => .ok n
    | none => .error s!"invalid version number component `{String.ofList part}`"

def Version.parse (input : String) : Except String Version :=
  let (rest, build) := (splitOnce '+' input.toList).elim (input.toList, none) fun p =>
    (p.1, some (String.ofList p.2))
  let (rest, prerelease) := (splitOnce '-' rest).elim (rest, none) fun p =>
    (p.1, some (String.ofList p.2))
  match splitAll '.' rest with
  | [major, minor, patch] => do
    let major ← versionNumber major
    let minor ← versionNumber minor
    let patch ← versionNumber patch
    .ok ⟨major, minor, patch, prerelease, build⟩
  | _ => .error s!"expected <major>.<minor>.<patch>, got `{input}`"

/-- An optional part, behind its separator. -/
def versionSuffix (sep : Char) : Option String → Chars
  | none => []
  | some text => sep :: text.toList

def Version.display (v : Version) : String :=
  String.ofList (Nat.toDigits 10 v.major ++ '.' :: (Nat.toDigits 10 v.minor ++ '.' ::
    (Nat.toDigits 10 v.patch ++ (versionSuffix '-' v.prerelease ++ versionSuffix '+' v.build))))

/-- A run of digits that says a number of 64 bits. -/
structure VersionNumber where
  digits : Chars
  value : Nat
  reads : parseDigits digits = some value
  fits : value < 2 ^ 64

/-- `N.N.N`, optionally `-` and a prerelease without a `+`, optionally `+` and any build. -/
structure VersionText where
  major : VersionNumber
  minor : VersionNumber
  patch : VersionNumber
  prerelease : Option String
  build : Option String
  no_plus : ∀ pre ∈ prerelease, '+' ∉ pre.toList

namespace VersionText

def suffixes (t : VersionText) : Chars :=
  versionSuffix '-' t.prerelease ++ versionSuffix '+' t.build

def text (t : VersionText) : Chars :=
  t.major.digits ++ '.' :: (t.minor.digits ++ '.' :: (t.patch.digits ++ t.suffixes))

def value (t : VersionText) : Version :=
  ⟨t.major.value, t.minor.value, t.patch.value, t.prerelease, t.build⟩

/-- No number has a superfluous zero in front, which is the only thing printing does not give
back. -/
def Plain (t : VersionText) : Prop :=
  ¬ LeadingZero t.major.digits ∧ ¬ LeadingZero t.minor.digits ∧ ¬ LeadingZero t.patch.digits

end VersionText

/-! ## Numbers -/

theorem VersionNumber.isDigit (n : VersionNumber) : ∀ c ∈ n.digits, c.isDigit = true :=
  (parseDigits_eq_some_iff.mp n.reads).2.1

theorem VersionNumber.not_mem (n : VersionNumber) {sep : Char} (h : sep.isDigit = false) :
    sep ∉ n.digits := by
  intro hmem
  rw [n.isDigit sep hmem] at h
  cases h

theorem versionNumber_ok (n : VersionNumber) : versionNumber n.digits = .ok n.value := by
  have hdigits : ¬ (n.digits = [] ∨ ¬ n.digits.all Char.isDigit = true) := by
    have hne := (parseDigits_eq_some_iff.mp n.reads).1
    simp [hne, List.all_eq_true.mpr n.isDigit]
  have hparse : parseUnsigned 64 n.digits = some n.value := by
    rw [parseUnsigned_of_digits n.isDigit, n.reads, Option.filter_some,
      if_pos (decide_eq_true n.fits)]
  unfold versionNumber
  rw [if_neg hdigits, hparse]

theorem exists_versionNumber {part : Chars} {value : Nat} (h : versionNumber part = .ok value) :
    ∃ n : VersionNumber, n.digits = part ∧ n.value = value := by
  unfold versionNumber at h
  split at h
  · cases h
  · rename_i hdigits
    rw [not_or, not_not] at hdigits
    split at h
    · rename_i n hparse
      cases h
      rw [parseUnsigned_of_digits (List.all_eq_true.mp hdigits.2)] at hparse
      obtain ⟨hreads, hfits⟩ := Option.filter_eq_some_iff.mp hparse
      exact ⟨⟨part, value, hreads, of_decide_eq_true hfits⟩, rfl, rfl⟩
    · cases h

/-- The numeral a number is printed as: the same value, in the fewest digits. -/
def VersionNumber.printed (n : VersionNumber) : VersionNumber where
  digits := Nat.toDigits 10 n.value
  value := n.value
  reads := parseDigits_toDigits n.value
  fits := n.fits

/-! ## The parser -/

/-- A part is found behind its separator, if that is not in what comes before; and no part is found
if there is none. -/
theorem splitOnce_suffix {sep : Char} {s : Chars} (h : sep ∉ s) (part : Option String) :
    (splitOnce sep (s ++ versionSuffix sep part)).elim (s ++ versionSuffix sep part, none)
      (fun p => (p.1, some (String.ofList p.2))) = (s, part) := by
  cases part with
  | none =>
    rw [versionSuffix, List.append_nil, splitOnce_eq_none_iff.mpr h]
    rfl
  | some text =>
    rw [versionSuffix, splitOnce_append text.toList h]
    simp

/-- What is left has no separator, and the part was behind it. -/
theorem eq_of_splitOnce {sep : Char} {s rest : Chars} {part : Option String}
    (h : (splitOnce sep s).elim (s, none) (fun p => (p.1, some (String.ofList p.2))) =
      (rest, part)) : s = rest ++ versionSuffix sep part ∧ sep ∉ rest := by
  cases hcut : splitOnce sep s with
  | none =>
    rw [hcut] at h
    cases h
    exact ⟨(List.append_nil s).symm, splitOnce_eq_none_iff.mp hcut⟩
  | some p =>
    rw [hcut] at h
    cases h
    obtain ⟨hs, hnot⟩ := splitOnce_eq_some hcut
    refine ⟨?_, hnot⟩
    rw [versionSuffix, String.toList_ofList]
    exact hs

namespace VersionText

theorem splitAll_numbers (t : VersionText) :
    splitAll '.' (t.major.digits ++ '.' :: (t.minor.digits ++ '.' :: t.patch.digits)) =
      [t.major.digits, t.minor.digits, t.patch.digits] := by
  rw [splitAll_append, splitAll_append, splitAll_of_not_mem (t.major.not_mem (by decide)),
    splitAll_of_not_mem (t.minor.not_mem (by decide)),
    splitAll_of_not_mem (t.patch.not_mem (by decide))]
  rfl

theorem not_mem_numbers (t : VersionText) {sep : Char} (hsep : sep.isDigit = false)
    (hdot : sep ≠ '.') :
    sep ∉ t.major.digits ++ '.' :: (t.minor.digits ++ '.' :: t.patch.digits) := by
  have hmajor := t.major.not_mem hsep
  have hminor := t.minor.not_mem hsep
  have hpatch := t.patch.not_mem hsep
  simp [hmajor, hminor, hpatch, hdot]

/-- **A text of the form parses**, to its parts. The build is split off first, so it may contain
anything. -/
theorem parse_text (t : VersionText) : Version.parse (String.ofList t.text) = .ok t.value := by
  have hnumbers : t.text =
      (t.major.digits ++ '.' :: (t.minor.digits ++ '.' :: t.patch.digits) ++
        versionSuffix '-' t.prerelease) ++ versionSuffix '+' t.build := by
    simp [text, suffixes]
  have hplus : '+' ∉ t.major.digits ++ '.' :: (t.minor.digits ++ '.' :: t.patch.digits) ++
      versionSuffix '-' t.prerelease := by
    rw [List.mem_append, not_or]
    refine ⟨t.not_mem_numbers (by decide) (by decide), ?_⟩
    have hno := t.no_plus
    cases hpre : t.prerelease with
    | none => exact List.not_mem_nil
    | some pre =>
      rw [versionSuffix, List.mem_cons, not_or]
      exact ⟨by decide, hno pre hpre⟩
  unfold Version.parse
  rw [String.toList_ofList, hnumbers, splitOnce_suffix hplus]
  dsimp only
  rw [splitOnce_suffix (t.not_mem_numbers (by decide) (by decide))]
  dsimp only
  rw [t.splitAll_numbers]
  dsimp only
  rw [versionNumber_ok, versionNumber_ok, versionNumber_ok]
  rfl

end VersionText

/-- **Only texts of the form parse.** Each split says what the text was, and the numbers say what
their digits were. -/
theorem exists_text_of_parse {s : String} {v : Version} (h : Version.parse s = .ok v) :
    ∃ t : VersionText, t.text = s.toList ∧ t.value = v := by
  unfold Version.parse at h
  generalize hplus : (splitOnce '+' s.toList).elim (s.toList, none) (fun p =>
    (p.1, some (String.ofList p.2))) = cut at h
  -- behind the first plus is the build, and before it there is none
  obtain ⟨rest, build⟩ := cut
  obtain ⟨hs, hnoplus⟩ := eq_of_splitOnce hplus
  dsimp only at h
  generalize hdash : (splitOnce '-' rest).elim (rest, none) (fun p =>
    (p.1, some (String.ofList p.2))) = cut at h
  obtain ⟨numbers, prerelease⟩ := cut
  obtain ⟨hrest, -⟩ := eq_of_splitOnce hdash
  dsimp only at h
  split at h
  · rename_i a b c hparts
    have hjoin := joinAll_splitAll '.' numbers
    rw [hparts] at hjoin
    cases hmajor : versionNumber a with
    | error e =>
      rw [hmajor] at h
      cases h
    | ok major =>
    cases hminor : versionNumber b with
    | error e =>
      rw [hmajor, hminor] at h
      cases h
    | ok minor =>
    cases hpatch : versionNumber c with
    | error e =>
      rw [hmajor, hminor, hpatch] at h
      cases h
    | ok patch =>
    rw [hmajor, hminor, hpatch] at h
    cases h
    obtain ⟨major, rfl, rfl⟩ := exists_versionNumber hmajor
    obtain ⟨minor, rfl, rfl⟩ := exists_versionNumber hminor
    obtain ⟨patch, rfl, rfl⟩ := exists_versionNumber hpatch
    -- or the plus would have been found there
    have hno (pre : String) (hpre : pre ∈ prerelease) : '+' ∉ pre.toList := by
      cases hpre
      rw [hrest] at hnoplus
      exact fun hmem => hnoplus (List.mem_append_right _ (List.mem_cons_of_mem _ hmem))
    refine ⟨⟨major, minor, patch, prerelease, build, hno⟩, ?_, rfl⟩
    rw [hs, hrest, ← hjoin]
    simp [VersionText.text, VersionText.suffixes, joinAll]
  · cases h

theorem parse_ok_iff_text {s : String} :
    (∃ v, Version.parse s = .ok v) ↔ ∃ t : VersionText, t.text = s.toList := by
  constructor
  · intro ⟨v, h⟩
    obtain ⟨t, ht, -⟩ := exists_text_of_parse h
    exact ⟨t, ht⟩
  · intro ⟨t, ht⟩
    refine ⟨t.value, ?_⟩
    rw [← t.parse_text, ht, String.ofList_toList]

/-! ## Printing -/

/-- The text with its numbers as they are printed. -/
def VersionText.printed (t : VersionText) : VersionText :=
  { t with major := t.major.printed, minor := t.minor.printed, patch := t.patch.printed }

theorem VersionText.display_value (t : VersionText) :
    t.value.display = String.ofList t.printed.text := rfl

/-- **It is printed as it was written** unless a number has a superfluous zero: the parts of the two
texts are the same but for the three numerals. -/
theorem VersionText.display_eq_iff (t : VersionText) :
    t.value.display.toList = t.text ↔ t.Plain := by
  rw [t.display_value, String.toList_ofList]
  constructor
  · intro h
    -- the suffixes are the same, and the numbers are between the dots
    have hnumbers (u : VersionText) : u.text =
        (u.major.digits ++ '.' :: (u.minor.digits ++ '.' :: u.patch.digits)) ++ u.suffixes := by
      simp [VersionText.text]
    have hsame : t.printed.suffixes = t.suffixes := rfl
    rw [hnumbers t.printed, hnumbers t, hsame] at h
    have hsplit := congrArg (splitAll '.') (List.append_cancel_right h)
    rw [t.printed.splitAll_numbers, t.splitAll_numbers] at hsplit
    simp only [List.cons.injEq, and_true] at hsplit
    exact ⟨(toDigits_eq_iff t.major.reads).mp hsplit.1,
      (toDigits_eq_iff t.minor.reads).mp hsplit.2.1, (toDigits_eq_iff t.patch.reads).mp hsplit.2.2⟩
  · intro ⟨hmajor, hminor, hpatch⟩
    have hprinted (n : VersionNumber) (h : ¬ LeadingZero n.digits) : n.printed.digits = n.digits :=
      (toDigits_eq_iff n.reads).mpr h
    show t.major.printed.digits ++ '.' :: (t.minor.printed.digits ++ '.' ::
      (t.patch.printed.digits ++ t.suffixes)) = t.text
    rw [hprinted _ hmajor, hprinted _ hminor, hprinted _ hpatch]
    rfl

/-- **Version strings round-trip.** The accepted strings are those of the form; what was parsed
parses again from what it is printed as; and that is the string itself unless one of its numbers has
a superfluous zero in front. -/
theorem version_round_trip (s : String) :
    ((∃ v, Version.parse s = .ok v) ↔ ∃ t : VersionText, t.text = s.toList) ∧
      ∀ v, Version.parse s = .ok v → Version.parse v.display = .ok v ∧
        ∀ t : VersionText, t.text = s.toList → (v.display = s ↔ t.Plain) := by
  refine ⟨parse_ok_iff_text, fun v h => ?_⟩
  have hvalue (t : VersionText) (ht : t.text = s.toList) : t.value = v := by
    have hparse := t.parse_text
    rw [ht, String.ofList_toList, h] at hparse
    exact (Except.ok.inj hparse).symm
  obtain ⟨t, ht, rfl⟩ := exists_text_of_parse h
  refine ⟨t.printed.parse_text, fun u hu => ?_⟩
  rw [← hvalue u hu, ← u.display_eq_iff, hu, String.toList_inj]

/-- A version with both suffixes. -/
theorem version_round_trip_full :
    let v : Version := ⟨1, 2, 3, some "alpha.1", some "build.7"⟩
    Version.parse "1.2.3-alpha.1+build.7" = .ok v ∧ Version.parse v.display = .ok v := by
  intro v
  have hparse : Version.parse "1.2.3-alpha.1+build.7" = .ok v := by decide +kernel
  exact ⟨hparse, ((version_round_trip _).2 v hparse).1⟩

end Abora.Update
