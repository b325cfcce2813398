import Abora.Lib.Nix
import Mathlib.Data.List.Infix

/-!
# The installer's settings (`installer/nixos/abora-framework-install.sh`)

The command line and its checks. The settings end up inside Nix source, and the script restricts
them to characters that cannot break out of a string; what it refuses it does not escape. What
passes the checks of `check_settings` reads as itself between the quotes of a Nix string
(`Checked`). The disk is not among what is checked.

A regular expression of the script is written below as the condition on the characters of a word
that it is. Its ranges are those of the C locale, so that only ASCII counts as a letter or a digit.
-/

namespace Abora.Installer

open Lib.Text

/-- The script's variables; a text that was not given is empty. -/
structure Settings where
  disk : String
  hostname : String
  username : String
  timezone : String
  passwordHash : String
  /-- `none` is to be asked for. -/
  wantAnix : Option Bool
  wantTinypm : Option Bool
  frameworkFlake : String
  generateOnly : String
  bootMode : String
  assumeYes : Bool
  dryRun : Bool
  stateVersion : String
  deriving DecidableEq, Repr

/-- What the script starts from, before it looks at its arguments. -/
def Settings.initial : Settings where
  disk := ""
  hostname := "abora-framework"
  username := "admin"
  timezone := "UTC"
  passwordHash := ""
  wantAnix := none
  wantTinypm := none
  frameworkFlake := "github:AboraOS-Project/Abora-Framework"
  generateOnly := ""
  bootMode := ""
  assumeYes := false
  dryRun := false
  stateVersion := ""

/-! ## The command line -/

/-- The options that stand alone. -/
def setFlag (s : Settings) : String → Option Settings
  | "--anix" => some { s with wantAnix := some true }
  | "--no-anix" => some { s with wantAnix := some false }
  | "--tinypm" => some { s with wantTinypm := some true }
  | "--no-tinypm" => some { s with wantTinypm := some false }
  | "--dry-run" => some { s with dryRun := true }
  | "--yes" => some { s with assumeYes := true }
  | "-y" => some { s with assumeYes := true }
  | _ => none

/-- The options with a value: what they need, and what they do with it. -/
def valueOption (s : Settings) : String → Option (String × (String → Settings))
  | "--disk" => some ("a device", fun v => { s with disk := v })
  | "--hostname" => some ("a name", fun v => { s with hostname := v })
  | "--user" => some ("a name", fun v => { s with username := v })
  | "--password-hash" => some ("a hash", fun v => { s with passwordHash := v })
  | "--timezone" => some ("a zone", fun v => { s with timezone := v })
  | "--framework-flake" => some ("a flake reference", fun v => { s with frameworkFlake := v })
  | "--generate-only" => some ("a directory", fun v => { s with generateOnly := v })
  | "--boot-mode" => some ("uefi or bios", fun v => { s with bootMode := v })
  | "--state-version" => some ("a release", fun v => { s with stateVersion := v })
  | _ => none

/-- The loop over the arguments; `none` is a request for help. An option without its value, or with
an empty one, ends the script (`:?`), and what comes behind a request for help is not looked at. -/
def parseArgs (s : Settings) : List String → Except String (Option Settings)
  | [] => .ok (some s)
  | arg :: rest =>
    if arg = "-h" ∨ arg = "--help" then .ok none
    else match setFlag s arg with
      | some s => parseArgs s rest
      | none =>
        match valueOption s arg with
        | none => .error s!"unknown option '{arg}'"
        | some (what, set) =>
          -- a value may be missing or empty, and may look like an option
          match rest with
          | [] => .error s!"{arg} needs {what}"
          | value :: rest =>
            if value = "" then .error s!"{arg} needs {what}" else parseArgs (set value) rest

/-! ## The checks -/

/-- `[a-z0-9]`. -/
def isLowerDigit (c : Char) : Bool := c.isLower || c.isDigit

/-- `^[a-z0-9]([a-z0-9-]{0,61}[a-z0-9])?$` -/
def validHostname (s : String) : Bool :=
  match s.toList with
  | [] => false
  | c :: rest => isLowerDigit c && match rest.getLast? with
    | none => true
    | some last => isLowerDigit last && rest.dropLast.length ≤ 61 &&
        rest.dropLast.all fun c => isLowerDigit c || c == '-'

/-- `^[a-z_][a-z0-9_-]{0,30}$`, and not root. -/
def validUsername (s : String) : Bool :=
  match s.toList with
  | [] => false
  | c :: rest => (c.isLower || c == '_') && rest.length ≤ 30 &&
      rest.all (fun c => isLowerDigit c || c == '_' || c == '-') && s != "root"

/-- A letter, a digit, or one of four others: the characters of a time zone. -/
def isZoneChar (c : Char) : Bool :=
  c.isAlphanum || c == '_' || c == '+' || c == '/' || c == '-'

/-- One to 64 letters, digits, underscores, signs and slashes, and nowhere two dots. -/
def validTimezone (s : String) : Bool :=
  1 ≤ s.toList.length && s.toList.length ≤ 64 && s.toList.all isZoneChar &&
    !decide (['.', '.'] <:+: s.toList)

/-- `[A-Za-z0-9./,=$-]`. -/
def isHashChar (c : Char) : Bool :=
  c.isAlphanum || c == '.' || c == '/' || c == ',' || c == '=' || c == '$' || c == '-'

/-- `^\$[0-9a-z]+\$[A-Za-z0-9./,=\$-]+$`; the first part has no dollar sign. -/
def validHash (s : String) : Bool :=
  match s.toList with
  | '$' :: rest => match splitOnce '$' rest with
    | some (method, hash) => method ≠ [] && method.all isLowerDigit && hash ≠ [] &&
        hash.all isHashChar
    | none => false
  | _ => false

/-- `[A-Za-z0-9_.:/@?=+~%-]`. -/
def isFlakeChar (c : Char) : Bool :=
  c.isAlphanum || "_.:/@?=+~%-".toList.contains c

/-- `^[A-Za-z0-9_.:/@?=+~%-]+$` -/
def validFlakeRef (s : String) : Bool := s ≠ "" && s.toList.all isFlakeChar

/-- `^[0-9]{2}\.[0-9]{2}$` -/
def validRelease (s : String) : Bool :=
  match s.toList with
  | [a, b, dot, c, d] => a.isDigit && b.isDigit && dot == '.' && c.isDigit && d.isDigit
  | _ => false

/-- `check_settings`. It stops at the first setting that it refuses. A hash, a boot mode or a
release that was not given is not checked; it is asked for or found out later. -/
def checkSettings (s : Settings) : Except String Unit :=
  if !validHostname s.hostname then
    .error s!"invalid hostname '{s.hostname}' (lowercase letters, digits and dashes)"
  else if !validUsername s.username then
    .error s!"invalid user name '{s.username}' (lowercase letters, digits, - and _; not root)"
  else if !validTimezone s.timezone then .error s!"invalid time zone '{s.timezone}'"
  else if !validFlakeRef s.frameworkFlake then
    .error s!"invalid flake reference '{s.frameworkFlake}'"
  else if s.passwordHash ≠ "" ∧ !validHash s.passwordHash then
    .error "that does not look like a password hash (expected something like $6$salt$hash)"
  else if s.bootMode ≠ "" ∧ s.bootMode ≠ "uefi" ∧ s.bootMode ≠ "bios" then
    .error "--boot-mode must be uefi or bios"
  else if s.stateVersion ≠ "" ∧ !validRelease s.stateVersion then
    .error s!"invalid --state-version '{s.stateVersion}' (expected like 26.05)"
  else .ok ()

/-! ## What the checks are worth -/

/-- The settings that go into the files, checked. Everything below that is said of the files needs
no more of the settings than this. -/
structure Checked (s : Settings) : Prop where
  hostname : validHostname s.hostname = true
  username : validUsername s.username = true
  timezone : validTimezone s.timezone = true
  frameworkFlake : validFlakeRef s.frameworkFlake = true
  passwordHash : s.passwordHash ≠ "" → validHash s.passwordHash = true
  stateVersion : s.stateVersion ≠ "" → validRelease s.stateVersion = true

/-- The checks have been made, one after the other, if none of them ended the script. -/
theorem checked_of_checkSettings {s : Settings} (h : checkSettings s = .ok ()) : Checked s := by
  unfold checkSettings at h
  split at h
  · cases h
  split at h
  · cases h
  split at h
  · cases h
  split at h
  · cases h
  split at h
  · cases h
  split at h
  · cases h
  split at h
  · cases h
  · rename_i hhost huser hzone hflake hhash _ hrelease
    simp only [Bool.not_eq_true', Bool.not_eq_false] at hhost huser hzone hflake
    simp only [not_and, Bool.not_eq_true', Bool.not_eq_false] at hhash hrelease
    exact ⟨hhost, huser, hzone, hflake, hhash, hrelease⟩

/-- No character that is special in a string, and no line break. A dollar sign is allowed: Nix takes
it for the start of an antiquotation only where an opening brace follows, and there is none. -/
def Harmless (s : Chars) : Prop := ∀ c ∈ s, c ∉ ['"', '\\', '\r', '\x7b', '\n']

instance (s : Chars) : Decidable (Harmless s) :=
  decidable_of_iff (s.all fun c => decide (c ∉ ['"', '\\', '\r', '\x7b', '\n']) = true)
    (by simp only [List.all_eq_true, decide_eq_true_eq, Harmless])

theorem Harmless.append {s t : Chars} (hs : Harmless s) (ht : Harmless t) : Harmless (s ++ t) :=
  List.forall_mem_append.mpr ⟨hs, ht⟩

/-- For a class of characters it is enough to look at the five that may do harm. -/
theorem harmless_of_all {p : Char → Bool}
    (hp : ['"', '\\', '\r', '\x7b', '\n'].all (fun c => !p c) = true) {s : Chars}
    (h : s.all p = true) : Harmless s := by
  intro c hc hspecial
  have hclass := List.all_eq_true.mp h c hc
  have hother := List.all_eq_true.mp hp c hspecial
  rw [hclass] at hother
  cases hother

theorem Harmless.inert {s : Chars} (h : Harmless s) : Lib.Nix.Inert s := by
  refine Lib.Nix.inert_of_forall fun c hc => ?_
  have hspecial := h c hc
  simp only [List.mem_cons, not_or] at hspecial
  exact ⟨hspecial.1, hspecial.2.1, hspecial.2.2.1, hspecial.2.2.2.1⟩

/-- A harmless text stays within its line, so that it may also stand in a comment. -/
theorem Harmless.single_line {s : Chars} (h : Harmless s) : '\n' ∉ s ∧ '\r' ∉ s :=
  ⟨fun hc => h '\n' hc (by decide), fun hc => h '\r' hc (by decide)⟩

theorem all_of_validHostname {s : String} (h : validHostname s = true) :
    s.toList.all (fun c => isLowerDigit c || c == '-') = true := by
  unfold validHostname at h
  split at h
  · cases h
  · rename_i c rest hs
    rw [Bool.and_eq_true] at h
    obtain ⟨hc, hrest⟩ := h
    rw [hs, List.all_cons, hc, Bool.true_or, Bool.true_and]
    split at hrest
    · rename_i hlast
      rw [List.getLast?_eq_none_iff.mp hlast]
      rfl
    · rename_i last hlast
      simp only [Bool.and_eq_true] at hrest
      rw [← List.dropLast_append_getLast? last hlast, List.all_append, hrest.2, List.all_cons,
        hrest.1.1]
      rfl

theorem all_of_validUsername {s : String} (h : validUsername s = true) :
    s.toList.all (fun c => isLowerDigit c || c == '_' || c == '-') = true := by
  unfold validUsername at h
  split at h
  · cases h
  · rename_i c rest hs
    simp only [Bool.and_eq_true, Bool.or_eq_true] at h
    rw [hs, List.all_cons, h.1.2, Bool.and_true]
    rcases h.1.1.1 with hc | hc <;> simp [isLowerDigit, hc]

theorem isHashChar_of_lowerDigit {c : Char} (h : isLowerDigit c = true) : isHashChar c = true := by
  have halnum : c.isAlphanum = true := by
    unfold isLowerDigit at h
    unfold Char.isAlphanum Char.isAlpha
    rcases Bool.or_eq_true_iff.mp h with h | h <;> simp [h]
  simp [isHashChar, halnum]

theorem all_of_validHash {s : String} (h : validHash s = true) :
    s.toList.all isHashChar = true := by
  unfold validHash at h
  split at h
  · rename_i rest hs
    split at h
    · rename_i method hash hcut
      simp only [Bool.and_eq_true] at h
      have hmethod : method.all isHashChar = true := by
        rw [List.all_eq_true] at h ⊢
        exact fun c hc => isHashChar_of_lowerDigit (h.1.1.2 c hc)
      rw [hs, (splitOnce_eq_some hcut).1, List.all_cons, List.all_append, hmethod, List.all_cons,
        h.2]
      rfl
    · cases h
  · cases h

theorem all_of_validRelease {s : String} (h : validRelease s = true) :
    s.toList.all (fun c => c.isDigit || c == '.') = true := by
  unfold validRelease at h
  split at h
  · rename_i a b dot c d hs
    simp only [Bool.and_eq_true] at h
    simp [hs, h.1.1.1.1, h.1.1.1.2, h.1.1.2, h.1.2, h.2]
  · cases h

namespace Checked

variable {s : Settings} (h : Checked s)

include h

theorem hostname_harmless : Harmless s.hostname.toList :=
  harmless_of_all (by decide) (all_of_validHostname h.hostname)

theorem username_harmless : Harmless s.username.toList :=
  harmless_of_all (by decide) (all_of_validUsername h.username)

theorem timezone_harmless : Harmless s.timezone.toList := by
  have hvalid := h.timezone
  simp only [validTimezone, Bool.and_eq_true] at hvalid
  exact harmless_of_all (by decide) hvalid.1.2

theorem frameworkFlake_harmless : Harmless s.frameworkFlake.toList := by
  have hvalid := h.frameworkFlake
  simp only [validFlakeRef, Bool.and_eq_true] at hvalid
  exact harmless_of_all (by decide) hvalid.2

theorem passwordHash_harmless (hne : s.passwordHash ≠ "") : Harmless s.passwordHash.toList :=
  harmless_of_all (by decide) (all_of_validHash (h.passwordHash hne))

end Checked

theorem validRelease_harmless {release : String} (h : validRelease release = true) :
    Harmless release.toList :=
  harmless_of_all (by decide) (all_of_validRelease h)

end Abora.Installer
