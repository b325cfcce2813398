import Abora.Lib.Files
import Abora.Lib.Path
import Abora.Update.AptOutput

/-!
# The hand-over between daemon and helper (`abora-update/src/apply.rs`)

`aborad` writes an `ApplyRequest` file, `abora-apply` reads it and writes an `ApplyResult` file. The
two run as different users, and the helper is root: whoever controls the daemon controls what is in
the request, so the reading side trusts none of it. The request carries no command, path or
free-form argument, only package names, each of them validated by `validateRequest` on the reading
side; and only a small, regular, recent file is read at all (`readRegularFile`).

The two `_iff` lemmas say exactly what each of the checks accepts, and nothing above this module
unfolds them again: the safety of the root helper is assembled from these two and from the one fact
about names that `Abora.Update.AptOutput` has, that none of them looks like an option.
-/

namespace Abora.Update

open Abora.Lib Abora.Lib.Text

/-- Most packages one request may name. The daemon has no such bound when it writes one. -/
def maxPackages : Nat := 2000

/-- A request older than this is ignored: ten minutes, in nanoseconds like every duration here. -/
def maxRequestAge : Nat := 10 * 60 * 1000000000

/-- Largest request or result file that is read. The size is what `stat` said, not what the read
got. -/
def maxFileBytes : Nat := 1024 * 1024

def defaultResultFile : PathBuf := PathBuf.ofString "/var/lib/abora-apply/result.json"

def requestFileName : String := "apply-request.json"

/-- What the daemon asks for. The helper goes by `id` and `packages` and looks at neither
`requestedAt` nor `requestedBy`. -/
structure ApplyRequest where
  id : String
  requestedAt : String
  requestedBy : String
  packages : List String
  deriving DecidableEq, Repr

/-- What the helper answers. `rebootStarted` is written before the reboot, which would leave no time
to do so afterwards. -/
structure ApplyResult where
  id : String
  startedAt : String
  finishedAt : String
  succeeded : Bool
  /-- Packages that were upgraded (empty on failure or when nothing was left to do). -/
  packages : List String
  note : Option String
  rebootStarted : Bool
  deriving DecidableEq, Repr

/-- Request ids are 8 to 64 characters of `[A-Za-z0-9-]`. -/
def validRequestId (id : String) : Bool :=
  let cs := id.toList
  decide (8 ≤ byteLen cs ∧ byteLen cs ≤ 64) && cs.all fun c => c.isAlphanum || c == '-'

/-- The reading side's check, in the source's order. The errors say what is wrong with the request
and never quote a name: of a bad one they give the length. -/
def validateRequest (request : ApplyRequest) : Except String Unit :=
  if validRequestId request.id = false then .error "request id is not valid"
  else if request.packages = [] then .error "request names no packages"
  else if request.packages.length > maxPackages then
    .error s!"request names more than {maxPackages} packages"
  else match request.packages.find? fun p => !validPackageName p with
    | some bad =>
      .error s!"request contains an invalid package name ({byteLen bad.toList} bytes)"
    | none => .ok ()

/-- The fixed `apt-get` arguments before the package names. The last of them is `--`, after which
nothing is an option any more. -/
def fixedInstallArgs : List String :=
  ["-y", "--no-remove", "-o", "Dpkg::Options::=--force-confold", "-o",
    "Dpkg::Options::=--force-confdef", "install", "--only-upgrade", "--"]

/-- `install_args`: upgrade exactly `packages`, and nothing else. -/
def installArgs (packages : List String) : List String := fixedInstallArgs ++ packages

/-- `read_regular_file`. The two things it asks the file system are two arguments, because they are
two moments: `stat` is what `symlink_metadata` answered, `contents` what the later `read` did. Who
may do what in between is the business of `Abora.Update.Inspect`. -/
def readRegularFile (path : PathBuf) (stat : Except String Metadata) (now : SystemTime)
    (contents : Except String Bytes) (maxAge : Option Nat) : Except String Bytes :=
  match stat with
  | .error e => .error s!"{path.display}: {e}"
  | .ok md =>
    if md.isFile = false then .error s!"{path.display} is not a regular file"
    else if md.len > maxFileBytes then
      .error s!"{path.display} is larger than {maxFileBytes} bytes"
    -- age is asked last: only a small regular file can be too old
    else match maxAge.filter (md.age now > ·) with
      | some limit => .error s!"{path.display} is older than {limit / 60000000000} minutes"
      | none => contents.mapError fun e => s!"{path.display}: {e}"

/-! ## What each check accepts -/

/-- A request is accepted exactly when its id is one, it names some packages but not too many, and
every name is a valid one. -/
theorem validateRequest_ok_iff {r : ApplyRequest} :
    validateRequest r = .ok () ↔
      validRequestId r.id = true ∧ r.packages ≠ [] ∧ r.packages.length ≤ maxPackages ∧
        ∀ p ∈ r.packages, validPackageName p = true := by
  unfold validateRequest
  by_cases hid : validRequestId r.id = false
  · simp [hid]
  by_cases hne : r.packages = []
  · simp [hid, hne]
  by_cases hlen : r.packages.length > maxPackages
  · simp [hid, hne, hlen]
  rw [if_neg hid, if_neg hne, if_neg hlen]
  have hid' : validRequestId r.id = true := by simpa using hid
  have hlen' : r.packages.length ≤ maxPackages := Nat.le_of_not_lt hlen
  cases hfind : r.packages.find? fun p => !validPackageName p with
  | some bad =>
    have hbad := List.find?_some hfind
    have hmem := List.mem_of_find?_eq_some hfind
    simp only [reduceCtorEq, false_iff, not_and]
    intro _ _ _ hall
    rw [hall bad hmem] at hbad
    exact absurd hbad (by simp)
  | none =>
    simp only [List.find?_eq_none] at hfind
    simp only [true_iff]
    exact ⟨hid', hne, hlen', fun p hp => by simpa using hfind p hp⟩

/-- **A file is read exactly when it was a small regular file, no older than the limit, at the
moment it was inspected** — and then the answer is whatever the later read returned. -/
theorem readRegularFile_ok_iff {path : PathBuf} {stat : Except String Metadata} {now : SystemTime}
    {contents : Except String Bytes} {maxAge : Option Nat} {bytes : Bytes} :
    readRegularFile path stat now contents maxAge = .ok bytes ↔
      ∃ md, stat = .ok md ∧ md.isFile = true ∧ md.len ≤ maxFileBytes ∧
        (∀ limit, maxAge = some limit → md.age now ≤ limit) ∧ contents = .ok bytes := by
  unfold readRegularFile
  cases stat with
  | error e => simp
  | ok md =>
    by_cases hfile : md.isFile = false
    · simp [hfile]
    by_cases hlen : md.len > maxFileBytes
    · simp [hfile, hlen]
    simp only [hfile, hlen, if_false, Except.ok.injEq, exists_eq_left']
    have hfile' : md.isFile = true := by simpa using hfile
    have hlen' : md.len ≤ maxFileBytes := Nat.le_of_not_lt hlen
    cases maxAge with
    | none => cases contents <;> simp [Except.mapError, hlen']
    | some limit =>
      by_cases hage : md.age now > limit
      · simp [Option.filter, hage]
      · have hage' : ¬ limit < md.age now := hage
        cases contents <;>
          simp [Except.mapError, Option.filter, hage', hlen', Nat.le_of_not_lt hage]

/-- An id made of one fixed word and sixteen hexadecimal digits is a valid id: it has only
characters of one byte, so its length in bytes is the number of them. -/
theorem validRequestId_of_all {id : String} (hlen : 8 ≤ id.toList.length ∧ id.toList.length ≤ 64)
    (hall : ∀ c ∈ id.toList, c.isAlphanum = true ∨ c = '-') : validRequestId id = true := by
  have hbytes : byteLen id.toList = id.toList.length := by
    refine byteLen_eq_length fun c hc => ?_
    rcases hall c hc with h | rfl
    · exact utf8Size_of_alphanum h
    · decide
  simp only [validRequestId, hbytes, hlen.1, hlen.2, and_self, decide_true, Bool.true_and,
    List.all_eq_true, Bool.or_eq_true, beq_iff_eq]
  exact hall

end Abora.Update
