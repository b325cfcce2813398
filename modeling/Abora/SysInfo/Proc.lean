import Abora.Config.Schedule
import Abora.Lib.Decimal
import Abora.Lib.Machine
import Abora.Lib.Words
import Abora.SysInfo.OsRelease

/-!
# The machine (`abora-sysinfo/src/lib.rs`, `abora-sysinfo/src/linux.rs`)

`collect` reads the kernel's files. What it makes of `/proc/meminfo` and `/proc/cpuinfo` is said of
files of lines: `meminfo_exact` for the one, in any order and with any padding, `cpuinfo_exact` for
the other, a block for each processor. Two numbers may be too large for what is made of them: an
uptime that no `Duration` holds, and an amount of memory that is counted in bytes. `collect_total`
says that nothing else in these files makes `collect` panic, and what holds of all it answers.

Two things are parameters: how a file reads, and the floating point number in `/proc/uptime`.
-/

namespace Abora.SysInfo

open Lib Lib.Text

/-- The three files of `/proc/sys/kernel` that describe the kernel. Only the release has to be
there: a missing name is `Linux`, and a missing version is empty. -/
structure KernelInfo where
  name : String
  release : String
  version : String
  deriving DecidableEq, Repr

/-- CPU architecture. Unknown machines are preserved. -/
inductive Architecture where
  | x86_64 | x86 | aarch64 | arm | riscv64 | riscv32 | powerpc64 | s390x
  | other (machine : String)
  deriving DecidableEq, Repr

/-- Memory usage in bytes. The file counts in kibibytes, so that each of the numbers is multiplied
on its way here, and what is in use is not in the file at all: it is the total without the part that
is available. -/
structure MemoryInfo where
  totalBytes : Nat
  availableBytes : Nat
  freeBytes : Nat
  usedBytes : Nat
  swapTotalBytes : Nat
  swapUsedBytes : Nat
  deriving DecidableEq, Repr

/-- What `/proc/cpuinfo` says of the processors. The file differs between architectures, and each of
the three may be missing from it. -/
structure CpuInfo where
  model : Option String
  physicalCores : Option Nat
  logicalCores : Option Nat
  deriving DecidableEq, Repr

/-- A snapshot of the machine: everything that `collect` reads, and the architecture that the
program was built for. -/
structure SystemInfo where
  hostname : String
  os : OsInfo
  kernel : KernelInfo
  architecture : Architecture
  machine : String
  uptime : Duration
  memory : MemoryInfo
  cpu : CpuInfo
  deriving DecidableEq, Repr

/-- Why there is no snapshot. A file that is read and makes no sense is named as `what`. -/
inductive SysInfoError where
  | notSupported
  | io (path source : String)
  | parse (what detail : String)
  deriving DecidableEq, Repr

/-- The `Display` of an error, as the daemon puts it into a response. -/
def SysInfoError.text : SysInfoError → String
  | .notSupported => "system information is not supported on this platform"
  | .io path source => s!"could not read `{path}`: {source}"
  | .parse what detail => s!"could not parse {what}: {detail}"

/-- Placeholder used when `/etc/os-release` is absent. -/
def OsInfo.unknown : OsInfo := ⟨"unknown", none, none, none, none, [], none⟩

namespace Architecture

/-- Map a `uname -m` style machine string to a known architecture. -/
def fromMachine (machine : String) : Architecture :=
  let m := (trim machine.toList).map Char.toLower
  match String.ofList m with
  | "x86_64" | "amd64" => .x86_64
  | "i386" | "i486" | "i586" | "i686" | "x86" => .x86
  | "aarch64" | "arm64" => .aarch64
  | "riscv64" => .riscv64
  | "riscv32" => .riscv32
  | "ppc64" | "ppc64le" | "powerpc64" => .powerpc64
  | "s390x" => .s390x
  | machine => if "arm".toList <+: m then .arm else .other machine

/-- Canonical `uname -m` string. Where several names lead to one architecture, this is one of them,
and an unknown machine keeps its own. -/
def canonical : Architecture → String
  | .x86_64 => "x86_64"
  | .x86 => "i686"
  | .aarch64 => "aarch64"
  | .arm => "arm"
  | .riscv64 => "riscv64"
  | .riscv32 => "riscv32"
  | .powerpc64 => "ppc64"
  | .s390x => "s390x"
  | .other machine => machine

end Architecture

/-- `from_fields`; both differences saturate. A kernel that says more is available than there is
gets nothing in use. -/
def MemoryInfo.fromFields (total available free swapTotal swapFree : Nat) : MemoryInfo :=
  { totalBytes := total
    availableBytes := available
    freeBytes := free
    usedBytes := total - available
    swapTotalBytes := swapTotal
    swapUsedBytes := swapTotal - swapFree }

/-! ## The parsers -/

/-- `Duration::from_secs_f64` of a number that is not negative: the nearest nanosecond, of two the
even one. It panics where the seconds do not fit 64 bits. (Rounding cannot carry a number past that
limit: a double just below it is a whole number of seconds.) -/
def fromSecsF64 (secs : ℚ) : Option Duration :=
  if secs < 2 ^ 64 then some (nearestEven (secs * 10 ^ 9)) else none

/-- `parse_uptime`: the first of the two numbers in `/proc/uptime`. `float` is `str::parse::<f64>`;
what it answers for `inf` and `nan` is refused here, and so is a number below zero, so that `none`,
a panic, is left to the conversion. -/
def parseUptime (float : Chars → Option F64) (text : Chars) :
    Option (Except SysInfoError Duration) :=
  match (splitWhitespace text).head? with
  | none => some (.error (.parse "/proc/uptime" "empty file"))
  | some token =>
    let shown := String.ofList token
    let invalid := SysInfoError.parse "/proc/uptime" s!"`{shown}` is not a valid duration"
    match float token with
    | none => some (.error (.parse "/proc/uptime" s!"`{shown}` is not a number"))
    | some .notFinite => some (.error invalid)
    | some (.finite secs) =>
      if secs < 0 then some (.error invalid) else (fromSecsF64 secs).map .ok

/-- The map `parse_meminfo` fills, as the function that looks a key up in it. -/
abbrev MemFields := Chars → Option Nat

/-- One line of `/proc/meminfo`. The value is the first word behind the colon, and its unit is not
looked at; a line without a colon or without a number is passed over. -/
def addMemField (fields : MemFields) (row : Chars) : MemFields :=
  match splitOnce ':' row with
  | none => fields
  | some (key, rest) =>
    match (splitWhitespace rest).head?.bind (parseUnsigned 64) with
    | none => fields
    | some value => Function.update fields (trim key) (some value)

/-- The map of a whole file. Where a key comes twice, the later line counts, as with
`BTreeMap::insert`. -/
def memFields (text : Chars) (key : String) : Option Nat :=
  (lines text).foldl addMemField (fun _ => none) key.toList

/-- What `parse_meminfo` makes of its map. All the numbers but the total have a stand-in where they
are missing. The multiplications are what differs between the two builds: with overflow checks a
product that needs more than 64 bits is a panic. -/
def memoryOf (build : Build) (fields : String → Option Nat) :
    Option (Except SysInfoError MemoryInfo) :=
  match fields "MemTotal" with
  | none => some (.error (.parse "/proc/meminfo" "MemTotal is missing"))
  | some total =>
    let free := (fields "MemFree").getD 0
    let available := (fields "MemAvailable").getD free
    let swapTotal := (fields "SwapTotal").getD 0
    let swapFree := (fields "SwapFree").getD 0
    let bytes (n : Nat) := build.mul n 1024
    do
      let memory := MemoryInfo.fromFields (← bytes total) (← bytes available) (← bytes free)
        (← bytes swapTotal) (← bytes swapFree)
      return .ok memory

def parseMeminfo (build : Build) (text : Chars) : Option (Except SysInfoError MemoryInfo) :=
  memoryOf build (memFields text)

/-- What `parse_cpuinfo` counts and keeps on its way through the lines. -/
structure CpuScan where
  model : Option Chars
  logicalCores : Nat
  physicalCores : Option Nat

/-- One line of `/proc/cpuinfo`. A model or a number of cores is taken from the first line that has
one; the lines of the other processors repeat it. -/
def CpuScan.add (scan : CpuScan) (row : Chars) : CpuScan :=
  match splitOnce ':' row with
  | none => scan
  | some (key, value) =>
    let value := trim value
    match String.ofList (trim key) with
    | "processor" => { scan with logicalCores := scan.logicalCores + 1 }
    | "model name" | "Model" | "Hardware" | "cpu model" =>
      if scan.model.isNone ∧ value ≠ [] then { scan with model := some value } else scan
    | "cpu cores" =>
      if scan.physicalCores.isNone then { scan with physicalCores := parseUnsigned 64 value }
      else scan
    | _ => scan

/-- `parse_cpuinfo`. It cannot fail: a file without a `processor` line gives no count, where it
might have given a count of nothing. -/
def parseCpuinfo (text : Chars) : CpuInfo :=
  let scan := (lines text).foldl CpuScan.add ⟨none, 0, none⟩
  { model := scan.model.map String.ofList
    physicalCores := scan.physicalCores
    logicalCores := if 0 < scan.logicalCores then some scan.logicalCores else none }

/-- `std::fs::read_to_string`. -/
abbrev ReadFile := String → Except String String

/-- `read`: a file that cannot be read is named in the error. -/
def readProc (read : ReadFile) (path : String) : Except SysInfoError Chars :=
  match read path with
  | .ok text => .ok text.toList
  | .error source => .error (.io path source)

/-- `collect`; `machine` is what the program was built for. `none` is a panic. The files are read in
the order of the source, which decides what is answered where two of them are at fault. -/
def collect (build : Build) (float : Chars → Option F64) (read : ReadFile) (machine : String) :
    ExceptT SysInfoError Option SystemInfo := do
  let file (path : String) : ExceptT SysInfoError Option Chars := .mk (some (readProc read path))
  let hostname := trim (← file "/proc/sys/kernel/hostname")
  if hostname = [] then throw (.parse "/proc/sys/kernel/hostname" "hostname is empty")
  let name :=
    match readProc read "/proc/sys/kernel/ostype" with
    | .ok text => String.ofList (trim text)
    | .error _ => "Linux"
  let release ← file "/proc/sys/kernel/osrelease"
  let version :=
    match readProc read "/proc/sys/kernel/version" with
    | .ok text => text
    | .error _ => []
  let uptime ← ExceptT.mk (parseUptime float (← file "/proc/uptime"))
  let memory ← ExceptT.mk (parseMeminfo build (← file "/proc/meminfo"))
  let os ← ExceptT.lift
    (match readProc read "/etc/os-release" with
    | .ok text => parseOsRelease (String.ofList text)
    | .error _ => some OsInfo.unknown)
  let cpu :=
    match readProc read "/proc/cpuinfo" with
    | .ok text => parseCpuinfo text
    | .error _ => ⟨none, none, none⟩
  return {
    hostname := String.ofList hostname
    os := os
    kernel := ⟨name, String.ofList (trim release), String.ofList (trim version)⟩
    architecture := .fromMachine machine
    machine := machine
    uptime := uptime
    memory := memory
    cpu := cpu }

/-! ## `/proc/meminfo` -/

/-- A line of the file. A `field` has a key and a number, with any white space around the number and
anything behind it; any `other` line is one that gives no number. -/
inductive MemLine where
  | field (key : Chars) (value : Nat) (more : List Chars) (rest : Chars)
      (spaced : Spaced isWhitespace (Nat.toDigits 10 value :: more) rest) (no_colon : ':' ∉ key)
      (in_range : value < 2 ^ 64) (one_line : '\n' ∉ key ++ rest)
  | other (text : Chars)
      (no_value : ∀ p, splitOnce ':' text = some p →
        (splitWhitespace p.2).head?.bind (parseUnsigned 64) = none)
      (one_line : '\n' ∉ text)

namespace MemLine

def text : MemLine → Chars
  | .field key _ _ rest _ _ _ _ => key ++ ':' :: rest
  | .other text _ _ => text

def entry : MemLine → Option (Chars × Nat)
  | .field key value _ _ _ _ _ _ => some (trim key, value)
  | .other _ _ _ => none

theorem newline_not_mem (row : MemLine) : '\n' ∉ row.text := by
  cases row with
  | field key _ _ rest _ _ _ h =>
    rw [List.mem_append, not_or] at h
    simp [text, h.1, h.2]
  | other _ _ h => exact h

end MemLine

theorem parseUnsigned_toDigits {bits n : Nat} (h : n < 2 ^ bits) :
    parseUnsigned bits (Nat.toDigits 10 n) = some n := by
  rw [parseUnsigned_of_digits (toDigits_isDigit n), parseDigits_toDigits, Option.filter_some]
  exact if_pos (decide_eq_true h)

/-- A line does to the map what it says. The case of a field is where the key's padding and the
words behind the number are seen not to matter. -/
theorem addMemField_text (fields : MemFields) (row : MemLine) :
    addMemField fields (dropCr row.text) =
      row.entry.elim fields fun p => Function.update fields p.1 (some p.2) := by
  unfold addMemField
  rw [splitOnce_dropCr (by decide)]
  cases row with
  | field key value more rest spaced no_colon in_range _ =>
    have hwords : splitWhitespace (dropCr rest) = Nat.toDigits 10 value :: more := by
      rw [splitWhitespace_dropCr, splitWhitespace_eq, pieces_spaced spaced]
    rw [MemLine.text, splitOnce_append _ no_colon, Option.map_some]
    dsimp only
    rw [hwords, List.head?_cons, Option.bind_some, parseUnsigned_toDigits in_range]
    rfl
  | other text no_value _ =>
    rw [MemLine.text]
    cases hsplit : splitOnce ':' text with
    | none => rfl
    | some p =>
      rw [Option.map_some]
      dsimp only
      rw [splitWhitespace_dropCr, no_value p hsplit]
      rfl

/-- The last value of a key, in kibibytes, with the order of the other lines forgotten. -/
def memValue (rows : List MemLine) (key : String) : Option Nat :=
  (rows.filterMap MemLine.entry).reverse.lookup key.toList

theorem memFields_rows {text : Chars} {rows : List MemLine}
    (h : text = unlines (rows.map MemLine.text)) : memFields text = memValue rows := by
  funext key
  unfold memFields
  rw [lines_rows MemLine.newline_not_mem h, List.foldl_map]
  simp only [addMemField_text]
  have hlast := foldl_update_lookup MemLine.entry id rows key.toList
  rwa [Option.map_id] at hlast

/-- The five numbers that are read, in kibibytes: what a file says of the memory, before anything is
computed from it. -/
structure MemSaid where
  total : Nat
  available : Nat
  free : Nat
  swapTotal : Nat
  swapFree : Nat

namespace MemSaid

/-- What the values of the keys say. Without a total they say nothing. -/
def of (value : String → Option Nat) : Option MemSaid :=
  (value "MemTotal").map fun total =>
    let free := (value "MemFree").getD 0
    { total := total
      available := (value "MemAvailable").getD free
      free := free
      swapTotal := (value "SwapTotal").getD 0
      swapFree := (value "SwapFree").getD 0 }

/-- Every number can be counted in bytes: 1024 times it is still a number of 64 bits. -/
def Fits (s : MemSaid) : Prop :=
  ∀ n ∈ [s.total, s.available, s.free, s.swapTotal, s.swapFree], n < 2 ^ 54

def exact (s : MemSaid) : MemoryInfo where
  totalBytes := 1024 * s.total
  availableBytes := 1024 * s.available
  freeBytes := 1024 * s.free
  usedBytes := 1024 * (s.total - s.available)
  swapTotalBytes := 1024 * s.swapTotal
  swapUsedBytes := 1024 * (s.swapTotal - s.swapFree)

/-- In bytes, of which 64 bits are kept. This is what a release build computes; the differences are
taken of what was kept, so that they too may be far off. -/
def wrapped (s : MemSaid) : MemoryInfo :=
  let bytes (n : Nat) := n * 1024 % 2 ^ 64
  .fromFields (bytes s.total) (bytes s.available) (bytes s.free) (bytes s.swapTotal)
    (bytes s.swapFree)

/-- Where everything fits, nothing is lost. The differences need no bound of their own, since they
are no greater than the totals. -/
theorem wrapped_eq {s : MemSaid} (h : s.Fits) : s.wrapped = s.exact := by
  obtain ⟨total, available, free, swapTotal, swapFree⟩ := s
  simp only [Fits, List.forall_mem_cons] at h
  obtain ⟨htotal, havailable, hfree, hswapTotal, hswapFree, -⟩ := h
  have hbytes {n : Nat} (hn : n < 2 ^ 54) : n * 1024 % 2 ^ 64 = 1024 * n := by omega
  simp only [wrapped, exact, MemoryInfo.fromFields, hbytes htotal, hbytes havailable, hbytes hfree,
    hbytes hswapTotal, hbytes hswapFree, Nat.mul_sub]

end MemSaid

theorem memoryOf_none (build : Build) {value : String → Option Nat} (h : MemSaid.of value = none) :
    memoryOf build value = some (.error (.parse "/proc/meminfo" "MemTotal is missing")) := by
  unfold memoryOf
  rw [Option.map_eq_none_iff.mp h]

theorem memoryOf_release {value : String → Option Nat} {s : MemSaid}
    (h : MemSaid.of value = some s) : memoryOf .release value = some (.ok s.wrapped) := by
  obtain ⟨total, htotal, rfl⟩ := Option.map_eq_some_iff.mp h
  unfold memoryOf
  rw [htotal]
  rfl

/-- With overflow checks all of the products fit, or the program panics at the first that does
not. -/
theorem memoryOf_debug_iff {value : String → Option Nat} {s : MemSaid}
    (h : MemSaid.of value = some s) {r : Except SysInfoError MemoryInfo} :
    memoryOf .debug value = some r ↔ s.Fits ∧ r = .ok s.exact := by
  have hbytes {n m : Nat} : Build.debug.mul n 1024 = some m ↔ n < 2 ^ 54 ∧ m = 1024 * n := by
    rw [Build.mul, fit_debug_eq_some_iff]
    omega
  obtain ⟨total, htotal, rfl⟩ := Option.map_eq_some_iff.mp h
  unfold memoryOf MemSaid.Fits
  rw [htotal]
  simp only [Option.bind_eq_bind, Option.bind_eq_some_iff, hbytes, List.forall_mem_cons,
    Option.pure_def, Option.some.injEq]
  constructor
  · rintro ⟨_, ⟨h1, rfl⟩, _, ⟨h2, rfl⟩, _, ⟨h3, rfl⟩, _, ⟨h4, rfl⟩, _, ⟨h5, rfl⟩, rfl⟩
    refine ⟨⟨h1, h2, h3, h4, h5, List.forall_mem_nil _⟩, ?_⟩
    simp only [MemSaid.exact, MemoryInfo.fromFields, Nat.mul_sub]
  · rintro ⟨⟨h1, h2, h3, h4, h5, -⟩, rfl⟩
    refine ⟨_, ⟨h1, rfl⟩, _, ⟨h2, rfl⟩, _, ⟨h3, rfl⟩, _, ⟨h4, rfl⟩, _, ⟨h5, rfl⟩, ?_⟩
    simp only [MemSaid.exact, MemoryInfo.fromFields, Nat.mul_sub]

theorem memoryOf_fits (build : Build) {value : String → Option Nat} {s : MemSaid}
    (h : MemSaid.of value = some s) (hfits : s.Fits) :
    memoryOf build value = some (.ok s.exact) := by
  cases build with
  | debug => exact (memoryOf_debug_iff h).mpr ⟨hfits, rfl⟩
  | release => rw [memoryOf_release h, MemSaid.wrapped_eq hfits]

theorem memoryOf_eq_none_iff {build : Build} {value : String → Option Nat} :
    memoryOf build value = none ↔ build = .debug ∧ ∃ s, MemSaid.of value = some s ∧ ¬ s.Fits := by
  cases hsaid : MemSaid.of value with
  | none =>
    rw [memoryOf_none build hsaid]
    exact iff_of_false (fun h => by cases h) (fun ⟨_, _, h, _⟩ => by cases h)
  | some s =>
    cases build with
    | debug =>
      rw [Option.eq_none_iff_forall_ne_some]
      simp only [ne_eq, memoryOf_debug_iff hsaid, not_and, true_and, Option.some.injEq,
        exists_eq_left']
      exact ⟨fun hnone hfits => hnone _ hfits rfl, fun hnot _ hfits => absurd hfits hnot⟩
    | release =>
      rw [memoryOf_release hsaid]
      exact iff_of_false (fun h => by cases h) (fun h => by cases h.1)

/-- **Memory is what the lines say**, in any order, with any padding and with any other lines among
them, as long as each of the five numbers can be counted in bytes. Where one cannot, a debug build
panics, and a release build takes every number for what 64 bits keep of it. Without a total there
is no answer. -/
theorem meminfo_exact {text : Chars} {rows : List MemLine}
    (h : text = unlines (rows.map MemLine.text)) :
    match MemSaid.of (memValue rows) with
    | none => ∀ build, parseMeminfo build text =
        some (.error (.parse "/proc/meminfo" "MemTotal is missing"))
    | some s =>
      (s.Fits → ∀ build, parseMeminfo build text = some (.ok s.exact)) ∧
        (¬ s.Fits → parseMeminfo .debug text = none ∧
          parseMeminfo .release text = some (.ok s.wrapped)) := by
  unfold parseMeminfo
  rw [memFields_rows h]
  split
  · rename_i hsaid
    exact fun build => memoryOf_none build hsaid
  · rename_i s hsaid
    exact ⟨fun hfits build => memoryOf_fits build hsaid hfits,
      fun hnot => ⟨memoryOf_eq_none_iff.mpr ⟨rfl, s, hsaid, hnot⟩, memoryOf_release hsaid⟩⟩

/-- Two keys that are there, in the other order, and one of them twice; and a total that is `2 ^ 64`
bytes. -/
theorem meminfo_exact_small :
    (∀ build, parseMeminfo build
        "MemAvailable: 3 kB\nHugePages\nMemTotal:   9 kB\nMemTotal: 8 kB\n".toList =
      some (.ok ⟨8192, 3072, 0, 5120, 0, 0⟩)) ∧
    parseMeminfo .debug "MemTotal: 18014398509481984 kB\n".toList = none ∧
    parseMeminfo .release "MemTotal: 18014398509481984 kB\n".toList =
      some (.ok ⟨0, 0, 0, 0, 0, 0⟩) := by
  let rows : List MemLine :=
    [.field "MemAvailable".toList 3 [['k', 'B']] " 3 kB".toList
        (((spaced_of_areWords (by decide)).cons (by decide))) (by decide) (by decide) (by decide),
      .other "HugePages".toList (fun p hp => by cases hp) (by decide),
      .field "MemTotal".toList 9 [['k', 'B']] "   9 kB".toList
        ((((spaced_of_areWords (by decide)).cons (by decide)).cons (by decide)).cons (by decide))
        (by decide) (by decide) (by decide),
      .field "MemTotal".toList 8 [['k', 'B']] " 8 kB".toList
        ((spaced_of_areWords (by decide)).cons (by decide)) (by decide) (by decide) (by decide)]
  have hrows : "MemAvailable: 3 kB\nHugePages\nMemTotal:   9 kB\nMemTotal: 8 kB\n".toList =
    unlines (rows.map MemLine.text) := by decide +kernel
  let large : List MemLine :=
    [.field "MemTotal".toList (2 ^ 54) [['k', 'B']] " 18014398509481984 kB".toList
      ((spaced_of_areWords (by decide)).cons (by decide)) (by decide) (by decide) (by decide)]
  have hlarge : "MemTotal: 18014398509481984 kB\n".toList =
    unlines (large.map MemLine.text) := by decide +kernel
  have hsmall := meminfo_exact hrows
  have htoo := meminfo_exact hlarge
  rw [show MemSaid.of (memValue rows) = some ⟨8, 3, 0, 0, 0⟩ by rfl] at hsmall
  rw [show MemSaid.of (memValue large) = some ⟨2 ^ 54, 0, 0, 0, 0⟩ by rfl] at htoo
  have hnot : ¬ MemSaid.Fits ⟨2 ^ 54, 0, 0, 0, 0⟩ := fun hfits =>
    absurd (hfits (2 ^ 54) List.mem_cons_self) (Nat.lt_irrefl _)
  exact ⟨hsmall.1 (by unfold MemSaid.Fits; decide), htoo.2 hnot⟩

/-! ## `/proc/cpuinfo` -/

def cpuEntry (row : Chars) : Option (String × Chars) :=
  (splitOnce ':' row).map fun p => (String.ofList (trim p.1), trim p.2)

/-- The file as pairs of a name and a value, in order. Lines without a colon are not among them. -/
def cpuEntries (text : Chars) : List (String × Chars) := (lines text).filterMap cpuEntry

/-- A line that names the model. Four names are in use for it, and an empty value is no name. -/
def modelOf (entry : String × Chars) : Option Chars :=
  if ["model name", "Model", "Hardware", "cpu model"].contains entry.1 ∧ entry.2 ≠ [] then
    some entry.2
  else none

/-- A line with a number of cores. It is not in the file of every architecture. -/
def coresOf (entry : String × Chars) : Option Nat :=
  if entry.1 = "cpu cores" then parseUnsigned 64 entry.2 else none

def isProcessor (entry : String × Chars) : Bool := entry.1 == "processor"

/-- What one line does, without the cases of its name: it counts, and it stands in where nothing was
found yet. -/
theorem CpuScan.add_eq (scan : CpuScan) (row : Chars) :
    scan.add row =
      (cpuEntry row).elim scan fun entry =>
        ⟨scan.model.or (modelOf entry),
          scan.logicalCores + if isProcessor entry then 1 else 0,
          scan.physicalCores.or (coresOf entry)⟩ := by
  unfold CpuScan.add cpuEntry
  cases splitOnce ':' row with
  | none => rfl
  | some p =>
    obtain ⟨key, value⟩ := p
    rw [Option.map_some, Option.elim_some]
    dsimp only
    generalize String.ofList (trim key) = key
    generalize trim value = value
    obtain ⟨model, logical, physical⟩ := scan
    split
    · simp [modelOf, coresOf, isProcessor]
    · cases model <;> by_cases hv : value = [] <;> simp [modelOf, coresOf, isProcessor, hv]
    · cases model <;> by_cases hv : value = [] <;> simp [modelOf, coresOf, isProcessor, hv]
    · cases model <;> by_cases hv : value = [] <;> simp [modelOf, coresOf, isProcessor, hv]
    · cases model <;> by_cases hv : value = [] <;> simp [modelOf, coresOf, isProcessor, hv]
    · cases physical <;> simp [modelOf, coresOf, isProcessor]
    · simp_all [modelOf, coresOf, isProcessor]

/-- What all the lines do: the count adds up, and the first that was found stays. -/
theorem CpuScan.foldl_add (rows : List Chars) (scan : CpuScan) :
    rows.foldl CpuScan.add scan =
      let entries := rows.filterMap cpuEntry
      ⟨scan.model.or (entries.findSome? modelOf), scan.logicalCores + entries.countP isProcessor,
        scan.physicalCores.or (entries.findSome? coresOf)⟩ := by
  induction rows generalizing scan with
  | nil => simp
  | cons row rows ih =>
    rw [List.foldl_cons, ih, CpuScan.add_eq]
    cases hentry : cpuEntry row with
    | none =>
      rw [List.filterMap_cons_none hentry]
      rfl
    | some entry =>
      rw [List.filterMap_cons_some hentry, Option.elim_some]
      dsimp only
      rw [List.findSome?_cons, List.findSome?_cons, List.countP_cons, Option.or_assoc,
        Option.or_assoc, Nat.add_assoc, Nat.add_comm (ite _ 1 0)]
      cases modelOf entry <;> cases coresOf entry <;> rfl

/-- **What is known of the processors**, whatever the text: how many lines begin one, the first
model with a name, the first number of cores that is one. -/
theorem cpuinfo_exact (text : Chars) :
    parseCpuinfo text =
      let cores := (cpuEntries text).countP isProcessor
      { model := ((cpuEntries text).findSome? modelOf).map String.ofList
        physicalCores := (cpuEntries text).findSome? coresOf
        logicalCores := if 0 < cores then some cores else none } := by
  unfold parseCpuinfo
  rw [CpuScan.foldl_add]
  dsimp only
  rw [Option.none_or, Option.none_or, Nat.zero_add]
  rfl

/-! ## Whatever the files contain -/

/-- Nothing is sliced off in the middle of a character: a quote at either end is one byte. -/
theorem unquote_isSome (value : Chars) : (unquote value).isSome := by
  have hquoted {quote : Char} (hsize : quote.utf8Size = 1) (h : quotedBy quote value) :
      (slice value 1 (byteLen value - 1)).isSome := by
    obtain ⟨hlen, hhead, hlast⟩ := h
    cases value with
    | nil => cases hhead
    | cons c rest =>
      cases hhead
      have hne : rest ≠ [] := by
        rintro rfl
        rw [byteLen_cons, byteLen_nil, hsize] at hlen
        omega
      rw [List.getLast?_cons, List.getLast?_eq_some_getLast hne] at hlast
      have hlast : rest.getLast hne = quote := Option.some.inj hlast
      have hbody := List.dropLast_concat_getLast hne
      rw [hlast] at hbody
      rw [← hbody, slice_between hsize]
      rfl
  unfold unquote
  split
  · rw [Option.isSome_map]
    exact hquoted (show '"'.utf8Size = 1 by decide) ‹_›
  · split
    · exact hquoted (show '\''.utf8Size = 1 by decide) ‹_›
    · rfl

theorem parseOsRelease_isSome (text : String) : (parseOsRelease text).isSome := by
  have hline (fields : Fields) (row : Chars) : (addLine fields row).isSome := by
    unfold addLine
    dsimp only
    split
    · rfl
    · split
      · rw [Option.isSome_map]
        exact unquote_isSome _
      · rfl
  have hlines (rows : List Chars) (fields : Fields) : (rows.foldlM addLine fields).isSome := by
    induction rows generalizing fields with
    | nil => rfl
    | cons row rows ih =>
      obtain ⟨fields', hfields'⟩ := Option.isSome_iff_exists.mp (hline fields row)
      rw [List.foldlM_cons, hfields']
      exact ih fields'
  obtain ⟨map, hmap⟩ := Option.isSome_iff_exists.mp (hlines (lines text.toList) fun _ => none)
  unfold parseOsRelease
  rw [hmap]
  rfl

/-- What holds of every snapshot, whichever files it was taken from. -/
structure SystemInfo.Sound (info : SystemInfo) : Prop where
  hostname : info.hostname ≠ ""
  used : info.memory.usedBytes ≤ info.memory.totalBytes
  swap : info.memory.swapUsedBytes ≤ info.memory.swapTotalBytes
  cores : ∀ n ∈ info.cpu.logicalCores, 0 < n
  model : ∀ m ∈ info.cpu.model, m ≠ ""

/-- What is in use is a difference, so it is never more than the total, even where a release build
has kept 64 bits of both. -/
theorem parseMeminfo_used {build : Build} {text : Chars} {memory : MemoryInfo}
    (h : parseMeminfo build text = some (.ok memory)) :
    memory.usedBytes ≤ memory.totalBytes ∧ memory.swapUsedBytes ≤ memory.swapTotalBytes := by
  have hfields (total available free swapTotal swapFree : Nat) :
      let memory := MemoryInfo.fromFields total available free swapTotal swapFree
      memory.usedBytes ≤ memory.totalBytes ∧ memory.swapUsedBytes ≤ memory.swapTotalBytes :=
    ⟨Nat.sub_le _ _, Nat.sub_le _ _⟩
  unfold parseMeminfo memoryOf at h
  split at h
  · cases h
  · simp only [Option.bind_eq_bind, Option.bind_eq_some_iff] at h
    obtain ⟨_, -, _, -, _, -, _, -, _, -, hmemory⟩ := h
    cases hmemory
    exact hfields _ _ _ _ _

/-- The number in `/proc/uptime`, as it stands there; `parse` has still to be asked whether a
`Duration` can hold it. -/
def UptimeSays (float : Chars → Option F64) (text : Chars) (secs : ℚ) : Prop :=
  ∃ token ∈ (splitWhitespace text).head?, float token = some (.finite secs)

theorem UptimeSays.unique {float : Chars → Option F64} {text : Chars} {a b : ℚ}
    (ha : UptimeSays float text a) (hb : UptimeSays float text b) : a = b := by
  obtain ⟨token, htoken, ha⟩ := ha
  obtain ⟨token', htoken', hb⟩ := hb
  obtain rfl := Option.mem_unique htoken htoken'
  rw [ha] at hb
  cases hb
  rfl

theorem fromSecsF64_eq_some_iff {secs : ℚ} {d : Duration} :
    fromSecsF64 secs = some d ↔ secs < 2 ^ 64 ∧ nearestEven (secs * 10 ^ 9) = d := by
  unfold fromSecsF64
  split <;> simp [*]

theorem fromSecsF64_eq_none_iff {secs : ℚ} : fromSecsF64 secs = none ↔ 2 ^ 64 ≤ secs := by
  unfold fromSecsF64
  split
  · rename_i hlt
    exact iff_of_false (fun h => by cases h) (not_le.mpr hlt)
  · rename_i hnot
    exact iff_of_true rfl (not_lt.mp hnot)

/-- What `parse_uptime` does: an uptime that is not negative goes to the conversion, and everything
else is an error. What follows about it needs no other look at its definition. -/
theorem parseUptime_cases (float : Chars → Option F64) (text : Chars) :
    (∃ secs, UptimeSays float text secs ∧ 0 ≤ secs ∧
      parseUptime float text = (fromSecsF64 secs).map .ok) ∨
    (∃ e, parseUptime float text = some (.error e)) ∧
      ∀ secs, UptimeSays float text secs → secs < 0 := by
  unfold parseUptime UptimeSays
  cases (splitWhitespace text).head? with
  | none => exact .inr ⟨⟨_, rfl⟩, fun _ ⟨_, htoken, _⟩ => by cases htoken⟩
  | some token =>
    dsimp only
    have hsaid {secs : ℚ} (h : ∃ t ∈ some token, float t = some (.finite secs)) :
        float token = some (.finite secs) := by
      obtain ⟨t, htoken, hsecs⟩ := h
      cases htoken
      exact hsecs
    cases hfloat : float token with
    | none => exact .inr ⟨⟨_, rfl⟩, fun _ hsays => by cases hfloat.symm.trans (hsaid hsays)⟩
    | some number =>
      cases number with
      | notFinite =>
        exact .inr ⟨⟨_, rfl⟩, fun _ hsays => by cases hfloat.symm.trans (hsaid hsays)⟩
      | finite secs =>
        by_cases hneg : secs < 0
        · refine .inr ⟨⟨_, if_pos hneg⟩, fun _ hsays => ?_⟩
          cases hfloat.symm.trans (hsaid hsays)
          exact hneg
        · exact .inl ⟨secs, ⟨token, rfl, hfloat⟩, not_lt.mp hneg, if_neg hneg⟩

/-- The only uptime that makes a snapshot panic is one of `2 ^ 64` seconds or more. -/
theorem parseUptime_eq_none_iff {float : Chars → Option F64} {text : Chars} :
    parseUptime float text = none ↔ ∃ secs, UptimeSays float text secs ∧ 2 ^ 64 ≤ secs := by
  rcases parseUptime_cases float text with ⟨secs, hsays, -, h⟩ | ⟨⟨e, h⟩, hneg⟩
  · rw [h, Option.map_eq_none_iff, fromSecsF64_eq_none_iff]
    exact ⟨fun hbig => ⟨secs, hsays, hbig⟩,
      fun ⟨secs', hsays', hbig⟩ => hsays.unique hsays' ▸ hbig⟩
  · rw [h]
    refine iff_of_false (fun hnone => by cases hnone) fun ⟨secs, hsays, hbig⟩ => ?_
    linarith [hneg secs hsays]

example : parseUptime (fun _ => some (.finite (2 ^ 64))) "18446744073709551616 0.00".toList = none :=
  parseUptime_eq_none_iff.mpr ⟨2 ^ 64, ⟨_, rfl, rfl⟩, le_rfl⟩

/-- An uptime is the number in its file, to the nearest nanosecond. -/
theorem parseUptime_near {float : Chars → Option F64} {text : Chars} {uptime : Duration}
    (h : parseUptime float text = some (.ok uptime)) :
    ∃ secs, UptimeSays float text secs ∧ 0 ≤ secs ∧ secs < 2 ^ 64 ∧
      |(uptime : ℚ) - secs * 10 ^ 9| ≤ 1 / 2 := by
  rcases parseUptime_cases float text with ⟨secs, hsays, hpos, heq⟩ | ⟨⟨e, heq⟩, -⟩
  · rw [heq] at h
    obtain ⟨d, hd, hok⟩ := Option.map_eq_some_iff.mp h
    cases hok
    obtain ⟨hlt, rfl⟩ := fromSecsF64_eq_some_iff.mp hd
    exact ⟨secs, hsays, hpos, hlt, abs_nearestEven_sub_le (by positivity)⟩
  · rw [heq] at h
    cases h

theorem parseCpuinfo_sound (text : Chars) :
    (∀ n ∈ (parseCpuinfo text).logicalCores, 0 < n) ∧ ∀ m ∈ (parseCpuinfo text).model, m ≠ "" := by
  rw [cpuinfo_exact]
  dsimp only
  constructor
  · intro n hn
    split at hn
    · cases hn
      assumption
    · cases hn
  · intro m hm
    obtain ⟨value, hvalue, rfl⟩ := Option.map_eq_some_iff.mp hm
    obtain ⟨entry, -, hentry⟩ := List.exists_of_findSome?_eq_some hvalue
    unfold modelOf at hentry
    split at hentry
    · cases hentry
      rename_i hname
      exact fun hempty => hname.2 (by rw [← String.toList_ofList (l := entry.2), hempty]; rfl)
    · cases hentry

/-! ### Panics -/

section

variable {ε α β : Type}

/-- The computation panics. This is neither an answer nor an error that is handed on. -/
def Panics (x : ExceptT ε Option α) : Prop := x.run = none

def Answers (x : ExceptT ε Option α) (a : α) : Prop := x.run = some (.ok a)

/-- A sequence panics where its first part does, or the second with the answer of the first. So a
proof about `collect` follows its lines. -/
theorem panics_bind {x : ExceptT ε Option β} {f : β → ExceptT ε Option α} :
    Panics (x >>= f) ↔ Panics x ∨ ∃ b, Answers x b ∧ Panics (f b) := by
  unfold Panics Answers
  rw [ExceptT.run_bind]
  match x.run with
  | none => simp
  | some (.error e) => simp
  | some (.ok b) => simp

theorem answers_bind {x : ExceptT ε Option β} {f : β → ExceptT ε Option α} {a : α} :
    Answers (x >>= f) a ↔ ∃ b, Answers x b ∧ Answers (f b) a := by
  unfold Answers
  rw [ExceptT.run_bind]
  match x.run with
  | none => simp
  | some (.error e) => simp
  | some (.ok b) => simp

variable {a : α}

theorem not_panics_pure : ¬ Panics (pure a : ExceptT ε Option α) := fun h => by cases h

theorem answers_pure {b : α} : Answers (pure a : ExceptT ε Option α) b ↔ a = b := by
  show some (Except.ok a) = some (Except.ok b) ↔ _
  rw [Option.some.injEq, Except.ok.injEq]

theorem panics_mk {x : Option (Except ε α)} : Panics (ExceptT.mk x) ↔ x = none := .rfl

theorem answers_mk {x : Option (Except ε α)} : Answers (ExceptT.mk x) a ↔ x = some (.ok a) := .rfl

theorem panics_lift {x : Option α} : Panics (ExceptT.lift x : ExceptT ε Option α) ↔ x = none := by
  cases x <;> simp [Panics, ExceptT.lift]

theorem not_panics_throw (e : ε) : ¬ Panics (throw e : ExceptT ε Option α) := fun h => by cases h

theorem not_answers_throw (e : ε) : ¬ Answers (throw e : ExceptT ε Option α) a :=
  fun h => by cases h

end

/-- The file can be read, and this is what it says. -/
def Holds (read : ReadFile) (path : String) (text : Chars) : Prop := readProc read path = .ok text

/-- Nothing keeps `collect` from coming to the numbers: there is a name and a release. These two are
what it asks for before it looks at `/proc/uptime`. -/
def Named (read : ReadFile) : Prop :=
  (∃ hostname, Holds read "/proc/sys/kernel/hostname" hostname ∧ trim hostname ≠ []) ∧
    ∃ release, Holds read "/proc/sys/kernel/osrelease" release

/-- A number is too large: the uptime for a `Duration`, or, for a debug build, an amount of memory
for 64 bits once it is counted in bytes. -/
def TooLarge (build : Build) (float : Chars → Option F64) (read : ReadFile) : Prop :=
  ∃ text secs, Holds read "/proc/uptime" text ∧ UptimeSays float text secs ∧ 0 ≤ secs ∧
    (2 ^ 64 ≤ secs ∨ build = .debug ∧ ∃ text s, Holds read "/proc/meminfo" text ∧
      MemSaid.of (memFields text) = some s ∧ ¬ s.Fits)

theorem exists_parseUptime_iff {float : Chars → Option F64} {text : Chars} :
    (∃ uptime, parseUptime float text = some (.ok uptime)) ↔
      ∃ secs, UptimeSays float text secs ∧ 0 ≤ secs ∧ secs < 2 ^ 64 := by
  constructor
  · intro ⟨uptime, h⟩
    obtain ⟨secs, hsays, hpos, hbig, -⟩ := parseUptime_near h
    exact ⟨secs, hsays, hpos, hbig⟩
  · intro ⟨secs, hsays, hpos, hlt⟩
    rcases parseUptime_cases float text with ⟨secs', hsays', -, h⟩ | ⟨-, hneg⟩
    · rw [h, hsays'.unique hsays, fromSecsF64_eq_some_iff.mpr ⟨hlt, rfl⟩]
      exact ⟨_, rfl⟩
    · linarith [hneg secs hsays]

theorem os_ne_none (read : ReadFile) :
    (match readProc read "/etc/os-release" with
      | .ok text => parseOsRelease (String.ofList text)
      | .error _ => some OsInfo.unknown) ≠ none := by
  split
  · exact Option.isSome_iff_ne_none.mp (parseOsRelease_isSome _)
  · exact Option.some_ne_none _

/-- `collect` can panic at its numbers and nowhere else. The lines before them only decide whether
it comes there. -/
theorem collect_panics_iff {build : Build} {float : Chars → Option F64} {read : ReadFile}
    {machine : String} :
    Panics (collect build float read machine) ↔ Named read ∧ TooLarge build float read := by
  unfold collect Named TooLarge Holds
  simp only [panics_bind, panics_mk, answers_mk, apply_ite Panics, not_panics_throw,
    not_answers_throw, panics_lift, os_ne_none, not_panics_pure, Option.some.injEq, reduceCtorEq,
    false_or, false_and, exists_false, and_false, or_false, if_false_left, exists_and_right,
    parseUptime_eq_none_iff, exists_parseUptime_iff, parseMeminfo, memoryOf_eq_none_iff]
  constructor
  · rintro ⟨hostname, hhost, hne, hrelease, uptime, huptime, hlarge⟩
    refine ⟨⟨⟨hostname, hhost, hne⟩, hrelease⟩, uptime, ?_⟩
    rcases hlarge with ⟨secs, hsays, hbig⟩ | ⟨⟨secs, hsays, hpos, -⟩, memory, hmemory, hdebug, hs⟩
    · exact ⟨secs, huptime, hsays, by linarith, .inl hbig⟩
    · exact ⟨secs, huptime, hsays, hpos, .inr ⟨hdebug, memory, hs.elim fun s h => ⟨s, hmemory, h⟩⟩⟩
  · rintro ⟨⟨⟨hostname, hhost, hne⟩, hrelease⟩, uptime, secs, huptime, hsays, hpos, hlarge⟩
    refine ⟨hostname, hhost, hne, hrelease, uptime, huptime, ?_⟩
    by_cases hbig : 2 ^ 64 ≤ secs
    · exact .inl ⟨secs, hsays, hbig⟩
    · obtain ⟨hdebug, memory, s, hmemory, hs⟩ := hlarge.resolve_left hbig
      exact .inr ⟨⟨secs, hsays, hpos, not_le.mp hbig⟩, memory, hmemory, hdebug, s, hs⟩

/-- What holds of every snapshot, with the uptime to the nearest nanosecond. -/
theorem sound_of_collect {build : Build} {float : Chars → Option F64} {read : ReadFile}
    {machine : String} {info : SystemInfo} (h : Answers (collect build float read machine) info) :
    info.Sound ∧ ∃ text secs, Holds read "/proc/uptime" text ∧ UptimeSays float text secs ∧
      |(info.uptime : ℚ) - secs * 10 ^ 9| ≤ 1 / 2 := by
  unfold collect at h
  rw [answers_bind] at h
  obtain ⟨hostname, -, h⟩ := h
  dsimp only at h
  by_cases hhost : trim hostname = []
  · rw [if_pos hhost, answers_bind] at h
    obtain ⟨_, hthrow, -⟩ := h
    exact absurd hthrow (not_answers_throw _)
  rw [if_neg hhost] at h
  simp only [answers_bind, answers_mk, answers_pure, Option.some.injEq] at h
  obtain ⟨release, -, uptimeText, huptimeText, uptime, huptime, memoryText, -, memory, hmemory, os, -,
    rfl⟩ := h
  obtain ⟨secs, hsays, -, -, hnear⟩ := parseUptime_near huptime
  have hused := parseMeminfo_used hmemory
  have hcpu : ∀ cpu, cpu = (match readProc read "/proc/cpuinfo" with
      | .ok text => parseCpuinfo text
      | .error _ => ⟨none, none, none⟩) →
      (∀ n ∈ cpu.logicalCores, 0 < n) ∧ ∀ m ∈ cpu.model, m ≠ "" := by
    rintro cpu rfl
    split
    · exact parseCpuinfo_sound _
    · exact ⟨fun n hn => (by cases hn), fun m hm => (by cases hm)⟩
  refine ⟨⟨fun hname : String.ofList (trim hostname) = "" => hhost ?_, hused.1, hused.2,
    (hcpu _ rfl).1, (hcpu _ rfl).2⟩, uptimeText, secs, huptimeText, hsays, hnear⟩
  rw [← String.toList_ofList (l := trim hostname), hname]
  rfl

/-- **A snapshot is an answer unless a number is too large.** Whatever the files contain and
whichever of them can be read, `collect` panics exactly where it comes to an uptime that no
`Duration` holds, or, in a debug build, to an amount of memory that 64 bits do not hold in bytes.
What it answers has a host name, the uptime of its file to the nearest nanosecond, no more memory in
use than there is, and no count of processors where there are none. -/
theorem collect_total (build : Build) (float : Chars → Option F64) (read : ReadFile)
    (machine : String) :
    (Panics (collect build float read machine) ↔ Named read ∧ TooLarge build float read) ∧
      ∀ info, Answers (collect build float read machine) info →
        info.Sound ∧ ∃ text secs, Holds read "/proc/uptime" text ∧ UptimeSays float text secs ∧
          |(info.uptime : ℚ) - secs * 10 ^ 9| ≤ 1 / 2 :=
  ⟨collect_panics_iff, fun _ => sound_of_collect⟩

end Abora.SysInfo
