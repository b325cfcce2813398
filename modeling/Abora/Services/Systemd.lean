import Mathlib.Data.List.Sort
import Mathlib.Data.String.Basic
import Abora.Lib.Decimal
import Abora.Lib.Words
import Abora.Services.Query
import Abora.SysInfo.OsRelease

/-!
# systemd (`abora-services/src/linux.rs`)

The registry learns everything from what three `systemctl` commands print: a table of units, a table
of unit files and the properties of one unit. `collect_listed` reads a list of services back from
the two tables, `detail_shown` one unit from its properties, and `asks_only` says that no other
command is ever run.

`systemctl` itself is a parameter: what `Command::output` answers to an argument list, already
decoded. What it prints is given by its rows. A row of a table has its columns as words, with any
spacing between them (`UnitLine`, `FileLine`), and every line there can be is a row or one of the
others, which the parser skips; so nothing is assumed about the text but what a row means. The rows
of `show` are properties and blank lines in the same way.

The source looks at a row's words one by one and drops what it cannot use; `listedUnit_words` and
`addUnitFile_words` are the same functions on the list of words, which is what the rows are given
by.
-/

namespace Abora.Services

open Lib Lib.Text
open SysInfo (splitWhitespace splitWhitespace_eq splitWhitespace_trim splitWhitespace_dropCr
  ne_nil_of_mem_splitWhitespace spaced_of_areWords)

/-- Exit with success or not, standard output and standard error; or why it could not be run. -/
abbrev Systemctl := List String → Except String (Bool × String × String)

def mapActiveState (active : Chars) : ServiceState :=
  match String.ofList active with
  | "active" => .running
  | "inactive" => .stopped
  | "failed" => .failed
  | "activating" => .activating
  | "deactivating" => .deactivating
  | _ => .unknown

/-- Whether a unit is enabled, by the state of its file; the other states say neither. -/
def fileStateEnabled (state : Chars) : Option Bool :=
  match String.ofList state with
  | "enabled" | "enabled-runtime" => some true
  | "disabled" | "masked" | "masked-runtime" => some false
  | _ => none

/-- One `systemctl list-units` row. -/
structure RawUnit where
  name : Chars
  state : ServiceState
  description : Option Chars
  deriving DecidableEq, Repr

/-- `str::ends_with(".service")`. -/
def isServiceName (name : Chars) : Bool := ".service".toList.isSuffixOf name

/-- `str::contains`. -/
def contains (text part : String) : Bool := (cutAt part.toList text.toList).isSome

/-! ## The two tables -/

/-- One line of `list-units`. What is behind the fourth word is the description, its words with
single spaces. -/
def listedUnit (row : Chars) : Option RawUnit :=
  let row := trim row
  if row = [] ∨ "UNIT ".toList <+: row then none
  else
    match splitWhitespace row with
    | name :: load :: active :: _ :: rest =>
      if isServiceName name = false ∨ load = [] ∨ active = [] then none
      else
        some
          { name := name
            state := mapActiveState active
            description := if rest = [] then none else some (joinAll ' ' rest) }
    | _ => none

def parseListUnits (text : Chars) : Except ServicesError (List RawUnit) :=
  .ok ((lines text).filterMap listedUnit)

/-- The map `parse_list_unit_files` fills, as what it holds under a name. -/
abbrev FileStates := Chars → Option (Option Bool)

def addUnitFile (states : FileStates) (row : Chars) : FileStates :=
  let row := trim row
  if row = [] ∨ "UNIT FILE".toList <+: row then states
  else
    let it := splitWhitespace row
    let name := it.head?.getD []
    let state := it.tail.head?.getD []
    if name = [] ∨ isServiceName name = false ∨ state = [] then states
    else Function.update states name (some (fileStateEnabled state))

def parseListUnitFiles (text : Chars) : Except ServicesError FileStates :=
  .ok ((lines text).foldl addUnitFile fun _ => none)

/-! ## Running `systemctl` -/

/-- The flags every command begins with. -/
def sharedFlags : List String := ["--no-legend", "--no-pager", "--no-ask-password", "--plain"]

def runSystemctlRaw (systemctl : Systemctl) (args : List String) :
    Except ServicesError (Bool × String × String) :=
  match systemctl (sharedFlags ++ args) with
  | .ok output => .ok output
  | .error e => .error (.systemd s!"could not execute `systemctl`: {e}")

/-- What a command that failed is reported as. -/
def exitedNonZero (args : List String) (stderr : String) : ServicesError :=
  let command := " ".intercalate args
  let message := String.ofList (trim stderr.toList)
  .systemd s!"`systemctl {command}` exited with non-zero status: {message}"

def runSystemctl (systemctl : Systemctl) (args : List String) : Except ServicesError String := do
  let (ok, stdout, stderr) ← runSystemctlRaw systemctl args
  if ok = false then .error (exitedNonZero args stderr) else .ok stdout

def listUnits : List String := ["list-units", "--all", "--type=service"]

def listUnitFiles : List String := ["list-unit-files", "--type=service"]

/-- What the two tables say about a unit. -/
def serviceStatus (states : FileStates) (unit : RawUnit) : ServiceStatus :=
  { name := String.ofList unit.name
    state := unit.state
    enabled := (states unit.name).join
    description := unit.description.map String.ofList }

/-- `collect`: the two tables, one after the other, and the first that fails is the answer. -/
def collect (systemctl : Systemctl) : Except ServicesError (List ServiceStatus) := do
  let unitsOutput ← runSystemctl systemctl listUnits
  let filesOutput ← runSystemctl systemctl listUnitFiles
  let units ← parseListUnits unitsOutput.toList
  let fileStates ← parseListUnitFiles filesOutput.toList
  .ok ((units.map (serviceStatus fileStates)).insertionSort fun a b => a.name ≤ b.name)

/-! ## One unit -/

/-- The map `parse_show` fills. -/
abbrev Props := Chars → Option Chars

/-- `entry(..).or_insert_with(..)`: the first value seen wins. -/
def Props.orInsert (props : Props) (key value : Chars) : Props :=
  if (props key).isSome then props else Function.update props key (some value)

def parseShow (text : Chars) : Props :=
  (lines text).foldl
    (fun props row => (splitOnce '=' row).elim props fun p => props.orInsert p.1 p.2) fun _ => none

/-- The command line out of a reported `ExecStart`: from its marker to the first ` ;`, or to the
closing brace if there is none. -/
def extractArgv (value : Chars) : Option Chars := do
  let (_, found) ← cutAt "argv[]=".toList value
  let rest := found.drop "argv[]=".length
  let shown := (cutAt " ;".toList rest).orElse fun _ => cutAt "\x7d".toList rest
  let raw := trim ((shown.map Prod.fst).getD rest)
  if raw = [] then none else some raw

/-- `PROPERTIES` of `detail`. -/
def shownProperties : List String :=
  ["LoadState", "ActiveState", "SubState", "UnitFileState", "Description", "FragmentPath",
    "ExecStart", "MainPID", "MemoryCurrent"]

def showUnit (name : String) : List String :=
  "show" :: name :: shownProperties.map fun property => "--property=" ++ property

def shownDetail (name : String) (props : Props) : ServiceDetail :=
  let get (key : String) := props key.toList
  let optional (key : String) :=
    ((get key).filter fun v => v ≠ [] ∧ v ≠ "[not set]".toList).map String.ofList
  { name := name
    loadState := String.ofList ((get "LoadState").getD [])
    activeState := String.ofList ((get "ActiveState").getD [])
    subState := String.ofList ((get "SubState").getD [])
    enabled := (get "UnitFileState").bind fileStateEnabled
    description := optional "Description"
    fragmentPath := optional "FragmentPath"
    execStart := ((get "ExecStart").bind extractArgv).map String.ofList
    mainPid := ((get "MainPID").bind fun v => parseUnsigned 64 (trim v)).filter (· ≠ 0)
    memoryBytes := (get "MemoryCurrent").bind fun v => parseUnsigned 64 (trim v) }

/-- `SystemdServiceManager::detail`. A unit that is not there is told from a command that failed by
the words of its error. -/
def managerDetail (systemctl : Systemctl) (name : String) : Except ServicesError ServiceDetail := do
  let args := showUnit name
  let (ok, output, stderr) ← runSystemctlRaw systemctl args
  -- `show` of a missing unit fails with some versions and succeeds with others
  if ok = false ∧ (contains stderr "No such unit" ∨ contains stderr "not-found") then
    .error (.notFound name)
  else if ok = false then .error (exitedNonZero args stderr)
  else
    let props := parseShow output.toList
    if (props "LoadState".toList).getD [] = "not-found".toList then .error (.notFound name)
    else .ok (shownDetail name props)

/-! ## Rows and their words -/

/-- A line that is skipped at sight does not begin with the name of a service, so skipping it is
what its words would lead to as well. -/
theorem first_word_of_skipped {row name : Chars} {ws : List Chars}
    (h : trim row = [] ∨ "UNIT ".toList <+: trim row) (hwords : splitWhitespace row = name :: ws) :
    isServiceName name = false := by
  rcases h with hblank | ⟨rest, hrest⟩
  · rw [← splitWhitespace_trim, hblank] at hwords
    cases hwords
  · have hspace : isWhitespace ' ' = true := by decide
    have hletters : "UNIT".toList.all (fun c => !isWhitespace c) = true := by decide
    have hword (c : Char) (hc : c ∈ "UNIT".toList) : isWhitespace c = false := by
      simpa using List.all_eq_true.mp hletters c hc
    have hcut : pieces isWhitespace ("UNIT".toList ++ ' ' :: rest) =
        "UNIT".toList :: pieces isWhitespace (' ' :: rest) :=
      pieces_word_append (by decide) hword fun c hc => by cases hc; exact hspace
    have hheader : splitWhitespace row = "UNIT".toList :: pieces isWhitespace (' ' :: rest) := by
      rw [← splitWhitespace_trim, splitWhitespace_eq, ← hrest]
      exact hcut
    rw [← (List.cons.inj (hheader.symm.trans hwords)).1]
    decide

theorem listedUnit_words (row : Chars) :
    listedUnit row =
      match splitWhitespace row with
      | name :: _ :: active :: _ :: rest =>
        if isServiceName name = true then
          some
            { name := name
              state := mapActiveState active
              description := if rest = [] then none else some (joinAll ' ' rest) }
        else none
      | _ => none := by
  have hne (w : Chars) (hw : w ∈ splitWhitespace row) : w ≠ [] := ne_nil_of_mem_splitWhitespace hw
  have hskipped := @first_word_of_skipped row
  unfold listedUnit
  dsimp only
  rw [splitWhitespace_trim]
  match hwords : splitWhitespace row with
  | [] | [_] | [_, _] | [_, _, _] => exact ite_self _
  | name :: load :: active :: sub :: rest =>
    rw [hwords] at hne
    have hload : load ≠ [] := hne load (by simp)
    have hactive : active ≠ [] := hne active (by simp)
    dsimp only
    by_cases hname : isServiceName name = true
    · have hkept : ¬ (trim row = [] ∨ "UNIT ".toList <+: trim row) := fun h =>
        Bool.false_ne_true ((hskipped h hwords).symm.trans hname)
      rw [if_neg hkept, if_neg (by simp [hname, hload, hactive]), if_pos hname]
    · rw [if_neg hname, if_pos (Or.inl (Bool.eq_false_of_not_eq_true hname)), ite_self]

theorem addUnitFile_words (states : FileStates) (row : Chars) :
    addUnitFile states row =
      match splitWhitespace row with
      | name :: state :: _ =>
        if isServiceName name = true then
          Function.update states name (some (fileStateEnabled state))
        else states
      | _ => states := by
  have hne (w : Chars) (hw : w ∈ splitWhitespace row) : w ≠ [] := ne_nil_of_mem_splitWhitespace hw
  have hskipped := @first_word_of_skipped row
  unfold addUnitFile
  dsimp only
  rw [splitWhitespace_trim]
  match hwords : splitWhitespace row with
  | [] => simp only [List.head?_nil, Option.getD_none, true_or, ↓reduceIte, ite_self]
  | [_] =>
    simp only [List.tail_cons, List.head?_nil, Option.getD_none, or_true, ↓reduceIte, ite_self]
  | name :: state :: rest =>
    rw [hwords] at hne
    have hfilled : name ≠ [] := hne name (by simp)
    have hstate : state ≠ [] := hne state (by simp)
    have hfirst : (name :: state :: rest).head?.getD [] = name := rfl
    have hsecond : (name :: state :: rest).tail.head?.getD [] = state := rfl
    rw [hfirst, hsecond]
    show _ = if isServiceName name = true then
      Function.update states name (some (fileStateEnabled state)) else states
    by_cases hname : isServiceName name = true
    · have hshort : "UNIT ".toList <+: "UNIT FILE".toList := by decide
      have hkept : ¬ (trim row = [] ∨ "UNIT FILE".toList <+: trim row) := fun h =>
        Bool.false_ne_true ((hskipped (h.imp_right hshort.trans) hwords).symm.trans hname)
      rw [if_neg hkept, if_neg (by simp [hname, hfilled, hstate]), if_pos hname]
    · have hother := Or.inr (a := name = []) (Or.inl (b := state = [])
        (Bool.eq_false_of_not_eq_true hname))
      rw [if_neg hname, if_pos hother, ite_self]

/-! ## The list of services -/

/-- A row of the first table, by its columns. -/
structure ListedUnit where
  name : Chars
  load : Chars
  active : Chars
  sub : Chars
  description : List Chars
  is_service : isServiceName name = true

def ListedUnit.columns (unit : ListedUnit) : List Chars :=
  unit.name :: unit.load :: unit.active :: unit.sub :: unit.description

/-- A line of the first table. Every line is one or the other. -/
inductive UnitLine where
  | listed (unit : ListedUnit) (text : Chars) (spaced : Spaced isWhitespace unit.columns text)
      (one_line : '\n' ∉ text)
  /-- A blank line, the header, a row cut short, a unit that is no service. -/
  | other (text : Chars)
      (no_unit : (splitWhitespace text).length < 4 ∨
        ∀ w ∈ (splitWhitespace text).head?, isServiceName w = false)
      (one_line : '\n' ∉ text)

inductive FileLine where
  | file (name state : Chars) (more : List Chars) (text : Chars)
    (is_service : isServiceName name = true)
      (spaced : Spaced isWhitespace (name :: state :: more) text) (one_line : '\n' ∉ text)
  | other (text : Chars)
      (no_file : (splitWhitespace text).length < 2 ∨
        ∀ w ∈ (splitWhitespace text).head?, isServiceName w = false)
      (one_line : '\n' ∉ text)

namespace UnitLine

def text : UnitLine → Chars
  | .listed _ text _ _ => text
  | .other text _ _ => text

def entry : UnitLine → Option ListedUnit
  | .listed unit _ _ _ => some unit
  | .other _ _ _ => none

theorem newline_not_mem (row : UnitLine) : '\n' ∉ row.text := by
  cases row with
  | listed _ _ _ h => exact h
  | other _ _ h => exact h

end UnitLine

namespace FileLine

def text : FileLine → Chars
  | .file _ _ _ text _ _ _ => text
  | .other text _ _ => text

def entry : FileLine → Option (Chars × Chars)
  | .file name state _ _ _ _ _ => some (name, state)
  | .other _ _ _ => none

theorem newline_not_mem (row : FileLine) : '\n' ∉ row.text := by
  cases row with
  | file _ _ _ _ _ _ h => exact h
  | other _ _ h => exact h

end FileLine

/-- What there is to know about a listed unit; the last row of its file is the one that counts. -/
def ListedUnit.status (files : List (Chars × Chars)) (unit : ListedUnit) : ServiceStatus :=
  { name := String.ofList unit.name
    state := mapActiveState unit.active
    enabled := (files.reverse.lookup unit.name).bind fileStateEnabled
    description :=
      if unit.description = [] then none
      else some (String.ofList (joinAll ' ' unit.description)) }

def ListedUnit.raw (unit : ListedUnit) : RawUnit :=
  { name := unit.name
    state := mapActiveState unit.active
    description := if unit.description = [] then none else some (joinAll ' ' unit.description) }

theorem listedUnit_text (row : UnitLine) :
    listedUnit (dropCr row.text) = row.entry.map ListedUnit.raw := by
  rw [listedUnit_words, splitWhitespace_dropCr]
  cases row with
  | listed unit text spaced _ =>
    have hwords : splitWhitespace text = unit.columns := by
      rw [splitWhitespace_eq, pieces_spaced spaced]
    rw [UnitLine.text, hwords]
    show (if isServiceName unit.name = true then some unit.raw else none) = some unit.raw
    exact if_pos unit.is_service
  | other text no_unit _ =>
    rw [UnitLine.text]
    show _ = none
    generalize splitWhitespace text = words at no_unit
    match words, no_unit with
    | [], _ | [_], _ | [_, _], _ | [_, _, _], _ => rfl
    | _ :: _ :: _ :: _ :: _, .inl hshort => exact absurd hshort (by simp)
    | name :: _ :: _ :: _ :: _, .inr hname =>
      have hno : ¬ isServiceName name = true := by
        rw [hname name rfl]
        exact Bool.false_ne_true
      exact if_neg hno

theorem addUnitFile_text (states : FileStates) (row : FileLine) :
    addUnitFile states (dropCr row.text) =
      row.entry.elim states fun p =>
        Function.update states p.1 (some (fileStateEnabled p.2)) := by
  rw [addUnitFile_words, splitWhitespace_dropCr]
  cases row with
  | file name state more text is_service spaced _ =>
    have hwords : splitWhitespace text = name :: state :: more := by
      rw [splitWhitespace_eq, pieces_spaced spaced]
    rw [FileLine.text, hwords]
    exact if_pos is_service
  | other text no_file _ =>
    rw [FileLine.text]
    show _ = states
    generalize splitWhitespace text = words at no_file
    match words, no_file with
    | [], _ | [_], _ => rfl
    | _ :: _ :: _, .inl hshort => exact absurd hshort (by simp)
    | name :: _ :: _, .inr hname =>
      have hno : ¬ isServiceName name = true := by
        rw [hname name rfl]
        exact Bool.false_ne_true
      exact if_neg hno

theorem sorted_by_name (services : List ServiceStatus) :
    (services.insertionSort fun a b => a.name ≤ b.name).Pairwise fun a b => a.name ≤ b.name := by
  have : Std.Total fun a b : ServiceStatus => a.name ≤ b.name :=
    ⟨fun a b => le_total a.name b.name⟩
  have : IsTrans ServiceStatus fun a b => a.name ≤ b.name := ⟨fun _ _ _ => le_trans⟩
  exact List.pairwise_insertionSort _ services

/-- **The list is what the two tables say**, whatever the spacing, whatever else they contain and in
whatever order they come: every listed service, sorted by name. -/
theorem collect_listed {systemctl : Systemctl} {units : List UnitLine} {files : List FileLine}
    {shownUnits shownFiles stderr stderr' : String}
    (hunits : systemctl (sharedFlags ++ listUnits) = .ok (true, shownUnits, stderr))
    (hfiles : systemctl (sharedFlags ++ listUnitFiles) = .ok (true, shownFiles, stderr'))
    (hrows : shownUnits.toList = unlines (units.map UnitLine.text))
    (hstates : shownFiles.toList = unlines (files.map FileLine.text)) :
    ∃ services, collect systemctl = .ok services ∧
      services.Pairwise (fun a b => a.name ≤ b.name) ∧
      services.Perm ((units.filterMap UnitLine.entry).map
        (ListedUnit.status (files.filterMap FileLine.entry))) := by
  have hread : (lines shownUnits.toList).filterMap listedUnit =
      (units.filterMap UnitLine.entry).map ListedUnit.raw := by
    rw [lines_rows UnitLine.newline_not_mem hrows, List.filterMap_map, List.map_filterMap]
    exact List.filterMap_congr fun row _ => listedUnit_text row
  have hmap : (lines shownFiles.toList).foldl addUnitFile (fun _ => none) = fun name =>
      ((files.filterMap FileLine.entry).reverse.lookup name).map fileStateEnabled := by
    rw [lines_rows FileLine.newline_not_mem hstates, List.foldl_map]
    simp only [addUnitFile_text]
    exact funext (foldl_update_lookup FileLine.entry fileStateEnabled files)
  have hstatus (unit : ListedUnit) : serviceStatus
      (fun name => ((files.filterMap FileLine.entry).reverse.lookup name).map fileStateEnabled)
      unit.raw = unit.status (files.filterMap FileLine.entry) := by
    unfold serviceStatus ListedUnit.raw ListedUnit.status
    congr 1
    · dsimp only
      cases (files.filterMap FileLine.entry).reverse.lookup unit.name <;> rfl
    · dsimp only
      split <;> rfl
  refine ⟨_, ?_, sorted_by_name _, (List.perm_insertionSort _ _).trans (.refl _)⟩
  unfold collect runSystemctl runSystemctlRaw parseListUnits parseListUnitFiles
  rw [hunits, hfiles]
  show Except.ok _ = _
  rw [hread, hmap, List.map_map]
  exact congrArg (fun l => Except.ok (List.insertionSort _ l))
    (List.map_congr_left fun unit _ => hstatus unit)

/-- Two units out of order, a header and a file that is listed twice. -/
theorem collect_listed_small :
    let a : Chars := ['a', '.', 's', 'e', 'r', 'v', 'i', 'c', 'e']
    let b : Chars := ['b', '.', 's', 'e', 'r', 'v', 'i', 'c', 'e']
    let units := "UNIT LOAD ACTIVE SUB\nb.service l failed s\na.service l active s A d\n"
    let files := "a.service masked\na.service enabled -\n"
    let systemctl : Systemctl := fun args =>
      .ok (true, if args = sharedFlags ++ listUnits then units else files, "")
    ∃ services, collect systemctl = .ok services ∧
      services.Pairwise (fun a b => a.name ≤ b.name) ∧
      services.Perm
        [⟨String.ofList b, .failed, none, none⟩,
          ⟨String.ofList a, .running, some true, some "A d"⟩] := by
  intro a b units files systemctl
  let rows : List UnitLine :=
    [.other "UNIT LOAD ACTIVE SUB".toList (.inr fun w hw => by cases hw; decide) (by decide),
      .listed ⟨b, ['l'], "failed".toList, ['s'], [], by decide⟩ _ (spaced_of_areWords (by decide))
        (by decide),
      .listed ⟨a, ['l'], "active".toList, ['s'], [['A'], ['d']], by decide⟩ _
        (spaced_of_areWords (by decide)) (by decide)]
  let states : List FileLine :=
    [.file a "masked".toList [] _ (by decide) (spaced_of_areWords (by decide)) (by decide),
      .file a "enabled".toList [['-']] _ (by decide) (spaced_of_areWords (by decide)) (by decide)]
  have hunits : systemctl (sharedFlags ++ listUnits) = .ok (true, units, "") := rfl
  have hfiles : systemctl (sharedFlags ++ listUnitFiles) = .ok (true, files, "") := rfl
  have hrows : units.toList = unlines (rows.map UnitLine.text) := by decide +kernel
  have hstates : files.toList = unlines (states.map FileLine.text) := by decide +kernel
  exact collect_listed hunits hfiles hrows hstates

/-! ## One unit, by its properties -/

/-- A line of `show`. Every line is one or the other. -/
inductive ShowLine where
  | property (key value : Chars) (no_equals : '=' ∉ key) (one_line : '\n' ∉ key ++ value)
  /-- The blank line between two values of a property. -/
  | other (text : Chars) (no_equals : '=' ∉ text) (one_line : '\n' ∉ text)

namespace ShowLine

def text : ShowLine → Chars
  | .property key value _ _ => key ++ '=' :: value
  | .other text _ _ => text

/-- A carriage return at the end belongs to the line, not to the value. -/
def entry : ShowLine → Option (Chars × Chars)
  | .property key value _ _ => some (key, dropCr value)
  | .other _ _ _ => none

theorem newline_not_mem (row : ShowLine) : '\n' ∉ row.text := by
  cases row with
  | property key value _ h =>
    rw [List.mem_append, not_or] at h
    simp [text, h.1, h.2]
  | other _ _ h => exact h

theorem splitOnce_text (row : ShowLine) : splitOnce '=' (dropCr row.text) = row.entry := by
  rw [splitOnce_dropCr (by decide)]
  cases row with
  | property key value hkey _ =>
    rw [text, splitOnce_append _ hkey]
    rfl
  | other text htext _ =>
    rw [ShowLine.text, splitOnce_eq_none_iff.mpr htext]
    rfl

end ShowLine

/-- What a line does to the map. -/
def ShowLine.add (props : Props) (row : ShowLine) : Props :=
  row.entry.elim props fun p => props.orInsert p.1 p.2

theorem foldl_add_lookup (rows : List ShowLine) (key : Chars) :
    rows.foldl ShowLine.add (fun _ => none) key =
      (rows.filterMap ShowLine.entry).lookup key := by
  induction rows using List.reverseRecOn with
  | nil => rfl
  | append_singleton rows row ih =>
    rw [List.foldl_append, List.filterMap_append, List.lookup_append, ← ih]
    generalize rows.foldl ShowLine.add (fun _ => none) = props
    show row.add props key = _
    unfold ShowLine.add
    cases hrow : row.entry with
    | none => simp [hrow]
    | some p =>
      obtain ⟨k, value⟩ := p
      rw [List.filterMap_cons_some hrow, Option.elim_some, List.lookup_cons]
      dsimp only
      unfold Props.orInsert
      by_cases hkey : key = k
      · cases hprops : props k with
        | some old => simp [hkey, hprops]
        | none => simp [hkey, hprops]
      · have hne : (key == k) = false := beq_eq_false_iff_ne.mpr hkey
        cases hprops : props k with
        | some old => simp [hne]
        | none => simp [hne, Function.update_of_ne hkey]

theorem parseShow_lookup {shown : Chars} {rows : List ShowLine}
    (h : shown = unlines (rows.map ShowLine.text)) (key : Chars) :
    parseShow shown key = (rows.filterMap ShowLine.entry).lookup key := by
  have hadd : parseShow shown = rows.foldl ShowLine.add fun _ => none := by
    unfold parseShow
    rw [lines_rows ShowLine.newline_not_mem h, List.foldl_map]
    congr 1
    funext props row
    exact congrArg (fun entry => entry.elim props fun p => props.orInsert p.1 p.2)
      row.splitOnce_text
  rw [hadd, foldl_add_lookup]

/-- An `ExecStart` value: the command line is between its marker and the first ` ;` behind it. An
argument that has a ` ;` of its own ends the command line there, and the rest of it is `behind`. -/
structure Command where
  before : Chars
  argv : Chars
  behind : Chars
  no_marker : ¬ "argv[]=".toList <:+: before
  no_end : ¬ " ;".toList <:+: argv

def Command.text (command : Command) : Chars :=
  command.before ++ ("argv[]=".toList ++ (command.argv ++ (" ;".toList ++ command.behind)))

theorem extractArgv_text (command : Command) :
    extractArgv command.text =
      if trim command.argv = [] then none else some (trim command.argv) := by
  have hstart : cutAt "argv[]=".toList command.text = some (command.before, "argv[]=".toList ++
      (command.argv ++ (" ;".toList ++ command.behind))) :=
    cutAt_append (by decide) command.no_marker _
  have hend : cutAt " ;".toList (command.argv ++ (" ;".toList ++ command.behind)) =
      some (command.argv, " ;".toList ++ command.behind) :=
    cutAt_append (by decide) command.no_end _
  have hdrop : ("argv[]=".toList ++ (command.argv ++ (" ;".toList ++ command.behind))).drop
      "argv[]=".length = command.argv ++ (" ;".toList ++ command.behind) := List.drop_left
  unfold extractArgv
  rw [hstart]
  dsimp only [Option.bind_eq_bind, Option.bind_some]
  rw [hdrop, hend]
  rfl

/-- What systemd knows about a unit, of what is asked for. -/
structure ShownUnit where
  loadState : Chars
  activeState : Chars
  subState : Chars
  fileState : Chars
  description : Chars
  fragmentPath : Chars
  command : Option Command
  mainPid : Nat
  memory : Option Nat
  pid_in_range : mainPid < 2 ^ 64
  memory_in_range : ∀ n ∈ memory, n < 2 ^ 64

namespace ShownUnit

/-- The first thing said under each key. A later one of the same key is not looked at. -/
def properties (unit : ShownUnit) : List (String × Option Chars) :=
  [("LoadState", some unit.loadState), ("ActiveState", some unit.activeState),
    ("SubState", some unit.subState), ("UnitFileState", some unit.fileState),
    ("Description", some unit.description), ("FragmentPath", some unit.fragmentPath),
    ("ExecStart", unit.command.map Command.text),
    ("MainPID", some (Nat.toDigits 10 unit.mainPid)),
    ("MemoryCurrent", some (unit.memory.elim "[not set]".toList (Nat.toDigits 10)))]

def detail (unit : ShownUnit) (name : String) : ServiceDetail :=
  let optional (text : Chars) : Option String :=
    if text = [] ∨ text = "[not set]".toList then none else some (String.ofList text)
  { name := name
    loadState := String.ofList unit.loadState
    activeState := String.ofList unit.activeState
    subState := String.ofList unit.subState
    enabled := fileStateEnabled unit.fileState
    description := optional unit.description
    fragmentPath := optional unit.fragmentPath
    execStart := unit.command.bind fun command =>
      if trim command.argv = [] then none else some (String.ofList (trim command.argv))
    mainPid := if unit.mainPid = 0 then none else some unit.mainPid
    memoryBytes := unit.memory }

theorem parse_toDigits {n : Nat} (h : n < 2 ^ 64) :
    parseUnsigned 64 (trim (Nat.toDigits 10 n)) = some n := by
  have hno (c : Char) (hc : c ∈ Nat.toDigits 10 n) : isWhitespace c = false := by
    have hdigits : ∀ d < 10, isWhitespace (Nat.digitChar d) = false := by decide
    obtain ⟨d, hd, rfl⟩ := exists_digitChar (toDigits_isDigit n c hc)
    exact hdigits d hd
  have htrim : trim (Nat.toDigits 10 n) = Nat.toDigits 10 n := trim_eq_self_iff.mpr
    ⟨fun c hc => hno c (List.mem_of_mem_head? hc), fun c hc => hno c (List.mem_of_getLast? hc)⟩
  rw [htrim, parseUnsigned_of_digits (toDigits_isDigit n), parseDigits_toDigits,
    Option.filter_some]
  exact if_pos (decide_eq_true h)

theorem filter_some_set (unset text : Chars) :
    ((some text).filter fun v => v ≠ [] ∧ v ≠ unset) =
      if text = [] ∨ text = unset then none else some text := by
  rw [Option.filter_some]
  by_cases htext : text = [] ∨ text = unset
  · have hno : ¬ (text ≠ [] ∧ text ≠ unset) := fun h => htext.elim h.1 h.2
    rw [if_pos htext, if_neg (mt of_decide_eq_true hno)]
  · rw [if_neg htext, if_pos (decide_eq_true (not_or.mp htext))]

/-- Properties that say what is known of a unit are read as that. -/
theorem shownDetail_eq {unit : ShownUnit} {props : Props}
    (h : ∀ p ∈ unit.properties, props p.1.toList = p.2) (name : String) :
    shownDetail name props = unit.detail name := by
  simp only [properties, List.forall_mem_cons, List.not_mem_nil, false_implies, implies_true,
    and_true] at h
  obtain ⟨hload, hactive, hsub, hfile, hdescription, hfragment, hexec, hpid, hmemory⟩ := h
  have hoptional (text : Chars) :
      ((some text).filter fun v => v ≠ [] ∧ v ≠ "[not set]".toList).map String.ofList =
        if text = [] ∨ text = "[not set]".toList then none else some (String.ofList text) := by
    rw [filter_some_set]
    split <;> rfl
  unfold shownDetail detail
  dsimp only
  rw [hload, hactive, hsub, hfile, hdescription, hfragment, hexec, hpid, hmemory, hoptional,
    hoptional]
  congr 1
  · cases unit.command with
    | none => rfl
    | some command =>
      show (extractArgv command.text).map String.ofList = _
      rw [extractArgv_text]
      dsimp only [Option.bind_some]
      split <;> rfl
  · rw [Option.bind_some, parse_toDigits unit.pid_in_range, Option.filter_some]
    by_cases hzero : unit.mainPid = 0
    · simp [hzero]
    · simp [hzero]
  · cases hm : unit.memory with
    | none => rfl
    | some n => exact parse_toDigits (unit.memory_in_range n hm)

end ShownUnit

theorem managerDetail_ok {systemctl : Systemctl} {name shown stderr : String}
    (hshow : systemctl (sharedFlags ++ showUnit name) = .ok (true, shown, stderr)) :
    managerDetail systemctl name =
      if (parseShow shown.toList "LoadState".toList).getD [] = "not-found".toList then
        .error (.notFound name)
      else .ok (shownDetail name (parseShow shown.toList)) := by
  have hraw : runSystemctlRaw systemctl (showUnit name) = .ok (true, shown, stderr) := by
    rw [runSystemctlRaw, hshow]
  unfold managerDetail
  dsimp only
  rw [hraw]
  rfl

/-- **One unit is what its properties say**, in whatever order they are printed, with whatever else
between them. A unit that systemd could not load is not there. -/
theorem detail_shown {systemctl : Systemctl} {name shown stderr : String} {rows : List ShowLine}
    {unit : ShownUnit}
    (hname : validateUnitName (String.ofList (trim name.toList)) = true)
    (hshow : systemctl (sharedFlags ++ showUnit (String.ofList (trim name.toList))) =
      .ok (true, shown, stderr))
    (hrows : shown.toList = unlines (rows.map ShowLine.text))
    (hsaid : ∀ p ∈ unit.properties, (rows.filterMap ShowLine.entry).lookup p.1.toList = p.2) :
    detail (managerDetail systemctl) name =
      if unit.loadState = "not-found".toList then
        .error (.notFound (String.ofList (trim name.toList)))
      else .ok (unit.detail (String.ofList (trim name.toList))) := by
  have hprops : ∀ p ∈ unit.properties, parseShow shown.toList p.1.toList = p.2 := by
    intro p hp
    rw [parseShow_lookup hrows, hsaid p hp]
  have hload : parseShow shown.toList "LoadState".toList = some unit.loadState :=
    hprops ("LoadState", some unit.loadState) List.mem_cons_self
  have hvalid : ¬ validateUnitName (String.ofList (trim name.toList)) = false := by
    rw [hname]
    exact Bool.false_ne_true.symm
  unfold detail
  dsimp only
  rw [if_neg hvalid]
  rw [managerDetail_ok hshow, hload, ShownUnit.shownDetail_eq hprops]
  rfl

/-- Properties out of order, one of them twice. -/
theorem detail_shown_small :
    let shown := "MainPID=7\nLoadState=loaded\nActiveState=active\n\nMainPID=9\n" ++
      "SubState=running\nUnitFileState=static\nDescription=\nFragmentPath=[not set]\n" ++
      "ExecStart=\x7b argv[]=/x -f ; \x7d\nMemoryCurrent=12\n"
    let systemctl : Systemctl := fun _ => .ok (true, shown, "")
    detail (managerDetail systemctl) " a.service" = .ok
      { name := "a.service", loadState := "loaded", activeState := "active", subState := "running"
        enabled := none, description := none, fragmentPath := none, execStart := some "/x -f"
        mainPid := some 7, memoryBytes := some 12 } := by
  intro shown systemctl
  let unit : ShownUnit :=
    { loadState := "loaded".toList, activeState := "active".toList, subState := "running".toList
      fileState := "static".toList, description := [], fragmentPath := "[not set]".toList
      command := some ⟨"\x7b ".toList, "/x -f".toList, " \x7d".toList, by decide, by decide⟩
      mainPid := 7, memory := some 12, pid_in_range := by decide
      memory_in_range := fun n hn => by cases hn; decide }
  let rows : List ShowLine :=
    [.property "MainPID".toList ['7'] (by decide) (by decide),
      .property "LoadState".toList "loaded".toList (by decide) (by decide),
      .property "ActiveState".toList "active".toList (by decide) (by decide),
      .other [] (by decide) (by decide),
      .property "MainPID".toList ['9'] (by decide) (by decide),
      .property "SubState".toList "running".toList (by decide) (by decide),
      .property "UnitFileState".toList "static".toList (by decide) (by decide),
      .property "Description".toList [] (by decide) (by decide),
      .property "FragmentPath".toList "[not set]".toList (by decide) (by decide),
      .property "ExecStart".toList "\x7b argv[]=/x -f ; \x7d".toList (by decide) (by decide),
      .property "MemoryCurrent".toList ['1', '2'] (by decide) (by decide)]
  have hname : String.ofList (trim " a.service".toList) = "a.service" := by decide
  have hrows : shown.toList = unlines (rows.map ShowLine.text) := by decide +kernel
  have hsaid : unit.properties.all (fun p =>
      decide ((rows.filterMap ShowLine.entry).lookup p.1.toList = p.2)) = true := by
    decide +kernel
  have hvalid : validateUnitName (String.ofList (trim " a.service".toList)) = true := by decide
  have hshow : systemctl (sharedFlags ++ showUnit (String.ofList (trim " a.service".toList))) =
    .ok (true, shown, "") := rfl
  have hdetail := detail_shown hvalid hshow hrows fun p hp =>
    of_decide_eq_true (List.all_eq_true.mp hsaid p hp)
  rw [hname] at hdetail
  exact hdetail

/-! ## What is never run -/

/-- The three commands; only the last has an argument that came from outside. -/
inductive Asked : List String → Prop
  | units : Asked (sharedFlags ++ listUnits)
  | files : Asked (sharedFlags ++ listUnitFiles)
  | show {name : String} (h : validateUnitName name = true) : Asked (sharedFlags ++ showUnit name)

/-- **Nothing else is asked**: two hosts that answer these three commands alike are told apart by
no name and no query, whatever they would do with any other. -/
theorem asks_only {systemctl systemctl' : Systemctl}
    (h : ∀ args, Asked args → systemctl args = systemctl' args) :
    collect systemctl = collect systemctl' ∧
      ∀ name, detail (managerDetail systemctl) name = detail (managerDetail systemctl') name := by
  constructor
  · unfold collect runSystemctl runSystemctlRaw
    rw [h _ .units, h _ .files]
  · intro name
    unfold detail
    dsimp only
    by_cases hname : validateUnitName (String.ofList (trim name.toList)) = true
    · unfold managerDetail runSystemctlRaw
      dsimp only
      rw [h _ (.show hname)]
    · rw [if_pos (Bool.eq_false_of_not_eq_true hname), if_pos (Bool.eq_false_of_not_eq_true hname)]

/-- So no argument that came from outside is an option, and none has a slash or a space in it. -/
theorem Asked.arguments {args : List String} (h : Asked args) {arg : String} (harg : arg ∈ args) :
    arg ∈ sharedFlags ++ listUnits ++ listUnitFiles ++ showUnit "" ∨
      validateUnitName arg = true := by
  cases h with
  | units => exact .inl (by simp only [List.mem_append] at harg ⊢; tauto)
  | files => exact .inl (by simp only [List.mem_append] at harg ⊢; tauto)
  | @«show» name hname =>
    by_cases heq : arg = name
    · exact .inr (heq ▸ hname)
    · refine .inl ?_
      simp only [showUnit, List.mem_append, List.mem_cons, heq, false_or] at harg ⊢
      tauto

end Abora.Services
