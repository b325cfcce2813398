import Mathlib.Data.Option.Basic
import Abora.Lib.Text
import Abora.Update.Types

/-!
# What `apt-get -s upgrade` says (`abora-update/src/host.rs`)

The simulation is read twice in the framework, by two different users: the daemon turns its `Inst`
lines into the list of available updates, and the root helper turns them into the set of names it is
willing to install. Both go through `parseSimulation`, and both rely on the one thing it guarantees
about *any* text: every name it returns is a valid package name (`parseSimulation_valid`). A name
that could be taken for an option, or that has a blank in it, is not one, so what the helper hands
to `apt-get` cannot be anything but packages.

The other direction is that nothing is lost: a line `apt` really prints is read back as the upgrade
it announces (`parseInstLine_instLine`), whatever marker follows its closing parenthesis and however
the line ends. A text is taken as a list of `SimLine`s, each a printed upgrade or some line that
does not begin like one, and `simulation_exact` says what comes out of the whole of it.
-/

namespace Abora.Update

open Abora.Lib.Text

/-- One accepted `Inst` line, with its two versions and its origin as they were printed. -/
structure PackageUpgrade where
  name : String
  /-- Installed version; `none` when the package is not installed yet. -/
  installed : Option String
  /-- The version apt would install (the source's `to`). -/
  target : String
  origin : String
  deriving DecidableEq, Repr

/-- Package names apt accepts: lowercase letters, digits and `+ - . :`. -/
def validPackageName (name : String) : Bool :=
  let cs := name.toList
  !cs.isEmpty && decide (byteLen cs ≤ 200) &&
    !(cs.head? == some '-' || cs.head? == some '.') &&
    cs.all fun c => c.isLower || c.isDigit || ['+', '-', '.', ':'].contains c

/-- The optional `[installed]` after the name, and what follows it. An opening bracket that is never
closed is no `Inst` line. -/
def splitInstalled (rest : Chars) : Option (Option Chars × Chars) :=
  match ['['].isPrefixOf? rest with
  | some after => (splitOnce ']' after).map fun p => (some p.1, trimStart p.2)
  | none => some (none, rest)

/-- The new version and where it comes from, up to the first closing parenthesis: apt may add
markers such as ` []` after it. -/
def splitTarget (inner : Chars) : Chars × Chars :=
  let inner := (splitOnce ')' inner).elim inner Prod.fst
  (splitOnce ' ' inner).getD (inner, [])

def parseInstLine (line : Chars) : Option PackageUpgrade := do
  let rest ← "Inst ".toList.isPrefixOf? line
  let (name, rest) ← splitOnce ' ' rest
  guard (validPackageName (String.ofList name))
  let (installed, rest) ← splitInstalled rest
  let inner ← ['('].isPrefixOf? rest
  let (target, origin) := splitTarget inner
  guard (target ≠ [])
  some {
    name := String.ofList name
    installed := installed.map String.ofList
    target := String.ofList target
    origin := String.ofList origin }

/-- `parse_simulation`: every well-formed `Inst` line, in order. -/
def parseSimulation (output : String) : List PackageUpgrade :=
  (lines output.toList).filterMap parseInstLine

/-- `version_from_debian`: the epoch is dropped, the leading numeric `a.b.c` is used, and
anything unparseable is `0`. -/
def versionFromDebian (version : String) : Version :=
  let cs := version.toList
  let noEpoch := (splitOnce ':' cs).elim cs Prod.snd
  let parts := (noEpoch.takeWhile fun c => c.isDigit || c == '.').splitOn '.'
  let next (i : Nat) : Nat := ((parts[i]?).bind (parseUnsigned 64)).getD 0
  Version.new (next 0) (next 1) (next 2)

/-! ## Names -/

/-- A valid name is not an option: it does not start with a dash, which is one of the two characters
that may stand in a name but not in front. -/
theorem validPackageName_head {name : String} (h : validPackageName name = true) :
    name.toList.head? ≠ some '-' := by
  intro hd
  simp [validPackageName, hd] at h

/-- Nor does it have other characters than the few that a name may have. The callers' instances are
the blank, the newline and the delimiters of a line. -/
theorem validPackageName_not_mem {name : String} (h : validPackageName name = true) {c : Char}
    (hc : (c.isLower || c.isDigit || ['+', '-', '.', ':'].contains c) = false) :
    c ∉ name.toList := by
  intro hmem
  simp only [validPackageName, Bool.and_eq_true, List.all_eq_true] at h
  have hallowed := h.2 c hmem
  rw [hc] at hallowed
  cases hallowed

/-- What an accepted line is read as has a valid name and some version. Both are checks of the
parser itself; where they stand in it does not matter. -/
theorem parseInstLine_valid {line : Chars} {u : PackageUpgrade}
    (h : parseInstLine line = some u) : validPackageName u.name = true ∧ u.target ≠ "" := by
  unfold parseInstLine at h
  simp only [Option.bind_eq_bind, Option.bind_eq_some_iff, Option.guard_eq_some',
    Option.some.injEq] at h
  obtain ⟨rest, -, ⟨name, versions⟩, -, -, hvalid, ⟨installed, rest'⟩, -, inner, -, -, htarget,
    rfl⟩ := h
  refine ⟨hvalid, ?_⟩
  intro hempty
  exact htarget (by simpa using congrArg String.toList hempty)

/-- **Whatever `apt` prints, only valid names come out of it**: no assumption about the text at all,
not even that it came from `apt`. -/
theorem parseSimulation_valid {output : String} {u : PackageUpgrade}
    (h : u ∈ parseSimulation output) : validPackageName u.name = true ∧ u.target ≠ "" := by
  obtain ⟨line, -, hline⟩ := List.mem_filterMap.mp h
  exact parseInstLine_valid hline

/-! ## Reading back a rendered line -/

/-- The `[installed] ` before the parenthesis, when there is one. A new dependency has none. -/
def installedPart : Option Chars → Chars
  | none => []
  | some installed => '[' :: (installed ++ [']', ' '])

def instLine (name : Chars) (installed : Option Chars) (target origin : Chars) : Chars :=
  "Inst ".toList ++
    (name ++ ' ' :: (installedPart installed ++ '(' :: (target ++ ' ' :: (origin ++ [')']))))

theorem splitInstalled_part {installed : Option Chars} (h : ∀ v, installed = some v → ']' ∉ v)
    (rest : Chars) :
    splitInstalled (installedPart installed ++ '(' :: rest) = some (installed, '(' :: rest) := by
  cases installed with
  | none => simp [splitInstalled, installedPart, List.isPrefixOf?]
  | some v =>
    have hcut : splitOnce ']' (v ++ ']' :: (' ' :: '(' :: rest)) = some (v, ' ' :: '(' :: rest) :=
      splitOnce_append _ (h v rfl)
    have htrim : trimStart (' ' :: '(' :: rest) = '(' :: rest := rfl
    simp [splitInstalled, installedPart, List.isPrefixOf?, hcut, htrim]

/-- A version and an origin without the delimiters that end them are found again, and what is behind
the parenthesis is dropped. -/
theorem splitTarget_rendered {target origin : Chars} (ht : ' ' ∉ target ∧ ')' ∉ target)
    (ho : ')' ∉ origin) (trailing : Chars) :
    splitTarget (target ++ ' ' :: (origin ++ ')' :: trailing)) = (target, origin) := by
  have hmem : ')' ∉ target ++ ' ' :: origin := by simp [ht.2, ho]
  have hclose : splitOnce ')' (target ++ ' ' :: (origin ++ ')' :: trailing)) =
      some (target ++ ' ' :: origin, trailing) := by
    simpa using splitOnce_append trailing hmem
  simp [splitTarget, hclose, splitOnce_append origin ht.1]

/-- A rendered line is read back as what it was rendered from, whatever follows its closing
parenthesis. -/
theorem parseInstLine_append {name target origin : Chars} {installed : Option Chars}
    (hname : validPackageName (String.ofList name) = true) (hspace : ' ' ∉ name)
    (hinstalled : ∀ v, installed = some v → ']' ∉ v) (htarget : target ≠ [])
    (ht : ' ' ∉ target ∧ ')' ∉ target) (ho : ')' ∉ origin) (trailing : Chars) :
    parseInstLine (instLine name installed target origin ++ trailing) =
      some ⟨String.ofList name, installed.map String.ofList, String.ofList target,
        String.ofList origin⟩ := by
  have hinst : "Inst ".toList.isPrefixOf? (instLine name installed target origin ++ trailing) =
      some (name ++ ' ' :: (installedPart installed ++
        '(' :: (target ++ ' ' :: (origin ++ ')' :: trailing)))) := by
    refine List.isPrefixOf?_eq_some_iff_append_eq.mpr ?_
    simp [instLine]
  unfold parseInstLine
  rw [hinst]
  simp [splitOnce_append _ hspace, hname, splitInstalled_part hinstalled,
    splitTarget_rendered ht ho, List.isPrefixOf?, htarget]

/-- **A rendered line is read back as what it was rendered from.** -/
theorem parseInstLine_instLine {name target origin : Chars} {installed : Option Chars}
    (hname : validPackageName (String.ofList name) = true) (hspace : ' ' ∉ name)
    (hinstalled : ∀ v, installed = some v → ']' ∉ v) (htarget : target ≠ [])
    (ht : ' ' ∉ target ∧ ')' ∉ target) (ho : ')' ∉ origin) :
    parseInstLine (instLine name installed target origin) =
      some ⟨String.ofList name, installed.map String.ofList, String.ofList target,
        String.ofList origin⟩ := by
  have happend := parseInstLine_append hname hspace hinstalled htarget ht ho []
  rwa [List.append_nil] at happend

/-- Lines that each read back as one upgrade are read back as the list of them. This is how a
witness gets from a list of packages to a text. -/
theorem parseSimulation_unlines {α : Type} {l : List α} {line : α → Chars}
    {upgrade : α → PackageUpgrade} (hparse : ∀ a ∈ l, parseInstLine (line a) = some (upgrade a))
    (hbreak : ∀ a ∈ l, '\n' ∉ line a ∧ '\r' ∉ line a) :
    parseSimulation (String.ofList (unlines (l.map line))) = l.map upgrade := by
  have hlines : lines (unlines (l.map line)) = l.map line := by
    refine lines_unlines fun m hm => ?_
    obtain ⟨a, ha, rfl⟩ := List.mem_map.mp hm
    exact hbreak a ha
  rw [parseSimulation, String.toList_ofList, hlines, List.filterMap_map]
  clear hlines hbreak
  induction l with
  | nil => rfl
  | cons a l ih =>
    have hhead := hparse a List.mem_cons_self
    rw [List.filterMap_cons, Function.comp_apply, hhead, List.map_cons,
      ih fun b hb => hparse b (List.mem_cons_of_mem a hb)]

/-! ## A whole simulation -/

/-- One line of what `apt-get -s` prints: an upgrade with whatever `apt` puts after its closing
parenthesis, or any other line. -/
inductive SimLine where
  | inst (u : PackageUpgrade) (trailing : Chars)
  | other (line : Chars)

def SimLine.text : SimLine → Chars
  | .inst u trailing =>
    instLine u.name.toList (u.installed.map String.toList) u.target.toList u.origin.toList ++
      trailing
  | .other line => line

def SimLine.upgrade? : SimLine → Option PackageUpgrade
  | .inst u _ => some u
  | .other _ => none

/-- The versions and the origin keep clear of the delimiters that close them. `apt`'s own do, since
neither a Debian version nor an archive's name may have them. -/
structure PackageUpgrade.Printable (u : PackageUpgrade) : Prop where
  name : validPackageName u.name = true
  installed : ∀ v, u.installed = some v → ∀ c ∈ v.toList, c ≠ ']' ∧ c ≠ '\n'
  target_ne : u.target ≠ ""
  target : ∀ c ∈ u.target.toList, c ≠ ' ' ∧ c ≠ ')' ∧ c ≠ '\n'
  origin : ∀ c ∈ u.origin.toList, c ≠ ')' ∧ c ≠ '\n'

/-- A line is one line, and one that is not an upgrade does not begin like one. -/
def SimLine.WellFormed : SimLine → Prop
  | .inst u trailing => u.Printable ∧ '\n' ∉ trailing
  | .other line => ¬"Inst ".toList <+: line ∧ '\n' ∉ line

/-- A line that does not start like an `Inst` line is none, however short it is cut: dropping its
carriage return makes it no more like one. -/
theorem parseInstLine_of_prefix {line l : Chars} (h : ¬"Inst ".toList <+: line)
    (hl : l <+: line) : parseInstLine l = none := by
  have hinst : "Inst ".toList.isPrefixOf? l = none := by
    rw [Option.eq_none_iff_forall_ne_some]
    intro rest hrest
    have hcut := List.isPrefixOf?_eq_some_iff_append_eq.mp hrest
    exact h (List.IsPrefix.trans ⟨rest, hcut⟩ hl)
  unfold parseInstLine
  rw [hinst]
  rfl

theorem SimLine.no_newline {i : SimLine} (h : i.WellFormed) : '\n' ∉ i.text := by
  cases i with
  | other line => exact h.2
  | inst u trailing =>
    obtain ⟨hu, htrailing⟩ := h
    have htarget : '\n' ∉ u.target.toList := fun hm => (hu.target _ hm).2.2 rfl
    have horigin : '\n' ∉ u.origin.toList := fun hm => (hu.origin _ hm).2 rfl
    have hinstalled : '\n' ∉ installedPart (u.installed.map String.toList) := by
      cases hv : u.installed with
      | none => simp [installedPart]
      | some v =>
        have hmem : '\n' ∉ v.toList := fun hm => (hu.installed v hv _ hm).2 rfl
        simp [installedPart, hmem]
    have hname : '\n' ∉ u.name.toList := validPackageName_not_mem hu.name (by decide)
    simp [SimLine.text, instLine, htrailing, htarget, horigin, hinstalled, hname]

/-- A printed upgrade is read back, with or without the carriage return its line may end in. It
stands behind the parenthesis, where the parser does not look any more. -/
theorem PackageUpgrade.Printable.parse {u : PackageUpgrade} (hu : u.Printable) {trailing l : Chars}
    (hl : l = (SimLine.inst u trailing).text ∨ l = dropCr (SimLine.inst u trailing).text) :
    parseInstLine l = some u := by
  have hread (t : Chars) : parseInstLine (instLine u.name.toList (u.installed.map String.toList)
      u.target.toList u.origin.toList ++ t) = some u := by
    have hname : validPackageName (String.ofList u.name.toList) = true := by
      rw [String.ofList_toList]
      exact hu.name
    have hinstalled : ∀ v, u.installed.map String.toList = some v → ']' ∉ v := by
      intro v hv hmem
      obtain ⟨w, hw, rfl⟩ := Option.map_eq_some_iff.mp hv
      exact (hu.installed w hw _ hmem).1 rfl
    have htarget : u.target.toList ≠ [] := by
      intro hempty
      exact hu.target_ne (String.toList_injective hempty)
    rw [parseInstLine_append hname (validPackageName_not_mem hu.name (by decide)) hinstalled htarget
      ⟨fun hm => (hu.target _ hm).1 rfl, fun hm => (hu.target _ hm).2.1 rfl⟩
      (fun hm => (hu.origin _ hm).1 rfl) t]
    simp [Function.comp_def]
  have hshape : ∃ t, l = instLine u.name.toList (u.installed.map String.toList)
      u.target.toList u.origin.toList ++ t := by
    rcases hl with rfl | rfl
    · exact ⟨trailing, rfl⟩
    · -- the parenthesis that closes the line is no carriage return
      obtain ⟨t, ht⟩ := dropCr_append_cons (c := ')') (by decide)
        ("Inst ".toList ++ (u.name.toList ++ ' ' :: (installedPart (u.installed.map String.toList)
          ++ '(' :: (u.target.toList ++ ' ' :: u.origin.toList)))) trailing
      refine ⟨t, ?_⟩
      simpa [SimLine.text, instLine] using ht
  obtain ⟨t, rfl⟩ := hshape
  exact hread t

theorem SimLine.parse {i : SimLine} (h : i.WellFormed) {l : Chars}
    (hl : l = i.text ∨ l = dropCr i.text) : parseInstLine l = i.upgrade? := by
  cases i with
  | inst u trailing => exact h.1.parse hl
  | other line =>
    have hprefix : l <+: line := by
      rcases hl with hl | hl
      · exact hl ▸ List.prefix_refl line
      · exact hl ▸ dropCr_prefix line
    exact parseInstLine_of_prefix h.1 hprefix

theorem filterMap_parse_dropCr {items : List SimLine} (h : ∀ i ∈ items, i.WellFormed) :
    ((items.map SimLine.text).map dropCr).filterMap parseInstLine =
      items.filterMap SimLine.upgrade? := by
  rw [List.filterMap_map, List.filterMap_map]
  exact List.filterMap_congr fun i hi => SimLine.parse (h i hi) (Or.inr rfl)

/-- **The parser recovers exactly the upgrades**, in their order, from a text with or without a last
newline; and whatever the text, what it returns has a valid name and a version. The first part goes
line by line, each an upgrade or not; the second needs no lines at all. -/
theorem simulation_exact :
    (∀ items : List SimLine, (∀ i ∈ items, i.WellFormed) → ∀ output : String,
      output.toList = unlines (items.map SimLine.text) ∨
        output.toList ++ ['\n'] = unlines (items.map SimLine.text) →
      parseSimulation output = items.filterMap SimLine.upgrade?) ∧
    ∀ output : String, ∀ u ∈ parseSimulation output,
      validPackageName u.name = true ∧ u.target ≠ "" := by
  refine ⟨fun items h output htext => ?_, fun output u hu => parseSimulation_valid hu⟩
  have hnewline : ∀ l ∈ items.map SimLine.text, '\n' ∉ l := by
    intro l hl
    obtain ⟨i, hi, rfl⟩ := List.mem_map.mp hl
    exact SimLine.no_newline (h i hi)
  unfold parseSimulation
  rcases htext with htext | htext
  · have hlines := lines_unlines_append hnewline []
    rw [List.append_nil] at hlines
    rw [htext, hlines, show lines [] = [] from rfl, List.append_nil]
    exact filterMap_parse_dropCr h
  · obtain ⟨init, last, hitems, hlines⟩ := lines_of_unterminated hnewline htext
    obtain ⟨front, back, rfl, rfl, hback⟩ := List.map_eq_append_iff.mp hitems
    obtain ⟨i, rfl, rfl⟩ := List.map_eq_singleton_iff.mp hback
    have hfront := filterMap_parse_dropCr fun j hj => h j (List.mem_append_left _ hj)
    have hlast := SimLine.parse (h i (List.mem_append_right _ List.mem_cons_self)) (Or.inl rfl)
    rw [hlines, List.filterMap_append, List.filterMap_append, hfront]
    congr 1
    split
    · rename_i hempty
      rw [hempty] at hlast
      have hnone : i.upgrade? = none := hlast.symm
      rw [List.filterMap_cons_none hnone]
      rfl
    · rw [List.filterMap_cons, hlast, List.filterMap_cons]
      rfl

/-- An upgrade with a marker after its parenthesis, a new dependency, a line of another kind and
no last newline. -/
theorem simulation_exact_mixed :
    parseSimulation
        "Reading...\r\nInst libc6 [1 b] (2 Ubuntu [amd64]) []\r\nInst newdep (3 Ubuntu)" =
      [⟨"libc6", some "1 b", "2", "Ubuntu [amd64]"⟩, ⟨"newdep", none, "3", "Ubuntu"⟩] := by
  refine simulation_exact.1 [.other "Reading...\r".toList,
    .inst ⟨"libc6", some "1 b", "2", "Ubuntu [amd64]"⟩ " []\r".toList,
    .inst ⟨"newdep", none, "3", "Ubuntu"⟩ []] ?_ _ (Or.inr (by decide))
  intro i hi
  simp only [List.mem_cons, List.not_mem_nil, or_false] at hi
  rcases hi with rfl | rfl | rfl
  · exact ⟨by decide, by decide⟩
  · refine ⟨⟨by decide, fun v hv => ?_, by decide, by simp, by simp⟩, by decide⟩
    cases hv
    simp
  · exact ⟨⟨by decide, fun v hv => (by cases hv), by decide, by simp, by simp⟩, by decide⟩

end Abora.Update
