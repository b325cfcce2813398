import Abora.Lib.FileTree
import Abora.Update.Apply

/-!
# What is inspected and what is read (`read_regular_file` in `abora-update/src/apply.rs`)

`read_regular_file` asks the file system twice about the same path: `symlink_metadata` for the kind,
the size and the age, then `read` for the contents. In between, whoever owns the directory may put
anything else there; the second step opens what it finds and follows links. The directory of the
request file is the daemon's, and the reader is root.

The tree is `Abora.Lib.FileTree`, others act on it by a list of `Move`s between the two steps, and
`read_checked_iff` says which moves do no harm: those that leave at the path nothing that can be
read, or a file that would have passed the inspection itself. `link_followed` is the move that does.
-/

namespace Abora.Update

open Abora.Lib

/-- `read_regular_file` with the moves of others between its two steps. It is the source's own
function at two different states of one tree. -/
def readAmong (t : FileTree) (moves : List Move) (path : PathBuf) (now : SystemTime)
    (maxAge : Option Nat) : Except String Bytes :=
  readRegularFile path (t.lstat path) now ((moves.foldl FileTree.apply t).read path) maxAge

/-- A regular file, small and not too old, is at the path itself. -/
def Inspected (t : FileTree) (path : PathBuf) (now : SystemTime) (limit : Nat) (bytes : Bytes) :
    Prop :=
  ∃ modified, t path = some (.file bytes modified) ∧ bytes.length ≤ maxFileBytes ∧
    (⟨true, bytes.length, modified⟩ : Metadata).age now ≤ limit

/-- What was put at the path cannot be read, or would have passed. A link is judged by where it
leads, through the links that are left after the first. -/
def Harmless (t : FileTree) (now : SystemTime) (limit : Nat) : Option Node → Prop
  | none | some (.directory _) => True
  | some (.file content modified) => content.length ≤ maxFileBytes ∧
      (⟨true, content.length, modified⟩ : Metadata).age now ≤ limit
  | some (.symlink target _) =>
      ∀ bytes, t.readThrough (FileTree.maxLinks - 1) target ≠ .ok bytes
  | some (.special content _) => ∀ bytes, content ≠ .ok bytes

theorem lstat_isFile_iff {t : FileTree} {path : PathBuf} {md : Metadata} :
    t.lstat path = .ok md ∧ md.isFile = true ↔
      ∃ content modified, t path = some (.file content modified) ∧
        md = ⟨true, content.length, modified⟩ := by
  unfold FileTree.lstat
  constructor
  · intro ⟨hstat, hfile⟩
    split at hstat
    · cases hstat
    · rename_i content modified hnode
      cases hstat
      exact ⟨content, modified, hnode, rfl⟩
    all_goals
      cases hstat
      cases hfile
  · intro ⟨content, modified, hnode, hmd⟩
    rw [hnode, hmd]
    exact ⟨rfl, rfl⟩

/-- An answer means that the path passed at the first step, and what could be read there at the
second. -/
theorem readAmong_ok_iff {t : FileTree} {moves : List Move} {path : PathBuf} {now : SystemTime}
    {limit : Nat} {bytes : Bytes} :
    readAmong t moves path now (some limit) = .ok bytes ↔
      (∃ inspected, Inspected t path now limit inspected) ∧
        (moves.foldl FileTree.apply t).read path = .ok bytes := by
  unfold readAmong
  rw [readRegularFile_ok_iff]
  constructor
  · intro ⟨md, hstat, hfile, hlen, hage, hread⟩
    obtain ⟨content, modified, hnode, rfl⟩ := lstat_isFile_iff.mp ⟨hstat, hfile⟩
    exact ⟨⟨content, modified, hnode, hlen, hage limit rfl⟩, hread⟩
  · intro ⟨⟨content, modified, hnode, hlen, hage⟩, hread⟩
    obtain ⟨hstat, hfile⟩ := lstat_isFile_iff.mpr ⟨content, modified, hnode, rfl⟩
    refine ⟨_, hstat, hfile, hlen, fun l hl => ?_, hread⟩
    cases hl
    exact hage

/-- What can be read at a path without having passed there, said from the path's side: a harmless
node gives only bytes that an inspection would have let through. -/
theorem harmless_iff {t : FileTree} {path : PathBuf} {now : SystemTime} {limit : Nat} :
    Harmless t now limit (t path) ↔
      ∀ bytes, t.read path = .ok bytes → Inspected t path now limit bytes := by
  unfold FileTree.read FileTree.readThrough Inspected
  cases hnode : t path with
  | none => simp [Harmless]
  | some node =>
    cases node with
    | file content modified => simp [Harmless]
    | symlink target modified => simp [Harmless, FileTree.maxLinks]
    | directory modified => simp [Harmless]
    | special content modified => simp [Harmless]

/-- **What is returned was checked, exactly when** the inspection refuses the path, nobody puts
anything there before it is read, or the last thing put there is harmless. Only the last thing
counts, as the earlier ones are gone by the time of the read. -/
theorem read_checked_iff (t : FileTree) (moves : List Move) (path : PathBuf) (now : SystemTime)
    (limit : Nat) :
    (∀ bytes, readAmong t moves path now (some limit) = .ok bytes →
        Inspected (moves.foldl FileTree.apply t) path now limit bytes) ↔
      ((∃ bytes, Inspected t path now limit bytes) → ∀ node, lastPut path moves = some node →
        Harmless (moves.foldl FileTree.apply t) now limit node) := by
  have hlast := foldl_apply moves t path
  constructor
  · intro h hpassed node hput
    rw [hput, Option.getD_some] at hlast
    rw [← hlast]
    exact harmless_iff.mpr fun bytes hread => h bytes (readAmong_ok_iff.mpr ⟨hpassed, hread⟩)
  · intro h bytes hok
    obtain ⟨hpassed, hread⟩ := readAmong_ok_iff.mp hok
    cases hput : lastPut path moves with
    | some node =>
      rw [hput, Option.getD_some] at hlast
      have hnode := h hpassed node hput
      rw [← hlast] at hnode
      exact harmless_iff.mp hnode bytes hread
    | none =>
      -- an undisturbed path still holds the file that was inspected
      rw [hput, Option.getD_none] at hlast
      obtain ⟨content, modified, hnode, hlen, hage⟩ := hpassed
      have hsame : moves.foldl FileTree.apply t path = some (.file content modified) :=
        hlast.trans hnode
      have hharmless : Harmless (moves.foldl FileTree.apply t) now limit
          (moves.foldl FileTree.apply t path) := by
        rw [hsame]
        exact ⟨hlen, hage⟩
      exact harmless_iff.mp hharmless bytes hread

/-- A directory with a fresh request, and a file only root can read. -/
def spoolTree : FileTree := fun path =>
  if path = PathBuf.ofString "/var/lib/abora/apply-request.json" then
    some (.file (asciiBytes "\x7b\x7d") (some 0))
  else if path = PathBuf.ofString "/etc/shadow" then
    some (.file (asciiBytes "root:*:19000:0:99999:7:::") (some 0))
  else none

/-- The request is replaced by a link between the two steps, and the link is followed. -/
theorem link_followed :
    let path := PathBuf.ofString "/var/lib/abora/apply-request.json"
    let moves := [⟨path, some (.symlink (PathBuf.ofString "/etc/shadow") (some 0))⟩]
    let bytes := asciiBytes "root:*:19000:0:99999:7:::"
    readAmong spoolTree moves path 60000000000 (some maxRequestAge) = .ok bytes ∧
      ¬ Inspected (moves.foldl FileTree.apply spoolTree) path 60000000000 maxRequestAge bytes := by
  intro path moves bytes
  have hlink : moves.foldl FileTree.apply spoolTree path =
      some (.symlink (PathBuf.ofString "/etc/shadow") (some 0)) := foldl_apply moves spoolTree path
  refine ⟨readAmong_ok_iff.mpr ⟨⟨asciiBytes "\x7b\x7d", some 0, ?_⟩, ?_⟩, ?_⟩
  · exact ⟨rfl, by decide, by decide⟩
  · have hshadow : moves.foldl FileTree.apply spoolTree (PathBuf.ofString "/etc/shadow") =
        some (.file bytes (some 0)) := by
      rw [foldl_apply]
      rfl
    exact (FileTree.readThrough_symlink hlink 39).trans (FileTree.readThrough_file hshadow 39)
  · rintro ⟨modified, hfile, -⟩
    rw [hlink] at hfile
    cases hfile

end Abora.Update
