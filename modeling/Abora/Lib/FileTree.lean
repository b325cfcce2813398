import Abora.Lib.Files
import Abora.Lib.Path

/-!
# A file tree others write to

What is at each path, and the two ways to look at it: `lstat` says what is there, `read` opens it
and follows a symbolic link if it is one. Whoever may write to the tree does so by `Move`s, each of
which puts something at one path or takes it away; only the last move at a path matters to what is
found there (`foldl_apply`).

The two looks are two calls, and a program that does one after the other may have moves in between:
what it inspected need not be what it reads. That is why a read is a function of a tree and not of
an earlier look. What is left out are directories on the way, permissions and hard links: none of
the programs' questions depends on them.
-/

namespace Abora.Lib

/-- What can be at a path. Only a plain file has bytes of its own; a link has another path, and of
what is special a read may give anything, or never end (which is an error here). -/
inductive Node where
  | file (content : Bytes) (modified : Option SystemTime)
  | symlink (target : PathBuf) (modified : Option SystemTime)
  | directory (modified : Option SystemTime)
  /-- A FIFO, a socket or a device, with what a read of it gives. -/
  | special (content : Except String Bytes) (modified : Option SystemTime)

abbrev FileTree := PathBuf → Option Node

/-- What somebody leaves at a path; a rename is two of these. -/
structure Move where
  path : PathBuf
  node : Option Node

namespace FileTree

def apply (t : FileTree) (m : Move) : FileTree := fun q => if q = m.path then m.node else t q

def notFound : String := "No such file or directory (os error 2)"

/-- `symlink_metadata`: of a link, the link itself. Its length is that of its target's name, and it
is not a regular file, so a program that asks for one has been told. -/
def lstat (t : FileTree) (path : PathBuf) : Except String Metadata :=
  match t path with
  | none => .error notFound
  | some (.file content modified) => .ok ⟨true, content.length, modified⟩
  | some (.symlink target modified) => .ok ⟨false, target.display.utf8ByteSize, modified⟩
  | some (.directory modified) => .ok ⟨false, 4096, modified⟩
  | some (.special _ modified) => .ok ⟨false, 0, modified⟩

/-- Opening and reading, through at most `links` symbolic links: one more is an error of the
operating system, so a loop of links ends. -/
def readThrough (t : FileTree) : Nat → PathBuf → Except String Bytes
  | links, path =>
    match t path with
    | none => .error notFound
    | some (.file content _) => .ok content
    | some (.directory _) => .error "Is a directory (os error 21)"
    | some (.special content _) => content
    | some (.symlink target _) =>
      match links with
      | 0 => .error "Too many levels of symbolic links (os error 40)"
      | links + 1 => t.readThrough links target

theorem readThrough_file {t : FileTree} {path : PathBuf} {content : Bytes}
    {modified : Option SystemTime} (h : t path = some (.file content modified)) (links : Nat) :
    t.readThrough links path = .ok content := by
  unfold readThrough
  rw [h]

theorem readThrough_symlink {t : FileTree} {path target : PathBuf} {modified : Option SystemTime}
    (h : t path = some (.symlink target modified)) (links : Nat) :
    t.readThrough (links + 1) path = t.readThrough links target := by
  rw [readThrough, h]

/-- Linux gives up on a path after this many links. -/
def maxLinks : Nat := 40

/-- `fs::read`. -/
def read (t : FileTree) (path : PathBuf) : Except String Bytes := t.readThrough maxLinks path

end FileTree

/-- What the last of the moves at a path leaves there. -/
def lastPut (path : PathBuf) : List Move → Option (Option Node)
  | [] => none
  | m :: moves => (lastPut path moves).or (if m.path = path then some m.node else none)

/-- **Only the last move at a path counts.** Whatever else was moved in between, and wherever to,
what is found at a path after some moves is what the last one there left, or what was there
before. -/
theorem foldl_apply (moves : List Move) (t : FileTree) (path : PathBuf) :
    moves.foldl FileTree.apply t path = (lastPut path moves).getD (t path) := by
  induction moves generalizing t with
  | nil => rfl
  | cons m moves ih =>
    rw [List.foldl_cons, ih, lastPut]
    cases lastPut path moves with
    | some node => rfl
    | none =>
      by_cases hm : m.path = path
      · simp [FileTree.apply, hm]
      · simp [FileTree.apply, hm, Ne.symm hm]

end Abora.Lib
