import Mathlib.Logic.Function.Basic
import Abora.Lib.Files

/-!
# Names and the files behind them

A name leads to an inode, and an open file descriptor *is* an inode: it goes on leading to the same
bytes when the name is renamed, replaced or removed. That is what makes a rename atomic for readers,
and what lets a writer change a file after somebody else has renamed it: two writers that take the
same temporary name share an inode, and the one that renames first has put in place what the other
is still writing.

Only what writers and readers of whole files do is here: open and truncate, write at an offset,
rename, unlink, read. Each comes with what it does and with what it leaves alone, and nothing else
is needed to follow any number of writers through their calls.
-/

namespace Abora.Lib

/-- A disk whose names are `ν`: where each name leads, what each inode holds, and from where on
inodes are free. An inode without a name is kept, as it is while somebody has it open. -/
structure Disk (ν : Type) where
  inode : ν → Option Nat
  content : Nat → Bytes
  /-- Every inode below it is taken. -/
  next : Nat

/-- `pwrite`: a gap before the offset is filled with zeros. -/
def overwrite (old : Bytes) (pos : Nat) (piece : Bytes) : Bytes :=
  old.take pos ++ List.replicate (pos - old.length) 0 ++ piece ++ old.drop (pos + piece.length)

namespace Disk

variable {ν : Type}

def lookup (d : Disk ν) (n : ν) : Option Bytes := (d.inode n).map d.content

def opened (d : Disk ν) (n : ν) : Nat := (d.inode n).getD d.next

def writeAt (d : Disk ν) (fd pos : Nat) (piece : Bytes) : Disk ν :=
  { d with content := Function.update d.content fd (overwrite (d.content fd) pos piece) }

theorem writeAt_content_of_ne {d : Disk ν} {fd k : Nat} (h : k ≠ fd) (pos : Nat) (piece : Bytes) :
    (d.writeAt fd pos piece).content k = d.content k := Function.update_of_ne h _ _

theorem writeAt_content_end (d : Disk ν) (fd : Nat) (piece : Bytes) :
    (d.writeAt fd (d.content fd).length piece).content fd = d.content fd ++ piece := by
  simp [writeAt, overwrite]

variable [DecidableEq ν]

/-- `open` with `O_CREAT | O_TRUNC`: the file the name leads to, or a new one, made empty. The name
is not looked at again afterwards. -/
def openTruncate (d : Disk ν) (n : ν) : Disk ν where
  inode := Function.update d.inode n (some (d.opened n))
  content := Function.update d.content (d.opened n) []
  next := max d.next (d.opened n + 1)

/-- `rename`: nothing when there is nothing to rename. -/
def rename (d : Disk ν) (a b : ν) : Option (Disk ν) :=
  (d.inode a).map fun fd =>
    { d with inode := Function.update (Function.update d.inode a none) b (some fd) }

def unlink (d : Disk ν) (n : ν) : Disk ν := { d with inode := Function.update d.inode n none }

/-! ## What the operations do -/

theorem inode_of_unlink {d : Disk ν} {m n : ν} {fd : Nat} (h : (d.unlink n).inode m = some fd) :
    d.inode m = some fd := by
  have h : Function.update d.inode n none m = some fd := h
  by_cases hne : m = n
  · rw [hne, Function.update_self] at h
    cases h
  · rw [Function.update_of_ne hne] at h
    exact h

@[simp] theorem openTruncate_inode_self (d : Disk ν) (n : ν) :
    (d.openTruncate n).inode n = some (d.opened n) := Function.update_self _ _ _

theorem openTruncate_inode_of_ne {d : Disk ν} {m n : ν} (h : m ≠ n) :
    (d.openTruncate n).inode m = d.inode m := Function.update_of_ne h _ _

@[simp] theorem openTruncate_content_self (d : Disk ν) (n : ν) :
    (d.openTruncate n).content (d.opened n) = [] := Function.update_self _ _ _

theorem openTruncate_content_of_ne {d : Disk ν} {n : ν} {k : Nat} (h : k ≠ d.opened n) :
    (d.openTruncate n).content k = d.content k := Function.update_of_ne h _ _

theorem next_le_openTruncate (d : Disk ν) (n : ν) : d.next ≤ (d.openTruncate n).next :=
  Nat.le_max_left _ _

theorem opened_lt_openTruncate (d : Disk ν) (n : ν) : d.opened n < (d.openTruncate n).next :=
  Nat.lt_of_lt_of_le (Nat.lt_succ_self _) (Nat.le_max_right _ _)

theorem rename_of_some {d : Disk ν} {a b : ν} {fd : Nat} (h : d.inode a = some fd) :
    d.rename a b =
      some { d with inode := Function.update (Function.update d.inode a none) b (some fd) } := by
  simp [rename, h]

theorem rename_of_none {d : Disk ν} {a b : ν} (h : d.inode a = none) : d.rename a b = none := by
  simp [rename, h]

end Disk

end Abora.Lib
