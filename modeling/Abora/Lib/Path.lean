import Mathlib.Data.List.Basic

/-!
# Paths

`std::path::PathBuf` on Unix. A path *is* its components — that is what `Path`'s equality
compares, so `/a//b` and `/a/./b` are the path `/a/b` — and everything the framework does to a
path (`parent`, `join` of one file name, appending an extension to the last component) is an
operation on the component list.
-/

namespace Abora.Lib

/-- A Unix path: whether it starts at the root, and its components. There is no other text to
compare: two spellings of one path are one value here, as they are equal in Rust. -/
structure PathBuf where
  absolute : Bool
  components : List String
  deriving DecidableEq, Repr

namespace PathBuf

/-- `PathBuf::from`: empty components and `.` disappear, except a leading `.`. -/
def ofString (s : String) : PathBuf :=
  let cs := s.toList
  let parts := (cs.splitOn '/').map String.ofList
  let inner := parts.filter fun p => p ≠ "" && p ≠ "."
  if cs.head? = some '/' then ⟨true, inner⟩
  else if parts.head? = some "." then ⟨false, "." :: inner⟩
  else ⟨false, inner⟩

def isAbsolute (p : PathBuf) : Bool := p.absolute

/-- `Path::parent`: without the last component; none for `/` and for the empty path. -/
def parent (p : PathBuf) : Option PathBuf :=
  if p.components = [] then none else some { p with components := p.components.dropLast }

/-- The directory a file is in, if the path names one. -/
def parentDir (p : PathBuf) : Option PathBuf := p.parent.filter (· ≠ ⟨false, []⟩)

/-- `Path::join` of one plain file name, that is, of a name that is neither absolute nor made of
several components: the framework joins nothing else. -/
def join (p : PathBuf) (name : String) : PathBuf :=
  { p with components := p.components ++ [name] }

/-- `OsString::push` on the path's text: the last component gets a longer name. -/
def push (p : PathBuf) (suffix : String) : PathBuf :=
  { p with components := p.components.dropLast ++ [p.components.getLastD "" ++ suffix] }

/-- The text of a path, its components joined by single slashes. It is what error messages show. -/
def display (p : PathBuf) : String :=
  (if p.absolute then "/" else "") ++ "/".intercalate p.components

/-- A file of one name is the same path exactly in the same directory: from a derived file name the
directory can be told, which is how two programs agree on a file neither of them configures. -/
theorem join_left_inj {p q : PathBuf} {name : String} : p.join name = q.join name ↔ p = q := by
  constructor
  · intro h
    obtain ⟨a, l⟩ := p
    obtain ⟨b, m⟩ := q
    simp only [join, mk.injEq, List.append_left_inj] at h
    rw [h.1, h.2]
  · rintro rfl
    rfl

theorem push_ne {p : PathBuf} {suffix : String} (h : suffix ≠ "") : p.push suffix ≠ p := by
  intro heq
  have hlast := congrArg (fun q : PathBuf => (q.components.getLastD "").length) heq
  simp [push] at hlast
  exact h hlast

end PathBuf

end Abora.Lib
