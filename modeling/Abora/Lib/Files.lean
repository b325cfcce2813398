import Mathlib.Data.List.Basic

/-!
# Files, as far as the programs can tell

What a program learns about a file (`Metadata`, the bytes) and how the operating system refuses
(`IoError`). A file's text is bytes; times are nanoseconds since the epoch, as `SystemTime` counts
them, and may lie before it or in the future: a clock may be set, so nothing here assumes that the
time of a file is past. Whether two looks at one path are looks at one file is not a matter of this
module but of the steps between them.
-/

namespace Abora.Lib

abbrev Bytes := List UInt8

/-- The bytes of an ASCII text. (Other characters are cut to a byte; no text of this kind has
any.) -/
def asciiBytes (s : String) : Bytes := s.toList.map fun c => UInt8.ofNat c.toNat

/-- `std::time::SystemTime`, in nanoseconds since the epoch. -/
abbrev SystemTime := Int

inductive ErrorKind where
  | notFound
  | other
  deriving DecidableEq, Repr

structure IoError where
  kind : ErrorKind
  message : String
  deriving DecidableEq, Repr

/-- What `symlink_metadata` reports. `isFile` is false for a directory and for a symbolic link;
`modified` is missing on a platform that keeps no modification time. -/
structure Metadata where
  isFile : Bool
  len : Nat
  modified : Option SystemTime
  deriving DecidableEq, Repr

/-- `SystemTime::now().duration_since(modified)`, with a missing or future time as no age: such a
file is as fresh as one can be. -/
def Metadata.age (m : Metadata) (now : SystemTime) : Nat :=
  match m.modified with
  | some t => (now - t).toNat
  | none => 0

end Abora.Lib
