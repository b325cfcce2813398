import Abora.Lib.Files
import Abora.Lib.Path

/-!
# Replacing a file through a temporary one

Write a temporary file next to the target, sync it, rename it over the target, and sync the
directory. Every step may succeed, fail, or be the one the machine stops at. `Slot` is what the
steps act on: the target, the temporary file, and what a power cut may still bring back to the
target because no directory sync followed the rename that replaced it.

Assumed of the file system: a rename is atomic and has no effect when it fails, and a file whose
sync succeeded keeps its contents. Nothing is assumed of the temporary file of an interrupted
write. `replaceFile_cases` says everything that can happen; the rest of a development should
use that and never look at the steps again.
-/

namespace Abora.Lib

/-- How one step went. A crash comes before the step has its effect or after: what the machine stops
at is one system call, and nothing is known about it but that it is done or not. -/
inductive Verdict where
  | ok
  | fail (e : IoError)
  | crash (after : Bool)
  deriving DecidableEq, Repr

/-- A file that is replaced through a temporary one. -/
structure Slot where
  file : Option Bytes
  tmp : Option Bytes
  /-- What the target held before the renames no directory sync has followed, newest first. -/
  unsynced : List (Option Bytes)
  deriving DecidableEq, Repr

/-- What the target may hold after a power cut. -/
def Slot.survivors (d : Slot) : List (Option Bytes) := d.file :: d.unsynced

/-- How a sequence of steps ended, and what it left. A crash is neither success nor failure: nobody
is told of it, and nothing is cleaned up after it. -/
inductive Ran (ε : Type) where
  | ok (d : Slot)
  | fail (e : ε) (d : Slot)
  | crash (d : Slot)
  deriving DecidableEq, Repr

namespace Ran

variable {ε ε' : Type}

def slot : Ran ε → Slot
  | .ok d | .fail _ d | .crash d => d

/-- The next step, if this one went well. -/
def andThen : Ran ε → (Slot → Ran ε) → Ran ε
  | .ok d, next => next d
  | r, _ => r

def mapFail (f : ε → ε') : Ran ε → Ran ε'
  | .ok d => .ok d
  | .fail e d => .fail (f e) d
  | .crash d => .crash d

/-- A step whose failure is ignored. -/
def ignore : Ran ε → Ran ε'
  | .ok d | .fail _ d => .ok d
  | .crash d => .crash d

/-- What is done about a failure; it does not change the error. -/
def cleanup (clean : Slot → Ran ε) : Ran ε → Ran ε
  | .fail e d =>
    match clean d with
    | .crash d => .crash d
    | .ok d | .fail _ d => .fail e d
  | r => r

end Ran

/-- One step: `effect` when it goes well, `torn` when it does not. A step that fails half way
through may have left something behind, which is what `torn` is for. -/
def Verdict.run (v : Verdict) (effect torn : Slot → Slot) (d : Slot) : Ran IoError :=
  match v with
  | .ok => .ok (effect d)
  | .fail e => .fail e (torn d)
  | .crash after => .crash (if after then effect d else torn d)

/-- How the steps of one replacement go, each for itself: whatever combination the environment comes
up with is allowed, also verdicts for steps that are never reached. -/
structure ReplaceFaults where
  create : Verdict
  write : Verdict
  /-- How many bytes an interrupted write left behind. -/
  written : Nat
  sync : Verdict
  rename : Verdict
  remove : Verdict
  deriving DecidableEq, Repr

def Slot.fill (bytes : Bytes) (d : Slot) : Slot := { d with tmp := some bytes }

def Slot.dropTmp (d : Slot) : Slot := { d with tmp := none }

def Slot.renameTmp (d : Slot) : Slot :=
  { file := d.tmp, tmp := none, unsynced := d.file :: d.unsynced }

def Slot.settle (d : Slot) : Slot := { d with unsynced := [] }

/-- `create_dir_all` of the directory the path names, if it names one. -/
def makeParent {ε : Type} (path : PathBuf) (toErr : PathBuf → IoError → ε) (v : Verdict)
    (d : Slot) : Ran ε :=
  match path.parentDir with
  | none => .ok d
  | some parent => (v.run id id d).mapFail (toErr parent)

/-- Create or truncate the temporary file, fill it, sync it. -/
def writeSynced (bytes : Bytes) (f : ReplaceFaults) (d : Slot) : Ran IoError :=
  (f.create.run (Slot.fill []) id d).andThen fun d =>
    (f.write.run (Slot.fill bytes) (Slot.fill (bytes.take f.written)) d).andThen
      (f.sync.run id id)

/-- Write, sync, rename; the temporary file is removed when one of them failed. -/
def replaceFile (bytes : Bytes) (f : ReplaceFaults) (d : Slot) : Ran IoError :=
  ((writeSynced bytes f d).andThen (f.rename.run Slot.renameTmp id)).cleanup
    (f.remove.run Slot.dropTmp id)

/-- Sync the directory. Best effort: a failure is not reported. -/
def syncDirectory {ε : Type} (v : Verdict) (d : Slot) : Ran ε := (v.run Slot.settle id d).ignore

/-! ## What can happen -/

/-- The target is as it was: only the temporary file differs. -/
def Slot.SameTarget (d d' : Slot) : Prop := d'.file = d.file ∧ d'.unsynced = d.unsynced

theorem makeParent_cases {ε : Type} (path : PathBuf) (toErr : PathBuf → IoError → ε) (v : Verdict)
    (d : Slot) :
    makeParent path toErr v d = .ok d ∨ (∃ e, makeParent path toErr v d = .fail e d) ∨
      makeParent path toErr v d = .crash d := by
  unfold makeParent
  cases path.parentDir with
  | none => exact .inl rfl
  | some parent =>
    cases v with
    | ok => exact .inl rfl
    | fail e => exact .inr (.inl ⟨toErr parent e, rfl⟩)
    | crash after => cases after <;> exact .inr (.inr rfl)

theorem writeSynced_cases (bytes : Bytes) (f : ReplaceFaults) (d : Slot) :
    d.SameTarget (writeSynced bytes f d).slot ∧
      ∀ d', writeSynced bytes f d = .ok d' → d'.tmp = some bytes := by
  obtain ⟨create, write, written, sync, rename, remove⟩ := f
  cases create with
  | fail e => exact ⟨⟨rfl, rfl⟩, fun d' h => by cases h⟩
  | crash after => cases after <;> exact ⟨⟨rfl, rfl⟩, fun d' h => by cases h⟩
  | ok =>
    cases write with
    | fail e => exact ⟨⟨rfl, rfl⟩, fun d' h => by cases h⟩
    | crash after => cases after <;> exact ⟨⟨rfl, rfl⟩, fun d' h => by cases h⟩
    | ok =>
      cases sync with
      | fail e => exact ⟨⟨rfl, rfl⟩, fun d' h => by cases h⟩
      | crash after => cases after <;> exact ⟨⟨rfl, rfl⟩, fun d' h => by cases h⟩
      | ok => exact ⟨⟨rfl, rfl⟩, fun d' h => by cases h; rfl⟩

/-- The target holds the new bytes, and what it held may come back. -/
def Slot.Replaced (bytes : Bytes) (d d' : Slot) : Prop :=
  d'.file = some bytes ∧ d'.unsynced = d.survivors

/-- **The new bytes or the old ones, never half.** A replacement that succeeds has the new bytes in
place. One that fails has not touched the target. One that the machine stopped in did one or the
other, and in the first and the last case a power cut may still bring back what was there. -/
theorem replaceFile_cases (bytes : Bytes) (f : ReplaceFaults) (d : Slot) :
    (∃ d', replaceFile bytes f d = .ok d' ∧ d.Replaced bytes d') ∨
      (∃ e d', replaceFile bytes f d = .fail e d' ∧ d.SameTarget d') ∨
      (∃ d', replaceFile bytes f d = .crash d' ∧ (d.SameTarget d' ∨ d.Replaced bytes d')) := by
  have hclean : ∀ (e : IoError) (d₁ : Slot), d.SameTarget d₁ →
      (∃ e' d', (Ran.fail e d₁).cleanup (f.remove.run Slot.dropTmp id) = .fail e' d' ∧
        d.SameTarget d') ∨
      (∃ d', (Ran.fail e d₁).cleanup (f.remove.run Slot.dropTmp id) = .crash d' ∧
        (d.SameTarget d' ∨ d.Replaced bytes d')) := by
    intro e d₁ hsame
    cases hr : f.remove with
    | ok => exact .inl ⟨e, _, rfl, hsame⟩
    | fail e' => exact .inl ⟨e, _, rfl, hsame⟩
    | crash after => cases after <;> exact .inr ⟨_, rfl, .inl hsame⟩
  obtain ⟨hsame, hfull⟩ := writeSynced_cases bytes f d
  unfold replaceFile
  cases hw : writeSynced bytes f d with
  | fail e d₁ =>
    rw [hw] at hsame
    exact .inr (hclean e d₁ hsame)
  | crash d₁ =>
    rw [hw] at hsame
    exact .inr (.inr ⟨d₁, rfl, .inl hsame⟩)
  | ok d₁ =>
    rw [hw] at hsame
    have hsame : d.SameTarget d₁ := hsame
    -- only a complete and synced temporary file is ever renamed
    have htmp : d₁.tmp = some bytes := hfull d₁ hw
    have hdone : d.Replaced bytes d₁.renameTmp :=
      ⟨htmp, show d₁.file :: d₁.unsynced = d.survivors by rw [hsame.1, hsame.2]; rfl⟩
    cases hren : f.rename with
    | ok => exact .inl ⟨d₁.renameTmp, rfl, hdone⟩
    | fail e => exact .inr (hclean e d₁ hsame)
    | crash after =>
      cases after with
      | false => exact .inr (.inr ⟨d₁, rfl, .inl hsame⟩)
      | true => exact .inr (.inr ⟨d₁.renameTmp, rfl, .inr hdone⟩)

end Abora.Lib
