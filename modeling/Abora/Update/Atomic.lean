import Abora.Lib.Inodes
import Abora.Lib.Path
import Abora.Lib.Run

/-!
# Concurrent calls of `write_atomic` (`abora-update/src/apply.rs`)

A call writes a temporary file and renames it over the path, and every call on one path uses the
same temporary file. Calls take their steps in any order, each of which the machine may refuse;
readers open the path and read it piece by piece while they do. The disk is `Abora.Lib.Inodes`: a
name leads to a file, and whoever has a file open keeps it whatever becomes of the name.

Its comment promises that the bytes are written atomically: readers see the old file or the new one,
never half of one, and a call that returned without an error has put its bytes in place. As long as
no call opens the temporary file while another one still has it (`Alone`), both are true: the file
behind the path is never written again once it is there, whoever has it open (`Settled`), and it is
the whole of what one call was given. `write_atomic_alone` draws both halves of the promise from
that.

With two calls at once neither half holds (`half_written_published`): the second call empties the
temporary file that the first is about to rename.

Steps are split into what they can do to a folder (`Change`), so that each invariant is a case
analysis over eight changes and never over the steps themselves.
-/

namespace Abora.Update

open Abora.Lib

/-- The one temporary name of a path: no process id, no random part. -/
def tmpPath (path : PathBuf) : PathBuf := path.push ".tmp"

theorem tmpPath_ne (path : PathBuf) : tmpPath path ≠ path := PathBuf.push_ne (by decide)

/-- How far one call of `write_atomic` is, with what it needs for the rest of its steps. -/
inductive Phase where
  | idle
  /-- The parent directory is there. -/
  | started (bytes : Bytes)
  | writing (bytes : Bytes) (fd pos : Nat)
  | synced (bytes : Bytes) (fd : Nat)
  /-- A step failed; the temporary file is still to be removed. -/
  | failing (bytes : Bytes)
  | returned (bytes : Bytes) (ok : Bool)
  deriving DecidableEq

/-- A reader opens the path once and keeps the file it found, whatever is renamed over the path
later. -/
inductive Reader where
  | idle
  | reading (fd : Nat) (got : Bytes)
  /-- Everything up to the end of the file, or that there was none. -/
  | done (view : Option Bytes)
  deriving DecidableEq

/-- The disk, and where every call and every reader is. Calls and readers are numbered; all but a
few of them are idle. -/
structure Folder where
  path : PathBuf
  disk : Disk PathBuf
  calls : Nat → Phase
  readers : Nat → Reader

/-- One step of a call or of a reader, and how the machine answers it. -/
inductive FolderEvent where
  | start (i : Nat) (bytes : Bytes) (dir : Bool)
  | openTmp (i : Nat) (ok : Bool)
  /-- A `write` that takes at most `n` bytes of the rest. -/
  | write (i n : Nat)
  | writeFails (i : Nat)
  | sync (i : Nat) (ok : Bool)
  | rename (i : Nat) (ok : Bool)
  | remove (i : Nat) (ok : Bool)
  | readerOpens (r : Nat)
  /-- A `read` of at most `n + 1` bytes. -/
  | readerReads (r n : Nat)

/-- The call an event is a step of. Readers' steps belong to none. -/
def FolderEvent.call? : FolderEvent → Option Nat
  | .start i _ _ | .openTmp i _ | .write i _ | .writeFails i | .sync i _ | .rename i _
  | .remove i _ => some i
  | .readerOpens _ | .readerReads _ _ => none

namespace Folder

def tmp (w : Folder) : PathBuf := tmpPath w.path

def setCall (w : Folder) (i : Nat) (p : Phase) : Folder :=
  { w with calls := Function.update w.calls i p }

def setReader (w : Folder) (r : Nat) (x : Reader) : Folder :=
  { w with readers := Function.update w.readers r x }

/-- A call takes only the step it is at; an event that is not its turn leaves everything as it
is. -/
def step (w : Folder) : FolderEvent → Folder
  | .start i bytes dir =>
    match w.calls i with
    | .idle => w.setCall i (if dir then .started bytes else .returned bytes false)
    | _ => w
  | .openTmp i ok =>
    match w.calls i with
    | .started bytes =>
      if ok then
        { w.setCall i (.writing bytes (w.disk.opened w.tmp) 0) with
          disk := w.disk.openTruncate w.tmp }
      else w.setCall i (.failing bytes)
    | _ => w
  | .write i n =>
    match w.calls i with
    | .writing bytes fd pos =>
      let piece := (bytes.drop pos).take n
      { w.setCall i (.writing bytes fd (pos + piece.length)) with
        disk := w.disk.writeAt fd pos piece }
    | _ => w
  | .writeFails i =>
    match w.calls i with
    | .writing bytes _ _ => w.setCall i (.failing bytes)
    | _ => w
  | .sync i ok =>
    match w.calls i with
    | .writing bytes fd pos =>
      -- `write_all` returns when nothing is left
      if pos < bytes.length then w
      else w.setCall i (if ok then .synced bytes fd else .failing bytes)
    | _ => w
  | .rename i ok =>
    match w.calls i with
    | .synced bytes _ =>
      match if ok then w.disk.rename w.tmp w.path else none with
      | some disk => { w.setCall i (.returned bytes true) with disk := disk }
      | none => w.setCall i (.failing bytes)
    | _ => w
  | .remove i ok =>
    match w.calls i with
    | .failing bytes =>
      { w.setCall i (.returned bytes false) with
        disk := if ok then w.disk.unlink w.tmp else w.disk }
    | _ => w
  | .readerOpens r =>
    match w.readers r with
    | .idle =>
      match w.disk.inode w.path with
      | none => w.setReader r (.done none)
      | some fd => w.setReader r (.reading fd [])
    | _ => w
  | .readerReads r n =>
    match w.readers r with
    | .reading fd got =>
      let piece := ((w.disk.content fd).drop got.length).take (n + 1)
      if piece = [] then w.setReader r (.done (some got))
      else w.setReader r (.reading fd (got ++ piece))
    | _ => w

/-- A path with what it holds, and with what an earlier run may have left at the temporary name. -/
def start (path : PathBuf) (previous leftover : Option Bytes) : Folder where
  path := path
  disk :=
    { inode := fun n =>
        if n = path then previous.map fun _ => 0
        else if n = tmpPath path then leftover.map fun _ => 1
        else none
      content := fun fd => if fd = 0 then previous.getD [] else leftover.getD []
      next := 2 }
  calls := fun _ => .idle
  readers := fun _ => .idle

end Folder

/-! ## What holds while no two calls have the temporary file -/

/-- The bytes a call was given. -/
def Phase.bytes? : Phase → Option Bytes
  | .idle => none
  | .started b | .writing b _ _ | .synced b _ | .failing b | .returned b _ => some b

/-- The call has the temporary file, or has yet to remove it. It is busy from the moment it opens
the file to the moment it renames or removes it. -/
def Phase.Busy : Phase → Prop
  | .writing .. | .synced .. | .failing .. => True
  | _ => False

/-- The temporary name leads to the file the call writes, and the file holds what was written. -/
def Phase.Held (d : Disk PathBuf) (tmp : PathBuf) : Phase → Prop
  | .writing bytes fd pos =>
    d.inode tmp = some fd ∧ d.content fd = bytes.take pos ∧ pos ≤ bytes.length
  | .synced bytes fd => d.inode tmp = some fd ∧ d.content fd = bytes
  | _ => True

theorem Phase.held_of_not_busy {p : Phase} (h : ¬ p.Busy) (d : Disk PathBuf) (tmp : PathBuf) :
    p.Held d tmp := by
  cases p with
  | writing bytes fd pos => exact absurd trivial h
  | synced bytes fd => exact absurd trivial h
  | _ => trivial

namespace Folder

/-- **The condition on a run**: a call opens the temporary file only when no other one has it. -/
def Alone (w : Folder) : FolderEvent → Prop
  | .openTmp i _ => ∀ j, j ≠ i → ¬ (w.calls j).Busy
  | _ => True

/-- What was there before, or the whole of what some call was given. -/
def Whole (previous : Option Bytes) (w : Folder) (bytes : Bytes) : Prop :=
  previous = some bytes ∨ ∃ i, (w.calls i).bytes? = some bytes

/-- A file that is whole and that no call has: it exists, the temporary name does not lead to it,
and its bytes are somebody's. -/
structure Settled (previous : Option Bytes) (w : Folder) (fd : Nat) : Prop where
  taken : fd < w.disk.next
  kept : w.disk.inode w.tmp ≠ some fd
  whole : Whole previous w (w.disk.content fd)

/-- The calls' side: one at a time, each with its own file. `taken` keeps a new file from being an
old one. -/
structure CallsOk (w : Folder) : Prop where
  taken : ∀ n fd, w.disk.inode n = some fd → fd < w.disk.next
  alone : ∀ i j, (w.calls i).Busy → (w.calls j).Busy → i = j
  held : ∀ i, (w.calls i).Held w.disk w.tmp

/-- The readers' side: everything they can get at is settled, and what they have read so far is the
beginning of it. -/
structure ReadersOk (previous : Option Bytes) (w : Folder) : Prop where
  shown : ∀ fd, w.disk.inode w.path = some fd → Settled previous w fd
  reading : ∀ r fd got, w.readers r = .reading fd got →
    Settled previous w fd ∧ got <+: w.disk.content fd
  done : ∀ r bytes, w.readers r = .done (some bytes) → Whole previous w bytes

/-- What one step can do. A `call` is a step of one call that leaves the disk alone; every other
constructor says what became of the disk, or of a reader. -/
inductive Change (w : Folder) : Folder → Prop where
  | same : Change w w
  | call (i : Nat) (p : Phase)
      (bytes : ∀ b, (w.calls i).bytes? = some b → p.bytes? = some b)
      (busy : p.Busy → (w.calls i).Busy ∨ ∀ j, j ≠ i → ¬ (w.calls j).Busy)
      (held : (w.calls i).Held w.disk w.tmp → p.Held w.disk w.tmp)
      (unfinished : ∀ b, p ≠ .returned b true) : Change w (w.setCall i p)
  | opened (i : Nat) (bytes : Bytes) (at_ : w.calls i = .started bytes)
      (alone : ∀ j, j ≠ i → ¬ (w.calls j).Busy) :
      Change w { w.setCall i (.writing bytes (w.disk.opened w.tmp) 0) with
        disk := w.disk.openTruncate w.tmp }
  | wrote (i : Nat) (bytes : Bytes) (fd pos n : Nat) (at_ : w.calls i = .writing bytes fd pos) :
      Change w { w.setCall i (.writing bytes fd (pos + ((bytes.drop pos).take n).length)) with
        disk := w.disk.writeAt fd pos ((bytes.drop pos).take n) }
  | renamed (i : Nat) (bytes : Bytes) (fd k : Nat) (at_ : w.calls i = .synced bytes fd)
      (found : w.disk.inode w.tmp = some k) :
      Change w { w.setCall i (.returned bytes true) with
        disk := { w.disk with
          inode := Function.update (Function.update w.disk.inode w.tmp none) w.path (some k) } }
  | removed (i : Nat) (bytes : Bytes) (at_ : w.calls i = .failing bytes) :
      Change w { w.setCall i (.returned bytes false) with disk := w.disk.unlink w.tmp }
  | reader (r : Nat) (x : Reader)
      (sees : x = .done none ∨ (∃ fd, w.disk.inode w.path = some fd ∧ x = .reading fd []) ∨
        ∃ fd got, w.readers r = .reading fd got ∧
          ((w.disk.content fd).drop got.length = [] ∧ x = .done (some got) ∨
            ∃ n, x = .reading fd (got ++ ((w.disk.content fd).drop got.length).take n))) :
      Change w (w.setReader r x)

theorem path_ne_tmp (w : Folder) : w.path ≠ w.tmp := (tmpPath_ne w.path).symm

@[simp] theorem setCall_calls_self (w : Folder) (i : Nat) (p : Phase) :
    (w.setCall i p).calls i = p := Function.update_self _ _ _

theorem setCall_calls_of_ne {i j : Nat} (h : j ≠ i) (w : Folder) (p : Phase) :
    (w.setCall i p).calls j = w.calls j := Function.update_of_ne h _ _

@[simp] theorem setReader_readers_self (w : Folder) (r : Nat) (x : Reader) :
    (w.setReader r x).readers r = x := Function.update_self _ _ _

theorem setReader_readers_of_ne {r s : Nat} (h : s ≠ r) (w : Folder) (x : Reader) :
    (w.setReader r x).readers s = w.readers s := Function.update_of_ne h _ _

theorem Change.fails {w : Folder} {i : Nat} {bytes : Bytes} (hbytes : (w.calls i).bytes? = some bytes)
    (hbusy : (w.calls i).Busy ∨ ∀ j, j ≠ i → ¬ (w.calls j).Busy) :
    Change w (w.setCall i (.failing bytes)) :=
  .call i _ (fun b hb => hbytes.symm.trans hb) (fun _ => hbusy) (fun _ => trivial)
    fun b hb => by cases hb

/-- What every step comes to, for a call that opens the temporary file alone. The only case split
over the events is in this proof. -/
theorem step_change {w : Folder} {e : FolderEvent} (hg : Alone w e) : Change w (w.step e) := by
  cases e with
  -- each event does something in one phase of its call, and nothing in the others
  | start i bytes dir =>
    cases hi : w.calls i with
    | idle =>
      simp only [step, hi]
      refine .call i _ (fun b hb => ?_) (fun hb => ?_) (fun _ => ?_) fun b hb => ?_
      · rw [hi] at hb
        cases hb
      · cases dir <;> cases hb
      · cases dir <;> trivial
      · cases dir <;> cases hb
    | _ =>
      simp only [step, hi]
      exact .same
  | openTmp i ok =>
    cases hi : w.calls i with
    | started bytes =>
      simp only [step, hi]
      cases ok with
      | true => exact .opened i bytes hi hg
      | false => exact .fails (by rw [hi]; rfl) (.inr hg)
    | _ =>
      simp only [step, hi]
      exact .same
  | write i n =>
    cases hi : w.calls i with
    | writing bytes fd pos =>
      simp only [step, hi]
      exact .wrote i bytes fd pos n hi
    | _ =>
      simp only [step, hi]
      exact .same
  | writeFails i =>
    cases hi : w.calls i with
    | writing bytes fd pos =>
      simp only [step, hi]
      exact .fails (by rw [hi]; rfl) (.inl (by rw [hi]; trivial))
    | _ =>
      simp only [step, hi]
      exact .same
  | sync i ok =>
    cases hi : w.calls i with
    | writing bytes fd pos =>
      simp only [step, hi]
      split
      · exact .same
      · rename_i hpos
        cases ok with
        | false => exact .fails (by rw [hi]; rfl) (.inl (by rw [hi]; trivial))
        | true =>
          refine .call i _ (fun b hb => ?_) (fun _ => .inl (by rw [hi]; trivial)) (fun hheld => ?_)
            fun b hb => by cases hb
          · rw [hi] at hb
            exact hb
          · -- everything has been written, so the file is the whole of the bytes
            rw [hi] at hheld
            obtain ⟨hinode, hcontent, -⟩ := hheld
            exact ⟨hinode, hcontent.trans (List.take_of_length_le (Nat.le_of_not_lt hpos))⟩
    | _ =>
      simp only [step, hi]
      exact .same
  | rename i ok =>
    cases hi : w.calls i with
    | synced bytes fd =>
      simp only [step, hi]
      have hfails : Change w (w.setCall i (.failing bytes)) :=
        .fails (by rw [hi]; rfl) (.inl (by rw [hi]; trivial))
      cases ok with
      | false => exact hfails
      | true =>
        -- there may be nothing to rename, if another call has taken the name away
        cases hk : w.disk.inode w.tmp with
        | none =>
          simp only [if_true, Disk.rename_of_none hk]
          exact hfails
        | some k =>
          simp only [if_true, Disk.rename_of_some hk]
          exact .renamed i bytes fd k hi hk
    | _ =>
      simp only [step, hi]
      exact .same
  | remove i ok =>
    cases hi : w.calls i with
    | failing bytes =>
      simp only [step, hi]
      cases ok with
      | true => exact .removed i bytes hi
      | false =>
        refine .call i _ (fun b hb => ?_) (fun hb => by cases hb) (fun _ => trivial)
          fun b hb => by cases hb
        rw [hi] at hb
        exact hb
    | _ =>
      simp only [step, hi]
      exact .same
  | readerOpens r =>
    cases hr : w.readers r with
    | idle =>
      simp only [step, hr]
      cases hpath : w.disk.inode w.path with
      | none => exact .reader r _ (.inl rfl)
      | some fd => exact .reader r _ (.inr (.inl ⟨fd, hpath, rfl⟩))
    | _ =>
      simp only [step, hr]
      exact .same
  | readerReads r n =>
    cases hr : w.readers r with
    | reading fd got =>
      simp only [step, hr]
      split
      -- a read of nothing is the end of the file
      · rename_i hend
        have hdrop : (w.disk.content fd).drop got.length = [] := by
          rcases List.take_eq_nil_iff.mp hend with hzero | hdrop
          · cases hzero
          · exact hdrop
        exact .reader r _ (.inr (.inr ⟨fd, got, hr, .inl ⟨hdrop, rfl⟩⟩))
      · exact .reader r _ (.inr (.inr ⟨fd, got, hr, .inr ⟨n + 1, rfl⟩⟩))
    | _ =>
      simp only [step, hr]
      exact .same

/-! ## One step -/

variable {previous : Option Bytes} {w w' : Folder}

theorem Change.path_eq (h : Change w w') : w'.path = w.path := by
  cases h <;> rfl

/-- A call never forgets what it was given. -/
theorem Change.bytes_mono (h : Change w w') {i : Nat} {b : Bytes}
    (hb : (w.calls i).bytes? = some b) : (w'.calls i).bytes? = some b := by
  have hset {j : Nat} {p : Phase} (hp : (w.calls j).bytes? = some b → p.bytes? = some b) :
      (Function.update w.calls j p i).bytes? = some b := by
    by_cases hij : i = j
    · subst hij
      rw [Function.update_self]
      exact hp hb
    · rw [Function.update_of_ne hij]
      exact hb
  cases h with
  | same => exact hb
  | call j p bytes _ _ _ => exact hset (bytes b)
  | opened j bytes at_ alone =>
    refine hset fun h => ?_
    rw [at_] at h
    exact h
  | wrote j bytes fd pos n at_ =>
    refine hset fun h => ?_
    rw [at_] at h
    exact h
  | renamed j bytes fd k at_ found =>
    refine hset fun h => ?_
    rw [at_] at h
    exact h
  | removed j bytes at_ =>
    refine hset fun h => ?_
    rw [at_] at h
    exact h
  | reader r x sees => exact hb

theorem Change.whole_mono (h : Change w w') {b : Bytes} (hb : Whole previous w b) :
    Whole previous w' b := by
  rcases hb with hprevious | ⟨i, hi⟩
  · exact .inl hprevious
  · exact .inr ⟨i, h.bytes_mono hi⟩

/-- **A settled file is never written again**: whoever has it open reads the same bytes. -/
theorem Change.settled (h : Change w w') (hcalls : CallsOk w) {k : Nat}
    (hk : Settled previous w k) :
    Settled previous w' k ∧ w'.disk.content k = w.disk.content k := by
  have hwhole := h.whole_mono hk.whole
  have htmp := w.path_ne_tmp
  cases h with
  | same => exact ⟨hk, rfl⟩
  | call j p _ _ _ _ => exact ⟨⟨hk.taken, hk.kept, hwhole⟩, rfl⟩
  | opened j bytes at_ alone =>
    -- opening truncates the file under the temporary name, which a settled one no longer has
    have hne : k ≠ w.disk.opened w.tmp := by
      unfold Disk.opened
      cases htmp : w.disk.inode w.tmp with
      | none => exact Nat.ne_of_lt hk.taken
      | some t =>
        intro heq
        exact hk.kept (htmp.trans (congrArg some heq.symm))
    have hcontent := Disk.openTruncate_content_of_ne hne
    refine ⟨⟨?_, ?_, ?_⟩, hcontent⟩
    · exact Nat.lt_of_lt_of_le hk.taken (Disk.next_le_openTruncate _ _)
    · show (w.disk.openTruncate w.tmp).inode w.tmp ≠ some k
      rw [Disk.openTruncate_inode_self]
      exact fun heq => hne (Option.some.inj heq).symm
    · show Whole previous _ ((w.disk.openTruncate w.tmp).content k)
      rw [hcontent]
      exact hwhole
  | wrote j bytes fd pos n at_ =>
    have hheld := hcalls.held j
    rw [at_] at hheld
    -- the call writes to its own file, which still has the temporary name
    have hne : k ≠ fd := by
      intro heq
      exact hk.kept (hheld.1.trans (congrArg some heq.symm))
    have hcontent := Disk.writeAt_content_of_ne hne pos ((bytes.drop pos).take n) (d := w.disk)
    refine ⟨⟨hk.taken, hk.kept, ?_⟩, hcontent⟩
    show Whole previous _ ((w.disk.writeAt fd pos ((bytes.drop pos).take n)).content k)
    rw [hcontent]
    exact hwhole
  | renamed j bytes fd t at_ found =>
    refine ⟨⟨hk.taken, ?_, hwhole⟩, rfl⟩
    show Function.update (Function.update w.disk.inode w.tmp none) w.path (some t) w.tmp ≠ some k
    rw [Function.update_of_ne htmp.symm, Function.update_self]
    exact Option.some_ne_none k |>.symm
  | removed j bytes at_ =>
    refine ⟨⟨hk.taken, ?_, hwhole⟩, rfl⟩
    show Function.update w.disk.inode w.tmp none w.tmp ≠ some k
    rw [Function.update_self]
    exact Option.some_ne_none k |>.symm
  | reader r x sees => exact ⟨⟨hk.taken, hk.kept, hwhole⟩, rfl⟩

theorem CallsOk.others (h : CallsOk w) {i : Nat} (hi : (w.calls i).Busy) {j : Nat} (hj : j ≠ i) :
    ¬ (w.calls j).Busy := fun hbusy => hj (h.alone j i hbusy hi)

/-- When no other call has the temporary file, only the one that moved has to be looked at. -/
theorem CallsOk.of_moved {i : Nat} {p : Phase} (hcalls : w'.calls = Function.update w.calls i p)
    (htaken : ∀ n fd, w'.disk.inode n = some fd → fd < w'.disk.next)
    (hothers : ∀ j, j ≠ i → ¬ (w.calls j).Busy) (hheld : p.Held w'.disk w'.tmp) : CallsOk w' := by
  have hcalm {j : Nat} (hj : j ≠ i) : ¬ (w'.calls j).Busy := by
    rw [hcalls, Function.update_of_ne hj]
    exact hothers j hj
  refine ⟨htaken, fun j k hbusy hbusy' => ?_, fun j => ?_⟩
  · have hj : j = i := by
      by_contra hj
      exact hcalm hj hbusy
    have hk : k = i := by
      by_contra hk
      exact hcalm hk hbusy'
    rw [hj, hk]
  · by_cases hj : j = i
    · rw [hcalls, hj, Function.update_self]
      exact hheld
    · exact Phase.held_of_not_busy (hcalm hj) _ _

theorem Change.callsOk (h : Change w w') (hcalls : CallsOk w) : CallsOk w' := by
  have htmp := w.path_ne_tmp
  cases h with
  | same => exact hcalls
  | call i p _ busy held _ =>
    -- only a busy call has a file of its own to be held to
    by_cases hp : p.Busy
    · refine .of_moved rfl hcalls.taken (fun j hj => ?_) (held (hcalls.held i))
      rcases busy hp with hi | hothers
      · exact hcalls.others hi hj
      · exact hothers j hj
    · -- the disk is as it was, and one call fewer can have the temporary file
      have hkeep {j : Nat} (hbusy : ((w.setCall i p).calls j).Busy) :
          j ≠ i ∧ (w.calls j).Busy := by
        by_cases hj : j = i
        · rw [hj, setCall_calls_self] at hbusy
          exact absurd hbusy hp
        · rw [setCall_calls_of_ne hj] at hbusy
          exact ⟨hj, hbusy⟩
      refine ⟨hcalls.taken, fun j k hj hk => hcalls.alone j k (hkeep hj).2 (hkeep hk).2, ?_⟩
      intro j
      by_cases hj : j = i
      · rw [hj, setCall_calls_self]
        exact held (hcalls.held i)
      · rw [setCall_calls_of_ne hj]
        exact hcalls.held j
  -- the others are not busy here, which is what `Alone` asks of the event
  | opened i bytes at_ alone =>
    refine .of_moved rfl (fun n fd hn => ?_) alone ⟨Disk.openTruncate_inode_self _ _, ?_, Nat.zero_le _⟩
    · show fd < (w.disk.openTruncate w.tmp).next
      by_cases hne : n = w.tmp
      · have hfd : some (w.disk.opened w.tmp) = some fd :=
          (Disk.openTruncate_inode_self w.disk w.tmp).symm.trans (hne ▸ hn)
        rw [← Option.some.inj hfd]
        exact Disk.opened_lt_openTruncate _ _
      · have hold : w.disk.inode n = some fd := (Disk.openTruncate_inode_of_ne hne).symm.trans hn
        exact Nat.lt_of_lt_of_le (hcalls.taken n fd hold) (Disk.next_le_openTruncate _ _)
    · exact Disk.openTruncate_content_self _ _
  | wrote i bytes fd pos n at_ =>
    have hbusy : (w.calls i).Busy := by
      rw [at_]
      trivial
    have hheld := hcalls.held i
    rw [at_] at hheld
    obtain ⟨hinode, hcontent, hpos⟩ := hheld
    refine .of_moved rfl hcalls.taken (fun j hj => hcalls.others hbusy hj) ⟨hinode, ?_, ?_⟩
    -- what is written goes to the end, so the file stays a prefix of the bytes
    · have hlen : (w.disk.content fd).length = pos := by
        rw [hcontent, List.length_take, Nat.min_eq_left hpos]
      have hend := Disk.writeAt_content_end w.disk fd ((bytes.drop pos).take n)
      rw [hlen, hcontent] at hend
      refine hend.trans ?_
      rw [List.take_add, List.length_take]
      congr 1
      rw [List.take_eq_take_iff]
      omega
    · rw [List.length_take, List.length_drop]
      omega
  | renamed i bytes fd k at_ found =>
    have hbusy : (w.calls i).Busy := by
      rw [at_]
      trivial
    refine .of_moved rfl (fun n fd' hn => ?_) (fun j hj => hcalls.others hbusy hj) trivial
    show fd' < w.disk.next
    have hn : Function.update (Function.update w.disk.inode w.tmp none) w.path (some k) n =
        some fd' := hn
    by_cases hpath : n = w.path
    · rw [hpath, Function.update_self] at hn
      rw [← Option.some.inj hn]
      exact hcalls.taken _ _ found
    · rw [Function.update_of_ne hpath] at hn
      exact hcalls.taken n fd' (Disk.inode_of_unlink hn)
  | removed i bytes at_ =>
    have hbusy : (w.calls i).Busy := by
      rw [at_]
      trivial
    exact .of_moved rfl (fun n fd hn => hcalls.taken n fd (Disk.inode_of_unlink hn))
      (fun j hj => hcalls.others hbusy hj) trivial
  | reader r x sees => exact ⟨hcalls.taken, hcalls.alone, hcalls.held⟩

/-- A successful call has put what it was given at the path. -/
theorem Change.returned (h : Change w w') (hcalls : CallsOk w) {i : Nat} {b : Bytes}
    (hi : w'.calls i = .returned b true) :
    w.calls i = .returned b true ∨ w'.disk.lookup w'.path = some b := by
  have hset {j : Nat} {p : Phase} (hp : p ≠ .returned b true)
      (hi : Function.update w.calls j p i = .returned b true) : w.calls i = .returned b true := by
    by_cases hij : i = j
    · subst hij
      rw [Function.update_self] at hi
      exact absurd hi hp
    · rwa [Function.update_of_ne hij] at hi
  cases h with
  | same => exact .inl hi
  | call j p _ _ _ unfinished => exact .inl (hset (unfinished b) hi)
  | opened j bytes at_ alone => exact .inl (hset (fun hp => by cases hp) hi)
  | wrote j bytes fd pos n at_ => exact .inl (hset (fun hp => by cases hp) hi)
  | removed j bytes at_ => exact .inl (hset (fun hp => by cases hp) hi)
  | reader r x sees => exact .inl hi
  -- the only change that lets a call return with success
  | renamed j bytes fd k at_ found =>
    by_cases hij : i = j
    · have hheld := hcalls.held j
      rw [at_] at hheld
      obtain ⟨hinode, hcontent⟩ := hheld
      have hbytes : bytes = b := by
        have hreturned : Function.update w.calls j (.returned bytes true) i = .returned b true := hi
        rw [hij, Function.update_self] at hreturned
        cases hreturned
        rfl
      have hk : k = fd := Option.some.inj (found.symm.trans hinode)
      refine .inr ?_
      show (Function.update (Function.update w.disk.inode w.tmp none) w.path (some k) w.path).map
        w.disk.content = some b
      rw [Function.update_self, Option.map_some, hk, hcontent, hbytes]
    · have hold : Function.update w.calls j (.returned bytes true) i = .returned b true := hi
      rw [Function.update_of_ne hij] at hold
      exact .inl hold

/-- What the path leads to after a step was there before, or is what a rename put there. A rename
puts there the file of the one busy call, which has synced all of its bytes. -/
theorem Change.shown (h : Change w w') (hcalls : CallsOk w) (hreaders : ReadersOk previous w)
    {fd : Nat} (hfd : w'.disk.inode w'.path = some fd) : Settled previous w' fd := by
  have hold (hsame : w.disk.inode w.path = some fd) : Settled previous w' fd :=
    (h.settled hcalls (hreaders.shown fd hsame)).1
  have htmp := w.path_ne_tmp
  cases h with
  | same => exact hold hfd
  | call j p _ _ _ _ => exact hold hfd
  | opened j bytes at_ alone => exact hold ((Disk.openTruncate_inode_of_ne htmp).symm.trans hfd)
  | wrote j bytes fd pos n at_ => exact hold hfd
  | removed j bytes at_ => exact hold ((Function.update_of_ne htmp _ _).symm.trans hfd)
  | reader r x sees => exact hold hfd
  | renamed j bytes fd' k at_ found =>
    have hheld := hcalls.held j
    rw [at_] at hheld
    obtain ⟨hinode, hcontent⟩ := hheld
    have hk : k = fd := by
      have hput : Function.update (Function.update w.disk.inode w.tmp none) w.path (some k) w.path =
          some fd := hfd
      rw [Function.update_self] at hput
      exact Option.some.inj hput
    subst hk
    refine ⟨hcalls.taken _ _ found, ?_, .inr ⟨j, ?_⟩⟩
    · show Function.update (Function.update w.disk.inode w.tmp none) w.path (some k) w.tmp ≠ some k
      rw [Function.update_of_ne htmp.symm, Function.update_self]
      exact Option.some_ne_none k |>.symm
    · have hwhole : w.disk.content k = bytes := by
        rw [Option.some.inj (found.symm.trans hinode), hcontent]
      show (Function.update w.calls j (.returned bytes true) j).bytes? = some (w.disk.content k)
      rw [Function.update_self, hwhole]
      rfl

theorem Change.readersOk (h : Change w w') (hcalls : CallsOk w) (hreaders : ReadersOk previous w) :
    ReadersOk previous w' := by
  have hreading (hsame : w'.readers = w.readers) : ReadersOk previous w' := by
    refine ⟨fun fd hfd => h.shown hcalls hreaders hfd, fun r fd got hr => ?_, fun r b hr => ?_⟩
    · rw [hsame] at hr
      obtain ⟨hsettled, hgot⟩ := hreaders.reading r fd got hr
      obtain ⟨hsettled', hcontent⟩ := h.settled hcalls hsettled
      rw [hcontent]
      exact ⟨hsettled', hgot⟩
    · rw [hsame] at hr
      exact h.whole_mono (hreaders.done r b hr)
  cases h with
  -- every other change leaves the readers where they were, on files that have settled
  | reader r x sees =>
    refine ⟨fun fd hfd => ?_, fun s fd got hs => ?_, fun s b hs => ?_⟩
    · obtain ⟨htaken, hkept, hwhole⟩ := hreaders.shown fd hfd
      exact ⟨htaken, hkept, hwhole⟩
    · have hok : Settled previous w fd ∧ got <+: w.disk.content fd := by
        by_cases hsr : s = r
        · rw [hsr, setReader_readers_self] at hs
          rcases sees with hx | ⟨fd', hpath, hx⟩ | ⟨fd', got', hr, ⟨-, hx⟩ | ⟨n, hx⟩⟩
          · cases hx.symm.trans hs
          · cases hx.symm.trans hs
            exact ⟨hreaders.shown fd hpath, List.nil_prefix⟩
          · cases hx.symm.trans hs
          · cases hx.symm.trans hs
            obtain ⟨hsettled, hgot⟩ := hreaders.reading r fd got' hr
            refine ⟨hsettled, ?_⟩
            obtain ⟨rest, hrest⟩ := hgot
            rw [← hrest, List.drop_left]
            exact (List.prefix_append_right_inj got').mpr (List.take_prefix n rest)
        · rw [setReader_readers_of_ne hsr] at hs
          exact hreaders.reading s fd got hs
      exact ⟨⟨hok.1.taken, hok.1.kept, hok.1.whole⟩, hok.2⟩
    · by_cases hsr : s = r
      · rw [hsr, setReader_readers_self] at hs
        rcases sees with hx | ⟨fd', hpath, hx⟩ | ⟨fd', got', hr, ⟨hend, hx⟩ | ⟨n, hx⟩⟩
        · cases hx.symm.trans hs
        · cases hx.symm.trans hs
        · -- nothing is left to read, so what was read is the whole file
          cases hx.symm.trans hs
          obtain ⟨hsettled, ⟨rest, hrest⟩⟩ := hreaders.reading r fd' b hr
          rw [← hrest, List.drop_left] at hend
          have hwhole := hsettled.whole
          rw [← hrest, hend, List.append_nil] at hwhole
          exact hwhole
        · cases hx.symm.trans hs
      · rw [setReader_readers_of_ne hsr] at hs
        exact hreaders.done s b hs
  | _ => exact hreading rfl

/-! ## A run -/

/-- Every reader that is done saw no file, or what was there before, or the whole of what some call
was given. One that is still reading has promised nothing yet. -/
def SeesWhole (previous : Option Bytes) (w : Folder) : Prop :=
  ∀ r view, w.readers r = .done view → view = none ∨ view = previous ∨
    ∃ i bytes, (w.calls i).bytes? = some bytes ∧ view = some bytes

theorem start_callsOk (path : PathBuf) (previous leftover : Option Bytes) :
    CallsOk (start path previous leftover) := by
  refine ⟨fun n fd h => ?_, fun i j hi _ => absurd hi id, fun i => trivial⟩
  show fd < 2
  have h : (if n = path then previous.map fun _ => 0
      else if n = tmpPath path then leftover.map fun _ => 1 else none) = some fd := h
  split at h
  · obtain ⟨-, -, rfl⟩ := Option.map_eq_some_iff.mp h
    exact Nat.zero_lt_two
  split at h
  · obtain ⟨-, -, rfl⟩ := Option.map_eq_some_iff.mp h
    exact Nat.one_lt_two
  · cases h

theorem start_readersOk (path : PathBuf) (previous leftover : Option Bytes) :
    ReadersOk previous (start path previous leftover) := by
  refine ⟨fun fd h => ?_, fun r fd got h => (by cases h), fun r b h => (by cases h)⟩
  have h : (if path = path then previous.map fun _ => 0
      else if path = tmpPath path then leftover.map fun _ => 1 else none) = some fd := h
  rw [if_pos rfl] at h
  obtain ⟨bytes, hprevious, rfl⟩ := Option.map_eq_some_iff.mp h
  refine ⟨Nat.zero_lt_two, fun htmp => ?_, .inl ?_⟩
  · have htmp : (if tmpPath path = path then previous.map fun _ => 0
        else if tmpPath path = tmpPath path then leftover.map fun _ => 1 else none) = some 0 := htmp
    rw [if_neg (tmpPath_ne path), if_pos rfl] at htmp
    obtain ⟨-, -, hone⟩ := Option.map_eq_some_iff.mp htmp
    cases hone
  · rw [hprevious]
    rfl

theorem ReadersOk.seesWhole (h : ReadersOk previous w) : SeesWhole previous w := by
  intro r view hr
  cases view with
  | none => exact .inl rfl
  | some bytes =>
    rcases h.done r bytes hr with hprevious | ⟨i, hi⟩
    · exact .inr (.inl hprevious.symm)
    · exact .inr (.inr ⟨i, bytes, hi, rfl⟩)

/-- Along a run of lone calls, a call that has returned successfully had done so at the start, or
has been seen at the path. -/
theorem returned_seen {es : List FolderEvent} (hcalls : CallsOk w)
    (hg : Guarded step Alone w es) {t : Folder} (ht : t ∈ visited step w es) {i : Nat} {b : Bytes}
    (hi : t.calls i = .returned b true) :
    w.calls i = .returned b true ∨ ∃ u ∈ visited step w es, u.disk.lookup u.path = some b := by
  induction es generalizing w with
  | nil =>
    rw [List.mem_singleton.mp ht] at hi
    exact .inl hi
  | cons e es ih =>
    have hchange := step_change hg.1
    rcases List.mem_cons.mp ht with rfl | ht
    · exact .inl hi
    · rcases ih (hchange.callsOk hcalls) hg.2 ht with hnext | ⟨u, hu, hlookup⟩
      · rcases hchange.returned hcalls hnext with hold | hlookup
        · exact .inl hold
        · exact .inr ⟨_, List.mem_cons_of_mem _ (self_mem_visited _ _), hlookup⟩
      · exact .inr ⟨u, List.mem_cons_of_mem _ hu, hlookup⟩

/-- **Replacement is atomic as long as calls do not overlap**: in every state of the run every
reader saw something whole, and what a successful call was given was at the path at some moment.
Overlap is a condition on the run (`Guarded`), not on the calls: they may all exist at once, as long
as they take the temporary file one after the other. -/
theorem write_atomic_alone (path : PathBuf) (previous leftover : Option Bytes)
    (es : List FolderEvent) (hg : Guarded step Alone (start path previous leftover) es) :
    ∀ t ∈ visited step (start path previous leftover) es, SeesWhole previous t ∧
      ∀ i bytes, t.calls i = .returned bytes true →
        ∃ u ∈ visited step (start path previous leftover) es,
          u.disk.lookup path = some bytes := by
  have hcalls := start_callsOk path previous leftover
  have hreaders := start_readersOk path previous leftover
  intro t ht
  refine ⟨?_, fun i bytes hi => ?_⟩
  · have hboth := visited_of_guarded (I := fun w => CallsOk w ∧ ReadersOk previous w) (G := Alone)
      (fun w e hw he => ⟨(step_change he).callsOk hw.1, (step_change he).readersOk hw.1 hw.2⟩)
      ⟨hcalls, hreaders⟩ hg t ht
    exact hboth.2.seesWhole
  · have hpath := visited_of_guarded (I := fun w => w.path = path) (G := Alone)
      (fun w e hw he => (step_change he).path_eq.trans hw) rfl hg
    rcases returned_seen hcalls hg ht hi with hstart | ⟨u, hu, hlookup⟩
    · cases hstart
    · rw [hpath u hu] at hlookup
      exact ⟨u, hu, hlookup⟩

theorem step_calls_of_ne {e : FolderEvent} {i : Nat} (h : e.call? ≠ some i) (w : Folder) :
    (w.step e).calls i = w.calls i := by
  have hset {j : Nat} (hj : some j ≠ some i) (p : Phase) :
      Function.update w.calls j p i = w.calls i :=
    Function.update_of_ne (fun hij => hj (congrArg some hij.symm)) _ _
  cases e with
  | start j bytes dir =>
    simp only [step]
    split
    · exact hset h _
    · rfl
  | openTmp j ok =>
    simp only [step]
    split
    · cases ok <;> exact hset h _
    · rfl
  | write j n =>
    simp only [step]
    split
    · exact hset h _
    · rfl
  | writeFails j =>
    simp only [step]
    split
    · exact hset h _
    · rfl
  | sync j ok =>
    simp only [step]
    split
    · split
      · rfl
      · exact hset h _
    · rfl
  | rename j ok =>
    simp only [step]
    split
    · split
      · exact hset h _
      · exact hset h _
    · rfl
  | remove j ok =>
    simp only [step]
    split
    · exact hset h _
    · rfl
  | readerOpens r =>
    simp only [step]
    split
    · split <;> rfl
    · rfl
  | readerReads r n =>
    simp only [step]
    split
    · split <;> rfl
    · rfl

theorem run_calls_of_ne {es : List FolderEvent} {i : Nat} (h : ∀ e ∈ es, e.call? ≠ some i)
    (w : Folder) : (run step w es).calls i = w.calls i := by
  induction es generalizing w with
  | nil => rfl
  | cons e es ih =>
    rw [run_cons, ih (fun e' he' => h e' (List.mem_cons_of_mem e he')),
      step_calls_of_ne (h e List.mem_cons_self)]

/-- The request file, before anything was requested. -/
def spool : Folder := start (PathBuf.ofString "/var/lib/abora/apply-request.json") none none

/-- A first call, a reader before and a reader after it. -/
def loneCall : List FolderEvent :=
  [.readerOpens 0, .start 0 (asciiBytes "\x7b\x7d") true, .openTmp 0 true, .write 0 1, .write 0 8,
    .sync 0 true, .rename 0 true, .readerOpens 1, .readerReads 1 8, .readerReads 1 8]

theorem write_atomic_alone_once :
    SeesWhole none (run step spool loneCall) ∧
      (run step spool loneCall).readers 1 = .done (some (asciiBytes "\x7b\x7d")) ∧
      ∃ u ∈ visited step spool loneCall,
        u.disk.lookup (PathBuf.ofString "/var/lib/abora/apply-request.json") =
          some (asciiBytes "\x7b\x7d") := by
  have hg : Guarded step Alone spool loneCall := by
    refine ⟨trivial, trivial, fun j hj => ?_, trivial, trivial, trivial, trivial, trivial, trivial,
      trivial, trivial⟩
    simp [spool, start, step, setCall, setReader, hj, Phase.Busy]
  obtain ⟨hsees, hreturned⟩ := write_atomic_alone _ none none loneCall hg _ (run_mem_visited _ _)
  exact ⟨hsees, by decide +kernel, hreturned 0 _ (by decide +kernel)⟩

/-- Two calls at once: the second has emptied the temporary file when the first renames it. -/
def overlappingCalls : List FolderEvent :=
  [.start 0 (asciiBytes "\x7b\x7d") true, .start 1 (asciiBytes "[]") true, .openTmp 0 true,
    .write 0 2, .sync 0 true, .openTmp 1 true, .rename 0 true, .readerOpens 0, .readerReads 0 8]

/-- The first returns successfully, a reader is left with an empty file, and what the first call was
given is at the path at no moment. -/
theorem half_written_published :
    ¬ SeesWhole none (run step spool overlappingCalls) ∧
      (run step spool overlappingCalls).calls 0 = .returned (asciiBytes "\x7b\x7d") true ∧
      ∀ u ∈ visited step spool overlappingCalls,
        u.disk.lookup (PathBuf.ofString "/var/lib/abora/apply-request.json") ≠
          some (asciiBytes "\x7b\x7d") := by
  refine ⟨fun hsees => ?_, by decide +kernel, fun u hu hlookup => ?_⟩
  · have hview : (run step spool overlappingCalls).readers 0 = .done (some []) := by decide +kernel
    rcases hsees 0 _ hview with h | h | ⟨i, bytes, hi, h⟩
    · cases h
    · cases h
    · cases h
      -- neither call was given nothing, and there was no third one
      rcases i with _ | _ | i
      · exact absurd hi (by decide +kernel)
      · exact absurd hi (by decide +kernel)
      · have hthird : (run step spool overlappingCalls).calls (i + 2) = .idle :=
          run_calls_of_ne (by simp [overlappingCalls, FolderEvent.call?]) spool
        rw [hthird] at hi
        cases hi
  · have hall : (visited step spool overlappingCalls).all (fun u => decide
        (u.disk.lookup (PathBuf.ofString "/var/lib/abora/apply-request.json") ≠
          some (asciiBytes "\x7b\x7d"))) = true := by decide +kernel
    exact of_decide_eq_true (List.all_eq_true.mp hall u hu) hlookup

end Folder

end Abora.Update
