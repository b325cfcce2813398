import Abora.Protocol.Newer

/-!
# Damaged state files over a whole run

`open` moves a file that does not parse to the one name `<file>.corrupt`, over whatever is there.
The first damaged file is kept; a second one, after the store recovered and was damaged again,
replaces it. Where the rename fails the file stays at the path, and the next save or the next damage
replaces it there. `damage_kept` is the run in which neither happens.

The files are those of `Abora.Protocol.Newer`, with a list of everything that an open has found
unparsable so far. That all of it is still somewhere is the invariant (`Salvage.Safe`), and
`Careful` is the condition on each step that keeps it: on an open, that there is no backup in its
way; on a save and on the damage itself, that what they replace is in the backup, if it was found
unparsable.
-/

namespace Abora.Protocol

open Lib Update

/-- Every content there is to be found in the state directory, under whichever name. -/
def StateDir.contents (dir : StateDir) : List Bytes :=
  dir.slot.file.toList ++ dir.slot.tmp.toList ++ dir.corrupt.toList

/-- The state directory, and what opens have found unparsable so far. -/
structure Salvage where
  dir : StateDir
  found : List Bytes

/-- What happens to the directory. Who saves does not matter. -/
inductive DamageEvent where
  | open (moved : Except IoError Unit)
  /-- A save by any store that has the path open. -/
  | save (data : StoreData) (f : SaveFaults)
  /-- Something else writes to the state file, or removes it. -/
  | corrupt (file : Option Bytes)

/-- What `open` finds unparsable, if the file is there and does not decode. -/
def unparsable (decode : Bytes → Option StoreData) (dir : StateDir) : Option Bytes :=
  dir.slot.file.filter fun bytes => (decode bytes).isNone

section

variable (decode : Bytes → Option StoreData) (encode : StoreData → Bytes) (path : PathBuf)

def Salvage.step (s : Salvage) : DamageEvent → Salvage
  | .open moved =>
    ⟨(s.dir.open decode path moved).2, s.found ++ (unparsable decode s.dir).toList⟩
  | .save data f => { s with dir.slot := (save encode path data f s.dir.slot).slot }
  | .corrupt file => { s with dir.slot.file := file }

/-- **The condition on a run.** A damaged file is moved only where there is no backup, or one of the
same contents; and what replaces the file at the path does not replace one that was found
unparsable and has no backup. -/
def Careful (s : Salvage) : DamageEvent → Prop
  | .open moved => moved = .ok () → (unparsable decode s.dir).isSome →
      s.dir.corrupt = none ∨ s.dir.corrupt = s.dir.slot.file
  | .save _ _ | .corrupt _ => ∀ c ∈ s.found, s.dir.slot.file = some c → s.dir.corrupt = some c

/-- Everything found unparsable has a backup, or is still at the path. -/
def Salvage.Safe (s : Salvage) : Prop :=
  ∀ c ∈ s.found, s.dir.corrupt = some c ∨ s.dir.slot.file = some c

end

variable {decode : Bytes → Option StoreData} {encode : StoreData → Bytes} {path : PathBuf}

theorem StateDir.mem_contents {dir : StateDir} {c : Bytes} :
    c ∈ dir.contents ↔
      dir.slot.file = some c ∨ dir.slot.tmp = some c ∨ dir.corrupt = some c := by
  simp [StateDir.contents]

theorem unparsable_eq_some {dir : StateDir} {c : Bytes} :
    unparsable decode dir = some c ↔ dir.slot.file = some c ∧ decode c = none := by
  simp [unparsable, Option.filter_eq_some_iff]

/-- **An open leaves the files alone, or moves the unparsable one** over what was at the other
name. -/
theorem StateDir.open_cases (decode : Bytes → Option StoreData) (path : PathBuf) (dir : StateDir)
    (moved : Except IoError Unit) :
    (dir.open decode path moved).2 = dir ∨
      ∃ c, unparsable decode dir = some c ∧ moved = .ok () ∧
        (dir.open decode path moved).2 = ⟨⟨none, dir.slot.tmp, dir.slot.survivors⟩, some c⟩ := by
  unfold StateDir.open
  cases hfile : dir.slot.file with
  | none =>
    left
    simp only [readSlot, UpdateStore.open, if_true]
  | some bytes =>
    cases hdec : decode bytes with
    | some data =>
      left
      by_cases hnewer : data.schema > schemaVersion
      · simp only [readSlot, UpdateStore.open, hdec, if_pos hnewer]
      · simp only [readSlot, UpdateStore.open, hdec, if_neg hnewer]
    | none =>
      cases moved with
      | error e =>
        left
        simp only [readSlot, UpdateStore.open, hdec]
      | ok u =>
        right
        refine ⟨bytes, unparsable_eq_some.mpr ⟨hfile, hdec⟩, rfl, ?_⟩
        simp only [readSlot, UpdateStore.open, hdec]

/-- A careful open makes no content disappear: what it replaces is not there, or is the same. -/
theorem open_keeps {s : Salvage} {moved : Except IoError Unit}
    (hg : Careful decode s (.open moved)) {c : Bytes} (hc : c ∈ s.dir.contents) :
    c ∈ (s.dir.open decode path moved).2.contents := by
  rcases s.dir.open_cases decode path moved with
    hsame | ⟨b, hb, hmoved, hdir⟩
  · rw [hsame]
    exact hc
  · have hfile := (unparsable_eq_some.mp hb).1
    rw [hdir, StateDir.mem_contents]
    rcases StateDir.mem_contents.mp hc with hc | hc | hc
    · exact .inr (.inr (hfile.symm.trans hc))
    · exact .inr (.inl hc)
    · rcases hg hmoved (by rw [hb]; rfl) with hnone | hsame
      · cases hnone.symm.trans hc
      · exact .inr (.inr (hfile.symm.trans (hsame.symm.trans hc)))

/-- Each step keeps what was found: an open adds to it what it moves or leaves, the others leave it
where it is. -/
theorem Salvage.Safe.step {s : Salvage} (hs : s.Safe) {e : DamageEvent}
    (hg : Careful decode s e) : (s.step decode encode path e).Safe := by
  cases e with
  | «open» moved =>
    intro c hc
    have hold : s.dir.corrupt = some c ∨ s.dir.slot.file = some c := by
      rcases List.mem_append.mp hc with hc | hc
      · exact hs c hc
      · exact .inr (unparsable_eq_some.mp (Option.mem_toList.mp hc)).1
    show (s.dir.open decode path moved).2.corrupt = some c ∨
      (s.dir.open decode path moved).2.slot.file = some c
    rcases s.dir.open_cases decode path moved with
      hsame | ⟨b, hb, hmoved, hdir⟩
    · rw [hsame]
      exact hold
    · -- what was moved is what is at the backup now, and the old backup was the same or none
      have hfile := (unparsable_eq_some.mp hb).1
      rw [hdir]
      rcases hold with hcorrupt | hc
      · rcases hg hmoved (by rw [hb]; rfl) with hnone | hsame
        · cases hnone.symm.trans hcorrupt
        · exact .inl (hfile.symm.trans (hsame.symm.trans hcorrupt))
      · exact .inl (hfile.symm.trans hc)
  | save data f =>
    intro c hc
    refine (hs c hc).elim .inl fun hfile => .inl (hg c hc hfile)
  | corrupt file =>
    intro c hc
    refine (hs c hc).elim .inl fun hfile => .inl (hg c hc hfile)

/-- **Along a careful run nothing damaged is destroyed**: everything an open found unparsable is in
the state directory in every later state, and no open makes any content disappear. -/
theorem damage_kept (dir : StateDir) (es : List DamageEvent)
    (hg : Guarded (Salvage.step decode encode path) (Careful decode) ⟨dir, []⟩ es) :
    (∀ t ∈ visited (Salvage.step decode encode path) ⟨dir, []⟩ es,
      ∀ c ∈ t.found, c ∈ t.dir.contents) ∧
    ∀ pre moved post, es = pre ++ .open moved :: post →
      ∀ c ∈ (run (Salvage.step decode encode path) ⟨dir, []⟩ pre).dir.contents,
        c ∈ (run (Salvage.step decode encode path) ⟨dir, []⟩ (pre ++ [.open moved])).dir.contents := by
  have hstart : (⟨dir, []⟩ : Salvage).Safe := fun c hc => by cases hc
  constructor
  · intro t ht c hc
    have hsafe := visited_of_guarded (I := Salvage.Safe) (G := Careful decode)
      (fun s e hs he => hs.step he) hstart hg t ht
    rw [StateDir.mem_contents]
    exact (hsafe c hc).elim (fun h => .inr (.inr h)) .inl
  · intro pre moved post hes c hc
    have hcareful := guarded_iff_forall.mp hg pre (.open moved) post hes
    rw [run_concat]
    exact open_keeps hcareful hc

/-- A reader and a writer of one state file. -/
def decodeChecked (bytes : Bytes) : Option StoreData :=
  if bytes = checkedOnceJson then some checkedOnce else none

def encodeChecked (_ : StoreData) : Bytes := checkedOnceJson

/-- A damaged state file, its recovery, and the first save after it. -/
def damagedDir : StateDir := ⟨⟨some (asciiBytes "\x7b damage"), none, []⟩, none⟩

def recovery : List DamageEvent :=
  [.open (.ok ()), .save checkedOnce ⟨⟨.ok, .ok, 0, .ok, .ok, .ok⟩, .ok, .ok⟩]

abbrev salvageStep : Salvage → DamageEvent → Salvage :=
  Salvage.step decodeChecked encodeChecked (PathBuf.ofString "/var/lib/abora/updates.json")

theorem damage_kept_once :
    let after := run salvageStep ⟨damagedDir, []⟩ (recovery ++ [.open (.ok ())])
    asciiBytes "\x7b damage" ∈ after.found ∧ asciiBytes "\x7b damage" ∈ after.dir.contents := by
  intro after
  have hg : Guarded salvageStep (Careful decodeChecked) ⟨damagedDir, []⟩
      (recovery ++ [.open (.ok ())]) := by
    have hmoved : (salvageStep ⟨damagedDir, []⟩ (.open (.ok ()))).dir.slot.file = none := by
      decide +kernel
    refine ⟨fun _ _ => .inl rfl, fun c _ hfile => ?_, fun _ hsome => ?_, trivial⟩
    · cases hmoved.symm.trans hfile
    · exact absurd hsome (by decide +kernel)
  have hfound : asciiBytes "\x7b damage" ∈ after.found := by decide +kernel
  exact ⟨hfound, (damage_kept damagedDir _ hg).1 after (run_mem_visited _ _) _ hfound⟩

/-- Damaged again after the recovery, the second damage is moved over the first: what the first open
found is nowhere any more, and it was the second open that made it disappear. -/
theorem first_damage_destroyed :
    let before := run salvageStep ⟨damagedDir, []⟩
      (recovery ++ [.corrupt (some (asciiBytes "[ damage"))])
    let after := salvageStep before (.open (.ok ()))
    asciiBytes "\x7b damage" ∈ after.found ∧ asciiBytes "\x7b damage" ∈ before.dir.contents ∧
      asciiBytes "\x7b damage" ∉ after.dir.contents := by
  decide +kernel

end Abora.Protocol
