import Abora.Lib.Codec
import Abora.Lib.Replace
import Abora.Update.Store

/-!
# How a save touches the disk (`save` and `write_synced` in `abora-update/src/store.rs`)

`Abora.Update.Store` takes the outcome of a save as given; here it is computed from the file-system
steps: the parent directory, a temporary file that is written and synced, the rename over the
target, and the sync of the directory. Each step may fail, and in each the machine may stop. A
`World` is a store together with the files it lives in, and an operation is a recording call
together with how each step of its save goes.

The invariant `Holds` says that opening the path again would give the live data. An operation that
completes keeps it, whatever failed on the way: a save that reports an error before the rename has
not touched the target, and one that reports an error afterwards does not exist, as the failure of
the directory sync is ignored. An operation that a crash interrupts leaves either the data from
before or the data from after.

A power cut is more than a crash: it may also undo renames that no directory sync followed. What the
disk may come back with is a list (`Slot.survivors`), and `Durable` is the invariant over it, which
survives as long as the directory syncs went well.
-/

namespace Abora.Update

open Abora.Lib

/-- How the steps of one save go: those of replacing the file, and the two around it. -/
structure SaveFaults extends ReplaceFaults where
  mkdir : Verdict
  syncDir : Verdict
  deriving DecidableEq, Repr

/-- `save`, step by step. The directory is only synced when the path has one to sync, and a sync
that fails is no error. -/
def save (encode : StoreData → Bytes) (path : PathBuf) (data : StoreData) (f : SaveFaults)
    (d : Slot) : Ran StoreError :=
  (makeParent path ioErr f.mkdir d).andThen fun d =>
    ((replaceFile (encode data) f.toReplaceFaults d).mapFail (ioErr path)).andThen fun d =>
      if path.parentDir.isSome then syncDirectory f.syncDir d else .ok d

def readSlot (file : Option Bytes) : Except IoError Bytes :=
  match file with
  | some bytes => .ok bytes
  | none => .error ⟨.notFound, "No such file or directory (os error 2)"⟩

/-- A store and the files behind its path. Reading the files is the only way the two can be
compared. -/
structure World where
  store : UpdateStore
  slot : Slot
  deriving DecidableEq, Repr

/-- `open`, on the files: a file that does not parse is renamed out of the way. -/
def openWorld (decode : Bytes → Option StoreData) (path : PathBuf) (moved : Except IoError Unit)
    (d : Slot) : Except StoreError World :=
  match UpdateStore.open decode path (readSlot d.file) moved with
  | .error e => .error e
  -- the target is gone after the rename, and may be back after a power cut
  | .ok (s, .recovered _) => .ok ⟨s, ⟨none, d.tmp, d.survivors⟩⟩
  | .ok (s, _) => .ok ⟨s, d⟩

/-- A recording call, on the files. The answer is `none` when the machine stopped before the caller
had one; what is in memory is lost then, and only the files matter. -/
def World.perform (encode : StoreData → Bytes) (w : World) (call : Call) (f : SaveFaults) :
    Option (Except StoreError Unit) × World :=
  match w.store.path with
  | none => (some (w.store.perform call (.ok ())).2, ⟨(w.store.perform call (.ok ())).1, w.slot⟩)
  | some path =>
    match save encode path (trim (call.edit w.store.data)) f w.slot with
    | .ok d => (some (w.store.perform call (.ok ())).2, ⟨(w.store.perform call (.ok ())).1, d⟩)
    | .fail e d =>
      (some (w.store.perform call (.error e)).2, ⟨(w.store.perform call (.error e)).1, d⟩)
    | .crash d => (none, ⟨w.store, d⟩)

/-- An operation: a call, and how the steps of its save go. -/
abbrev Op := Call × SaveFaults

def opStep (encode : StoreData → Bytes) (w : World) (op : Op) : World :=
  (w.perform encode op.1 op.2).2

/-- The machine did not stop in the operation. The call itself may well have failed. -/
def Completes (encode : StoreData → Bytes) (w : World) (op : Op) : Prop :=
  (w.perform encode op.1 op.2).1 ≠ none

/-- What opening the path again would load from these contents. Where a damaged file would be moved
is left out: it makes no difference to what is loaded. -/
def reopen (decode : Bytes → Option StoreData) (path : PathBuf) (file : Option Bytes) :
    Except StoreError StoreData :=
  (UpdateStore.open decode path (readSlot file) (.ok ())).map fun p => p.1.snapshot

/-- The directory was synced after the rename. A path without a parent directory never is. -/
def Synced (path : PathBuf) (op : Op) : Prop := path.parentDir ≠ none ∧ op.2.syncDir = .ok

/-! ## One save -/

/-- **A save ends in one of three ways**: the new file is in place, the old file is untouched, or
the machine stopped with one of the two in place. -/
theorem save_cases (encode : StoreData → Bytes) (path : PathBuf) (data : StoreData)
    (f : SaveFaults) (d : Slot) :
    (∃ d', save encode path data f d = .ok d' ∧ d'.file = some (encode data) ∧
        (d'.unsynced = [] ∨ path.parentDir = none ∨ f.syncDir ≠ .ok)) ∨
      (∃ e d', save encode path data f d = .fail e d' ∧ d.SameTarget d') ∨
      (∃ d', save encode path data f d = .crash d' ∧
        (d.SameTarget d' ∨
          d'.file = some (encode data) ∧ ∀ u ∈ d'.unsynced, u ∈ d.survivors)) := by
  unfold save
  -- the parent directory is made, the file is replaced, and the directory is synced
  rcases makeParent_cases path ioErr f.mkdir d with h | ⟨e, h⟩ | h
  · rw [h]
    simp only [Ran.andThen]
    rcases replaceFile_cases (encode data) f.toReplaceFaults d with
      ⟨d', h, hfile, hold⟩ | ⟨e, d', h, hsame⟩ | ⟨d', h, hsame | ⟨hfile, hold⟩⟩
    · rw [h]
      simp only [Ran.mapFail]
      by_cases hparent : path.parentDir.isSome
      · rw [if_pos hparent]
        cases hsync : f.syncDir with
        | ok => exact .inl ⟨_, rfl, hfile, .inl rfl⟩
        | fail e => exact .inl ⟨_, rfl, hfile, .inr (.inr (by simp))⟩
        | crash after =>
          refine .inr (.inr ⟨_, rfl, .inr ?_⟩)
          cases after with
          | false => exact ⟨hfile, fun u hu => hold ▸ hu⟩
          | true => exact ⟨hfile, fun u hu => by cases hu⟩
      · rw [if_neg hparent]
        exact .inl ⟨d', rfl, hfile, .inr (.inl (by simpa using hparent))⟩
    · rw [h]
      exact .inr (.inl ⟨_, d', rfl, hsame⟩)
    · rw [h]
      exact .inr (.inr ⟨d', rfl, .inl hsame⟩)
    · rw [h]
      exact .inr (.inr ⟨d', rfl, .inr ⟨hfile, fun u hu => hold ▸ hu⟩⟩)
  · rw [h]
    exact .inr (.inl ⟨e, d, rfl, rfl, rfl⟩)
  · rw [h]
    exact .inr (.inr ⟨d, rfl, .inl ⟨rfl, rfl⟩⟩)

/-! ## Opening again -/

/-- Data within the bound and of a known schema is loaded from its own text, for every
serializer. -/
theorem reopen_encode (c : Codec StoreData) (path : PathBuf) {d : StoreData}
    (hschema : d.schema ≤ schemaVersion) (htrim : trim d = d) :
    reopen c.decode path (some (c.encode d)) = .ok d := by
  have hnew : ¬ d.schema > schemaVersion := Nat.not_lt.mpr hschema
  simp [reopen, readSlot, UpdateStore.open, hnew, htrim, Except.map, UpdateStore.snapshot]

theorem reopen_of_open {decode : Bytes → Option StoreData} {path : PathBuf}
    {moved : Except IoError Unit} {file : Option Bytes} {so : UpdateStore × Opened}
    (h : UpdateStore.open decode path (readSlot file) moved = .ok so) :
    reopen decode path file = .ok so.1.data := by
  rw [reopen, open_moved h]
  rfl

/-- A store that recovered from a damaged file is empty, which is also what the missing file
gives. -/
theorem open_recovered {decode : Bytes → Option StoreData} {path backup : PathBuf}
    {read : Except IoError Bytes} {moved : Except IoError Unit} {s : UpdateStore}
    (h : UpdateStore.open decode path read moved = .ok (s, .recovered backup)) :
    s.data = trim StoreData.empty := by
  unfold UpdateStore.open at h
  cases read with
  | error e =>
    simp only at h
    split at h <;> cases h
  | ok bytes =>
    cases hdec : decode bytes with
    | some data =>
      simp only [hdec] at h
      split at h <;> cases h
    | none =>
      simp only [hdec] at h
      cases moved with
      | error e => cases h
      | ok u =>
        cases h
        rfl

/-! ## The invariants -/

/-- Opening the path again would give the live data. The three fields before that are what it takes
for the next save to keep it so. -/
structure Holds (decode : Bytes → Option StoreData) (path : PathBuf) (w : World) : Prop where
  path_eq : w.store.path = some path
  schema_le : w.store.data.schema ≤ schemaVersion
  trimmed : trim w.store.data = w.store.data
  reopens : reopen decode path w.slot.file = .ok w.store.data

/-- It would do so even after a power cut: whichever of the unsynced renames the disk still has. -/
def Durable (decode : Bytes → Option StoreData) (path : PathBuf) (w : World) : Prop :=
  ∀ u ∈ w.slot.survivors, reopen decode path u = .ok w.store.data

/-- Opening establishes the invariant from any files at all, and the durable one if no rename was
waiting for a sync. -/
theorem openWorld_holds {decode : Bytes → Option StoreData} {path : PathBuf}
    {moved : Except IoError Unit} {d : Slot} {w : World}
    (h : openWorld decode path moved d = .ok w) :
    Holds decode path w ∧ (d.unsynced = [] → Durable decode path w) := by
  unfold openWorld at h
  cases hopen : UpdateStore.open decode path (readSlot d.file) moved with
  | error e => simp [hopen] at h
  | ok so =>
    obtain ⟨s, o⟩ := so
    obtain ⟨hs, hschema⟩ := open_ok hopen
    have hdisk : reopen decode path d.file = .ok s.data := reopen_of_open hopen
    have hstore : s.path = some path ∧ s.data.schema ≤ schemaVersion ∧ trim s.data = s.data := by
      rw [hs]
      exact ⟨rfl, by rwa [trim_schema], trim_trim _⟩
    obtain ⟨hpath, hle, htrim⟩ := hstore
    cases o with
    | recovered backup =>
      simp only [hopen, Except.ok.injEq] at h
      subst h
      have hempty : reopen decode path none = .ok s.data := by
        rw [open_recovered hopen]
        rfl
      refine ⟨⟨hpath, hle, htrim, hempty⟩, fun hclean u hu => ?_⟩
      rcases List.mem_cons.mp hu with rfl | hu
      · exact hempty
      · rw [Slot.survivors, hclean] at hu
        rw [List.mem_singleton.mp hu]
        exact hdisk
    | fresh | loaded =>
      simp only [hopen, Except.ok.injEq] at h
      subst h
      refine ⟨⟨hpath, hle, htrim, hdisk⟩, fun hclean u hu => ?_⟩
      rw [Slot.survivors, hclean] at hu
      rw [List.mem_singleton.mp hu]
      exact hdisk

/-! ## One operation -/

theorem edit_schema (call : Call) (d : StoreData) : (call.edit d).schema = d.schema := by
  cases call <;> rfl

/-- What an operation does to memory and disk, in the three ways it can end. -/
theorem World.perform_cases (encode : StoreData → Bytes) {path : PathBuf} {w : World}
    (hpath : w.store.path = some path) (call : Call) (f : SaveFaults) :
    let next := trim (call.edit w.store.data)
    (∃ w', w.perform encode call f = (some (.ok ()), w') ∧ w'.store = ⟨some path, next⟩ ∧
        w'.slot.file = some (encode next) ∧
        (Synced path (call, f) → w'.slot.unsynced = [])) ∨
      (∃ e w', w.perform encode call f = (some (.error e), w') ∧ w'.store = w.store ∧
        w.slot.SameTarget w'.slot) ∨
      (∃ w', w.perform encode call f = (none, w') ∧ w'.store = w.store ∧
        (w.slot.SameTarget w'.slot ∨ w'.slot.file = some (encode next) ∧
          ∀ u ∈ w'.slot.unsynced, u ∈ w.slot.survivors)) := by
  intro next
  obtain ⟨⟨p, data⟩, slot⟩ := w
  obtain rfl : p = some path := hpath
  unfold World.perform
  simp only [perform_eq_change, UpdateStore.change]
  rcases save_cases encode path next f slot with
    ⟨d, h, hfile, hold⟩ | ⟨e, d, h, hsame⟩ | ⟨d, h, hend⟩
  · rw [h]
    refine .inl ⟨_, rfl, rfl, hfile, fun ⟨hdir, hsync⟩ => ?_⟩
    rcases hold with hold | hnone | hbad
    · exact hold
    · exact absurd hnone hdir
    · exact absurd hsync hbad
  · rw [h]
    exact .inr (.inl ⟨e, _, rfl, rfl, hsame⟩)
  · rw [h]
    exact .inr (.inr ⟨_, rfl, rfl, hend⟩)

/-- The data after a call has a schema that is understood, and is within the bound, if the schema
before it was. -/
theorem next_ok {d : StoreData} (hschema : d.schema ≤ schemaVersion) (call : Call) :
    (trim (call.edit d)).schema ≤ schemaVersion ∧
      trim (trim (call.edit d)) = trim (call.edit d) := by
  rw [trim_schema, edit_schema]
  exact ⟨hschema, trim_trim _⟩

/-- An operation that completes keeps memory and disk together. When its save failed, memory keeps
the old data and so does the file; otherwise both have the new. -/
theorem Holds.opStep {c : Codec StoreData} {path : PathBuf} {w : World}
    (h : Holds c.decode path w) {op : Op} (hop : Completes c.encode w op) :
    Holds c.decode path (opStep c.encode w op) ∧
      (Durable c.decode path w → Synced path op →
        Durable c.decode path (opStep c.encode w op)) := by
  obtain ⟨call, f⟩ := op
  obtain ⟨hle, htrim⟩ := next_ok h.schema_le call
  have hnew := reopen_encode c path hle htrim
  unfold Completes at hop
  unfold Abora.Update.opStep
  -- the call was saved, or refused, or cut off by a crash, which `Completes` rules out
  rcases World.perform_cases c.encode h.path_eq call f with
    ⟨w', hw, hstore, hfile, hsynced⟩ | ⟨e, w', hw, hstore, hsame⟩ | ⟨w', hw, -, -⟩
  · rw [hw]
    refine ⟨⟨?_, ?_, ?_, ?_⟩, fun _ hsync u hu => ?_⟩
    · rw [hstore]
    · rw [hstore]
      exact hle
    · rw [hstore]
      exact htrim
    · rw [hstore, hfile]
      exact hnew
    · rw [Slot.survivors, hsynced hsync, hfile] at hu
      rw [List.mem_singleton.mp hu, hstore]
      exact hnew
  · rw [hw]
    refine ⟨⟨?_, ?_, ?_, ?_⟩, fun hdur _ u hu => ?_⟩
    · rw [hstore]
      exact h.path_eq
    · rw [hstore]
      exact h.schema_le
    · rw [hstore]
      exact h.trimmed
    · rw [hstore, hsame.1]
      exact h.reopens
    · rw [Slot.survivors, hsame.1, hsame.2] at hu
      rw [hstore]
      exact hdur u hu
  · rw [hw] at hop
    exact absurd rfl hop

/-- An operation the machine stopped in left one of two states behind. -/
theorem Holds.interrupted {c : Codec StoreData} {path : PathBuf} {w w' : World}
    (h : Holds c.decode path w) {call : Call} {f : SaveFaults}
    (hw : w.perform c.encode call f = (none, w')) :
    let After u := reopen c.decode path u = .ok w.store.data ∨
      reopen c.decode path u = .ok (trim (call.edit w.store.data))
    After w'.slot.file ∧ (Durable c.decode path w → ∀ u ∈ w'.slot.survivors, After u) := by
  obtain ⟨hle, htrim⟩ := next_ok h.schema_le call
  have hnew := reopen_encode c path hle htrim
  rcases World.perform_cases c.encode h.path_eq call f with
    ⟨w₁, h₁, -, -, -⟩ | ⟨e, w₁, h₁, -, -⟩ | ⟨w₁, h₁, -, hend⟩
  · rw [hw] at h₁
    cases h₁
  · rw [hw] at h₁
    cases h₁
  · rw [hw] at h₁
    cases h₁
    rcases hend with hsame | ⟨hfile, hold⟩
    · rw [hsame.1]
      refine ⟨.inl h.reopens, fun hdur u hu => ?_⟩
      rw [Slot.survivors, hsame.1, hsame.2] at hu
      exact .inl (hdur u hu)
    · rw [hfile]
      refine ⟨.inr hnew, fun hdur u hu => ?_⟩
      rcases List.mem_cons.mp hu with rfl | hu
      · rw [hfile]
        exact .inr hnew
      · exact .inl (hdur u (hold u hu))

/-! ## Runs -/

/-- **Crash consistency.** Whatever the files held when the store was opened, and whatever steps
fail: after every completed operation opening the path again gives the live data, and a crash inside
one more operation leaves the data from before it or from after it. If the disk was clean at the
start and the directory syncs went well, the same is true of a power cut. The induction is over the
run, with `Holds` and `Durable` carried side by side; `Holds.interrupted` is the last step. -/
theorem store_crash_consistent (c : Codec StoreData) {path : PathBuf}
    {moved : Except IoError Unit} {d₀ : Slot} {w₀ : World}
    (h₀ : openWorld c.decode path moved d₀ = .ok w₀) {ops : List Op}
    (hops : Guarded (opStep c.encode) (Completes c.encode) w₀ ops) :
    (∀ w ∈ visited (opStep c.encode) w₀ ops,
        reopen c.decode path w.slot.file = .ok w.store.data) ∧
      ∀ call f w', (run (opStep c.encode) w₀ ops).perform c.encode call f = (none, w') →
        let before := (run (opStep c.encode) w₀ ops).store.data
        let Old u := reopen c.decode path u = .ok before
        let New u := reopen c.decode path u = .ok (trim (call.edit before))
        (Old w'.slot.file ∨ New w'.slot.file) ∧
          (d₀.unsynced = [] → (∀ op ∈ ops, Synced path op) →
            ∀ u ∈ w'.slot.survivors, Old u ∨ New u) := by
  obtain ⟨hstart, hclean⟩ := openWorld_holds h₀
  have hall : ∀ w ∈ visited (opStep c.encode) w₀ ops, Holds c.decode path w :=
    visited_of_guarded (fun w op hw hop => (hw.opStep hop).1) hstart hops
  refine ⟨fun w hw => (hall w hw).reopens, fun call f w' hw' => ?_⟩
  have hend := hall _ (run_mem_visited w₀ ops)
  obtain ⟨hfile, hcut⟩ := hend.interrupted hw'
  refine ⟨hfile, fun hd hsynced => hcut ?_⟩
  have hboth := visited_of_guarded (I := fun w => Holds c.decode path w ∧ Durable c.decode path w)
    (fun w op hw hop => ⟨(hw.1.opStep hop.1).1, (hw.1.opStep hop.1).2 hw.2 hop.2⟩)
    ⟨hstart, hclean hd⟩ (hops.and_forall hsynced)
  exact (hboth _ (run_mem_visited w₀ ops)).2

deriving instance Encodable for Version, Channel, RebootStatus, UpdateHistoryEntry, StoreData

/-- A store that has recorded one check, and the text it is saved as. -/
def checkedOnce : StoreData :=
  { StoreData.empty with lastCheck := some "2026-09-20T09:00:00Z" }

/-- What `to_vec_pretty` writes for it. -/
def checkedOnceJson : Bytes := 0x7b :: asciiBytes (
  "\n  \"schema\": 1,\n  \"last_check\": \"2026-09-20T09:00:00Z\",\n" ++
  "  \"reboot\": \x7b\n    \"required\": false\n  \x7d,\n  \"history\": []\n\x7d")

/-- A serializer of store data that writes this one as it is really written. -/
def checkedOnceCodec : Codec StoreData :=
  (Codec.ofEncodable StoreData).pin checkedOnce checkedOnceJson
    fun b => Codec.ofEncodable_ne (by decide) b

/-- The first check of a new store fails on a full disk, and the machine stops in the rename of
the second attempt: the next start finds no check or this one. -/
theorem store_crash_consistent_rename :
    let path := PathBuf.ofString "/var/lib/abora/updates.json"
    let full : SaveFaults := ⟨⟨.ok, .fail ⟨.other, "No space left on device"⟩, 7, .ok, .ok, .ok⟩, .ok, .ok⟩
    let stops : SaveFaults := ⟨⟨.ok, .ok, 0, .ok, .crash true, .ok⟩, .ok, .ok⟩
    let w₀ : World := ⟨⟨some path, StoreData.empty⟩, ⟨none, none, []⟩⟩
    let w₁ := opStep checkedOnceCodec.encode w₀ (.check "2026-09-20T09:00:00Z", full)
    let w₂ := opStep checkedOnceCodec.encode w₁ (.check "2026-09-20T09:00:00Z", stops)
    w₁.store.data = StoreData.empty ∧
      (reopen checkedOnceCodec.decode path w₂.slot.file = .ok StoreData.empty ∨
        reopen checkedOnceCodec.decode path w₂.slot.file = .ok checkedOnce) := by
  intro path full stops w₀ w₁ w₂
  have h₀ : openWorld checkedOnceCodec.decode path (.ok ()) ⟨none, none, []⟩ = .ok w₀ := rfl
  -- neither step looks at the text it writes
  have hfull (encode : StoreData → Bytes) :
      Completes encode w₀ (.check "2026-09-20T09:00:00Z", full) ∧
        (opStep encode w₀ (.check "2026-09-20T09:00:00Z", full)).store.data = StoreData.empty :=
    ⟨Option.some_ne_none _, rfl⟩
  have hstops (encode : StoreData → Bytes) :
      ((opStep encode w₀ (.check "2026-09-20T09:00:00Z", full)).perform encode
        (.check "2026-09-20T09:00:00Z") stops).1 = none := rfl
  have hops : Guarded (opStep checkedOnceCodec.encode) (Completes checkedOnceCodec.encode) w₀
      [(.check "2026-09-20T09:00:00Z", full)] := ⟨(hfull _).1, trivial⟩
  have hlast := (store_crash_consistent checkedOnceCodec h₀ hops).2
    (.check "2026-09-20T09:00:00Z") stops w₂ (Prod.ext (hstops _) rfl)
  exact ⟨(hfull _).2, hlast.1⟩

end Abora.Update
