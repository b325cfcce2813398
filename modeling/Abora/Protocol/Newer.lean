import Abora.Protocol.Paths
import Abora.Update.Decode
import Abora.Update.Save

/-!
# A state file from a newer version

`open` reads the whole file through the current types and looks at the schema afterwards. So a file
from a newer version is refused, and then left alone for as long as any daemon runs, exactly when it
happens to have the shape of the current types as well (`newer_left_alone_iff`). Otherwise it counts
as damaged: it is moved aside, and the next save puts a file of the old schema in its place.

*Left alone* is about every run of the daemon and not only about the open: a daemon whose store does
not open keeps one in memory, which has nothing to save (`Untouched`), so the file stays as it is
through any number of starts and calls. The shape is `Abora.Update.Decode`'s, so which files are
meant can be read off their members.
-/

namespace Abora.Protocol

open Lib Update Daemon

/-- The state file with its temporary file, and what is at `<file>.corrupt`. -/
structure StateDir where
  slot : Slot
  corrupt : Option Bytes
  deriving DecidableEq, Repr

/-- `open` on the files: a file that does not parse is renamed, over whatever was at the new name. A
rename that fails changes nothing, and the store does not open. -/
def StateDir.open (decode : Bytes → Option StoreData) (path : PathBuf)
    (moved : Except IoError Unit) (dir : StateDir) :
    Except StoreError (UpdateStore × Opened) × StateDir :=
  match UpdateStore.open decode path (readSlot dir.slot.file) moved with
  | .error e => (.error e, dir)
  | .ok (s, .recovered backup) =>
    (.ok (s, .recovered backup), ⟨⟨none, dir.slot.tmp, dir.slot.survivors⟩, dir.slot.file⟩)
  | .ok (s, opened) => (.ok (s, opened), dir)

/-- It is the `open` of the save protocol, with one more file in view. -/
theorem StateDir.open_openWorld (decode : Bytes → Option StoreData) (path : PathBuf)
    (moved : Except IoError Unit) (dir : StateDir) :
    openWorld decode path moved dir.slot =
      (dir.open decode path moved).1.map fun so => ⟨so.1, (dir.open decode path moved).2.slot⟩ := by
  unfold openWorld StateDir.open
  cases UpdateStore.open decode path (readSlot dir.slot.file) moved with
  | error e => rfl
  | ok so =>
    obtain ⟨s, opened⟩ := so
    cases opened <;> rfl

/-- A daemon's store, and the files. The two need not have anything to do with each other. -/
structure Stored where
  store : UpdateStore
  dir : StateDir

inductive StoreEvent where
  /-- The daemon is started again. -/
  | start (moved : Except IoError Unit)
  | save (op : Op)

/-- `open_updates`, as far as it concerns the state file. -/
def Stored.start (decode : Bytes → Option StoreData) (config : Config)
    (moved : Except IoError Unit) (dir : StateDir) : Stored :=
  let (opened, dir) := dir.open decode config.updates.stateFile moved
  ⟨(openUpdates config opened).store, dir⟩

/-- A save is that of the store as it is, which may be one in memory. -/
def Stored.step (decode : Bytes → Option StoreData) (encode : StoreData → Bytes) (config : Config)
    (r : Stored) : StoreEvent → Stored
  | .start moved => Stored.start decode config moved r.dir
  | .save op =>
    let w := opStep encode ⟨r.store, r.dir.slot⟩ op
    ⟨w.store, { r.dir with slot := w.slot }⟩

/-- The file is refused for its schema, and no run of the daemon changes anything in the directory,
however often it is started. -/
structure LeftAlone (decode : Bytes → Option StoreData) (config : Config) (dir : StateDir)
    (found : Nat) : Prop where
  refused : ∀ moved, dir.open decode config.updates.stateFile moved =
    (.error (.newerSchema config.updates.stateFile.display found schemaVersion), dir)
  kept : ∀ encode moved events, ∀ r ∈ visited (Stored.step decode encode config)
    (Stored.start decode config moved dir) events, r.dir = dir

/-- A store in memory, and the files as they were. -/
structure Untouched (dir : StateDir) (r : Stored) : Prop where
  memory : r.store.path = none
  same : r.dir = dir

theorem start_untouched {decode : Bytes → Option StoreData} {config : Config} {dir : StateDir}
    {e : StoreError} {moved : Except IoError Unit}
    (h : dir.open decode config.updates.stateFile moved = (.error e, dir)) :
    Untouched dir (Stored.start decode config moved dir) := by
  unfold Stored.start
  rw [h]
  exact ⟨rfl, rfl⟩

/-- A store in memory has nothing to save, so the files stay. -/
theorem save_untouched {encode : StoreData → Bytes} {dir : StateDir} {r : Stored}
    (hr : Untouched dir r) (op : Op) {decode : Bytes → Option StoreData} {config : Config} :
    Untouched dir (r.step decode encode config (.save op)) := by
  obtain ⟨⟨path, data⟩, rdir⟩ := r
  obtain ⟨rfl, rfl⟩ : path = none ∧ rdir = dir := ⟨hr.memory, hr.same⟩
  refine ⟨?_, rfl⟩
  show ((UpdateStore.mk none data).perform op.1 (.ok ())).1.path = none
  rw [perform_path]

/-- **A newer file that still reads is left alone**, by every run of the daemon: it is refused at
every start, and between two starts the store is one in memory. -/
theorem leftAlone_of_decode {parse : Bytes → Option Json} {config : Config} {dir : StateDir}
    {bytes : Bytes} {data : StoreData} (hfile : dir.slot.file = some bytes)
    (hdecode : decodeStore parse bytes = some data) (hnewer : schemaVersion < data.schema) :
    LeftAlone (decodeStore parse) config dir data.schema := by
  have hrefused : ∀ moved, dir.open (decodeStore parse) config.updates.stateFile moved =
      (.error (.newerSchema config.updates.stateFile.display data.schema schemaVersion), dir) := by
    intro moved
    unfold StateDir.open
    simp only [hfile, readSlot, UpdateStore.open, hdecode, gt_iff_lt, hnewer, if_true]
  refine ⟨hrefused, fun encode moved events => ?_⟩
  have hstep : ∀ r ev, Untouched dir r →
      Untouched dir (r.step (decodeStore parse) encode config ev) := by
    intro r ev hr
    cases ev with
    | start moved =>
      show Untouched dir (Stored.start _ config moved r.dir)
      rw [hr.same]
      exact start_untouched (hrefused moved)
    | save op => exact save_untouched hr op
  have hall := visited_invariant hstep (start_untouched (hrefused moved)) events
  exact fun r hr => (hall r hr).same

/-- A newer file that does not read is moved aside, so one that is left alone reads. -/
theorem decode_of_leftAlone {decode : Bytes → Option StoreData} {config : Config} {dir : StateDir}
    {bytes : Bytes} (hfile : dir.slot.file = some bytes) {n : Nat}
    (halone : LeftAlone decode config dir n) : (decode bytes).isSome := by
  by_contra hnot
  have hnone : decode bytes = none := by simpa using hnot
  have hrefused := halone.refused (.ok ())
  unfold StateDir.open at hrefused
  simp only [hfile, readSlot, UpdateStore.open, hnone] at hrefused
  cases hrefused

/-- **When a newer state file is refused and left alone**: exactly when every member of it that the
current types know has the shape they give it, the schema among them. -/
theorem newer_left_alone_iff (parse : Bytes → Option Json) (config : Config) (dir : StateDir)
    {bytes : Bytes} (hfile : dir.slot.file = some bytes) {members : List (String × Json)}
    (hparse : parse bytes = some (.obj members)) {n : Nat} (hn : ("schema", .int n) ∈ members)
    (hnewer : schemaVersion < n) :
    LeftAlone (decodeStore parse) config dir n ↔ CurrentShape members := by
  have hdecode : decodeStore parse bytes = StoreData.ofJson (.obj members) := by
    rw [decodeStore, hparse]
    rfl
  rw [← StoreData.ofJson_obj_isSome_iff, ← hdecode]
  constructor
  · exact decode_of_leftAlone hfile
  · intro hsome
    obtain ⟨data, hdata⟩ := Option.isSome_iff_exists.mp hsome
    obtain rfl : data.schema = n := StoreData.schema_of_ofJson (hdecode ▸ hdata) hn
    exact leftAlone_of_decode hfile hdata hnewer

/-! ## Two files of newer versions -/

def dirWith (bytes : Bytes) : StateDir := ⟨⟨some bytes, none, []⟩, none⟩

/-- A file of schema 99 with an empty history of today's shape. -/
theorem newer_left_alone_ninety_nine :
    let json : Bytes := 0x7b :: asciiBytes "\"schema\": 99, \"history\": []\x7d"
    let parse (bytes : Bytes) : Option Json :=
      if bytes = json then some (.obj [("schema", .int 99), ("history", .arr [])]) else none
    LeftAlone (decodeStore parse) {} (dirWith json) 99 := by
  intro json parse
  have hshape : CurrentShape [("schema", .int 99), ("history", .arr [])] :=
    { once := by decide
      schema := ⟨99, by simp, by decide⟩
      lastCheck := by simp
      reboot := by simp
      history := by simp }
  exact (newer_left_alone_iff parse {} (dirWith json) rfl (if_pos rfl) (n := 99)
    List.mem_cons_self (by decide)).mpr hshape

/-- **A newer file that is moved aside**: schema 2 keeps its history in an object. -/
theorem newer_file_moved_aside :
    ¬ ∀ (parse : Bytes → Option Json) (config : Config) (dir : StateDir) (bytes : Bytes),
      dir.slot.file = some bytes → ∀ members : List (String × Json),
      parse bytes = some (.obj members) → ∀ n : Nat, ("schema", .int n) ∈ members →
      schemaVersion < n → LeftAlone (decodeStore parse) config dir n := by
  intro hall
  let json : Bytes := 0x7b :: asciiBytes "\"schema\":2,\"history\":\x7b\x7d\x7d"
  let parse (bytes : Bytes) : Option Json :=
    if bytes = json then some (.obj [("schema", .int 2), ("history", .obj [])]) else none
  have hparse : parse json = some (.obj [("schema", .int 2), ("history", .obj [])]) := if_pos rfl
  have halone := hall parse {} (dirWith json) json rfl _ hparse 2 List.mem_cons_self (by decide)
  have hsome : (decodeStore parse json).isSome := decode_of_leftAlone rfl halone
  rw [decodeStore, hparse] at hsome
  cases hsome

end Abora.Protocol
