import Mathlib.Data.String.Basic
import Abora.Lib.Lists
import Abora.Lib.Run
import Abora.Config.Schedule
import Abora.Update.Apply
import Abora.Update.Host

/-!
# The daemon's update state (`aborad/src/state.rs`)

The provider that checks, the list the last check found, and the daemon's side of the hand-over:
`requestApply` writes a request for the root helper, `ingestApplyResult` turns the helper's result
into a history entry. What the machine answers while one of them runs is an argument of it.

The list of available updates only ever holds what a check parsed, minus what a result reported
(`AvailableValid`), so the names a request carries are valid names whatever `apt` printed. How
*many* they are nothing bounds: `request_validates_iff`.

This module is the code and nothing else. What is said about it is spread over its neighbours:
checks in `Abora.Daemon.Checks`, requests in `Abora.Daemon.Requests` and `Abora.Daemon.Plan`,
results in `Abora.Daemon.Ingest`, the reboot marker in `Abora.Daemon.Reboot`.
-/

namespace Abora.Daemon

open Abora.Lib Abora.Lib.Text Abora.Update

/-- What the scheduler publishes of the policy, for `response`. -/
structure ScheduleInfo where
  checkIntervalSeconds : Nat
  inMaintenanceWindow : Option Bool
  applyPermitted : Bool
  installsPermitted : Bool
  rebootPermitted : Bool
  deriving DecidableEq, Repr

inductive HealthStatus where
  | ok | degraded | maintenance
  deriving DecidableEq, Repr

structure ComponentHealth where
  name : String
  status : HealthStatus
  detail : Option String
  deriving DecidableEq, Repr

/-- Body of `POST /api/v1/updates/apply`. -/
structure ApplyResponse where
  dryRun : Bool
  permitted : Bool
  reason : Option String
  id : Option String
  packages : List String
  deriving DecidableEq, Repr

/-- Body of `GET /api/v1/updates`. -/
structure UpdatesResponse where
  status : Option UpdateStatus
  lastCheck : Option String
  reboot : RebootStatus
  schedule : Option ScheduleInfo
  available : List AvailableUpdate
  history : List UpdateHistoryEntry
  deriving DecidableEq, Repr

/-- Why a request to apply updates was not accepted. -/
inductive ApplyRefusal where
  | conflict (message : String)
  | internal (message : String)
  deriving DecidableEq, Repr

/-- `UpdatesState`. The store is the provider's: both hold the same one. The two paths are those of
the configuration the daemon started with. -/
structure UpdatesState where
  provider : HostPackageProvider
  available : List AvailableUpdate
  schedule : Option ScheduleInfo
  applyRequestFile : PathBuf
  applyResultFile : PathBuf
  deriving DecidableEq, Repr

/-- What the machine answers to one `requestApply`. -/
structure ApplyEnv where
  /-- `symlink_metadata` of the request file found something. -/
  pending : Bool
  localTime : Option LocalTime
  /-- The randomly keyed hash behind the new id. -/
  hash : UInt64
  now : String
  /-- What `write_atomic` of the request answered. -/
  written : Except String Unit
  deriving DecidableEq

/-- What the machine answers to one `ingestApplyResult`. -/
structure IngestEnv where
  stat : Except String Metadata
  now : SystemTime
  contents : Except String Bytes
  saved : Except StoreError Unit

/-- `new_request_id`: a randomly keyed hash of the time, in sixteen digits. -/
def newRequestId (hash : UInt64) : String :=
  "apply-" ++ String.ofList (hexPadded 16 hash.toNat)

/-- The word an entry's note starts with. It is all that tells a recorded result from a new one. -/
def applyKey (id : String) : String := "apply " ++ id

/-- The note of an entry: the id, the number of packages, what the helper noted, and the reboot. -/
def applyNote (result : ApplyResult) : String :=
  let note := s!"{applyKey result.id}: {result.packages.length} package(s)"
  let note :=
    match result.note with
    | some extra => note ++ "; " ++ extra
    | none => note
  if result.rebootStarted then note ++ "; reboot started" else note

def applyEntry (channel : Channel) (result : ApplyResult) : UpdateHistoryEntry :=
  { appliedAt := result.finishedAt
    fromVersion := Version.new 0 0 0
    toVersion := Version.new 0 0 0
    channel := channel
    component := "host packages"
    succeeded := result.succeeded
    note := some (applyNote result) }

/-- An entry whose note starts with the key of `id`. -/
def carries (id : String) (entry : UpdateHistoryEntry) : Bool :=
  match entry.note with
  | some note => (applyKey id).toList.isPrefixOf note.toList
  | none => false

namespace UpdatesState

def store (s : UpdatesState) : UpdateStore := s.provider.store

def withStore (s : UpdatesState) (store : UpdateStore) : UpdatesState :=
  { s with provider := { s.provider with store := store } }

def host (store : UpdateStore) (requestFile resultFile : PathBuf) : UpdatesState :=
  ⟨⟨store, none⟩, [], none, requestFile, resultFile⟩

/-- `refresh`: check for updates now. The list is replaced only by a check that answered `Ok`. -/
def refresh (s : UpdatesState) (channel : Channel) (run : Except String String) (now : String)
    (saved : Except StoreError Unit) : UpdatesState × Except String Nat :=
  match s.provider.check channel run now saved with
  | (provider, .error e) => ({ s with provider := provider }, .error e.text)
  | (provider, .ok found) =>
    ({ s with provider := provider, available := found.updates }, .ok found.updates.length)

def setSchedule (s : UpdatesState) (info : ScheduleInfo) : UpdatesState :=
  { s with schedule := some info }

/-- `degraded` when the last update check failed; before the first check it is not. -/
def health (s : UpdatesState) : ComponentHealth :=
  match s.provider.status with
  | .ok (.error message) => ⟨"updates", .degraded, some message⟩
  | .error e => ⟨"updates", .ok, some e.text⟩
  | .ok _ => ⟨"updates", .ok, none⟩

/-- `response`. The request file, the reboot marker, the packages file beside it and the clock
are read on the way. -/
def response (s : UpdatesState) (pending marker : Bool) (pkgs : Option String) (now : String)
    (saved : Except StoreError Unit) : UpdatesState × UpdatesResponse :=
  let status :=
    if pending then some (.installing "host packages" none)
    else s.provider.status.toOption
  let lastCheck := s.store.lastCheck
  let (provider, answer) := s.provider.rebootRequired marker pkgs now saved
  let s := { s with provider := provider }
  let reboot :=
    match answer with
    | .ok reboot => reboot
    | .error _ => s.store.reboot
  (s, ⟨status, lastCheck, reboot, s.schedule, s.available, s.store.history⟩)

/-- `apply_inputs`: whether there is something to apply, and whether an apply is waiting. -/
def applyInputs (s : UpdatesState) (pending : Bool) : Bool × Bool :=
  (!s.available.isEmpty, pending)

/-- The packages a request would name: each component once, in order. -/
def requestPackages (s : UpdatesState) : List String :=
  sortDedup (s.available.map AvailableUpdate.component)

def pendingReason : String := "an update is already being applied"

/-- Why a request would not be accepted now. The reasons are tried in this order, and a dry run
answers the same one. -/
def block (s : UpdatesState) (config : Config) (pending : Bool) (now : Option LocalTime) :
    Option String :=
  if pending then some pendingReason
  else if s.requestPackages = [] then
    some "no updates are available; the last check found nothing"
  else if (permissions config now).applyPermitted = false then
    some "updates may only be applied inside a maintenance window ([maintenance] enabled, and the local time inside a window)"
  else none

def request (s : UpdatesState) (caller : String) (env : ApplyEnv) : ApplyRequest :=
  ⟨newRequestId env.hash, env.now, caller, s.requestPackages⟩

/-- `request_apply`: the answer, and the request if one was put in place. Whether one is waiting was
asked before, and the file may be there by now. -/
def requestApply (s : UpdatesState) (config : Config) (caller : String) (dryRun : Bool)
    (env : ApplyEnv) : Except ApplyRefusal ApplyResponse × Option ApplyRequest :=
  let packages := s.requestPackages
  let block := s.block config env.pending env.localTime
  if dryRun then (.ok ⟨true, block.isNone, block, none, packages⟩, none)
  else
    match block with
    | some reason => (.error (.conflict reason), none)
    | none =>
      -- no lock has kept the request file as it was when `env.pending` was read
      let request := s.request caller env
      match env.written with
      | .error e => (.error (.internal s!"could not write the apply request: {e}"), none)
      | .ok () => (.ok ⟨false, true, none, some request.id, packages⟩, some request)

/-- Do not keep listing what was just upgraded while waiting for the next check. -/
def dropInstalled (s : UpdatesState) (result : ApplyResult) : UpdatesState :=
  if result.succeeded then
    { s with available := s.available.filter fun u => !result.packages.contains u.component }
  else s

/-- Recording one decoded result: not if its id is none, not if it is recorded already, and not if
the save fails. -/
def ingestResult (s : UpdatesState) (channel : Channel) (result : ApplyResult)
    (saved : Except StoreError Unit) : UpdatesState × Bool :=
  if (validRequestId result.id || result.id == "invalid") = false then (s, false)
  -- recorded already, as far back as the bounded history goes
  else if s.store.history.any (carries result.id) then (s, false)
  else
    match s.store.recordUpdate (applyEntry channel result) saved with
    | (store, .error _) => (s.withStore store, false)
    | (store, .ok ()) => ((s.withStore store).dropInstalled result, true)

/-- `ingest_apply_result`: whether a new result was recorded. -/
def ingestApplyResult (decode : Bytes → Option ApplyResult) (s : UpdatesState) (channel : Channel)
    (env : IngestEnv) : UpdatesState × Bool :=
  match readRegularFile s.applyResultFile env.stat env.now env.contents none with
  | .error _ => (s, false)
  | .ok bytes =>
    match decode bytes with
    | none => (s, false)
    | some result => s.ingestResult channel result env.saved

end UpdatesState

end Abora.Daemon
