import Abora.Config.Validate
import Abora.Daemon.Handlers
import Abora.SysInfo.Proc
import Abora.Update.Encode

/-!
# The answers on the wire (`abora-api/src/lib.rs`)

The bodies of `health`, `version`, `system` and `updates`, as the values their derived serializers
make. `Form` says which values stand for a body: the members in any order, in objects at every
depth, and members among them that a later version of the API has added. What a client makes of such
a value is `Cli/Show.lean`'s.

Every object is given by its `fields`, the members in the order of the source with the ones that are
skipped as `none`; the texts and numbers in them are those of the value, and what is inside an
object is an argument, since a form of it will do. That the names of an object's fields are distinct
is all the client's side needs to find each of them.
-/

namespace Abora.Daemon

open Lib Update SysInfo

structure DaemonInfo where
  name : String
  version : Version
  deriving DecidableEq, Repr

structure ApiVersionInfo where
  name : String
  path : String
  deriving DecidableEq, Repr

/-- Body of `GET /api/v1/health`. -/
structure HealthResponse where
  status : HealthStatus
  daemon : DaemonInfo
  api : ApiVersionInfo
  uptimeSeconds : Nat
  startedAt : String
  components : List ComponentHealth
  deriving DecidableEq, Repr

/-- Body of `GET /api/v1/version`. -/
structure VersionResponse where
  frameworkName : String
  frameworkVersion : Version
  daemon : DaemonInfo
  api : ApiVersionInfo
  gitCommit : Option String
  deriving DecidableEq, Repr

/-- Body of `GET /api/v1/system`: what was collected about the machine, and what is configured over
it. -/
structure SystemResponse where
  hostname : String
  description : Option String
  hostnameOverride : Option String
  architecture : Architecture
  machine : String
  uptimeSeconds : Nat
  os : OsInfo
  kernel : KernelInfo
  memory : MemoryInfo
  cpu : CpuInfo
  frameworkVersion : Version
  deriving DecidableEq, Repr

/-- What `system` answers about a machine. A configured hostname is shown in the place of its
own. -/
def systemResponse (config : Config) (current : Version) (info : SystemInfo) : SystemResponse :=
  { hostname := config.system.hostname.getD info.hostname
    description := config.system.description
    hostnameOverride := config.system.hostname
    architecture := info.architecture
    machine := info.machine
    uptimeSeconds := info.uptime.asSecs
    os := info.os
    kernel := info.kernel
    memory := info.memory
    cpu := info.cpu
    frameworkVersion := current }

/-- What `system` answers makes sense to its reader: under an accepted configuration a machine has a
name, be it the configured one or its own; it has no more memory in use than there is; and its
uptime is less than a second off, since what `as_secs` cuts away is less than that even where
`from_secs_f64` had rounded up. -/
theorem systemResponse_sound {config : Config} (hvalid : config.validate = .ok ())
    {build : Build} {float : Text.Chars → Option F64} {read : ReadFile} {machine : String}
    {info : SystemInfo} (h : Answers (collect build float read machine) info) (current : Version) :
    let body := systemResponse config current info
    body.hostname ≠ "" ∧ body.memory.usedBytes ≤ body.memory.totalBytes ∧
      ∃ text secs, Holds read "/proc/uptime" text ∧ UptimeSays float text secs ∧
        |(body.uptimeSeconds : ℚ) - secs| < 1 := by
  obtain ⟨hsound, text, secs, htext, hsays, hnear⟩ := sound_of_collect h
  refine ⟨?_, hsound.used, text, secs, htext, hsays, ?_⟩
  · show config.system.hostname.getD info.hostname ≠ ""
    cases hname : config.system.hostname with
    | none => exact hsound.hostname
    | some name =>
      rintro rfl
      exact ((validate_ok_iff.mp hvalid).hostname "" hname).1 rfl
  · show |((info.uptime / 1000000000 : Nat) : ℚ) - secs| < 1
    have hfloor (n : Nat) : n / 1000000000 * 1000000000 ≤ n ∧
        n + 1 ≤ (n / 1000000000 + 1) * 1000000000 := by omega
    have hle : ((info.uptime / 1000000000 : Nat) : ℚ) * 1000000000 ≤ info.uptime := by
      exact_mod_cast (hfloor info.uptime).1
    have hlt : (info.uptime : ℚ) + 1 ≤ ((info.uptime / 1000000000 : Nat) + 1) * 1000000000 := by
      exact_mod_cast (hfloor info.uptime).2
    rw [abs_le] at hnear
    rw [abs_lt]
    constructor <;> linarith

/-! ## The serializers -/

def HealthStatus.name : HealthStatus → String
  | .ok => "ok"
  | .degraded => "degraded"
  | .maintenance => "maintenance"

def ComponentHealth.fields (c : ComponentHealth) : List (String × Option Json) :=
  [("name", some (.str c.name)), ("status", some (.str c.status.name)),
    ("detail", c.detail.map .str)]

def DaemonInfo.fields (d : DaemonInfo) (version : Json) : List (String × Option Json) :=
  [("name", some (.str d.name)), ("version", some version)]

def DaemonInfo.Form (d : DaemonInfo) (j : Json) : Prop :=
  ∃ version, d.version.Form version ∧ Json.Written (d.fields version) j

def ApiVersionInfo.fields (a : ApiVersionInfo) : List (String × Option Json) :=
  [("name", some (.str a.name)), ("path", some (.str a.path))]

def ApiVersionInfo.Form (a : ApiVersionInfo) (j : Json) : Prop := Json.Written a.fields j

namespace HealthResponse

/-- With the values of what is inside it. -/
def fields (h : HealthResponse) (daemon api : Json) (components : List Json) :
    List (String × Option Json) :=
  [("status", some (.str h.status.name)), ("daemon", some daemon), ("api", some api),
    ("uptime_seconds", some (.int h.uptimeSeconds)), ("started_at", some (.str h.startedAt)),
    ("components", some (.arr components))]

def Form (h : HealthResponse) (j : Json) : Prop :=
  ∃ daemon api components, h.daemon.Form daemon ∧ h.api.Form api ∧
    List.Forall₂ (fun c j => Json.Written (ComponentHealth.fields c) j) h.components components ∧
    Json.Written (h.fields daemon api components) j

end HealthResponse

namespace VersionResponse

def fields (v : VersionResponse) (frameworkVersion daemon api : Json) :
    List (String × Option Json) :=
  [("framework_name", some (.str v.frameworkName)), ("framework_version", some frameworkVersion),
    ("daemon", some daemon), ("api", some api), ("git_commit", v.gitCommit.map .str)]

def Form (v : VersionResponse) (j : Json) : Prop :=
  ∃ frameworkVersion daemon api, v.frameworkVersion.Form frameworkVersion ∧ v.daemon.Form daemon ∧
    v.api.Form api ∧ Json.Written (v.fields frameworkVersion daemon api) j

end VersionResponse

def optionInt (n : Option Nat) : Json :=
  match n with
  | none => .null
  | some n => .int n

/-- `rename_all = "snake_case"`; not all of these are the canonical names. -/
def architectureName : Architecture → Option String
  | .x86_64 => some "x86_64"
  | .x86 => some "x86"
  | .aarch64 => some "aarch64"
  | .arm => some "arm"
  | .riscv64 => some "riscv64"
  | .riscv32 => some "riscv32"
  | .powerpc64 => some "powerpc64"
  | .s390x => some "s390x"
  | .other _ => none

/-- An architecture without a name of its own is an object with the machine's. -/
def architectureJson (arch : Architecture) : Json :=
  match architectureName arch with
  | some name => .str name
  | none => .obj [("other", .str arch.canonical)]

def osFields (os : OsInfo) : List (String × Option Json) :=
  [("id", some (.str os.id)), ("name", some (optionJson os.name)),
    ("pretty_name", some (optionJson os.prettyName)), ("version", some (optionJson os.version)),
    ("version_id", some (optionJson os.versionId)), ("id_like", some (.arr (os.idLike.map .str))),
    ("home_url", some (optionJson os.homeUrl))]

def kernelFields (kernel : KernelInfo) : List (String × Option Json) :=
  [("name", some (.str kernel.name)), ("release", some (.str kernel.release)),
    ("version", some (.str kernel.version))]

def memoryFields (memory : MemoryInfo) : List (String × Option Json) :=
  [("total_bytes", some (.int memory.totalBytes)),
    ("available_bytes", some (.int memory.availableBytes)),
    ("free_bytes", some (.int memory.freeBytes)), ("used_bytes", some (.int memory.usedBytes)),
    ("swap_total_bytes", some (.int memory.swapTotalBytes)),
    ("swap_used_bytes", some (.int memory.swapUsedBytes))]

def cpuFields (cpu : CpuInfo) : List (String × Option Json) :=
  [("model", some (optionJson cpu.model)), ("physical_cores", some (optionInt cpu.physicalCores)),
    ("logical_cores", some (optionInt cpu.logicalCores))]

namespace SystemResponse

def fields (s : SystemResponse) (os kernel memory cpu frameworkVersion : Json) :
    List (String × Option Json) :=
  [("hostname", some (.str s.hostname)), ("description", s.description.map .str),
    ("hostname_override", s.hostnameOverride.map .str),
    ("architecture", some (architectureJson s.architecture)), ("machine", some (.str s.machine)),
    ("uptime_seconds", some (.int s.uptimeSeconds)), ("os", some os), ("kernel", some kernel),
    ("memory", some memory), ("cpu", some cpu), ("framework_version", some frameworkVersion)]

def Form (s : SystemResponse) (j : Json) : Prop :=
  ∃ os kernel memory cpu frameworkVersion, Json.Written (osFields s.os) os ∧
    Json.Written (kernelFields s.kernel) kernel ∧ Json.Written (memoryFields s.memory) memory ∧
    Json.Written (cpuFields s.cpu) cpu ∧ s.frameworkVersion.Form frameworkVersion ∧
    Json.Written (s.fields os kernel memory cpu frameworkVersion) j

end SystemResponse

/-- Tagged by its state, with what the state carries beside the tag. -/
def statusFields : UpdateStatus → List (String × Option Json)
  | .upToDate => [("state", some (.str "up_to_date"))]
  | .updateAvailable versions =>
    [("state", some (.str "update_available")), ("versions", some (.arr (versions.map .str)))]
  | .installing component progressPercent =>
    [("state", some (.str "installing")), ("component", some (.str component)),
      ("progress_percent", progressPercent.map fun n => .int n)]
  | .error message => [("state", some (.str "error")), ("message", some (.str message))]

def ScheduleInfo.fields (s : ScheduleInfo) : List (String × Option Json) :=
  [("check_interval_seconds", some (.int s.checkIntervalSeconds)),
    ("in_maintenance_window", s.inMaintenanceWindow.map .bool),
    ("apply_permitted", some (.bool s.applyPermitted)),
    ("installs_permitted", some (.bool s.installsPermitted)),
    ("reboot_permitted", some (.bool s.rebootPermitted))]

def availableFields (u : AvailableUpdate) (version : Json) : List (String × Option Json) :=
  [("channel", some u.channel.toJson), ("version", some version),
    ("component", some (.str u.component)), ("summary", some (.str u.summary)),
    ("release_notes", u.releaseNotes.map .str), ("size_bytes", some (.int u.sizeBytes)),
    ("released_at", u.releasedAt.map .str),
    ("checksums", u.checksums.map fun cs => .arr (cs.map .str))]

def AvailableForm (u : AvailableUpdate) (j : Json) : Prop :=
  ∃ version, u.version.Form version ∧ Json.Written (availableFields u version) j

/-- Something that is left out when there is none. -/
def OptionForm {α : Type} (form : α → Json → Prop) : Option α → Option Json → Prop
  | none, none => True
  | some a, some j => form a j
  | _, _ => False

namespace UpdatesResponse

/-- With the values of what is inside it. Four of its members are objects or lists of them. -/
def fields (r : UpdatesResponse) (status : Option Json) (reboot : Json) (schedule : Option Json)
    (available history : List Json) : List (String × Option Json) :=
  [("status", status), ("last_check", r.lastCheck.map .str), ("reboot", some reboot),
    ("schedule", schedule), ("available", some (.arr available)), ("history", some (.arr history))]

def Form (r : UpdatesResponse) (j : Json) : Prop :=
  ∃ status reboot schedule available history,
    OptionForm (fun s j => Json.Written (statusFields s) j) r.status status ∧ r.reboot.Form reboot ∧
    OptionForm (fun s j => Json.Written (ScheduleInfo.fields s) j) r.schedule schedule ∧
    List.Forall₂ AvailableForm r.available available ∧
    List.Forall₂ UpdateHistoryEntry.Form r.history history ∧
    Json.Written (r.fields status reboot schedule available history) j

end UpdatesResponse

/-! ## No member twice -/

theorem DaemonInfo.fields_nodup (d : DaemonInfo) (a : Json) :
    ((d.fields a).map Prod.fst).Nodup := by
  show ["name", "version"].Nodup
  decide

theorem ApiVersionInfo.fields_nodup (a : ApiVersionInfo) : (a.fields.map Prod.fst).Nodup := by
  show ["name", "path"].Nodup
  decide

theorem HealthResponse.fields_nodup (h : HealthResponse) (a b : Json) (cs : List Json) :
    ((h.fields a b cs).map Prod.fst).Nodup := by
  show ["status", "daemon", "api", "uptime_seconds", "started_at", "components"].Nodup
  decide

theorem VersionResponse.fields_nodup (v : VersionResponse) (a b c : Json) :
    ((v.fields a b c).map Prod.fst).Nodup := by
  show ["framework_name", "framework_version", "daemon", "api", "git_commit"].Nodup
  decide

theorem SystemResponse.fields_nodup (s : SystemResponse) (a b c d e : Json) :
    ((s.fields a b c d e).map Prod.fst).Nodup := by
  show ["hostname", "description", "hostname_override", "architecture", "machine",
    "uptime_seconds", "os", "kernel", "memory", "cpu", "framework_version"].Nodup
  decide

theorem osFields_nodup (os : OsInfo) : ((osFields os).map Prod.fst).Nodup := by
  show ["id", "name", "pretty_name", "version", "version_id", "id_like", "home_url"].Nodup
  decide

theorem kernelFields_nodup (kernel : KernelInfo) : ((kernelFields kernel).map Prod.fst).Nodup := by
  show ["name", "release", "version"].Nodup
  decide

theorem memoryFields_nodup (memory : MemoryInfo) : ((memoryFields memory).map Prod.fst).Nodup := by
  show ["total_bytes", "available_bytes", "free_bytes", "used_bytes", "swap_total_bytes",
    "swap_used_bytes"].Nodup
  decide

theorem statusFields_nodup (s : UpdateStatus) : ((statusFields s).map Prod.fst).Nodup := by
  cases s with
  | upToDate => show ["state"].Nodup; decide
  | updateAvailable _ => show ["state", "versions"].Nodup; decide
  | installing _ _ => show ["state", "component", "progress_percent"].Nodup; decide
  | error _ => show ["state", "message"].Nodup; decide

theorem ScheduleInfo.fields_nodup (s : ScheduleInfo) : (s.fields.map Prod.fst).Nodup := by
  show ["check_interval_seconds", "in_maintenance_window", "apply_permitted", "installs_permitted",
    "reboot_permitted"].Nodup
  decide

theorem availableFields_nodup (u : AvailableUpdate) (a : Json) :
    ((availableFields u a).map Prod.fst).Nodup := by
  show ["channel", "version", "component", "summary", "release_notes", "size_bytes", "released_at",
    "checksums"].Nodup
  decide

theorem UpdatesResponse.fields_nodup (r : UpdatesResponse) (a : Option Json) (b : Json)
    (c : Option Json) (ds es : List Json) : ((r.fields a b c ds es).map Prod.fst).Nodup := by
  show ["status", "last_check", "reboot", "schedule", "available", "history"].Nodup
  decide

end Abora.Daemon
