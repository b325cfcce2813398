import Abora.Daemon.Wire
import Abora.Update.Version

/-!
# What the client shows (`cmd_status` and `format_updates` in `cli/abora/src/main.rs`)

The client knows none of the daemon's types: it looks into the values it is sent, member by member,
and prints something for everything that is not there. `updates_shown` and `status_shown` say what
comes of it when the values are the daemon's own.

Both results compare two ways to the same lines. `statusLines` and `formatUpdates` are the source's
code, on values; `statusShown` and `updatesShown` are what there is to show of the daemon's own
types. A value may be any form of an answer, with its members in any order and others among them, so
a client of this version goes on showing what a later daemon says. Two things get lost on the way:
what is in an architecture without a name of its own, and whatever is beyond the first entries of a
list, of which the updates are at least counted.

How a member is found in a value is the same for all of them (`key_written`); each line then has a
lemma of its own, in the order in which they are printed.
-/

namespace Abora.Cli

open Lib Update Daemon SysInfo

/-! ## The client's side -/

/-- `v[..].as_str().unwrap_or(fallback)`. -/
def textAt (v : Json) (name fallback : String) : String := (v.key name).asStr.getD fallback

/-- `v[..].as_u64().unwrap_or(0)`. -/
def numberAt (v : Json) (name : String) : Nat := ((v.key name).asUnsigned 64).getD 0

/-- `os_pretty`: the pretty name, or the name and the version, or the id. -/
def osPretty (sys : Json) : String :=
  let os := sys.key "os"
  match (os.key "pretty_name").asStr, (os.key "name").asStr, (os.key "version").asStr with
  | some p, _, _ => p
  | none, some n, some v => s!"{n} {v}"
  | none, some n, none => n
  | _, _, _ => textAt os "id" "unknown"

/-- `version_str`. The daemon sends a version as an object of numbers; a value without the three
numbers is shown as the text it is, or as `-`. -/
def versionStr (v : Json) : String :=
  match (v.key "major").asUnsigned 64, (v.key "minor").asUnsigned 64,
    (v.key "patch").asUnsigned 64 with
  | some major, some minor, some patch =>
    let s := s!"{major}.{minor}.{patch}"
    let s :=
      match (v.key "prerelease").asStr with
      | some p => s ++ "-" ++ p
      | none => s
    match (v.key "build").asStr with
    | some b => s ++ "+" ++ b
    | none => s
  | _, _, _ => v.asStr.getD "-"

/-- What `cmd_status` prints once `health` is there; the other two calls may have failed. -/
def statusLines (health : Json) (version system : Except String Json) : List String :=
  let daemon := health.key "daemon"
  let api := health.key "api"
  ["daemon:    " ++ textAt daemon "name" "-" ++ " " ++ versionStr (daemon.key "version"),
    match version with
    | .ok v => "framework: " ++ versionStr (v.key "framework_version")
    | .error msg => s!"framework: unavailable ({msg})",
    "status:    " ++ textAt health "status" "unknown",
    "api:       " ++ textAt api "name" "-" ++ " (" ++ textAt api "path" "-" ++ ")",
    "uptime:    " ++ toString (numberAt health "uptime_seconds") ++ "s (daemon since " ++
      textAt health "started_at" "-" ++ ")"] ++
  match system with
  | .ok sys =>
    let memory := sys.key "memory"
    ["hostname:  " ++ textAt sys "hostname" "-", "os:        " ++ osPretty sys,
      "kernel:    " ++ textAt (sys.key "kernel") "release" "-",
      "arch:      " ++ textAt sys "architecture" "-" ++ " (" ++ textAt sys "machine" "-" ++ ")",
      "memory:    " ++ toString (numberAt memory "used_bytes") ++ "/" ++
        toString (numberAt memory "total_bytes") ++ " bytes used",
      "uptime:    " ++ toString (numberAt sys "uptime_seconds") ++ "s (host)"]
  | .error msg => [s!"system:    unavailable ({msg})"]

/-- How many available updates and history entries `abora updates` lists. -/
def showAvailable : Nat := 10

def showHistory : Nat := 5

/-! The parts of `format_updates`, from above to below. -/

/-- The state's own words, but for the four that are known. -/
def statusPart (status : Json) (available : Nat) : String :=
  match (status.key "state").asStr with
  | none => "unknown (no check has finished yet)"
  | some "update_available" => s!"{available} update(s) available"
  | some "up_to_date" => "up to date"
  | some "installing" => "installing an update now"
  | some "error" => "error: " ++ textAt status "message" "unknown"
  | some other => other

def policyPart (schedule : Json) : List String :=
  match schedule with
  | .obj members =>
    let s := Json.obj members
    let window :=
      match (s.key "in_maintenance_window").asBool with
      | some true => "open"
      | some false => "closed"
      | none => "unknown"
    let applying :=
      if (s.key "apply_permitted").asBool = some true then "permitted now" else "not permitted now"
    let interval := numberAt s "check_interval_seconds"
    [s!"policy:     maintenance window {window}; applying is {applying}; checks every {interval}s"]
  | _ => []

def rebootPart (reboot : Json) : String :=
  if (reboot.key "required").asBool = some true then
    let since := ((reboot.key "pending_since").asStr.map fun t => s!" (since {t})").getD ""
    let reason := ((reboot.key "reason").asStr.map fun t => s!": {t}").getD ""
    s!"reboot:     REQUIRED{since}{reason}"
  else "reboot:     not required"

def availablePart (available : List Json) : List String :=
  if available = [] then []
  else
    let more := available.length - showAvailable
    ["", "available:"] ++
    (available.take showAvailable).map (fun u =>
      "  " ++ (((u.key "summary").asStr.or (u.key "component").asStr).getD "-")) ++
    if showAvailable < available.length then
      [s!"  ... and {more} more (use --json for the full list)"]
    else []

def historyPart (history : List Json) : List String :=
  if history = [] then []
  else
    ["", "history (newest first):"] ++ (history.take showHistory).map fun h =>
      let verdict := if (h.key "succeeded").asBool = some true then "ok    " else "FAILED"
      "  " ++ textAt h "applied_at" "-" ++ " " ++ verdict ++ " " ++ textAt h "note" ""

def formatUpdates (v : Json) : List String :=
  let available := (v.key "available").asArray.getD []
  ["status:     " ++ statusPart (v.key "status") available.length,
    "last check: " ++ textAt v "last_check" "never"] ++ policyPart (v.key "schedule") ++
  [rebootPart (v.key "reboot")] ++ availablePart available ++
  historyPart ((v.key "history").asArray.getD [])

/-! ## What there is to show -/

/-- The lines of `abora status` about a daemon and its machine. -/
def statusShown (h : HealthResponse) (v : VersionResponse) (s : SystemResponse) : List String :=
  let os :=
    match s.os.prettyName, s.os.name, s.os.version with
    | some p, _, _ => p
    | none, some n, some v => s!"{n} {v}"
    | none, some n, none => n
    | _, _, _ => s.os.id
  -- the value of an architecture without a name is no text
  let arch := (architectureName s.architecture).getD "-"
  ["daemon:    " ++ h.daemon.name ++ " " ++ h.daemon.version.display,
    "framework: " ++ v.frameworkVersion.display, "status:    " ++ h.status.name,
    "api:       " ++ h.api.name ++ " (" ++ h.api.path ++ ")",
    "uptime:    " ++ toString h.uptimeSeconds ++ "s (daemon since " ++ h.startedAt ++ ")",
    "hostname:  " ++ s.hostname, "os:        " ++ os, "kernel:    " ++ s.kernel.release,
    "arch:      " ++ arch ++ " (" ++ s.machine ++ ")",
    "memory:    " ++ toString s.memory.usedBytes ++ "/" ++ toString s.memory.totalBytes ++
      " bytes used",
    "uptime:    " ++ toString s.uptimeSeconds ++ "s (host)"]

/-- The first line of `abora updates`. -/
def statusLine (available : Nat) : Option UpdateStatus → String
  | none => "status:     unknown (no check has finished yet)"
  | some .upToDate => "status:     up to date"
  | some (.updateAvailable _) => "status:     " ++ s!"{available} update(s) available"
  | some (.installing _ _) => "status:     installing an update now"
  | some (.error message) => "status:     " ++ ("error: " ++ message)

def policyLine (s : ScheduleInfo) : String :=
  let window :=
    s.inMaintenanceWindow.elim "unknown" fun inside => if inside then "open" else "closed"
  let applying := if s.applyPermitted then "permitted now" else "not permitted now"
  s!"policy:     maintenance window {window}; applying is {applying}; checks every {s.checkIntervalSeconds}s"

def rebootLine (r : RebootStatus) : String :=
  if r.required then
    let since := (r.pendingSince.map fun t => s!" (since {t})").getD ""
    let reason := (r.reason.map fun t => s!": {t}").getD ""
    s!"reboot:     REQUIRED{since}{reason}"
  else "reboot:     not required"

/-- What is listed of the available updates: ten summaries, and how many more there are. -/
def availableLines (us : List AvailableUpdate) : List String :=
  if us = [] then []
  else
    let more := us.length - showAvailable
    ["", "available:"] ++ (us.take showAvailable).map (fun u => "  " ++ u.summary) ++
      if showAvailable < us.length then
        [s!"  ... and {more} more (use --json for the full list)"]
      else []

def historyLines (es : List UpdateHistoryEntry) : List String :=
  if es = [] then []
  else
    ["", "history (newest first):"] ++ (es.take showHistory).map fun e =>
      let verdict := if e.succeeded then "ok    " else "FAILED"
      "  " ++ e.appliedAt ++ " " ++ verdict ++ " " ++ e.note.getD ""

/-- The lines of `abora updates`: ten of the available updates, and five entries of the history. -/
def updatesShown (r : UpdatesResponse) : List String :=
  [statusLine r.available.length r.status, "last check: " ++ r.lastCheck.getD "never"] ++
    (r.schedule.map policyLine).toList ++ [rebootLine r.reboot] ++ availableLines r.available ++
    historyLines r.history

/-! ## Looking into what was written -/

section Written

variable {fields : List (String × Option Json)} {j : Json}

/-- A member that is written is found by its name, whatever else is in the object. -/
theorem key_written (h : Json.Written fields j) (hnodup : (fields.map Prod.fst).Nodup)
    {name : String} {v : Json} (i : Nat) (hv : fields[i]? = some (name, some v)) : j.key name = v :=
  h.key hnodup (List.mem_of_getElem? hv)

theorem textAt_written (h : Json.Written fields j) (hnodup : (fields.map Prod.fst).Nodup)
    {name t : String} (i : Nat) (hv : fields[i]? = some (name, some (Json.str t)))
    (fallback : String) :
    textAt j name fallback = t := by
  unfold textAt
  rw [h.key hnodup (List.mem_of_getElem? hv)]
  rfl

theorem asStr_written (h : Json.Written fields j) (hnodup : (fields.map Prod.fst).Nodup)
    {name : String} {t : Option String} (i : Nat) (hv : fields[i]? = some (name, t.map Json.str)) :
    (j.key name).asStr = t := by
  rw [h.key hnodup (List.mem_of_getElem? hv)]
  cases t <;> rfl

theorem asStr_option (h : Json.Written fields j) (hnodup : (fields.map Prod.fst).Nodup)
    {name : String} {t : Option String} (i : Nat)
    (hv : fields[i]? = some (name, some (optionJson t))) :
    (j.key name).asStr = t := by
  rw [h.key hnodup (List.mem_of_getElem? hv)]
  cases t <;> rfl

theorem asUnsigned_written (h : Json.Written fields j) (hnodup : (fields.map Prod.fst).Nodup)
    {name : String} {n : Nat} (hn : n < 2 ^ 64) (i : Nat)
    (hv : fields[i]? = some (name, some (Json.int n))) :
    (j.key name).asUnsigned 64 = some n := by
  rw [h.key hnodup (List.mem_of_getElem? hv)]
  exact asUnsigned_of_lt hn

theorem numberAt_written (h : Json.Written fields j) (hnodup : (fields.map Prod.fst).Nodup)
    {name : String} {n : Nat} (hn : n < 2 ^ 64) (i : Nat)
    (hv : fields[i]? = some (name, some (Json.int n))) :
    numberAt j name = n := by
  unfold numberAt
  rw [asUnsigned_written h hnodup hn i hv]
  rfl

end Written

/-- **A version is shown as it displays itself.** The numbers have to be of 64 bits to be read at
all. -/
theorem versionStr_form {v : Version} {j : Json} (h : v.Form j) (hfits : v.Fits) :
    versionStr j = v.display := by
  obtain ⟨hmajor, hminor, hpatch⟩ := hfits
  unfold versionStr
  rw [asUnsigned_written h v.fields_nodup hmajor 0 rfl,
    asUnsigned_written h v.fields_nodup hminor 1 rfl,
    asUnsigned_written h v.fields_nodup hpatch 2 rfl, asStr_option h v.fields_nodup 3 rfl,
    asStr_option h v.fields_nodup 4 rfl]
  have hdot : (toString ".").toList = ['.'] := rfl
  rw [← String.toList_inj]
  unfold Version.display
  cases v.prerelease <;> cases v.build <;> simp [versionSuffix, Nat.toList_repr, hdot]

/-! ## `abora status` -/

theorem osPretty_form {sys os : Json} {info : OsInfo} (hos : Json.Written (osFields info) os)
    (hkey : sys.key "os" = os) :
    osPretty sys =
      match info.prettyName, info.name, info.version with
      | some p, _, _ => p
      | none, some n, some v => s!"{n} {v}"
      | none, some n, none => n
      | _, _, _ => info.id := by
  have hnodup := osFields_nodup info
  unfold osPretty
  dsimp only
  rw [hkey, asStr_option hos hnodup 2 rfl, asStr_option hos hnodup 1 rfl,
    asStr_option hos hnodup 3 rfl, textAt_written hos hnodup 0 rfl]

theorem textAt_architecture {fields : List (String × Option Json)} {j : Json} {a : Architecture}
    (h : Json.Written fields j) (hnodup : (fields.map Prod.fst).Nodup)
    (i : Nat)
    (hv : fields[i]? = some ("architecture", some (architectureJson a))) :
    textAt j "architecture" "-" = (architectureName a).getD "-" := by
  unfold textAt
  rw [h.key hnodup (List.mem_of_getElem? hv)]
  cases a <;> rfl

/-- The numbers the client reads are of 64 bits, as the daemon's are. -/
structure StatusFits (h : HealthResponse) (v : VersionResponse) (s : SystemResponse) : Prop where
  daemon : h.daemon.version.Fits
  framework : v.frameworkVersion.Fits
  uptime : h.uptimeSeconds < 2 ^ 64
  system : s.uptimeSeconds < 2 ^ 64
  used : s.memory.usedBytes < 2 ^ 64
  total : s.memory.totalBytes < 2 ^ 64

/-- **`abora status` shows what the daemon said**, however its answers are arranged and whatever a
later daemon adds to them. Every line is read off one of the three values. -/
theorem status_shown {h : HealthResponse} {v : VersionResponse} {s : SystemResponse}
    {health version system : Json} (hh : h.Form health) (hv : v.Form version) (hs : s.Form system)
    (hfits : StatusFits h v s) :
    statusLines health (.ok version) (.ok system) = statusShown h v s := by
  obtain ⟨daemon, api, components, hdaemon, hapi, -, hhealth⟩ := hh
  obtain ⟨frameworkVersion, _, _, hframework, -, -, hversion⟩ := hv
  obtain ⟨os, kernel, memory, cpu, _, hos, hkernel, hmemory, -, -, hsystem⟩ := hs
  obtain ⟨daemonVersion, hdaemonVersion, hdaemon⟩ := hdaemon
  have hn := h.fields_nodup daemon api components
  have hsn := s.fields_nodup os kernel memory cpu ‹_›
  have hmn := memoryFields_nodup s.memory
  unfold statusLines statusShown
  dsimp only
  rw [key_written hhealth hn 1 rfl, key_written hhealth hn 2 rfl,
    key_written hdaemon (h.daemon.fields_nodup _) 1 rfl,
    key_written hversion (v.fields_nodup _ _ _) 1 rfl, key_written hsystem hsn 7 rfl,
    key_written hsystem hsn 8 rfl, versionStr_form hdaemonVersion hfits.daemon,
    versionStr_form hframework hfits.framework, osPretty_form hos (key_written hsystem hsn 6 rfl),
    textAt_architecture hsystem hsn 3 rfl,
    textAt_written hdaemon (h.daemon.fields_nodup _) 0 rfl, textAt_written hhealth hn 0 rfl,
    textAt_written hapi h.api.fields_nodup 0 rfl, textAt_written hapi h.api.fields_nodup 1 rfl,
    textAt_written hhealth hn 4 rfl, textAt_written hsystem hsn 0 rfl,
    textAt_written hkernel (kernelFields_nodup s.kernel) 1 rfl, textAt_written hsystem hsn 4 rfl,
    numberAt_written hhealth hn hfits.uptime 3 rfl, numberAt_written hmemory hmn hfits.used 3 rfl,
    numberAt_written hmemory hmn hfits.total 0 rfl,
    numberAt_written hsystem hsn hfits.system 5 rfl]
  rfl

/-- A daemon of a later version, on a machine without a name for its architecture. -/
theorem status_shown_later :
    let version := Json.obj [("build", .null), ("prerelease", .str "rc.1"), ("patch", .int 0),
      ("minor", .int 2), ("major", .int 1)]
    statusLines
      (.obj [("mood", .str "good"), ("components", .arr []), ("started_at", .str "t"),
        ("uptime_seconds", .int 7), ("api", .obj [("name", .str "v1"), ("path", .str "/api/v1")]),
        ("daemon", .obj [("name", .str "aborad"), ("version", version)]), ("status", .str "ok")])
      (.ok (.obj [("framework_name", .str "Abora Framework"), ("framework_version", version),
        ("daemon", .obj [("name", .str "aborad"), ("version", version)]),
        ("api", .obj [("name", .str "v1"), ("path", .str "/api/v1")])]))
      (.ok (.obj [("hostname", .str "h"), ("architecture", .obj [("other", .str "loongarch64")]),
        ("machine", .str "loongarch64"), ("uptime_seconds", .int 9),
        ("os", .obj [("id", .str "debian"), ("name", .str "Debian"), ("pretty_name", .null),
          ("version", .str "13"), ("version_id", .null), ("id_like", .arr []),
          ("home_url", .null)]),
        ("kernel", .obj [("name", .str "Linux"), ("release", .str "6.12"), ("version", .str "")]),
        ("memory", .obj [("total_bytes", .int 4096), ("available_bytes", .int 1024),
          ("free_bytes", .int 0), ("used_bytes", .int 3072), ("swap_total_bytes", .int 0),
          ("swap_used_bytes", .int 0)]),
        ("cpu", .obj [("model", .null), ("physical_cores", .null), ("logical_cores", .int 2)]),
        ("framework_version", version)])) =
      ["daemon:    aborad 1.2.0-rc.1", "framework: 1.2.0-rc.1", "status:    ok",
        "api:       v1 (/api/v1)", "uptime:    7s (daemon since t)", "hostname:  h",
        "os:        Debian 13", "kernel:    6.12", "arch:      - (loongarch64)",
        "memory:    3072/4096 bytes used", "uptime:    9s (host)"] := by
  intro version
  let v : Version := ⟨1, 2, 0, some "rc.1", none⟩
  let daemon : DaemonInfo := ⟨"aborad", v⟩
  let api : ApiVersionInfo := ⟨"v1", "/api/v1"⟩
  let h : HealthResponse := ⟨.ok, daemon, api, 7, "t", []⟩
  let system : SystemResponse :=
    { hostname := "h", description := none, hostnameOverride := none
      architecture := .other "loongarch64", machine := "loongarch64", uptimeSeconds := 9
      os := ⟨"debian", some "Debian", none, some "13", none, [], none⟩
      kernel := ⟨"Linux", "6.12", ""⟩, memory := ⟨4096, 1024, 0, 3072, 0, 0⟩
      cpu := ⟨none, none, some 2⟩, frameworkVersion := v }
  have hv : v.Form version := @Json.written_reversed v.fields [] fun m hm => by cases hm
  have hdaemon : daemon.Form (.obj [("name", .str "aborad"), ("version", version)]) :=
    ⟨version, hv, Json.written_members (daemon.fields version)⟩
  have hapi : api.Form (.obj [("name", .str "v1"), ("path", .str "/api/v1")]) :=
    Json.written_members api.fields
  have hlater (m : String × Json) (hm : m ∈ [("mood", Json.str "good")]) :
      m.1 ∉ ["status", "daemon", "api", "uptime_seconds", "started_at", "components"] := by
    rw [List.mem_singleton.mp hm]
    decide
  have hversion : v.Fits := ⟨by decide, by decide, by decide⟩
  let framework : VersionResponse := ⟨"Abora Framework", v, daemon, api, none⟩
  have hshown : statusShown h framework system =
      ["daemon:    aborad 1.2.0-rc.1", "framework: 1.2.0-rc.1", "status:    ok",
        "api:       v1 (/api/v1)", "uptime:    7s (daemon since t)", "hostname:  h",
        "os:        Debian 13", "kernel:    6.12", "arch:      - (loongarch64)",
        "memory:    3072/4096 bytes used", "uptime:    9s (host)"] := by decide +kernel
  rw [← hshown]
  exact status_shown (v := framework)
    ⟨_, _, [], hdaemon, hapi, .nil, @Json.written_reversed (h.fields _ _ []) _ hlater⟩
    ⟨version, _, _, hv, hdaemon, hapi, Json.written_members _⟩
    ⟨_, _, _, _, version, Json.written_members (osFields system.os),
      Json.written_members (kernelFields system.kernel),
      Json.written_members (memoryFields system.memory),
      Json.written_members (cpuFields system.cpu), hv, Json.written_members _⟩
    ⟨hversion, hversion, by decide, by decide, by decide, by decide⟩

/-! ## `abora updates` -/

theorem asBool_written {fields : List (String × Option Json)} {j : Json}
    (h : Json.Written fields j) (hnodup : (fields.map Prod.fst).Nodup) {name : String} {b : Bool}
    (i : Nat) (hv : fields[i]? = some (name, some (Json.bool b))) :
    (j.key name).asBool = some b := by
  rw [h.key hnodup (List.mem_of_getElem? hv)]
  rfl

theorem statusPart_form {status : Option UpdateStatus} {j : Option Json}
    (h : OptionForm (fun s j => Json.Written (statusFields s) j) status j) (available : Nat) :
    "status:     " ++ statusPart (j.getD .null) available = statusLine available status := by
  match status, j, h with
  | none, none, _ => rfl
  | some s, some j, h =>
    have h : Json.Written (statusFields s) j := h
    have hnodup := statusFields_nodup s
    unfold statusPart
    rw [Option.getD_some]
    cases s with
    | upToDate =>
      rw [key_written h hnodup 0 rfl]
      rfl
    | updateAvailable versions =>
      rw [key_written h hnodup 0 rfl]
      rfl
    | installing component progress =>
      rw [key_written h hnodup 0 rfl]
      rfl
    | error message =>
      rw [key_written h hnodup 0 rfl,
        textAt_written h hnodup 1 rfl]
      rfl

theorem policyPart_form {schedule : Option ScheduleInfo} {j : Option Json}
    (h : OptionForm (fun s j => Json.Written (ScheduleInfo.fields s) j) schedule j)
    (hfits : ∀ s ∈ schedule, s.checkIntervalSeconds < 2 ^ 64) :
    policyPart (j.getD .null) = (schedule.map policyLine).toList := by
  match schedule, j, h with
  | none, none, _ => rfl
  | some s, some j, h =>
    have h : Json.Written s.fields j := h
    have hnodup := s.fields_nodup
    have hwindow : (j.key "in_maintenance_window").asBool = s.inMaintenanceWindow := by
      rw [h.key hnodup (List.mem_of_getElem? (i := 1) rfl)]
      cases s.inMaintenanceWindow <;> rfl
    have hpermitted := asBool_written h hnodup 2 rfl
    have hinterval := numberAt_written h hnodup (hfits s rfl) 0 rfl
    obtain ⟨members, _, rfl, -, -⟩ := h
    unfold policyPart
    rw [Option.getD_some]
    dsimp only
    rw [hwindow, hpermitted, hinterval, Option.map_some]
    unfold policyLine
    cases s.inMaintenanceWindow with
    | none => cases s.applyPermitted <;> rfl
    | some inside => cases inside <;> cases s.applyPermitted <;> rfl

theorem rebootPart_form {r : RebootStatus} {j : Json} (h : r.Form j) :
    rebootPart j = rebootLine r := by
  have hnodup := r.fields_nodup
  unfold rebootPart
  rw [asBool_written h hnodup 0 rfl, asStr_written h hnodup 2 rfl, asStr_written h hnodup 1 rfl]
  unfold rebootLine
  cases r.required <;> rfl

theorem availablePart_form {us : List AvailableUpdate} {items : List Json}
    (h : List.Forall₂ AvailableForm us items) : availablePart items = availableLines us := by
  have hline (u : AvailableUpdate) (j : Json) (h : AvailableForm u j) :
      "  " ++ (((j.key "summary").asStr.or (j.key "component").asStr).getD "-") =
        "  " ++ u.summary := by
    obtain ⟨version, -, hu⟩ := h
    rw [key_written hu (availableFields_nodup u version) 3 rfl]
    rfl
  have hlines := map_eq_map_of_forall₂ (List.forall₂_take showAvailable h) hline
  have hlength := h.length_eq
  unfold availablePart availableLines
  cases h with
  | nil => rfl
  | cons _ _ =>
    rw [if_neg (List.cons_ne_nil _ _), if_neg (List.cons_ne_nil _ _), hlines, hlength]

theorem historyLine_form {e : UpdateHistoryEntry} {j : Json} (h : e.Form j) :
    textAt j "applied_at" "-" = e.appliedAt ∧ (j.key "succeeded").asBool = some e.succeeded ∧
      textAt j "note" "" = e.note.getD "" := by
  obtain ⟨fromVersion, toVersion, -, -, he⟩ := h
  have hnodup := e.fields_nodup fromVersion toVersion
  refine ⟨textAt_written he hnodup 0 rfl "-", asBool_written he hnodup 5 rfl, ?_⟩
  unfold textAt
  rw [asStr_written he hnodup 6 rfl]

theorem historyPart_form {es : List UpdateHistoryEntry} {items : List Json}
    (h : List.Forall₂ UpdateHistoryEntry.Form es items) : historyPart items = historyLines es := by
  unfold historyPart historyLines
  cases h with
  | nil => rfl
  | cons he htail =>
    rw [if_neg (List.cons_ne_nil _ _), if_neg (List.cons_ne_nil _ _)]
    refine congrArg (_ ++ ·) (map_eq_map_of_forall₂ (List.forall₂_take showHistory (.cons he htail))
      fun e j hej => ?_)
    obtain ⟨happlied, hsucceeded, hnote⟩ := historyLine_form hej
    dsimp only
    rw [happlied, hsucceeded, hnote]
    cases e.succeeded <;> rfl

/-- **`abora updates` shows what the daemon said**, however its answer is arranged and whatever a
later daemon adds to it: its six parts, each shown as it is. -/
theorem updates_shown {r : UpdatesResponse} {j : Json} (h : r.Form j)
    (hfits : ∀ s ∈ r.schedule, s.checkIntervalSeconds < 2 ^ 64) :
    formatUpdates j = updatesShown r := by
  obtain ⟨status, reboot, schedule, available, history, hstatus, hreboot, hschedule, havailable,
    hhistory, hr⟩ := h
  have hnodup := r.fields_nodup status reboot schedule available history
  have hlast : textAt j "last_check" "never" = r.lastCheck.getD "never" := by
    unfold textAt
    rw [asStr_written hr hnodup 1 rfl]
  unfold formatUpdates updatesShown
  dsimp only
  rw [hlast, hr.key hnodup (List.mem_of_getElem? (i := 0) rfl),
    hr.key hnodup (List.mem_of_getElem? (i := 3) rfl), key_written hr hnodup 2 rfl,
    key_written hr hnodup 4 rfl, key_written hr hnodup 5 rfl]
  dsimp only [Json.asArray, Option.getD_some]
  rw [statusPart_form hstatus, policyPart_form hschedule hfits, rebootPart_form hreboot,
    availablePart_form havailable, historyPart_form hhistory, havailable.length_eq]

/-- A daemon of a later version, before its first check. -/
theorem updates_shown_later :
    formatUpdates (.obj [("mood", .str "good"),
      ("history", .arr [.obj [("applied_at", .str "t"),
        ("from_version", .obj (Json.members (Version.new 1 0 0).fields)),
        ("to_version", .obj (Json.members (Version.new 1 0 1).fields)), ("channel", .str "stable"),
        ("component", .str "apt"), ("succeeded", .bool false), ("note", .str "apply x")]]),
      ("available", .arr []),
      ("reboot", .obj [("required", .bool true), ("reason", .str "kernel")])]) =
      ["status:     unknown (no check has finished yet)", "last check: never",
        "reboot:     REQUIRED: kernel", "", "history (newest first):", "  t FAILED apply x"] := by
  let e : UpdateHistoryEntry :=
    ⟨"t", .new 1 0 0, .new 1 0 1, .stable, "apt", false, some "apply x"⟩
  let r : UpdatesResponse := ⟨none, none, ⟨true, some "kernel", none⟩, none, [], [e]⟩
  have he : e.Form (.obj [("applied_at", .str "t"),
      ("from_version", .obj (Json.members (Version.new 1 0 0).fields)),
      ("to_version", .obj (Json.members (Version.new 1 0 1).fields)), ("channel", .str "stable"),
      ("component", .str "apt"), ("succeeded", .bool false), ("note", .str "apply x")]) :=
    ⟨_, _, Json.written_members _, Json.written_members _, Json.written_members (e.fields _ _)⟩
  have hlater (m : String × Json) (hm : m ∈ [("mood", Json.str "good")]) :
      m.1 ∉ ["status", "last_check", "reboot", "schedule", "available", "history"] := by
    rw [List.mem_singleton.mp hm]
    decide
  exact updates_shown (r := r)
    ⟨none, _, none, [], [_], trivial, Json.written_members r.reboot.fields, trivial, .nil,
      .cons he .nil, @Json.written_reversed (r.fields none _ none [] [_]) _ hlater⟩
    fun s hs => by cases hs

end Abora.Cli
