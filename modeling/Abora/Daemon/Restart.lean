import Abora.Config.Validate
import Abora.Daemon.Reload
import Abora.Daemon.Server

/-!
# Starting again (`run` in `aborad/src/main.rs`)

A start finds its configuration, checks the address it is to listen on, loads the tokens and builds
its routes, and any of these may end it. A reload reads the same two files, but the address and the
routes are those of the start: it says that a restart is required, and goes on. `restart_iff` is
about what comes of that restart; `listens_on_loopback` about what no reload changes.

The two read the configuration the same way, except that a start may fall back on built-in defaults
when there is no file, and a reload that fails keeps what was there. So the comparison is about a
daemon that came from a file, whose file is still there: then the restart has the state a reload has
just made, if it has any, and it has one exactly when the reload took both files and the address can
be used. A daemon whose reload took an address that no start takes is still up, and will not come up
again.
-/

namespace Abora

open Lib Lib.Text

/-- `ConfigError`; a file that is not UTF-8 could not be read. Its text is what a failed start
prints. -/
inductive ConfigError where
  | io (path : PathBuf) (source : String)
  | toml (message : String)
  | invalid (errors : String)

def ConfigError.text : ConfigError → String
  | .io path source => s!"could not read configuration file `{path.display}`: {source}"
  | .toml message => s!"could not parse TOML: {message}"
  | .invalid errors => s!"configuration is invalid:\n{errors}"

/-- `Config::from_str`, with the TOML parser as a parameter. -/
def Config.fromStr (parse : String → Except String Config) (raw : String) :
    Except ConfigError Config :=
  match parse raw with
  | .error e => .error (.toml e)
  | .ok config =>
    match config.validate with
    | .error errors => .error (.invalid ("\n".intercalate errors))
    | .ok () => .ok config

/-- `Config::load`, with what reading the file gives. What it returns has been validated. -/
def Config.load (parse : String → Except String Config) (read : PathBuf → Except String String)
    (path : PathBuf) : Except ConfigError Config :=
  match read path with
  | .error e => .error (.io path e)
  | .ok raw => Config.fromStr parse raw

theorem Config.validate_of_load {parse : String → Except String Config}
    {read : PathBuf → Except String String} {path : PathBuf} {config : Config}
    (h : Config.load parse read path = .ok config) : config.validate = .ok () := by
  unfold Config.load Config.fromStr at h
  split at h
  · cases h
  split at h
  · cases h
  split at h
  · cases h
  · rename_i hvalid
    cases h
    exact hvalid

/-- `SocketAddr::ip().is_loopback()`. -/
def Lib.SocketAddr.isLoopback : SocketAddr → Bool
  | .v4 a _ _ _ _ => a == 127
  | .v6 groups _ _ => groups == [0, 0, 0, 0, 0, 0, 0, 1]

namespace Daemon

/-- The files a daemon reads, at one moment. -/
structure Files where
  read : PathBuf → Except String String
  there : PathBuf → Bool
  tokens : PathBuf → Loaded

/-- What does not depend on the files: the TOML parser, the framework and the network. -/
structure Ground where
  parse : String → Except String Config
  axum : Axum
  /-- `TcpListener::bind`, with the message. -/
  bind : SocketAddr → Except String Unit

/-- How the daemon is started: `--config` and `ABORA_CONFIG`. -/
structure Invocation where
  config : Option PathBuf
  environment : Option PathBuf

inductive ConfigSource where
  | explicit (path : PathBuf)
  | environment (path : PathBuf)
  | builtinDefaults

def ConfigSource.reloadSource : ConfigSource → ReloadSource
  | .explicit path | .environment path => .file path
  | .builtinDefaults => .builtin

def defaultConfigPath : PathBuf := PathBuf.ofString "/etc/abora/abora.toml"

/-- `resolve_config`: the option, then the environment, then the default path if there is something
at it, then the built-in defaults. -/
def resolveConfig (g : Ground) (inv : Invocation) (files : Files) :
    Except String (Config × ConfigSource) :=
  let load := Config.load g.parse files.read
  match inv.config, inv.environment with
  | some path, _ =>
    match load path with
    | .ok config => .ok (config, .explicit path)
    | .error e => .error e.text
  | none, some path =>
    match load path with
    | .ok config => .ok (config, .environment path)
    | .error e => .error e.text
  | none, none =>
    match load defaultConfigPath with
    | .ok config => .ok (config, .explicit defaultConfigPath)
    | .error (.io path source) =>
      if path = defaultConfigPath ∧ files.there defaultConfigPath = false then
        .ok ({}, .builtinDefaults)
      else .error (ConfigError.io path source).text
    | .error e => .error e.text

/-- `check_bind_addr`: only a loopback address, whatever else the configuration says. -/
def checkBindAddr (config : Config) : Except String SocketAddr :=
  match parseSocketAddr config.remote.listenAddr with
  | none =>
    .error s!"[remote] listen_addr `{config.remote.listenAddr}` is not a valid socket address"
  | some addr =>
    if addr.isLoopback then .ok addr
    else .error (s!"refusing to bind non-loopback address `{config.remote.listenAddr}`: remote " ++
      "management is not implemented in this milestone. Keep [remote].listen_addr on " ++
      "127.0.0.1/::1; see docs/security.md.")

structure Running where
  auth : AuthState
  listening : SocketAddr
  routes : List Route

/-- `run`, up to the server. The order of the steps decides which of several mistakes is
reported. -/
def boot (g : Ground) (inv : Invocation) (files : Files) : Except String Running :=
  match resolveConfig g inv files with
  | .error e => .error e
  | .ok (config, source) =>
    match config.validate with
    | .error errors => .error ("invalid configuration:\n" ++ "\n".intercalate errors)
    | .ok () =>
      match checkBindAddr config with
      | .error e => .error e
      | .ok addr =>
        match start config source.reloadSource files.tokens with
        | .error e => .error e
        | .ok auth =>
          match g.bind addr with
          | .error e => .error e
          | .ok () =>
            match build g.axum config.api.basePath with
            | none => .error "panicked"
            | some routes => .ok ⟨auth, addr, routes⟩

def reloadEvent (g : Ground) (files : Files) : ReloadSource → ReloadEvent
  | .file path =>
    ⟨(Config.load g.parse files.read path).mapError ConfigError.text, files.tokens⟩
  | .builtin => ⟨.error "", files.tokens⟩

/-- A reload leaves the listener and the routes as they were built. -/
def Running.reload (g : Ground) (files : Files) (r : Running) : Running :=
  { r with auth := Daemon.reload r.auth (reloadEvent g files r.auth.source) }

/-! ## Over time -/

/-- The files of a machine and its daemon, if one is up. -/
structure Deployment where
  files : Files
  daemon : Option Running

inductive DeploymentEvent where
  /-- Somebody changes the files. -/
  | edit (files : Files)
  | reload
  /-- The daemon ends, if there is one, and is started. -/
  | restart

/-- A daemon that does not come up leaves none. -/
def Deployment.step (g : Ground) (inv : Invocation) (d : Deployment) :
    DeploymentEvent → Deployment
  | .edit files => { d with files := files }
  | .reload => { d with daemon := d.daemon.map (Running.reload g d.files) }
  | .restart => { d with daemon := (boot g inv d.files).toOption }

def Invocation.path (inv : Invocation) : PathBuf :=
  (inv.config.or inv.environment).getD defaultConfigPath

/-- What is the same for as long as the daemon runs: where its configuration is read from, and where
it listens. -/
structure Running.Rooted (inv : Invocation) (r : Running) : Prop where
  source : r.auth.source = .file inv.path ∨ r.auth.source = .builtin
  loopback : r.listening.isLoopback = true

theorem refreshTokens_source (s : AuthState) (load : PathBuf → Loaded) :
    (refreshTokens s load).source = s.source := by
  unfold refreshTokens
  split
  · rfl
  · split <;> rfl

theorem reload_source (s : AuthState) (ev : ReloadEvent) : (reload s ev).source = s.source := by
  rcases reload_cases s ev with ⟨fresh, -, h⟩ | ⟨-, h⟩
  · rw [h]
    exact refreshTokens_source _ _
  · rw [h]

theorem checkBindAddr_ok_iff {config : Config} {addr : SocketAddr} :
    checkBindAddr config = .ok addr ↔
      parseSocketAddr config.remote.listenAddr = some addr ∧ addr.isLoopback = true := by
  unfold checkBindAddr
  cases parseSocketAddr config.remote.listenAddr with
  | none => simp
  | some a =>
    dsimp only
    by_cases h : a.isLoopback = true
    · rw [if_pos h]
      constructor
      · rintro ⟨⟩
        exact ⟨rfl, h⟩
      · rintro ⟨⟨⟩, -⟩
        rfl
    · rw [if_neg h]
      constructor
      · intro hok
        cases hok
      · rintro ⟨⟨⟩, hloop⟩
        exact absurd hloop h

/-- Where a configuration comes from: the file that the invocation names, or nowhere. -/
theorem resolveConfig_source {g : Ground} {inv : Invocation} {files : Files} {config : Config}
    {source : ConfigSource} (h : resolveConfig g inv files = .ok (config, source)) :
    source.reloadSource = .file inv.path ∧ Config.load g.parse files.read inv.path = .ok config ∨
      source.reloadSource = .builtin ∧ files.there inv.path = false ∧ config = {} := by
  obtain ⟨explicit, environment⟩ := inv
  unfold resolveConfig at h
  dsimp only at h
  split at h
  · split at h
    · rename_i hload
      cases h
      exact .inl ⟨rfl, hload⟩
    · cases h
  · split at h
    · rename_i hload
      cases h
      exact .inl ⟨rfl, hload⟩
    · cases h
  · split at h
    · rename_i hload
      cases h
      exact .inl ⟨rfl, hload⟩
    · split at h
      · rename_i hmissing
        cases h
        exact .inr ⟨rfl, hmissing.2, rfl⟩
      · cases h
    · cases h

/-- What a start needs, and what it makes of it, step by step. -/
theorem boot_ok_iff {g : Ground} {inv : Invocation} {files : Files} {r : Running} :
    boot g inv files = .ok r ↔ ∃ config source,
      resolveConfig g inv files = .ok (config, source) ∧ config.validate = .ok () ∧
        start config source.reloadSource files.tokens = .ok r.auth ∧
        checkBindAddr config = .ok r.listening ∧ g.bind r.listening = .ok () ∧
        build g.axum config.api.basePath = some r.routes := by
  unfold boot
  constructor
  · intro h
    split at h
    · cases h
    rename_i config source hresolve
    split at h
    · cases h
    rename_i hvalid
    split at h
    · cases h
    rename_i addr haddr
    split at h
    · cases h
    rename_i auth hstart
    split at h
    · cases h
    rename_i hbind
    split at h
    · cases h
    rename_i routes hroutes
    cases h
    exact ⟨config, source, hresolve, hvalid, hstart, haddr, hbind, hroutes⟩
  · rintro ⟨config, source, hresolve, hvalid, hstart, haddr, hbind, hroutes⟩
    simp only [hresolve, hvalid, haddr, hstart, hbind, hroutes]

theorem start_source {config : Config} {source : ReloadSource} {load : PathBuf → Loaded}
    {s : AuthState} (h : start config source load = .ok s) : s.source = source := by
  obtain ⟨tokens, -, rfl⟩ := ok_of_map h
  rfl

theorem boot_rooted {g : Ground} {inv : Invocation} {files : Files} {r : Running}
    (h : boot g inv files = .ok r) : r.Rooted inv := by
  obtain ⟨config, source, hresolve, -, hstart, haddr, -⟩ := boot_ok_iff.mp h
  refine ⟨?_, (checkBindAddr_ok_iff.mp haddr).2⟩
  rw [start_source hstart]
  exact (resolveConfig_source hresolve).imp And.left And.left

/-- What is up stays rooted: a start establishes it, and nothing else touches the two. -/
theorem step_rooted {g : Ground} {inv : Invocation} (d : Deployment) (event : DeploymentEvent)
    (h : ∀ r ∈ d.daemon, r.Rooted inv) : ∀ r ∈ (d.step g inv event).daemon, r.Rooted inv := by
  intro r hr
  cases event with
  | edit files => exact h r hr
  | reload =>
    obtain ⟨before, hbefore, rfl⟩ := Option.mem_map.mp hr
    have hrooted := h before hbefore
    exact ⟨(reload_source before.auth _).symm ▸ hrooted.source, hrooted.loopback⟩
  | restart =>
    cases hboot : boot g inv d.files with
    | error e =>
      rw [Deployment.step, hboot] at hr
      cases hr
    | ok started =>
      rw [Deployment.step, hboot] at hr
      cases hr
      exact boot_rooted hboot

theorem visited_rooted {g : Ground} {inv : Invocation} {files : Files}
    {events : List DeploymentEvent} :
    ∀ d ∈ visited (Deployment.step g inv) ⟨files, none⟩ events, ∀ r ∈ d.daemon, r.Rooted inv :=
  visited_invariant (I := fun d : Deployment => ∀ r ∈ d.daemon, r.Rooted inv) step_rooted
    (fun r hr => by cases hr) events

/-- **Whatever is reloaded, a daemon listens on a loopback address**, in every state of every
run. -/
theorem listens_on_loopback {g : Ground} {inv : Invocation} {files : Files}
    {events : List DeploymentEvent} :
    ∀ d ∈ visited (Deployment.step g inv) ⟨files, none⟩ events, ∀ r ∈ d.daemon,
      r.listening.isLoopback = true :=
  fun d hd r hr => (visited_rooted d hd r hr).loopback

/-- The reload took both files: there is a configuration, and tokens if it wants any. -/
def Took (g : Ground) (inv : Invocation) (files : Files) : Prop :=
  ∃ config, Config.load g.parse files.read inv.path = .ok config ∧
    ∀ path, config.security.tokenFile = some path → ∃ store, files.tokens path = .ok store

/-- From the same configuration a start and a reload come to the same, if there are tokens where
there should be: the difference between failing closed and keeping the old store does not arise. -/
theorem start_ok_iff {config : Config} {path : PathBuf} {load : PathBuf → Loaded}
    {before s : AuthState} (hsource : before.source = .file path)
    (hwatching : before.watching = true) :
    start config (.file path) load = .ok s ↔
      (∀ file, config.security.tokenFile = some file → ∃ store, load file = .ok store) ∧
        s = applyReload before config load := by
  unfold start loadTokenStore applyReload refreshTokens
  dsimp only
  cases config.security.tokenFile with
  | none =>
    simp only [Except.map, Except.ok.injEq, reduceCtorEq, false_implies, implies_true, true_and,
      hsource, hwatching]
    exact eq_comm
  | some file =>
    cases hload : load file with
    | ok store =>
      have htokens : ∀ path, some file = some path → ∃ store, load path = .ok store := by
        rintro path ⟨⟩
        exact ⟨store, hload⟩
      rw [and_iff_right htokens]
      simp only [hload, Except.map, Except.ok.injEq, hsource, hwatching]
      exact eq_comm
    | failed e => simp [hload, Except.map]
    | panicked => simp [hload, Except.map]

theorem reload_loaded {g : Ground} {files : Files} {path : PathBuf} {config : Config}
    {s : AuthState} (hsource : s.source = .file path) (hwatching : s.watching = true)
    (hload : Config.load g.parse files.read path = .ok config) :
    reload s (reloadEvent g files s.source) = applyReload s config files.tokens := by
  unfold reload
  rw [if_neg (by rw [hwatching]; exact Bool.noConfusion), hsource]
  dsimp only [reloadEvent]
  rw [hload]
  rfl

/-- Where the named file is there, it is what the configuration comes from, and no default. -/
theorem resolveConfig_ok_iff {g : Ground} {inv : Invocation} {files : Files}
    (hthere : files.there inv.path = true) {config : Config} {source : ReloadSource} :
    (∃ found, resolveConfig g inv files = .ok (config, found) ∧ found.reloadSource = source) ↔
      Config.load g.parse files.read inv.path = .ok config ∧ source = .file inv.path := by
  constructor
  · rintro ⟨found, hresolve, rfl⟩
    rcases resolveConfig_source hresolve with ⟨hsource, hload⟩ | ⟨-, hgone, -⟩
    · exact ⟨hload, hsource⟩
    · rw [hthere] at hgone
      cases hgone
  · rintro ⟨hload, rfl⟩
    obtain ⟨explicit, environment⟩ := inv
    unfold resolveConfig
    match explicit, environment with
    | some path, _ =>
      have hpath : Config.load g.parse files.read path = .ok config := hload
      exact ⟨.explicit path, by simp only [hpath], rfl⟩
    | none, some path =>
      have hpath : Config.load g.parse files.read path = .ok config := hload
      exact ⟨.environment path, by simp only [hpath], rfl⟩
    | none, none =>
      have hpath : Config.load g.parse files.read defaultConfigPath = .ok config := hload
      exact ⟨.explicit defaultConfigPath, by simp only [hpath], rfl⟩

/-- **A restart comes up as what a reload made of the daemon, or not at all**: it comes up exactly
when the reload took both files, and its address is a loopback one that can be bound, and the
framework takes its routes. Both sides are computed from the same files, and `start_ok_iff` is where
they meet. -/
theorem restart_iff {g : Ground} {inv : Invocation} {files : Files}
    {events : List DeploymentEvent} {d : Deployment}
    (hrun : run (Deployment.step g inv) ⟨files, none⟩ events = d) {r : Running}
    (hup : d.daemon = some r) (hfile : r.auth.source ≠ .builtin)
    (hwatching : r.auth.watching = true) (hthere : d.files.there inv.path = true)
    (next : Running) :
    (d.step g inv .restart).daemon = some next ↔
      Took g inv d.files ∧ (r.reload g d.files).auth = next.auth ∧
        checkBindAddr next.auth.config = .ok next.listening ∧ g.bind next.listening = .ok () ∧
        build g.axum next.auth.config.api.basePath = some next.routes := by
  have hvisited : d ∈ visited (Deployment.step g inv) ⟨files, none⟩ events :=
    hrun ▸ run_mem_visited _ _
  -- a daemon that reloads is rooted in the file that the invocation names
  have hsource : r.auth.source = .file inv.path :=
    (visited_rooted d hvisited r hup).source.resolve_right hfile
  have hboot : (d.step g inv .restart).daemon = some next ↔ boot g inv d.files = .ok next := by
    rw [Deployment.step]
    cases boot g inv d.files <;> simp [Except.toOption]
  rw [hboot, boot_ok_iff]
  -- the two ways load the same configuration, one in `boot` and one in `reload`
  constructor
  · rintro ⟨config, found, hresolve, -, hstart, haddr, hbind, hroutes⟩
    obtain ⟨hload, hfound⟩ := (resolveConfig_ok_iff hthere).mp ⟨found, hresolve, rfl⟩
    rw [hfound] at hstart
    obtain ⟨htokens, hnext⟩ := (start_ok_iff hsource hwatching).mp hstart
    have hconfig : next.auth.config = config := by
      rw [hnext]
      exact refreshTokens_config _ _
    refine ⟨⟨config, hload, htokens⟩, ?_, hconfig ▸ haddr, hbind, hconfig ▸ hroutes⟩
    rw [hnext]
    exact reload_loaded hsource hwatching hload
  · rintro ⟨⟨config, hload, htokens⟩, hreload, haddr, hbind, hroutes⟩
    have hnext : next.auth = applyReload r.auth config d.files.tokens := by
      rw [← hreload]
      exact reload_loaded hsource hwatching hload
    have hconfig : next.auth.config = config := by
      rw [hnext]
      exact refreshTokens_config _ _
    obtain ⟨found, hresolve, hfound⟩ := (resolveConfig_ok_iff hthere).mpr ⟨hload, rfl⟩
    refine ⟨config, found, hresolve, Config.validate_of_load hload, ?_, hconfig ▸ haddr, hbind,
      hconfig ▸ hroutes⟩
    rw [hfound]
    exact (start_ok_iff hsource hwatching).mpr ⟨htokens, hnext⟩

/-- Every address of the machine is listened on. -/
def openConfig : Config := { remote := { listenAddr := "0.0.0.0:7360" } }

def openToml : String := "[remote]\nlisten_addr = \"0.0.0.0:7360\"\n"

/-- A reader of this text and the empty one, a framework that takes every route and a network that
binds. -/
def openGround : Ground where
  parse raw :=
    if raw = "" then .ok {}
    else if raw = openToml then .ok openConfig
    else .error "could not parse TOML"
  axum := { segmentAxum with admits := fun _ => true }
  bind _ := .ok ()

def openFiles (raw : String) : Files := ⟨fun _ => .ok raw, fun _ => true, fun _ => .failed "none"⟩

theorem load_openFiles {raw : String} {config : Config}
    (hparse : openGround.parse raw = .ok config) (hvalid : config.validate = .ok ())
    (path : PathBuf) :
    Config.load openGround.parse (openFiles raw).read path = .ok config := by
  unfold Config.load Config.fromStr openFiles
  dsimp only
  rw [hparse]
  dsimp only
  rw [hvalid]

/-- The reload takes an address that no start does. -/
theorem restart_iff_open_address :
    let d := run (Deployment.step openGround ⟨none, none⟩) ⟨openFiles "", none⟩
      [.restart, .edit (openFiles openToml)]
    Took openGround ⟨none, none⟩ d.files ∧
      (d.step openGround ⟨none, none⟩ .restart).daemon = none := by
  intro d
  let r : Running := ⟨⟨{}, none, .file defaultConfigPath, true⟩, .v4 127 0 0 1 7360,
    routes "/api/v1"⟩
  have hparse : openGround.parse openToml = .ok openConfig := by simp [openGround, openToml]
  have hopen := load_openFiles hparse (by decide +kernel)
  have hresolve : resolveConfig openGround ⟨none, none⟩ (openFiles "") =
      .ok ({}, .explicit defaultConfigPath) := by
    unfold resolveConfig
    simp only [@load_openFiles "" {} rfl validate_default]
  have hboot : boot openGround ⟨none, none⟩ (openFiles "") = .ok r :=
    boot_ok_iff.mpr ⟨{}, .explicit defaultConfigPath, hresolve, validate_default, rfl,
      checkBindAddr_ok_iff.mpr ⟨rfl, rfl⟩, rfl, rfl⟩
  have hup : d.daemon = some r := congrArg Except.toOption hboot
  refine ⟨⟨openConfig, hopen _, fun path h => by cases h⟩, ?_⟩
  cases hnext : (d.step openGround ⟨none, none⟩ .restart).daemon with
  | none => rfl
  | some next =>
    obtain ⟨-, hauth, haddr, -⟩ :=
      (restart_iff rfl hup (fun h => by cases h) rfl rfl next).mp hnext
    have hreload := reload_loaded (g := openGround) (s := r.auth) rfl rfl (hopen defaultConfigPath)
    have hconfig : next.auth.config = openConfig := by
      rw [← hauth]
      exact (congrArg AuthState.config hreload).trans (refreshTokens_config _ _)
    rw [hconfig] at haddr
    obtain ⟨hparse, hloopback⟩ := checkBindAddr_ok_iff.mp haddr
    have hany : parseSocketAddr openConfig.remote.listenAddr = some (.v4 0 0 0 0 7360) := rfl
    rw [← Option.some.inj (hany.symm.trans hparse)] at hloopback
    cases hloopback

end Daemon

end Abora
