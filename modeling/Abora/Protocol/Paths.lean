import Abora.Daemon.Reload
import Abora.Daemon.Requests
import Abora.Helper.Run

/-!
# Which files the hand-over goes through

The daemon derives the request and the result path once, when it opens its update state at startup
(`open_updates`), and keeps both for as long as it runs. The helper derives them anew from the
configuration file on every start. A reload installs the file's configuration in between, but not
its paths: `state_file` is read at startup and needs a restart to change. So the two agree as long
as the paths in the file are the ones the daemon was started with (`paths_agree`), which a reload
does not ensure (`reload_moves_request`).

That the daemon's paths never move is the invariant, and each operation of the update state keeps it
(`step_paths`); after that, agreement is a question about two configurations. Two state files in one
directory have the same request path, so it is the directory that has to stay.
-/

namespace Abora.Protocol

open Lib Update Daemon Helper

/-- `open_updates`: the paths are those of the configuration at startup, and a store that cannot be
opened is replaced by one in memory. -/
def openUpdates (config : Config) (opened : Except StoreError (UpdateStore × Opened)) :
    UpdatesState :=
  let requestFile :=
    (config.updates.stateFile.parent.getD (PathBuf.ofString ".")).join requestFileName
  match opened with
  | .ok (store, _) => UpdatesState.host store requestFile config.updates.applyResultFile
  | .error _ =>
    UpdatesState.host UpdateStore.inMemory requestFile config.updates.applyResultFile

/-- The running daemon and the configuration file, which the helper loads as well. -/
structure Machine where
  /-- What loading the file gives now. -/
  file : Except String Config
  auth : AuthState
  updates : UpdatesState

/-- The daemon starts with what is in the file. -/
def boot (config : Config) (source : ReloadSource) (load : PathBuf → Loaded)
    (opened : Except StoreError (UpdateStore × Opened)) : Except String Machine :=
  (start config source load).map fun auth => ⟨.ok config, auth, openUpdates config opened⟩

inductive PathEvent where
  | edit (file : Except String Config)
  | reload (load : PathBuf → Loaded)
  /-- The helper is started; what it does is its own affair. -/
  | helper
  /-- Checks and ingests change the update state, not its paths. -/
  | updates (event : UpdatesEvent)

/-- One event. Only an edit changes what the helper will load. -/
def Machine.step (decode : Bytes → Option ApplyResult) (m : Machine) : PathEvent → Machine
  | .edit file => { m with file := file }
  | .reload load => { m with auth := reload m.auth ⟨m.file, load⟩ }
  | .helper => m
  | .updates event => { m with updates := updatesStep decode m.updates event }

/-! ## The daemon's paths never move -/

/-- The paths a configuration gives the daemon at startup. -/
def PathsOf (config : Config) (s : UpdatesState) : Prop :=
  s.applyRequestFile = requestPath config ∧ s.applyResultFile = config.updates.applyResultFile

theorem openUpdates_paths (config : Config)
    (opened : Except StoreError (UpdateStore × Opened)) :
    PathsOf config (openUpdates config opened) := by
  cases opened with
  | ok so => exact ⟨rfl, rfl⟩
  | error e => exact ⟨rfl, rfl⟩

theorem refresh_paths (s : UpdatesState) (channel : Channel) (sim : Except String String)
    (now : String) (saved : Except StoreError Unit) :
    (s.refresh channel sim now saved).1.applyRequestFile = s.applyRequestFile ∧
      (s.refresh channel sim now saved).1.applyResultFile = s.applyResultFile := by
  unfold UpdatesState.refresh
  rcases check_cases s.provider channel sim now saved with
    ⟨message, -, h⟩ | ⟨output, -, ⟨e, h⟩ | h⟩
  all_goals
    rw [h]
    exact ⟨rfl, rfl⟩

theorem ingest_paths (decode : Bytes → Option ApplyResult) (s : UpdatesState) (channel : Channel)
    (env : IngestEnv) :
    (s.ingestApplyResult decode channel env).1.applyRequestFile = s.applyRequestFile ∧
      (s.ingestApplyResult decode channel env).1.applyResultFile = s.applyResultFile := by
  unfold UpdatesState.ingestApplyResult
  cases readRegularFile s.applyResultFile env.stat env.now env.contents none with
  | error e => exact ⟨rfl, rfl⟩
  | ok bytes =>
    cases hdec : decode bytes with
    | none => simp [hdec]
    | some result =>
      simp only [hdec]
      rcases ingestResult_cases s channel result env.saved with ⟨-, h⟩ | ⟨-, -, h⟩
      · rw [h]
        exact ⟨rfl, rfl⟩
      · rw [h]
        unfold UpdatesState.dropInstalled
        split <;> exact ⟨rfl, rfl⟩

/-- Whatever happens to the update state, its paths are those of the start. -/
theorem step_paths {decode : Bytes → Option ApplyResult} {config : Config} {m : Machine}
    (hm : PathsOf config m.updates) (ev : PathEvent) :
    PathsOf config (m.step decode ev).updates := by
  cases ev with
  | edit file => exact hm
  | reload load => exact hm
  | helper => exact hm
  | updates event =>
    cases event with
    | refresh channel sim now saved =>
      obtain ⟨hreq, hres⟩ := refresh_paths m.updates channel sim now saved
      exact ⟨hreq.trans hm.1, hres.trans hm.2⟩
    | ingest channel env =>
      obtain ⟨hreq, hres⟩ := ingest_paths decode m.updates channel env
      exact ⟨hreq.trans hm.1, hres.trans hm.2⟩

/-! ## When daemon and helper agree -/

/-- The directory of the state file, which the request file is put in. -/
def stateDir (config : Config) : PathBuf :=
  config.updates.stateFile.parent.getD (PathBuf.ofString ".")

/-- **When the two sides agree**: in every state of every run, the request paths are the same
exactly when the state file's directory is the one the daemon was started with, and the result
paths are the same if the result file is. -/
theorem paths_agree (decode : Bytes → Option ApplyResult) {startup : Config}
    {source : ReloadSource} {load : PathBuf → Loaded}
    {opened : Except StoreError (UpdateStore × Opened)} {m₀ : Machine}
    (h₀ : boot startup source load opened = .ok m₀) (events : List PathEvent) :
    ∀ m ∈ visited (Machine.step decode) m₀ events, ∀ config, m.file = .ok config →
      m.auth.config = config → ∀ configPath,
      (m.updates.applyRequestFile = requestPath config ↔ stateDir startup = stateDir config) ∧
        (startup.updates.applyResultFile = config.updates.applyResultFile →
          m.updates.applyResultFile = resultPath ⟨configPath, none⟩ config) := by
  intro m hm config _ _ configPath
  have hstart : PathsOf startup m₀.updates := by
    unfold boot at h₀
    cases hauth : start startup source load with
    | error e =>
      rw [hauth] at h₀
      cases h₀
    | ok auth =>
      rw [hauth] at h₀
      cases h₀
      exact openUpdates_paths startup opened
  have hstep (m : Machine) (ev : PathEvent) (h : PathsOf startup m.updates) :
      PathsOf startup (m.step decode ev).updates := step_paths h ev
  obtain ⟨hreq, hres⟩ := visited_invariant (I := fun m => PathsOf startup m.updates) hstep hstart
    events m hm
  refine ⟨?_, fun hsame => ?_⟩
  · rw [hreq]
    exact PathBuf.join_left_inj
  · rw [hres]
    exact hsame

/-- A daemon that is never told to move: after a check and a helper start both sides use
`/var/lib/abora/apply-request.json`. -/
theorem paths_agree_default :
    let source : ReloadSource := .file (PathBuf.ofString "/etc/abora/abora.toml")
    let m₀ : Machine := ⟨.ok {}, ⟨{}, none, source, true⟩, openUpdates {} (.error (.io "" ""))⟩
    let m := Lib.run (Machine.step fun _ => none) m₀
      [.updates (.refresh .stable (.error "apt-get timed out") "" (.ok ())), .helper]
    m.updates.applyRequestFile = requestPath {} ∧
      m.updates.applyResultFile = resultPath ⟨PathBuf.ofString "/etc/abora/abora.toml", none⟩ {} := by
  intro source m₀ m
  have h₀ : boot {} source (fun _ => .failed "") (.error (.io "" "")) = .ok m₀ := rfl
  have h := paths_agree (fun _ => none) h₀ _ m (run_mem_visited _ _) {} rfl rfl
    (PathBuf.ofString "/etc/abora/abora.toml")
  exact ⟨h.1.mpr rfl, h.2 rfl⟩

/-- **A reload can part them**: the file moves the state file to `/srv/abora`, the daemon reloads
it, and from then on writes its requests where the helper does not look. -/
theorem reload_moves_request :
    ¬ ∀ (decode : Bytes → Option ApplyResult) (startup : Config) (source : ReloadSource)
        (load : PathBuf → Loaded) (opened : Except StoreError (UpdateStore × Opened))
        (m₀ : Machine) (events : List PathEvent),
        boot startup source load opened = .ok m₀ →
        ∀ m ∈ visited (Machine.step decode) m₀ events, ∀ config, m.file = .ok config →
          m.auth.config = config → ∀ configPath,
          m.updates.applyRequestFile = requestPath config ∧
            m.updates.applyResultFile = resultPath ⟨configPath, none⟩ config := by
  intro h
  let moved : Config :=
    { updates := { stateFile := PathBuf.ofString "/srv/abora/updates.json" } }
  let load : PathBuf → Loaded := fun _ => .failed "No such file or directory (os error 2)"
  have hpaths := h (fun _ => none) {} (.file (PathBuf.ofString "/etc/abora/abora.toml")) load
    (.error (.io "/var/lib/abora/updates.json" "Permission denied (os error 13)")) _
    [.edit (.ok moved), .reload load] rfl _ (run_mem_visited _ _) moved rfl rfl
    (PathBuf.ofString "/etc/abora/abora.toml")
  exact absurd hpaths.1 (by decide)

end Abora.Protocol
