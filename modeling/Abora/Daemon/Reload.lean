import Abora.Lib.Run
import Abora.Daemon.Auth

/-!
# Reloading (`aborad/src/reload.rs`, `load_token_store` in `aborad/src/main.rs`)

The authorization middleware reads two fields that a reload writes one after the other: the live
configuration and the token store. Startup ties them together — a configured token file that does
not load is a refusal to start. A reload does not: a token file that does not load leaves the store
as it was, so that a half-written file never locks the operator out.

`NeverOpen` is what the two fields must guarantee together. Keeping the previous store keeps it,
except when there is no previous store to keep: `LeavesOpen`. `auth_never_open_iff` says that
nothing else can break it, over any sequence of good and bad reloads.

The invariant of these runs is not `NeverOpen`, which speaks of requests, but that the state is not
`Unguarded`, which speaks of the three fields; the two are the same (`neverOpen_iff`), as an
anonymous read from loopback is let in by an unguarded state and by no other that requires tokens.
-/

namespace Abora.Daemon

open Abora.Lib

/-- Where the configuration came from. There is nothing to reload of the built-in one. -/
inductive ReloadSource where
  | file (path : PathBuf)
  | builtin
  deriving DecidableEq, Repr

/-- What `TokenStore::load` did. A panic ends the task that was loading. -/
inductive Loaded where
  | ok (store : TokenStore)
  | failed (error : String)
  | panicked
  deriving DecidableEq

/-- What authorization depends on. `watching` is whether the task that reloads is still there. -/
structure AuthState where
  config : Config
  tokens : Option TokenStore
  source : ReloadSource
  watching : Bool
  deriving DecidableEq

/-- `load_token_store`: fails closed. A panic at startup ends the program, which is a refusal,
too. -/
def loadTokenStore (config : Config) (load : PathBuf → Loaded) :
    Except String (Option TokenStore) :=
  match config.security.tokenFile with
  | none => .ok none
  | some path =>
    match load path with
    | .ok store => .ok (some store)
    | .failed e => .error e
    | .panicked => .error "panicked"

/-- The daemon's start, as far as authorization is concerned. -/
def start (config : Config) (source : ReloadSource) (load : PathBuf → Loaded) :
    Except String AuthState :=
  (loadTokenStore config load).map fun tokens => ⟨config, tokens, source, true⟩

/-- `refresh_tokens`: a valid store replaces the previous one, an invalid one does not.

A load that panics ends the watch task, and nothing is reloaded from there on. With the task goes
the sender of the shutdown channel, so the program stops serving; the model goes on with the state
it had at the panic, in which `watching` is off. -/
def refreshTokens (s : AuthState) (load : PathBuf → Loaded) : AuthState :=
  match s.config.security.tokenFile with
  | none => { s with tokens := none }
  | some path =>
    match load path with
    | .ok store => { s with tokens := some store }
    -- "keeping the previous one": also when there is none
    | .failed _ => s
    | .panicked => { s with watching := false }

/-- Refreshing the tokens is not the place where the configuration changes. -/
theorem refreshTokens_config (s : AuthState) (load : PathBuf → Loaded) :
    (refreshTokens s load).config = s.config := by
  unfold refreshTokens
  cases s.config.security.tokenFile with
  | none => rfl
  | some path => cases h : load path <;> simp [h]

/-- `apply_reload`: the configuration first, then the tokens. What a request sees between the two is
`Abora.Daemon.Swap`. -/
def applyReload (s : AuthState) (fresh : Config) (load : PathBuf → Loaded) : AuthState :=
  refreshTokens { s with config := fresh } load

/-- What one reload finds: `Config::load` of the file, and what each token file would give. -/
structure ReloadEvent where
  fresh : Except String Config
  load : PathBuf → Loaded

/-- One reload. A configuration that does not load changes nothing, and neither does a task that is
gone. -/
def reload (s : AuthState) (ev : ReloadEvent) : AuthState :=
  if s.watching = false then s
  else match s.source with
    | .builtin => s
    | .file _ =>
      match ev.fresh with
      | .error _ => s
      | .ok fresh => applyReload s fresh ev.load

/-! ## What must never happen -/

/-- With authentication required and a token file configured, only a request that authenticates is
let in, whatever it asks for. -/
def NeverOpen (digest : String → Hash) (s : AuthState) : Prop :=
  s.config.security.requireAuthentication = true → s.config.security.tokenFile ≠ none →
    ∀ req permission, ¬ Authenticates digest s.tokens req →
      (middleware digest s.config s.tokens req permission).1 ≠ .allowed

/-- Authentication is required and configured, and there is no store to check against. -/
structure Unguarded (s : AuthState) : Prop where
  required : s.config.security.requireAuthentication = true
  configured : s.config.security.tokenFile ≠ none
  noStore : s.tokens = none

/-- What is promised about requests, and what it comes to for the fields. -/
theorem neverOpen_iff {digest : String → Hash} {s : AuthState} :
    NeverOpen digest s ↔ ¬ Unguarded s := by
  constructor
  · intro h hopen
    let req : Request := ⟨some (.v4 127 0 0 1), none⟩
    have hanon : ¬ Authenticates digest s.tokens req := by
      rintro ⟨store, secret, hstore, -⟩
      rw [hopen.noStore] at hstore
      cases hstore
    have hdenied := h hopen.required hopen.configured req .readHealth hanon
    rw [hopen.noStore] at hdenied
    exact hdenied (allowed_of_no_store digest s.config rfl rfl rfl)
  · intro h hrequired hconfigured req permission hanon hallowed
    cases htokens : s.tokens with
    | none => exact h ⟨hrequired, hconfigured, htokens⟩
    | some store =>
      rw [htokens] at hanon hallowed
      exact hanon (authenticates_of_allowed hrequired hallowed)

/-- The reload that goes wrong: it requires and configures tokens, none can be loaded, and none
were loaded before. -/
structure LeavesOpen (s : AuthState) (ev : ReloadEvent) : Prop where
  watching : s.watching = true
  file : s.source ≠ .builtin
  noStore : s.tokens = none
  fresh : ∃ fresh path, ev.fresh = .ok fresh ∧
    fresh.security.requireAuthentication = true ∧ fresh.security.tokenFile = some path ∧
    ∀ store, ev.load path ≠ .ok store

theorem start_guarded {config : Config} {source : ReloadSource} {load : PathBuf → Loaded}
    {s : AuthState} (h : start config source load = .ok s) : ¬ Unguarded s := by
  intro hopen
  unfold start loadTokenStore at h
  cases hfile : config.security.tokenFile with
  | none =>
    rw [hfile] at h
    cases h
    exact hopen.configured hfile
  | some path =>
    simp only [hfile] at h
    cases hload : load path with
    | ok store =>
      rw [hload] at h
      cases h
      cases hopen.noStore
    | failed e =>
      rw [hload] at h
      cases h
    | panicked =>
      rw [hload] at h
      cases h

/-- The reload gets as far as installing `fresh`. -/
def Installs (s : AuthState) (ev : ReloadEvent) (fresh : Config) : Prop :=
  s.watching = true ∧ s.source ≠ .builtin ∧ ev.fresh = .ok fresh

/-- A reload installs a configuration and refreshes the tokens, or it changes nothing. -/
theorem reload_cases (s : AuthState) (ev : ReloadEvent) :
    (∃ fresh, Installs s ev fresh ∧ reload s ev = applyReload s fresh ev.load) ∨
      ((∀ fresh, ¬ Installs s ev fresh) ∧ reload s ev = s) := by
  unfold reload
  by_cases hwatch : s.watching = false
  · refine .inr ⟨fun fresh h => ?_, if_pos hwatch⟩
    rw [h.1] at hwatch
    cases hwatch
  rw [if_neg hwatch]
  cases hsource : s.source with
  | builtin => exact .inr ⟨fun fresh h => h.2.1 hsource, rfl⟩
  | file path =>
    cases hfresh : ev.fresh with
    | error e =>
      refine .inr ⟨fun fresh h => ?_, rfl⟩
      rw [h.2.2] at hfresh
      cases hfresh
    | ok fresh =>
      have hne : s.source ≠ .builtin := by simp [hsource]
      exact .inl ⟨fresh, ⟨by simpa using hwatch, hne, hfresh⟩, rfl⟩

/-- Refreshing the tokens leaves none exactly when none can be loaded and none were there. -/
theorem refreshTokens_unguarded_iff (s : AuthState) (load : PathBuf → Loaded) :
    Unguarded (refreshTokens s load) ↔
      s.config.security.requireAuthentication = true ∧ s.tokens = none ∧
        ∃ path, s.config.security.tokenFile = some path ∧ ∀ store, load path ≠ .ok store := by
  unfold refreshTokens
  cases hfile : s.config.security.tokenFile with
  | none => exact ⟨fun h => absurd hfile h.configured, fun ⟨_, _, path, h, _⟩ => by cases h⟩
  | some path =>
    -- the store stays, whether the task does or not
    have hkept {w : Bool} (hbad : ∀ store, load path ≠ .ok store) :
        Unguarded { s with watching := w } ↔
          s.config.security.requireAuthentication = true ∧ s.tokens = none ∧
            ∃ path', some path = some path' ∧ ∀ store, load path' ≠ .ok store :=
      ⟨fun h => ⟨h.required, h.noStore, path, rfl, hbad⟩, fun h => ⟨h.1, by simp [hfile], h.2.1⟩⟩
    cases hload : load path with
    | ok store =>
      simp only [hload]
      refine ⟨fun h => (by cases h.noStore), fun ⟨_, _, path', hpath, hbad⟩ => ?_⟩
      cases hpath
      exact absurd hload (hbad store)
    | failed e =>
      simp only [hload]
      refine hkept fun store hok => ?_
      rw [hload] at hok
      cases hok
    | panicked =>
      simp only [hload]
      refine hkept fun store hok => ?_
      rw [hload] at hok
      cases hok

/-- **One reload**: from a guarded state it leads to an unguarded one exactly when it is the one
that goes wrong. A reload that does not get as far as installing leaves a guarded state guarded. -/
theorem reload_unguarded_iff {s : AuthState} (hs : ¬ Unguarded s) (ev : ReloadEvent) :
    Unguarded (reload s ev) ↔ LeavesOpen s ev := by
  rcases reload_cases s ev with ⟨fresh, hinstalls, h⟩ | ⟨hnone, h⟩
  · rw [h, applyReload, refreshTokens_unguarded_iff]
    obtain ⟨hwatching, hfile, hfresh⟩ := hinstalls
    constructor
    · rintro ⟨hrequired, hnone, path, hpath, hbad⟩
      exact ⟨hwatching, hfile, hnone, fresh, path, hfresh, hrequired, hpath, hbad⟩
    · intro hleaves
      obtain ⟨fresh', path, hok, hrequired, hpath, hbad⟩ := hleaves.fresh
      rw [hfresh, Except.ok.injEq] at hok
      subst hok
      exact ⟨hrequired, hleaves.noStore, path, hpath, hbad⟩
  · rw [h]
    refine ⟨fun hopen => absurd hopen hs, fun hleaves => ?_⟩
    obtain ⟨fresh, path, hok, -⟩ := hleaves.fresh
    exact absurd ⟨hleaves.watching, hleaves.file, hok⟩ (hnone fresh)

/-- **When authentication never fails open**: over every sequence of reloads, exactly when none of
them turns tokens on with a token file that does not load while no store is loaded. The start
establishes the invariant and `reload_unguarded_iff` is the step in both directions. -/
theorem auth_never_open_iff (digest : String → Hash) {config : Config} {source : ReloadSource}
    {load : PathBuf → Loaded} {s₀ : AuthState} (h₀ : start config source load = .ok s₀)
    (reloads : List ReloadEvent) :
    (∀ s ∈ visited reload s₀ reloads, NeverOpen digest s) ↔
      Guarded reload (fun s ev => ¬ LeavesOpen s ev) s₀ reloads := by
  simp only [neverOpen_iff]
  exact forall_visited_iff_guarded (I := fun _ => True) (P := fun s => ¬ Unguarded s)
    (fun _ _ _ => trivial)
    (fun s ev _ hs hev => mt (reload_unguarded_iff hs ev).mp hev)
    (fun s ev _ hs hnext => mt (reload_unguarded_iff hs ev).mpr hnext)
    trivial (start_guarded h₀) reloads

/-- A start without tokens, and a reload to a token file that does load: the guard is met, and no
request gets in unauthenticated. -/
theorem auth_never_open_loaded :
    let source : ReloadSource := .file (PathBuf.ofString "/etc/abora/abora.toml")
    let tokenFile := PathBuf.ofString "/etc/abora/tokens.toml"
    let store : TokenStore := ⟨[⟨⟨some "ops", ["read_all"]⟩, Vector.replicate 32 7⟩]⟩
    let missing : PathBuf → Loaded := fun _ => .failed "No such file or directory (os error 2)"
    let s₀ : AuthState := ⟨{}, none, source, true⟩
    let ev : ReloadEvent := ⟨.ok { security := ⟨true, some tokenFile⟩ }, fun _ => .ok store⟩
    start {} source missing = .ok s₀ ∧
      ∀ s ∈ visited reload s₀ [ev], NeverOpen (fun _ => Vector.replicate 32 0) s := by
  intro source tokenFile store missing s₀ ev
  have h₀ : start {} source missing = .ok s₀ := rfl
  refine ⟨h₀, (auth_never_open_iff _ h₀ _).mpr ⟨fun h => ?_, trivial⟩⟩
  obtain ⟨fresh, path, -, -, -, hbad⟩ := h.fresh
  exact hbad store rfl

/-- **Authentication can fail open.** The daemon starts without a token file; the reload that turns
tokens on finds no file at the configured path; from then on an anonymous `GET /health` from
loopback is let in. -/
theorem reload_fails_open :
    ¬ ∀ (digest : String → Hash) (config : Config) (source : ReloadSource)
        (load : PathBuf → Loaded) (s₀ : AuthState) (reloads : List ReloadEvent),
        start config source load = .ok s₀ →
        ∀ s ∈ visited reload s₀ reloads, NeverOpen digest s := by
  intro h
  let tokenFile := PathBuf.ofString "/etc/abora/tokens.toml"
  let missing : PathBuf → Loaded := fun _ =>
    .failed "could not read token file: No such file or directory (os error 2)"
  let fresh : Config := { security := ⟨true, some tokenFile⟩ }
  let source : ReloadSource := .file (PathBuf.ofString "/etc/abora/abora.toml")
  have hnever := h (fun _ => Vector.replicate 32 0) {} source missing _ [⟨.ok fresh, missing⟩] rfl
    _ (run_mem_visited _ _)
  exact neverOpen_iff.mp hnever ⟨rfl, Option.some_ne_none tokenFile, rfl⟩

end Abora.Daemon
