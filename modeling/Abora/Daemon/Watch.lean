import Abora.Lib.Lists
import Abora.Daemon.Reload

/-!
# The file watch (the `watch` branch of `signal_and_watch_loop` in `aborad/src/main.rs`)

Every tick looks at the modification time and length of the configuration file and of whatever token
file the live configuration names, and reloads if one of them is not the remembered one. The memory
is merged, not replaced: `now.or(seen)` keeps the old fingerprint of a file that is gone.

`Watching` carries every observation made so far beside the loop, so that "the tick before" and "the
last one that existed" can be said without the loop's own memory; `Remembers` is the invariant that
this memory is the second of the two. A missing file is then never equal to what is remembered of
it, which is why `OncePerChange` fails on it at every tick, and on nothing else.

A tick whose reload panics is the last one: the task is gone with it, and nothing is asked of ticks
that do not happen.
-/

namespace Abora.Daemon

open Abora.Lib

/-- `(mtime, length)` of a watched file; none if it is missing. Two contents of one length that were
written in the same instant have the same. -/
abbrev FileFingerprint := Option (SystemTime × Nat)

/-- What one tick finds: the fingerprint of the configuration file, that of any token file, and
what a reload would find. -/
structure TickEvent where
  config : FileFingerprint
  token : PathBuf → FileFingerprint
  reload : ReloadEvent

/-- The loop's own memory, and what a reload changes. -/
structure WatchState where
  auth : AuthState
  configSeen : FileFingerprint
  tokenSeen : FileFingerprint
  /-- How often `reload` was called. -/
  reloads : Nat

/-- `source.file_path().and_then(fingerprint)`. -/
def fingerprintOfConfig (s : AuthState) (config : FileFingerprint) : FileFingerprint :=
  match s.source with
  | .file _ => config
  | .builtin => none

/-- `fingerprint_of_token`. A token file that is no longer configured counts as missing. -/
def fingerprintOfToken (s : AuthState) (token : PathBuf → FileFingerprint) : FileFingerprint :=
  s.config.security.tokenFile.bind token

/-- The memory is seeded, so that the first tick is not a change. -/
def WatchState.start (s : AuthState) (config : FileFingerprint)
    (token : PathBuf → FileFingerprint) : WatchState :=
  ⟨s, fingerprintOfConfig s config, fingerprintOfToken s token, 0⟩

/-- One tick. At most one reload is run in it, whichever of the files has changed. -/
def watchTick (w : WatchState) (ev : TickEvent) : WatchState :=
  -- a panic in an earlier reload ended the task
  if w.auth.watching = false then w
  else
    let configNow := fingerprintOfConfig w.auth ev.config
    let tokenNow := fingerprintOfToken w.auth ev.token
    let changed := configNow ≠ w.configSeen ∨ tokenNow ≠ w.tokenSeen
    { auth := if changed then reload w.auth ev.reload else w.auth
      configSeen := configNow.or w.configSeen
      tokenSeen := tokenNow.or w.tokenSeen
      reloads := if changed then w.reloads + 1 else w.reloads }

/-! ## What was observed -/

/-- The fingerprints of the two files, as one tick saw them. -/
structure Observation where
  config : FileFingerprint
  token : FileFingerprint
  deriving DecidableEq

def observe (s : AuthState) (config : FileFingerprint) (token : PathBuf → FileFingerprint) :
    Observation :=
  ⟨fingerprintOfConfig s config, fingerprintOfToken s token⟩

/-- The loop with all its observations, oldest first; seeding counts as one. -/
structure Watching where
  loop : WatchState
  observed : List Observation

def Watching.start (s : AuthState) (config : FileFingerprint) (token : PathBuf → FileFingerprint) :
    Watching :=
  ⟨WatchState.start s config token, [observe s config token]⟩

def Watching.now (w : Watching) (ev : TickEvent) : Observation :=
  observe w.loop.auth ev.config ev.token

def watchingStep (w : Watching) (ev : TickEvent) : Watching :=
  if w.loop.auth.watching = false then w
  else ⟨watchTick w.loop ev, w.observed ++ [w.now ev]⟩

/-- The last existing fingerprint of each file. -/
def Watching.lastConfig (w : Watching) : FileFingerprint := lastSome (w.observed.map (·.config))

def Watching.lastToken (w : Watching) : FileFingerprint := lastSome (w.observed.map (·.token))

/-- The tick does what a watch should, as long as there is a task to run it: no reload for what was
there at the tick before, one for a file that is not the last seen. -/
structure OncePerChange (w : Watching) (ev : TickEvent) : Prop where
  /-- The same observation as at the tick before runs no reload. -/
  same : w.loop.auth.watching = true → w.observed.getLast? = some (w.now ev) →
    (watchTick w.loop ev).reloads = w.loop.reloads
  /-- A configuration file that is not the last one seen runs one. -/
  config : w.loop.auth.watching = true → ∀ f, (w.now ev).config = some f →
    w.lastConfig ≠ some f → (watchTick w.loop ev).reloads = w.loop.reloads + 1
  token : w.loop.auth.watching = true → ∀ f, (w.now ev).token = some f →
    w.lastToken ≠ some f → (watchTick w.loop ev).reloads = w.loop.reloads + 1

/-- The tick finds what the one before found, and a file that existed earlier is not in it. -/
structure Lingers (w : Watching) (ev : TickEvent) : Prop where
  watching : w.loop.auth.watching = true
  same : w.observed.getLast? = some (w.now ev)
  gone : (w.now ev).config = none ∧ w.lastConfig ≠ none ∨
    (w.now ev).token = none ∧ w.lastToken ≠ none

/-! ## The memory -/

/-- The loop remembers the last fingerprint that existed, of either file. It is kept by every tick,
whatever is found. -/
structure Remembers (w : Watching) : Prop where
  config : w.loop.configSeen = w.lastConfig
  token : w.loop.tokenSeen = w.lastToken
  nonempty : w.observed ≠ []

theorem start_remembers (s : AuthState) (config : FileFingerprint)
    (token : PathBuf → FileFingerprint) : Remembers (Watching.start s config token) := by
  have hlast (f : FileFingerprint) : lastSome [f] = f := by
    simpa using lastSome_concat [] f
  exact ⟨(hlast _).symm, (hlast _).symm, List.cons_ne_nil _ _⟩

theorem watchingStep_remembers {w : Watching} (hw : Remembers w) (ev : TickEvent) :
    Remembers (watchingStep w ev) := by
  unfold watchingStep
  by_cases hdead : w.loop.auth.watching = false
  · rw [if_pos hdead]
    exact hw
  rw [if_neg hdead]
  have hconfig : (watchTick w.loop ev).configSeen = (w.now ev).config.or w.loop.configSeen := by
    rw [watchTick, if_neg hdead]
    rfl
  have htoken : (watchTick w.loop ev).tokenSeen = (w.now ev).token.or w.loop.tokenSeen := by
    rw [watchTick, if_neg hdead]
    rfl
  refine ⟨?_, ?_, by simp⟩
  · rw [hconfig, hw.config, Watching.lastConfig, Watching.lastConfig]
    simp
  · rw [htoken, hw.token, Watching.lastToken, Watching.lastToken]
    simp

/-- When a tick reloads, in terms of what was observed and not of what is remembered. -/
theorem watchTick_reloads {w : Watching} (hw : Remembers w)
    (hwatching : w.loop.auth.watching = true) (ev : TickEvent) :
    (watchTick w.loop ev).reloads =
      if (w.now ev).config ≠ w.lastConfig ∨ (w.now ev).token ≠ w.lastToken then
        w.loop.reloads + 1
      else w.loop.reloads := by
  rw [watchTick, if_neg (by simp [hwatching]), ← hw.config, ← hw.token]
  rfl

/-- What was just observed and existed is what is remembered. -/
theorem last_eq_of_getLast {α β : Type*} {l : List α} {a : α} (h : l.getLast? = some a)
    (f : α → Option β) {b : β} (hf : f a = some b) : lastSome (l.map f) = some b := by
  obtain ⟨l', rfl⟩ := List.getLast?_eq_some_iff.mp h
  simp [hf]

/-! ## One tick -/

/-- A file observed at the tick before is still the one remembered, unless it was missing then. -/
theorem changed_of_same {w : Watching} {ev : TickEvent}
    (hsame : w.observed.getLast? = some (w.now ev)) :
    ((w.now ev).config ≠ w.lastConfig ∨ (w.now ev).token ≠ w.lastToken) ↔
      (w.now ev).config = none ∧ w.lastConfig ≠ none ∨
        (w.now ev).token = none ∧ w.lastToken ≠ none := by
  have hfile (now last : FileFingerprint) (h : ∀ f, now = some f → last = some f) :
      now ≠ last ↔ now = none ∧ last ≠ none := by
    cases now with
    | none => simp [eq_comm]
    | some f => simp [h f rfl]
  refine or_congr (hfile _ _ ?_) (hfile _ _ ?_)
  · intro f hf
    exact last_eq_of_getLast hsame (·.config) hf
  · intro f hf
    exact last_eq_of_getLast hsame (·.token) hf

/-- **A tick goes wrong exactly when a file lingers in the memory**: every other tick that finds
what the one before found has both files there, or never had them. -/
theorem oncePerChange_iff {w : Watching} (hw : Remembers w) (ev : TickEvent) :
    OncePerChange w ev ↔ ¬ Lingers w ev := by
  constructor
  · intro honce hlingers
    have hquiet := honce.same hlingers.watching hlingers.same
    rw [watchTick_reloads hw hlingers.watching,
      if_pos ((changed_of_same hlingers.same).mpr hlingers.gone)] at hquiet
    omega
  · intro hnot
    refine ⟨fun hwatching hsame => ?_, fun hwatching f hf hne => ?_, fun hwatching f hf hne => ?_⟩
    · rw [watchTick_reloads hw hwatching, if_neg]
      intro hchanged
      exact hnot ⟨hwatching, hsame, (changed_of_same hsame).mp hchanged⟩
    · rw [watchTick_reloads hw hwatching, if_pos]
      exact .inl fun heq => hne (heq.symm.trans hf)
    · rw [watchTick_reloads hw hwatching, if_pos]
      exact .inr fun heq => hne (heq.symm.trans hf)

/-! ## Runs -/

/-- **When the watch reloads once per change.** Over every sequence of ticks: exactly when no tick
finds again what the tick before found while a file that was there at some earlier observation is
missing, or no longer configured. -/
theorem watch_once_per_change_iff (s : AuthState) (config : FileFingerprint)
    (token : PathBuf → FileFingerprint) (ticks : List TickEvent) :
    (∀ pre ev post, ticks = pre ++ ev :: post →
        OncePerChange (run watchingStep (Watching.start s config token) pre) ev) ↔
      Guarded watchingStep (fun w ev => ¬ Lingers w ev) (Watching.start s config token) ticks := by
  rw [← guarded_iff_forall]
  exact guarded_congr (I := Remembers) (fun w ev hw => watchingStep_remembers hw ev)
    (fun w ev hw => oncePerChange_iff hw ev) (start_remembers s config token) ticks

/-- An edited file that stays as it is: the tick that finds it reloads, the next one does not. -/
theorem watch_once_edited :
    let s : AuthState := ⟨{}, none, .file (PathBuf.ofString "/etc/abora/abora.toml"), true⟩
    let edited : TickEvent := ⟨some (2000, 41), fun _ => none, ⟨.ok {}, fun _ => .failed "unused"⟩⟩
    let w := Watching.start s (some (1000, 40)) fun _ => none
    OncePerChange w edited ∧ OncePerChange (watchingStep w edited) edited ∧
      (run watchingStep w [edited, edited]).loop.reloads = 1 := by
  intro s edited w
  have hguard : Guarded watchingStep (fun w ev => ¬ Lingers w ev) w [edited, edited] := by
    refine ⟨fun h => ?_, fun h => ?_, trivial⟩
    · exact absurd h.same (by decide)
    · rcases h.gone with ⟨hnow, -⟩ | ⟨-, hlast⟩
      · exact absurd hnow (by decide)
      · exact hlast (by decide)
  have honce := (watch_once_per_change_iff s (some (1000, 40)) (fun _ => none)
    [edited, edited]).mpr hguard
  exact ⟨honce [] edited [edited] rfl, honce [edited] edited [] rfl, by decide⟩

/-- **A deleted file is reloaded for at every tick.** The configuration file is there when the
daemon starts and gone from then on: the second tick finds what the first found, and reloads. -/
theorem watch_reloads_again :
    ¬ ∀ (s : AuthState) (config : FileFingerprint) (token : PathBuf → FileFingerprint)
        (ticks : List TickEvent), ∀ pre ev post, ticks = pre ++ ev :: post →
        OncePerChange (run watchingStep (Watching.start s config token) pre) ev := by
  intro h
  let s : AuthState := ⟨{}, none, .file (PathBuf.ofString "/etc/abora/abora.toml"), true⟩
  let gone : TickEvent := ⟨none, fun _ => none, ⟨.error "No such file or directory", fun _ =>
    .failed "No such file or directory"⟩⟩
  have honce := h s (some (1000, 40)) (fun _ => none) [gone, gone] [gone] gone [] rfl
  have hquiet := honce.same rfl rfl
  exact absurd hquiet (by decide)

end Abora.Daemon
