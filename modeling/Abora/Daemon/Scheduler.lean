import Abora.Daemon.Requests
import Abora.Lib.Paced

/-!
# The update scheduler (`aborad/src/scheduler.rs`)

A loop that wakes every thirty seconds, evaluates the policy, ingests what the helper left, checks
when a check is due and asks for an automatic apply when one may be asked for. It shares the update
state with the rest of the daemon and takes no lock across a tick, so what it finds there, which
configuration it copies and how late it wakes are all up to the environment (`TickEnv`).

The loop keeps two times, and each of them is the start of the last run of its kind (`Paced`); the
ingest of a result clears one of them, and a check is due at once. So the promise is a fact about
neighbours in the record of what was started: `scheduler_rate_limited`.

A tick is five steps, and each of the two invariants is touched by one of them only, but for the
clock, which may always go on (`ChecksOk.later`, `AutosOk.later`). The ingest is the one exception:
it clears the memory of the checks, so it is taken together with the check of the same tick
(`ingest_check_checksOk`).
-/

namespace Abora.Daemon

open Abora.Lib Abora.Update

/-- An `Instant`, in nanoseconds since some origin. -/
abbrev Instant := Nat

/-- `TICK`. -/
def tickLength : Duration := Duration.fromSecs 30

/-- What the machine answers to one check. -/
structure CheckEnv where
  run : Except String String
  now : String
  saved : Except StoreError Unit

/-- Where a tick uses the shared update state. Others may have used it since. -/
inductive Moment where
  | schedule | ingest | check | inputs | request
  deriving DecidableEq

/-- What one tick meets. A task that is run on the blocking pool has no answer if it panicked. -/
structure TickEnv where
  config : Config
  localTime : Option (Option LocalTime)
  /-- What the others did to the update state since it was last used here. -/
  others : Moment → UpdatesState → UpdatesState
  ingest : Option IngestEnv
  check : Option CheckEnv
  /-- Whether the request file is there when `apply_inputs` looks. -/
  pending : Bool
  request : Option ApplyEnv
  /-- The time from each reading of the clock to the next. -/
  toDue : Duration
  toCheck : Duration
  toInputs : Duration
  toRequest : Duration
  overslept : Duration

structure CheckRun where
  started : Instant
  config : Config
  /-- The tick had just recorded a result of the helper. -/
  ingested : Bool
  ok : Bool

/-- An automatic apply the loop asked for, with everything it was decided on. -/
structure AutoRun where
  started : Instant
  config : Config
  /-- The time the policy was evaluated for. -/
  localTime : Option LocalTime
  /-- What `apply_inputs` looked at. -/
  available : List AvailableUpdate
  pending : Bool
  env : Option ApplyEnv
  written : Option ApplyRequest

inductive LogLine where
  | noLocalTime
  | policyChanged (perms : Permissions)
  | applyFinished
  | checkFinished (updates : Nat)
  | checkFailed (message : String)
  | checkPanicked
  | autoRequested (packages : Nat) (id : String)
  | autoRefused (refusal : ApplyRefusal)
  | autoPanicked
  deriving DecidableEq

/-- The loop between two ticks: its four variables, the clock and the shared state, and a record of
what it did. -/
structure Scheduler where
  lastAttempt : Option Instant
  lastOk : Bool
  previous : Option Permissions
  lastAutoAttempt : Option Instant
  clock : Instant
  updates : UpdatesState
  log : List LogLine
  checks : List CheckRun
  autos : List AutoRun

namespace Scheduler

def start (clock : Instant) (updates : UpdatesState) : Scheduler :=
  ⟨none, true, none, none, clock, updates, [], [], []⟩

/-- Evaluate the policy, publish it, and log it when it changed. -/
def evaluate (l : Scheduler) (env : TickEnv) : Scheduler × Permissions :=
  let now := env.localTime.join
  let perms := permissions env.config now
  let info : ScheduleInfo :=
    ⟨(checkInterval env.config).asSecs, perms.inMaintenanceWindow, perms.applyPermitted,
      perms.installsPermitted, perms.rebootPermitted⟩
  let lost := if now.isNone then [LogLine.noLocalTime] else []
  let changed :=
    if l.previous.isSome && l.previous != some perms then [LogLine.policyChanged perms] else []
  ({ l with
      updates := (env.others .schedule l.updates).setSchedule info
      log := l.log ++ lost ++ changed
      previous := some perms }, perms)

/-- Record what the helper left; then a check is due at once. -/
def ingest (decode : Bytes → Option ApplyResult) (l : Scheduler) (env : TickEnv) :
    Scheduler × Bool :=
  let updates := env.others .ingest l.updates
  match env.ingest with
  | none => ({ l with updates := updates }, false)
  | some answers =>
    match updates.ingestApplyResult decode env.config.updates.channel answers with
    | (updates, false) => ({ l with updates := updates }, false)
    | (updates, true) =>
      ({ l with updates := updates, lastAttempt := none, log := l.log ++ [.applyFinished] }, true)

def due (l : Scheduler) (interval : Duration) : Bool :=
  match l.lastAttempt with
  | none => true
  | some t => checkIsDue (l.clock - t) l.lastOk interval

/-- What a check that was started came to. One that panicked counts as failed. -/
def refreshed (updates : UpdatesState) (env : TickEnv) : UpdatesState × Bool × LogLine :=
  match env.check with
  | none => (updates, false, .checkPanicked)
  | some c =>
    match updates.refresh env.config.updates.channel c.run c.now c.saved with
    | (updates, .ok n) => (updates, true, .checkFinished n)
    | (updates, .error e) => (updates, false, .checkFailed e)

def check (l : Scheduler) (env : TickEnv) (ingested : Bool) : Scheduler :=
  let l := { l with clock := l.clock + env.toDue }
  if l.due (checkInterval env.config) then
    let started := l.clock + env.toCheck
    let (updates, ok, line) := refreshed (env.others .check l.updates) env
    { l with
      clock := started
      lastAttempt := some started
      lastOk := ok
      updates := updates
      log := l.log ++ [line]
      checks := l.checks ++ [⟨started, env.config, ingested, ok⟩] }
  else l

def caller : String := "automatic (scheduler)"

def requested (updates : UpdatesState) (env : TickEnv) : Option ApplyRequest × LogLine :=
  match env.request with
  | none => (none, .autoPanicked)
  | some answers =>
    match updates.requestApply env.config caller false answers with
    | (.ok resp, request) => (request, .autoRequested resp.packages.length (resp.id.getD "-"))
    | (.error refusal, request) => (request, .autoRefused refusal)

/-- Ask for an automatic apply, if one may be asked for. The permissions are those of the beginning
of the tick, however long the check took in between. -/
def auto (l : Scheduler) (env : TickEnv) (perms : Permissions) : Scheduler :=
  let updates := env.others .inputs l.updates
  let l := { l with clock := l.clock + env.toInputs, updates := updates }
  let (hasAvailable, pending) := updates.applyInputs env.pending
  let since := l.lastAutoAttempt.map (l.clock - ·)
  if shouldAutoApply perms hasAvailable pending since (checkInterval env.config) then
    let started := l.clock + env.toRequest
    let found := env.others .request l.updates
    let (written, line) := requested found env
    { l with
      clock := started
      lastAutoAttempt := some started
      updates := found
      log := l.log ++ [line]
      autos := l.autos ++ [⟨started, env.config, env.localTime.join, updates.available, pending,
        env.request, written⟩] }
  else l

/-- The thirty seconds between two turns, and whatever is added to them. -/
def sleep (l : Scheduler) (env : TickEnv) : Scheduler :=
  { l with clock := l.clock + tickLength + env.overslept }

def tick (decode : Bytes → Option ApplyResult) (l : Scheduler) (env : TickEnv) : Scheduler :=
  let (l, perms) := l.evaluate env
  let (l, ingested) := l.ingest decode env
  ((l.check env ingested).auto env perms).sleep env

end Scheduler

/-! ## What the loop promises -/

/-- What an automatic attempt needs: the setting, the policy, something to apply, and no request
that waits. -/
structure AutoRun.Gated (a : AutoRun) : Prop where
  automatic : a.config.updates.automatic = true
  permitted : (permissions a.config a.localTime).installsPermitted = true
  available : a.available ≠ []
  idle : a.pending = false

/-- A request is written inside a window, by the time that is read for it: the daemon looks at the
clock once more. -/
def AutoRun.InWindow (a : AutoRun) : Prop :=
  ∀ r, a.written = some r → ∃ env, a.env = some env ∧ OpenAt a.config env.localTime

/-- The second attempt waits for the interval of its own tick. -/
def AutoRun.Apart (a b : AutoRun) : Prop := a.started + checkInterval b.config ≤ b.started

/-- The second check waits for the interval of its own tick, a retry no longer than the bound. -/
structure CheckRun.Apart (a b : CheckRun) : Prop where
  afterSuccess : a.ok = true → a.started + checkInterval b.config ≤ b.started
  afterFailure : a.ok = false →
    a.started + min (checkInterval b.config) retryAfterFailure ≤ b.started

/-- A check in a tick that recorded a result of the helper waits for nothing. -/
def CheckRun.Spaced (a b : CheckRun) : Prop := b.ingested = true ∨ a.Apart b

/-- What the loop promises about everything it has started, each attempt by itself and next to the
one before. -/
structure RateLimited (l : Scheduler) : Prop where
  gated : ∀ a ∈ l.autos, a.Gated
  inWindow : ∀ a ∈ l.autos, a.InWindow
  autosApart : l.autos.IsChain AutoRun.Apart
  checksApart : l.checks.IsChain CheckRun.Spaced

/-! ## The parts of a tick -/

theorem apart_of_wait {a b : CheckRun}
    (h : a.started + checkWait a.ok (checkInterval b.config) ≤ b.started) : a.Apart b := by
  unfold checkWait at h
  constructor
  · intro hok
    rwa [if_pos hok] at h
  · intro hok
    rwa [if_neg (by simp [hok])] at h

theorem le_later (t : Nat) (a b : Nat) : t ≤ t + a + b :=
  (Nat.le_add_right t a).trans (Nat.le_add_right _ b)

theorem requested_written {updates : UpdatesState} {env : TickEnv} {r : ApplyRequest}
    (h : (Scheduler.requested updates env).1 = some r) :
    ∃ answers, env.request = some answers ∧ OpenAt env.config answers.localTime := by
  unfold Scheduler.requested at h
  cases hrequest : env.request with
  | none =>
    rw [hrequest] at h
    cases h
  | some answers =>
    rw [hrequest] at h
    refine ⟨answers, rfl, ?_⟩
    dsimp only at h
    have hcases := requestApply_cases updates env.config Scheduler.caller answers
    generalize updates.requestApply env.config Scheduler.caller false answers = out at h hcases
    rcases hcases with ⟨reason, -, rfl⟩ | ⟨hblock, -⟩
    · cases h
    · exact (block_eq_none_iff.mp hblock).2.2

theorem ingest_eq (decode : Bytes → Option ApplyResult) (l : Scheduler) (env : TickEnv) :
    ∃ updates, l.ingest decode env = ({ l with updates := updates }, false) ∨
      l.ingest decode env =
        ({ l with updates := updates, lastAttempt := none, log := l.log ++ [.applyFinished] },
          true) := by
  unfold Scheduler.ingest
  cases env.ingest with
  | none => exact ⟨_, .inl rfl⟩
  | some answers =>
    dsimp only
    generalize (env.others .ingest l.updates).ingestApplyResult decode env.config.updates.channel
      answers = out
    obtain ⟨updates, recorded⟩ := out
    cases recorded with
    | false => exact ⟨updates, .inl rfl⟩
    | true => exact ⟨updates, .inr rfl⟩

theorem check_cases (l : Scheduler) (env : TickEnv) (ingested : Bool) :
    (l.lastAttempt ≠ none ∧ l.check env ingested = { l with clock := l.clock + env.toDue }) ∨
      ∃ updates ok log,
        (∀ t ∈ l.lastAttempt,
          checkWait l.lastOk (checkInterval env.config) ≤ l.clock + env.toDue - t) ∧
        l.check env ingested =
          { l with
            clock := l.clock + env.toDue + env.toCheck
            lastAttempt := some (l.clock + env.toDue + env.toCheck)
            lastOk := ok
            updates := updates
            log := log
            checks := l.checks ++
              [⟨l.clock + env.toDue + env.toCheck, env.config, ingested, ok⟩] } := by
  unfold Scheduler.check
  by_cases hdue : ({ l with clock := l.clock + env.toDue } : Scheduler).due
      (checkInterval env.config) = true
  · refine .inr ⟨_, _, _, ?_, if_pos hdue⟩
    intro t ht
    simp only [Scheduler.due, Option.mem_def.mp ht, checkIsDue, decide_eq_true_eq] at hdue
    exact hdue
  · refine .inl ⟨fun hnone => hdue ?_, if_neg hdue⟩
    simp only [Scheduler.due, hnone]

theorem auto_cases (l : Scheduler) (env : TickEnv) (perms : Permissions) :
    (∃ updates, l.auto env perms =
        { l with clock := l.clock + env.toInputs, updates := updates }) ∨
      ∃ updates log,
        shouldAutoApply perms (!(env.others .inputs l.updates).available.isEmpty) env.pending
            (l.lastAutoAttempt.map (l.clock + env.toInputs - ·)) (checkInterval env.config) = true ∧
        l.auto env perms =
          { l with
            clock := l.clock + env.toInputs + env.toRequest
            lastAutoAttempt := some (l.clock + env.toInputs + env.toRequest)
            updates := updates
            log := log
            autos := l.autos ++
              [⟨l.clock + env.toInputs + env.toRequest, env.config, env.localTime.join,
                (env.others .inputs l.updates).available, env.pending, env.request,
                (Scheduler.requested updates env).1⟩] } := by
  unfold Scheduler.auto
  by_cases hauto : shouldAutoApply perms (!(env.others .inputs l.updates).available.isEmpty)
      env.pending (l.lastAutoAttempt.map (l.clock + env.toInputs - ·))
      (checkInterval env.config) = true
  · exact .inr ⟨_, _, hauto, if_pos hauto⟩
  · exact .inl ⟨_, if_neg hauto⟩

/-! ## The invariant -/

/-- The memory of the checks, and what it has led to. -/
structure ChecksOk (l : Scheduler) : Prop where
  paced : Paced CheckRun.started CheckRun.Spaced l.lastAttempt l.clock l.checks
  ok : ∀ c ∈ l.checks.getLast?, l.lastOk = c.ok

/-- The memory of the automatic attempts, and what it has led to. -/
structure AutosOk (l : Scheduler) : Prop where
  paced : Paced AutoRun.started AutoRun.Apart l.lastAutoAttempt l.clock l.autos
  gated : ∀ a ∈ l.autos, a.Gated
  inWindow : ∀ a ∈ l.autos, a.InWindow

theorem start_checksOk (clock : Instant) (updates : UpdatesState) :
    ChecksOk (Scheduler.start clock updates) :=
  ⟨.nil, fun _ h => (by cases h)⟩

theorem start_autosOk (clock : Instant) (updates : UpdatesState) :
    AutosOk (Scheduler.start clock updates) :=
  ⟨.nil, fun _ h => (by cases h), fun _ h => (by cases h)⟩

theorem ChecksOk.later {l l' : Scheduler} (hl : ChecksOk l) (hlast : l'.lastAttempt = l.lastAttempt)
    (hok : l'.lastOk = l.lastOk) (hchecks : l'.checks = l.checks) (hclock : l.clock ≤ l'.clock) :
    ChecksOk l' := by
  constructor
  · rw [hlast, hchecks]
    exact hl.paced.later hclock
  · rw [hok, hchecks]
    exact hl.ok

theorem AutosOk.later {l l' : Scheduler} (hl : AutosOk l)
    (hlast : l'.lastAutoAttempt = l.lastAutoAttempt) (hautos : l'.autos = l.autos)
    (hclock : l.clock ≤ l'.clock) : AutosOk l' := by
  constructor
  · rw [hlast, hautos]
    exact hl.paced.later hclock
  · rw [hautos]
    exact hl.gated
  · rw [hautos]
    exact hl.inWindow

theorem check_checksOk {l : Scheduler} (hl : ChecksOk l) (env : TickEnv) (ingested : Bool) :
    ChecksOk (l.check env ingested) := by
  rcases check_cases l env ingested with ⟨-, h⟩ | ⟨updates, ok, log, hwait, h⟩
  · rw [h]
    exact hl.later rfl rfl rfl (Nat.le_add_right _ _)
  · rw [h]
    refine ⟨.push rfl hl.paced.apart fun a ha => .inr (apart_of_wait ?_), by simp⟩
    have hover := hl.paced.waited ha (Nat.le_add_right _ _) hwait env.toCheck
    rwa [hl.ok a ha] at hover

/-- After an ingest that recorded a result, a check is due at once and waits for nothing. -/
theorem check_cleared {l : Scheduler} (hnone : l.lastAttempt = none)
    (hspaced : l.checks.IsChain CheckRun.Spaced) (env : TickEnv) :
    ChecksOk (l.check env true) := by
  rcases check_cases l env true with ⟨hsome, -⟩ | ⟨updates, ok, log, -, h⟩
  · exact absurd hnone hsome
  · rw [h]
    exact ⟨.push rfl hspaced fun a _ => .inl rfl, by simp⟩

theorem ingest_check_checksOk (decode : Bytes → Option ApplyResult) {l : Scheduler}
    (hl : ChecksOk l) (env : TickEnv) :
    ChecksOk ((l.ingest decode env).1.check env (l.ingest decode env).2) := by
  obtain ⟨updates, h | h⟩ := ingest_eq decode l env
  · rw [h]
    have hsame : ChecksOk { l with updates := updates } := hl.later rfl rfl rfl le_rfl
    exact check_checksOk hsame env false
  · have hnone : (l.ingest decode env).1.lastAttempt = none := by rw [h]
    have hspaced : (l.ingest decode env).1.checks.IsChain CheckRun.Spaced := by
      rw [h]
      exact hl.paced.apart
    have htrue : (l.ingest decode env).2 = true := by rw [h]
    rw [htrue]
    exact check_cleared hnone hspaced env

theorem auto_autosOk {l : Scheduler} (hl : AutosOk l) (env : TickEnv) :
    AutosOk (l.auto env (permissions env.config env.localTime.join)) := by
  rcases auto_cases l env (permissions env.config env.localTime.join) with
    ⟨updates, h⟩ | ⟨updates, log, hshould, h⟩
  · rw [h]
    exact hl.later rfl rfl (Nat.le_add_right _ _)
  · obtain ⟨hpermitted, havailable, hidle, hsince⟩ := shouldAutoApply_iff.mp hshould
    have hwait : ∀ t ∈ l.lastAutoAttempt,
        checkInterval env.config ≤ l.clock + env.toInputs - t := by
      intro t ht
      exact hsince _ (Option.mem_map_of_mem _ ht)
    rw [h]
    refine ⟨.push rfl hl.paced.apart fun a ha => ?_, fun a ha => ?_, fun a ha => ?_⟩
    · exact hl.paced.waited ha (Nat.le_add_right _ _) hwait env.toRequest
    · rcases List.mem_append.mp ha with ha | ha
      · exact hl.gated a ha
      · rw [List.mem_singleton.mp ha]
        exact
          { automatic := (installsPermitted_iff.mp hpermitted).1
            permitted := hpermitted
            available := by simpa using havailable
            idle := hidle }
    · rcases List.mem_append.mp ha with ha | ha
      · exact hl.inWindow a ha
      · rw [List.mem_singleton.mp ha]
        exact fun r hr => requested_written hr

/-! ## A tick, and a run -/

/-- Nothing but the check touches the memory of the checks, and the ingest right before it. -/
theorem tick_checksOk (decode : Bytes → Option ApplyResult) {l : Scheduler} (hl : ChecksOk l)
    (env : TickEnv) : ChecksOk (l.tick decode env) := by
  have heval : ChecksOk (l.evaluate env).1 := hl.later rfl rfl rfl le_rfl
  have hcheck := ingest_check_checksOk decode heval env
  generalize hmid : ((l.evaluate env).1.ingest decode env).1.check env
    ((l.evaluate env).1.ingest decode env).2 = mid at hcheck
  have hauto : ChecksOk (mid.auto env (l.evaluate env).2) := by
    rcases auto_cases mid env (l.evaluate env).2 with ⟨updates, h⟩ | ⟨updates, log, -, h⟩
    · rw [h]
      exact hcheck.later rfl rfl rfl (Nat.le_add_right _ _)
    · rw [h]
      exact hcheck.later rfl rfl rfl (le_later _ _ _)
  have htick : l.tick decode env = (mid.auto env (l.evaluate env).2).sleep env := by
    rw [← hmid]
    rfl
  rw [htick]
  exact hauto.later rfl rfl rfl (le_later _ _ _)

/-- Nothing but the automatic apply touches the memory of the attempts. -/
theorem tick_autosOk (decode : Bytes → Option ApplyResult) {l : Scheduler} (hl : AutosOk l)
    (env : TickEnv) : AutosOk (l.tick decode env) := by
  have hingest : AutosOk ((l.evaluate env).1.ingest decode env).1 := by
    obtain ⟨updates, h | h⟩ := ingest_eq decode (l.evaluate env).1 env
    · rw [h]
      exact hl.later rfl rfl le_rfl
    · rw [h]
      exact hl.later rfl rfl le_rfl
  have hcheck : AutosOk (((l.evaluate env).1.ingest decode env).1.check env
      ((l.evaluate env).1.ingest decode env).2) := by
    rcases check_cases ((l.evaluate env).1.ingest decode env).1 env
      ((l.evaluate env).1.ingest decode env).2 with ⟨-, h⟩ | ⟨updates, ok, log, -, h⟩
    · rw [h]
      exact hingest.later rfl rfl (Nat.le_add_right _ _)
    · rw [h]
      exact hingest.later rfl rfl (le_later _ _ _)
  exact (auto_autosOk hcheck env).later rfl rfl (le_later _ _ _)

/-- **The scheduler keeps its limits**, whatever it meets: an automatic apply is asked for only in a
tick that may, an interval after the one before; what it writes is written inside a window; and a
check waits for the one before it, unless its tick recorded a result of the helper. -/
theorem scheduler_rate_limited (decode : Bytes → Option ApplyResult) (clock : Instant)
    (updates : UpdatesState) (ticks : List TickEnv) :
    RateLimited (run (Scheduler.tick decode) (Scheduler.start clock updates) ticks) := by
  obtain ⟨hchecks, hautos⟩ := run_invariant (I := fun l : Scheduler => ChecksOk l ∧ AutosOk l)
    (fun _ env h => ⟨tick_checksOk decode h.1 env, tick_autosOk decode h.2 env⟩)
    ⟨start_checksOk clock updates, start_autosOk clock updates⟩ ticks
  exact ⟨hautos.gated, hautos.inWindow, hautos.paced.apart, hchecks.paced.apart⟩

end Abora.Daemon
