import Mathlib.Logic.Function.Basic
import Abora.Config.Validate
import Abora.Daemon.Scheduler
import Abora.Daemon.Server
import Abora.Lib.Codec
import Abora.Protocol.Paths

/-!
# The whole host

Everything that takes part in an upgrade, in one machine: the HTTP server, the reload task, the
scheduler and the update state of a running daemon (`Aborad`), the request and result files, and the
runs of the root helper. Each step is one thing that happens between two looks at something shared —
a request passes the middleware, a handler copies the configuration, `request_apply` checks, it
writes — so a schedule may put anything between any two of them. The daemon may be stopped and
started at any point; the files outlive it.

The helper reads whatever the daemon last put at the path it looks at: nobody else writes requests.
Everything else a run is told is up to the event.

The functions called here are those of the modules below, so a step of the host is a step of the
server, the scheduler, the reload or the helper with something else around it. What is new is the
queues between them: the requests that were let in and have not read the configuration, the calls
that have and were not checked, the ones that were checked and have not written, and the helper runs
that have done their work and not left it. Nothing is said about them in this module; what is true
of whatever is in them is `Abora.Protocol.Provenance`.
-/

namespace Abora.Protocol

open Lib Update Daemon

/-- Who called `request_apply`. -/
inductive Asker where
  | client (req : HttpRequest)
  | scheduler

/-- A client's apply that was let in, before its handler has read the configuration. -/
structure Admission where
  req : HttpRequest
  caller : String
  dryRun : Bool

/-- A call of `request_apply`, with its copy of the configuration. -/
structure ApplyCall where
  asker : Asker
  caller : String
  dryRun : Bool
  config : Config

/-- What one turn of the scheduler's loop works with, from beginning to end. -/
structure Turn where
  config : Config
  now : Option LocalTime

/-- How far the turn has got. -/
inductive Place where
  | waking
  | evaluated (turn : Turn)
  | ingested (turn : Turn)
  | checked (turn : Turn)

structure Loop where
  place : Place
  lastAttempt : Option Instant
  lastOk : Bool
  lastAutoAttempt : Option Instant

def Loop.start : Loop := ⟨.waking, none, true, none⟩

/-- A running daemon, with the calls that are on their way through it. -/
structure Aborad where
  auth : AuthState
  /-- A reload has installed its configuration and not yet the tokens. -/
  reloading : Bool
  routes : List Route
  updates : UpdatesState
  loop : Loop
  clock : Instant
  admitted : List Admission
  calls : List ApplyCall
  /-- The calls that passed their check, each with what it will write. -/
  ready : List (ApplyCall × ApplyRequest)

/-- The daemon, if one is up, the two kinds of files, and the helper runs that are not over. -/
structure Host where
  daemon : Option Aborad
  requests : PathBuf → Option ApplyRequest
  results : PathBuf → Option ApplyResult
  /-- The helper runs that have done their work and not yet left their result. -/
  ended : List Helper.Report

inductive DaemonEvent where
  | http (req : HttpRequest) (m : Daemon.Machine)
  /-- The handler of the `i`-th admitted apply reads the configuration. -/
  | copy (i : Nat)
  /-- The `i`-th call reads the list, the clock and the request file. -/
  | check (i : Nat) (env : ApplyEnv)
  | write (i : Nat) (written : Except String Unit)
  /-- The two halves of a reload. -/
  | reload (fresh : Except String Config)
  | tokens (load : PathBuf → Loaded)
  /-- The four parts of a turn of the scheduler. -/
  | evaluate (now : Option LocalTime)
  | ingest (saved : Option (Except StoreError Unit))
  | refresh (env : Option CheckEnv)
  | auto
  | pass (d : Duration)

inductive HostEvent where
  | start (config : Config) (source : ReloadSource) (load : PathBuf → Loaded)
      (opened : Except StoreError (UpdateStore × Opened))
  | stop
  | daemon (ev : DaemonEvent)
  /-- A helper run, up to its result. -/
  | helper (args : Helper.Args) (env : Helper.RunEnv)
  /-- The `i`-th run writes its result and removes the request. -/
  | leave (i : Nat) (removed : Bool)

/-- What is not this program's: the framework, the digest, the TOML reader and the serializers. -/
structure World where
  ax : Axum
  digest : String → Hash
  fromStr : String → Except String Config
  requests : Codec ApplyRequest
  results : Codec ApplyResult

namespace Aborad

def server (d : Aborad) : Server := ⟨d.routes, d.auth.config, d.auth.tokens, d.updates⟩

/-- A request, up to the body of its handler. The two guards are held together, so what judges it is
one pair (`Daemon.swap_run_ok`). -/
def http (w : World) (d : Aborad) (req : HttpRequest) (m : Daemon.Machine) : Aborad :=
  match d.server.route w.ax req with
  | none => d
  | some route =>
    match withAuth w.digest d.server req.auth route.permission with
    | .error _ => d
    | .ok caller =>
      if route.takes req.method then
        match route.handler with
        | .applyUpdates =>
          match w.ax.queryArgs req.query with
          | .error _ => d
          | .ok params =>
            match params.foldlM (fun _ p => applyParam p.1 p.2) false with
            | .error _ => d
            | .ok dryRun => { d with admitted := d.admitted ++ [⟨req, caller, dryRun⟩] }
        -- looking at the reboot marker may change the store
        | .updates =>
          { d with
            updates := (d.updates.response m.apply.pending m.marker m.pkgs m.apply.now m.saved).1 }
        | _ => d
      else d

def copy (d : Aborad) (i : Nat) : Aborad :=
  match d.admitted[i]? with
  | none => d
  | some a =>
    { d with
      admitted := d.admitted.eraseIdx i
      calls := d.calls ++ [⟨.client a.req, a.caller, a.dryRun, d.auth.config⟩] }

def check (d : Aborad) (pending : Bool) (i : Nat) (env : ApplyEnv) : Aborad :=
  match d.calls[i]? with
  | none => d
  | some call =>
    let d := { d with calls := d.calls.eraseIdx i }
    if call.dryRun then d
    else
      match d.updates.block call.config pending env.localTime with
      | some _ => d
      | none => { d with ready := d.ready ++ [(call, d.updates.request call.caller env)] }

/-- `reload`, up to the first write of `apply_reload`. -/
def reload (d : Aborad) (fresh : Except String Config) : Aborad :=
  if d.auth.watching = false ∨ d.reloading = true then d
  else
    match d.auth.source, fresh with
    | .file _, .ok fresh =>
      { d with auth := { d.auth with config := fresh }, reloading := true }
    | _, _ => d

def tokens (d : Aborad) (load : PathBuf → Loaded) : Aborad :=
  if d.reloading then { d with auth := refreshTokens d.auth load, reloading := false } else d

def evaluate (d : Aborad) (now : Option LocalTime) : Aborad :=
  match d.loop.place with
  | .waking =>
    let perms := permissions d.auth.config now
    { d with
      updates := d.updates.setSchedule
        ⟨(checkInterval d.auth.config).asSecs, perms.inMaintenanceWindow, perms.applyPermitted,
          perms.installsPermitted, perms.rebootPermitted⟩
      loop := { d.loop with place := .evaluated ⟨d.auth.config, now⟩ } }
  | _ => d

/-- What an ingest finds: the result file as it was written. -/
def ingestEnv (w : World) (file : Option ApplyResult) (saved : Except StoreError Unit) :
    IngestEnv :=
  match file with
  | none =>
    let missing := "No such file or directory (os error 2)"
    ⟨.error missing, 0, .error missing, saved⟩
  | some result =>
    let bytes := w.results.encode result
    ⟨.ok ⟨true, bytes.length, none⟩, 0, .ok bytes, saved⟩

def ingest (w : World) (d : Aborad) (file : Option ApplyResult)
    (saved : Option (Except StoreError Unit)) : Aborad :=
  match d.loop.place with
  | .evaluated turn =>
    let loop := { d.loop with place := .ingested turn }
    match saved with
    | none => { d with loop := loop }
    | some saved =>
      let (updates, recorded) := d.updates.ingestApplyResult w.results.decode
        turn.config.updates.channel (ingestEnv w file saved)
      -- a check is due at once
      let loop := if recorded then { loop with lastAttempt := none } else loop
      { d with updates := updates, loop := loop }
  | _ => d

def due (d : Aborad) (interval : Duration) : Bool :=
  match d.loop.lastAttempt with
  | none => true
  | some t => checkIsDue (d.clock - t) d.loop.lastOk interval

def refresh (d : Aborad) (env : Option CheckEnv) : Aborad :=
  match d.loop.place with
  | .ingested turn =>
    let loop := { d.loop with place := .checked turn }
    if d.due (checkInterval turn.config) then
      let loop := { loop with lastAttempt := some d.clock }
      match env with
      | none => { d with loop := { loop with lastOk := false } }
      | some c =>
        match d.updates.refresh turn.config.updates.channel c.run c.now c.saved with
        | (updates, .ok _) => { d with updates := updates, loop := { loop with lastOk := true } }
        | (updates, .error _) => { d with updates := updates, loop := { loop with lastOk := false } }
    else { d with loop := loop }
  | _ => d

/-- The last part of a turn. The loop waits for its call; here it need not. -/
def auto (d : Aborad) (pending : Bool) : Aborad :=
  match d.loop.place with
  | .checked turn =>
    let (hasAvailable, pending) := d.updates.applyInputs pending
    let since := d.loop.lastAutoAttempt.map (d.clock - ·)
    if shouldAutoApply (permissions turn.config turn.now) hasAvailable pending since
        (checkInterval turn.config) then
      { d with
        loop := { d.loop with place := .waking, lastAutoAttempt := some d.clock }
        calls := d.calls ++ [⟨.scheduler, Scheduler.caller, false, turn.config⟩] }
    else { d with loop := { d.loop with place := .waking } }
  | _ => d

end Aborad

namespace Host

/-- What a helper run is told: about the request, what is in the file. -/
def look (w : World) (s : Host) (args : Helper.Args) (env : Helper.RunEnv) : Helper.RunEnv :=
  match Helper.loadConfig w.fromStr args.config env.configStat env.configText with
  | .error _ => env
  | .ok config =>
    match s.requests (Helper.requestPath config) with
    | none => { env with present := false }
    | some r => { env with present := true, contents := env.contents.map fun _ => w.requests.encode r }

/-- `run` in `aborad`, up to serving. -/
def boot (w : World) (s : Host) (config : Config) (source : ReloadSource)
    (load : PathBuf → Loaded) (opened : Except StoreError (UpdateStore × Opened)) : Host :=
  match config.validate, Daemon.start config source load, build w.ax config.api.basePath with
  | .ok (), .ok auth, some routes =>
    { s with
      daemon := some ⟨auth, false, routes, openUpdates config opened, Loop.start, 0, [], [], []⟩ }
  | _, _, _ => { s with daemon := none }

def daemonStep (w : World) (s : Host) (d : Aborad) (ev : DaemonEvent) : Host :=
  let pending := (s.requests d.updates.applyRequestFile).isSome
  match ev with
  | .http req m => { s with daemon := some (d.http w req m) }
  | .copy i => { s with daemon := some (d.copy i) }
  | .check i env => { s with daemon := some (d.check pending i env) }
  | .write i written =>
    match d.ready[i]? with
    | none => s
    | some (_, r) =>
      let s := { s with daemon := some { d with ready := d.ready.eraseIdx i } }
      match written with
      | .error _ => s
      | .ok () =>
        { s with requests := Function.update s.requests d.updates.applyRequestFile (some r) }
  | .reload fresh => { s with daemon := some (d.reload fresh) }
  | .tokens load => { s with daemon := some (d.tokens load) }
  | .evaluate now => { s with daemon := some (d.evaluate now) }
  | .ingest saved =>
    { s with daemon := some (d.ingest w (s.results d.updates.applyResultFile) saved) }
  | .refresh env => { s with daemon := some (d.refresh env) }
  | .auto => { s with daemon := some (d.auto pending) }
  | .pass t => { s with daemon := some { d with clock := d.clock + t } }

/-- A run that stopped before its result leaves nothing and removes nothing. -/
def leave (s : Host) (i : Nat) (removed : Bool) : Host :=
  match s.ended[i]? with
  | none => s
  | some report =>
    { s with
      ended := s.ended.eraseIdx i
      results :=
        match report.result with
        | none => s.results
        | some (path, result) => Function.update s.results path (some result)
      requests :=
        match report.removal with
        | none => s.requests
        | some path => if removed then Function.update s.requests path none else s.requests }

def step (w : World) (s : Host) : HostEvent → Host
  | .start config source load opened => s.boot w config source load opened
  | .stop => { s with daemon := none }
  | .daemon ev =>
    match s.daemon with
    | none => s
    | some d => s.daemonStep w d ev
  | .helper args env =>
    { s with
      ended := s.ended ++
        [Helper.run w.fromStr w.requests.decode args (s.look w args env)] }
  | .leave i removed => s.leave i removed

/-- No daemon is running, no request is waiting. -/
def Idle (s : Host) : Prop := s.daemon = none ∧ ∀ path, s.requests path = none

end Host

/-! ## The steps of a call are the whole call -/

/-- **Undisturbed, the steps of a call put in place what `request_apply` does.** -/
theorem check_write_eq (w : World) {s : Host} {d : Aborad} (hd : s.daemon = some d) {i : Nat}
    {call : ApplyCall} (hcall : d.calls[i]? = some call) (env : ApplyEnv) :
    let path := d.updates.applyRequestFile
    let answer := d.updates.requestApply call.config call.caller call.dryRun
      { env with pending := (s.requests path).isSome }
    let s' := run (Host.step w) s
      [.daemon (.check i env), .daemon (.write d.ready.length env.written)]
    s'.requests = Function.update s.requests path (answer.2.or (s.requests path)) ∧
      s'.daemon = some { d with calls := d.calls.eraseIdx i } := by
  intro path answer s'
  have hs' : s' = (s.step w (.daemon (.check i env))).step w
      (.daemon (.write d.ready.length env.written)) := rfl
  have hnone : d.ready[d.ready.length]? = none := by simp
  -- a call that does not pass its check leaves nothing to write
  have hstays (hcheck : d.check (s.requests path).isSome i env =
      { d with calls := d.calls.eraseIdx i }) : s' =
        { s with daemon := some { d with calls := d.calls.eraseIdx i } } := by
    rw [hs']
    simp only [Host.step, hd, Host.daemonStep, path] at hcheck ⊢
    simp only [hcheck, hnone]
  -- the two events against the one function: a dry run, a refusal, a failing and a working write
  cases hdry : call.dryRun with
  | true =>
    have hcheck : d.check (s.requests path).isSome i env = { d with calls := d.calls.eraseIdx i } := by
      simp only [Aborad.check, hcall, hdry, if_true]
    have hanswer : answer.2 = none := by simp [answer, UpdatesState.requestApply, hdry]
    rw [hstays hcheck, hanswer, Option.none_or, Function.update_eq_self]
    exact ⟨rfl, rfl⟩
  | false =>
    rcases requestApply_cases d.updates call.config call.caller
      { env with pending := (s.requests path).isSome } with
      ⟨reason, hblock, hanswer⟩ | ⟨hblock, hend⟩
    · have hblock : d.updates.block call.config (s.requests path).isSome env.localTime =
          some reason := hblock
      have hcheck : d.check (s.requests path).isSome i env =
          { d with calls := d.calls.eraseIdx i } := by
        simp only [Aborad.check, hcall, hdry, hblock, Bool.false_eq_true, if_false]
      have hanswer : answer.2 = none := by simp only [answer, hdry, hanswer]
      rw [hstays hcheck, hanswer, Option.none_or, Function.update_eq_self]
      exact ⟨rfl, rfl⟩
    · have hblock : d.updates.block call.config (s.requests path).isSome env.localTime = none :=
        hblock
      have hcheck : d.check (s.requests path).isSome i env =
          { d with
            calls := d.calls.eraseIdx i
            ready := d.ready ++ [(call, d.updates.request call.caller env)] } := by
        simp only [Aborad.check, hcall, hdry, hblock, Bool.false_eq_true, if_false]
      have hlast : (d.ready ++ [(call, d.updates.request call.caller env)])[d.ready.length]? =
          some (call, d.updates.request call.caller env) := by simp
      have herase : (d.ready ++ [(call, d.updates.request call.caller env)]).eraseIdx
          d.ready.length = d.ready := by simp [List.eraseIdx_append_of_length_le]
      rcases hend with ⟨e, hwritten, hanswer⟩ | ⟨hwritten, hanswer⟩
      · have hwritten : env.written = .error e := hwritten
        have hanswer : answer.2 = none := by simp only [answer, hdry, hanswer]
        rw [hanswer, Option.none_or, Function.update_eq_self, hs']
        simp only [Host.step, hd, Host.daemonStep, path] at hcheck ⊢
        simp only [hcheck, hlast, hwritten, herase]
        exact ⟨trivial, trivial⟩
      · have hwritten : env.written = .ok () := hwritten
        have hanswer : answer.2 = some (d.updates.request call.caller env) := by
          simp only [answer, hdry, hanswer]
          rfl
        rw [hanswer, Option.some_or, hs']
        simp only [Host.step, hd, Host.daemonStep, path] at hcheck ⊢
        simp only [hcheck, hlast, hwritten, herase]
        exact ⟨trivial, trivial⟩

end Abora.Protocol
