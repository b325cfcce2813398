import Abora.Protocol.Handover
import Abora.Protocol.Host

/-!
# Where an install comes from

Whatever the steps of the host are interleaved with, an install by the root helper goes back to
somebody who may ask for it: the helper read what a call of the daemon had written, the call had
passed its check under the configuration it had copied, and behind it is a client whose token grants
`manage:updates` or a turn of the scheduler whose policy permits automatic installs
(`install_traced`). The packages were narrowed down on the way and never widened: from what checks
listed, to the request, to what the helper's own simulation lists.

Each link is a predicate on a point of a history — the events before it and the event itself — and
says that the link before it is at an earlier point (`Once`). So the chain can be followed from the
install backwards, each link naming the next:

* `Writes`: a call put the request at the path the helper looks at,
* `Passes`: it had found nothing against it, and every package of it had been listed (`Lists`),
* `Asks`: it had copied the configuration, for a client or for the scheduler,
* `LetsIn` or `Evaluates`: the client was let in on its token, or the turn began inside a window.

`Sourced` is the invariant: everything the host holds has its link in the past. An event either
moves something from one place to the next, and then adds the link (`sourced_copy`, `sourced_check`
and so on), or it takes something away (`Aborad.Sourced.of_eq`).
-/

namespace Abora.Protocol

open Lib Update Daemon

/-- A token in force grants `manage:updates` to a request from loopback, under this name. -/
def Authorized (digest : String → Hash) (auth : AuthState) (req : Request) (caller : String) :
    Prop :=
  FromLoopback req ∧ ∃ store secret entry, auth.tokens = some store ∧
    auth.config.security.requireAuthentication = true ∧
    presented req.authorization = some secret ∧ FirstMatch digest store secret entry ∧
    "manage:updates" ∈ entry.token.permissions ∧ caller = entry.token.name.getD "unnamed token"

section

variable (w : World) (s₀ : Host)

/-- The host after a history, which is what the links are about: each says what the daemon had at
that point. -/
def World.after (past : List HostEvent) : Host := run (Host.step w) s₀ past

/-- A check that lists `name`. A daemon was running, its scheduler's turn had come to the check and
one was due, and the simulation it ran had a line for the package. -/
def Lists (name : String) (past : List HostEvent) (ev : HostEvent) : Prop :=
  ∃ env output d turn, ev = .daemon (.refresh (some env)) ∧ (w.after s₀ past).daemon = some d ∧
    d.loop.place = .ingested turn ∧ d.due (checkInterval turn.config) = true ∧
    env.run = .ok output ∧ ∃ u ∈ parseSimulation output, u.name = name

/-- A request passes the middleware of a running daemon on the token of `caller`. -/
def LetsIn (req : HttpRequest) (caller : String) (past : List HostEvent) (ev : HostEvent) : Prop :=
  ∃ m d, ev = .daemon (.http req m) ∧ (w.after s₀ past).daemon = some d ∧
    Authorized w.digest d.auth req.auth caller

/-- A turn of the scheduler begins with this configuration. -/
def Evaluates (turn : Turn) (past : List HostEvent) (ev : HostEvent) : Prop :=
  ∃ d, ev = .daemon (.evaluate turn.now) ∧ (w.after s₀ past).daemon = some d ∧
    d.auth.config = turn.config

/-- A call of `request_apply` begins: a client's handler reads the configuration, or the turn of the
scheduler comes to its request under a policy that permits it. -/
def Asks (call : ApplyCall) (past : List HostEvent) (ev : HostEvent) : Prop :=
  match call.asker with
  | .client req => ∃ i d, ev = .daemon (.copy i) ∧ (w.after s₀ past).daemon = some d ∧
      d.auth.config = call.config ∧ Once (LetsIn w s₀ req call.caller) past
  | .scheduler => ev = .daemon .auto ∧ call.caller = Scheduler.caller ∧
      call.config.updates.automatic = true ∧ ∃ now, OpenAt call.config now ∧
        Once (Evaluates w s₀ ⟨call.config, now⟩) past

/-- A call passes its check, and will write `r`: nothing is waiting, the window is open by the time
it reads for itself, and the packages of `r` were listed by checks. -/
def Passes (call : ApplyCall) (r : ApplyRequest) (past : List HostEvent) (ev : HostEvent) : Prop :=
  ∃ i env d, ev = .daemon (.check i env) ∧ (w.after s₀ past).daemon = some d ∧
    (w.after s₀ past).requests d.updates.applyRequestFile = none ∧ call.dryRun = false ∧
    OpenAt call.config env.localTime ∧ r = d.updates.request call.caller env ∧
    (∀ p ∈ r.packages, Once (Lists w s₀ p) past) ∧ Once (Asks w s₀ call) past

/-- A call that passed writes its request to the path. -/
def Writes (path : PathBuf) (r : ApplyRequest) (past : List HostEvent) (ev : HostEvent) : Prop :=
  ∃ i d call, ev = .daemon (.write i (.ok ())) ∧ (w.after s₀ past).daemon = some d ∧
    d.updates.applyRequestFile = path ∧ d.ready[i]? = some (call, r) ∧
    Once (Passes w s₀ call r) past

end

/-- The configuration and the time that a turn under way works with. -/
def Place.turn? : Place → Option Turn
  | .waking => none
  | .evaluated turn | .ingested turn | .checked turn => some turn

/-- What a daemon holds, it has from somewhere: one field for each place where a call can be. -/
structure Aborad.Sourced (w : World) (s₀ : Host) (past : List HostEvent) (d : Aborad) : Prop where
  routes : ∃ basePath, d.routes = Daemon.routes basePath
  available : ∀ u ∈ d.updates.available, Once (Lists w s₀ u.component) past
  admitted : ∀ a ∈ d.admitted, Once (LetsIn w s₀ a.req a.caller) past
  turn : ∀ turn, d.loop.place.turn? = some turn → Once (Evaluates w s₀ turn) past
  calls : ∀ call ∈ d.calls, Once (Asks w s₀ call) past
  ready : ∀ p ∈ d.ready, Once (Passes w s₀ p.1 p.2) past

/-- The same of the host. The results and the runs that are about to leave decide nothing. -/
structure Sourced (w : World) (s₀ : Host) (past : List HostEvent) (s : Host) : Prop where
  requests : ∀ path r, s.requests path = some r → Once (Writes w s₀ path r) past
  daemon : ∀ d, s.daemon = some d → d.Sourced w s₀ past

/-- A helper run's install: what it was told to install, and why it may. The simulation is the
helper's own, and the configuration is the one it loaded. -/
structure Traced (w : World) (s₀ : Host) (past : List HostEvent) (args : Helper.Args)
    (env : Helper.RunEnv) (packages : List String) : Prop where
  config : ∃ config r simulation,
    Helper.loadConfig w.fromStr args.config env.configStat env.configText = .ok config ∧
    OpenAt config env.localTime ∧ Once (Writes w s₀ (Helper.requestPath config) r) past ∧
    env.runner Helper.simulateCommand = .ok simulation ∧
    packages = r.packages.filter fun p => (Helper.upgradable simulation).contains p
  nonempty : packages ≠ []
  names : ∀ p ∈ packages, validPackageName p = true ∧ p.toList.head? ≠ some '-'

/-! ## Time passes -/

section

variable {w : World} {s₀ : Host} {past : List HostEvent}

/-- What is in the past stays there, whatever comes next. -/
theorem Aborad.Sourced.later {d : Aborad} (h : d.Sourced w s₀ past) (ev : HostEvent) :
    d.Sourced w s₀ (past ++ [ev]) :=
  { routes := h.routes
    available := fun u hu => (h.available u hu).later ev
    admitted := fun a ha => (h.admitted a ha).later ev
    turn := fun turn ht => (h.turn turn ht).later ev
    calls := fun call hc => (h.calls call hc).later ev
    ready := fun p hp => (h.ready p hp).later ev }

theorem Sourced.later {s : Host} (h : Sourced w s₀ past s) (ev : HostEvent) :
    Sourced w s₀ (past ++ [ev]) s :=
  ⟨fun path r hr => (h.requests path r hr).later ev, fun d hd => (h.daemon d hd).later ev⟩

/-! ## A request comes in -/

/-- The route that applies updates is the one that asks for `manage:updates`. -/
theorem applyUpdates_permission {basePath : String} {route : Route}
    (h : route ∈ Daemon.routes basePath) (hhandler : route.handler = .applyUpdates) :
    route.permission = .manageUpdates := by
  simp only [Daemon.routes, List.mem_cons, List.not_mem_nil, or_false] at h
  rcases h with rfl | rfl | rfl | rfl | rfl | rfl | rfl <;> first | rfl | cases hhandler

/-- Who is let in to apply updates has a token that says so, and is called by its name. -/
theorem withAuth_authorized {digest : String → Hash} {srv : Server} {req : Request}
    {caller : String} (h : withAuth digest srv req .manageUpdates = .ok caller) :
    FromLoopback req ∧ ∃ store secret entry, srv.tokens = some store ∧
      srv.config.security.requireAuthentication = true ∧
      presented req.authorization = some secret ∧ FirstMatch digest store secret entry ∧
      "manage:updates" ∈ entry.token.permissions ∧
      caller = entry.token.name.getD "unnamed token" := by
  obtain ⟨hloop, hentitled⟩ := handlerCaller_eq_some_iff.mp (withAuth_ok_iff.mp h)
  refine ⟨hloop, ?_⟩
  cases hentitled with
  | preview _ hread => cases hread
  | token hstore hrequire hsecret hfirst hlists =>
    exact ⟨_, _, _, hstore, hrequire, hsecret, hfirst, lists_manageUpdates_iff.mp hlists, rfl⟩

/-- **What a request does to the daemon** before its handler: nothing that matters here, or an apply
is let in. -/
theorem http_cases (w : World) (d : Aborad) (req : HttpRequest) (m : Daemon.Machine)
    (hroutes : ∃ basePath, d.routes = Daemon.routes basePath) :
    (∃ updates, updates.available = d.updates.available ∧
        d.http w req m = { d with updates := updates }) ∨
      ∃ caller dryRun, Authorized w.digest d.auth req.auth caller ∧
        d.http w req m = { d with admitted := d.admitted ++ [⟨req, caller, dryRun⟩] } := by
  have hsame : ∃ updates : UpdatesState, updates.available = d.updates.available ∧
      d = { d with updates := updates } := ⟨d.updates, rfl, rfl⟩
  unfold Aborad.http
  cases hroute : d.server.route w.ax req with
  | none => exact .inl hsame
  | some route =>
    cases hauth : withAuth w.digest d.server req.auth route.permission with
    | error denial => exact .inl (by simpa only [hauth] using hsame)
    | ok caller =>
      simp only [hauth]
      cases route.takes req.method with
      | false => exact .inl hsame
      | true =>
        cases hhandler : route.handler with
        -- the only handler that lets somebody in
        | applyUpdates =>
          simp only [if_true]
          cases w.ax.queryArgs req.query with
          | error text => exact .inl hsame
          | ok params =>
            cases hdry : params.foldlM (fun _ p => applyParam p.1 p.2) false with
            | error e => exact .inl (by simpa only [hdry] using hsame)
            | ok dryRun =>
              obtain ⟨basePath, hbase⟩ := hroutes
              have hmem : route ∈ Daemon.routes basePath := by
                rw [← hbase]
                exact List.mem_of_find?_eq_some hroute
              rw [applyUpdates_permission hmem hhandler] at hauth
              simp only [hdry]
              exact .inr ⟨caller, dryRun, withAuth_authorized hauth, rfl⟩
        | updates =>
          exact .inl ⟨(d.updates.response m.apply.pending m.marker m.pkgs m.apply.now m.saved).1,
            rfl, rfl⟩
        | health => exact .inl hsame
        | version => exact .inl hsame
        | system => exact .inl hsame
        | services => exact .inl hsame
        | serviceDetail => exact .inl hsame

/-! ## One step of the daemon -/

/-- The list, the turn and the queues decide; the rest of a daemon may change. -/
theorem Aborad.Sourced.of_eq {d d' : Aborad} (h : d.Sourced w s₀ past)
    (hroutes : d'.routes = d.routes)
    (havailable : ∀ u ∈ d'.updates.available, u ∈ d.updates.available)
    (hturn : d'.loop.place.turn? = d.loop.place.turn? ∨ d'.loop.place.turn? = none)
    (hadmitted : d'.admitted ⊆ d.admitted) (hcalls : d'.calls ⊆ d.calls)
    (hready : d'.ready ⊆ d.ready) : d'.Sourced w s₀ past :=
  { routes := by
      rw [hroutes]
      exact h.routes
    available := fun u hu => h.available u (havailable u hu)
    admitted := fun a ha => h.admitted a (hadmitted ha)
    turn := fun turn ht => by
      rcases hturn with hturn | hturn
      · exact h.turn turn (hturn ▸ ht)
      · rw [hturn] at ht
        cases ht
    calls := fun call hc => h.calls call (hcalls hc)
    ready := fun p hp => h.ready p (hready hp) }

theorem sourced_http {d : Aborad} (h : d.Sourced w s₀ past)
    (hd : (w.after s₀ past).daemon = some d) (req : HttpRequest) (m : Daemon.Machine) :
    (d.http w req m).Sourced w s₀ (past ++ [.daemon (.http req m)]) := by
  have hlater := h.later (.daemon (.http req m))
  rcases http_cases w d req m h.routes with ⟨updates, hlist, heq⟩ | ⟨caller, dryRun, hauth, heq⟩
  · rw [heq]
    refine hlater.of_eq rfl (fun u hu => ?_) (.inl rfl) (List.Subset.refl _) (List.Subset.refl _)
      (List.Subset.refl _)
    rw [← hlist]
    exact hu
  · rw [heq]
    refine { hlater with admitted := fun a ha => ?_ }
    rcases List.mem_append.mp ha with ha | ha
    · exact hlater.admitted a ha
    · rw [List.mem_singleton.mp ha]
      exact once_now ⟨m, d, rfl, hd, hauth⟩

theorem sourced_copy {d : Aborad} (h : d.Sourced w s₀ past)
    (hd : (w.after s₀ past).daemon = some d) (i : Nat) :
    (d.copy i).Sourced w s₀ (past ++ [.daemon (.copy i)]) := by
  have hlater := h.later (.daemon (.copy i))
  unfold Aborad.copy
  cases ha : d.admitted[i]? with
  | none => exact hlater
  | some a =>
    refine { hlater with admitted := fun b hb => ?_, calls := fun call hc => ?_ }
    · exact hlater.admitted b (List.mem_of_mem_eraseIdx hb)
    · rcases List.mem_append.mp hc with hc | hc
      · exact hlater.calls call hc
      · rw [List.mem_singleton.mp hc]
        exact once_now ⟨i, d, rfl, hd, rfl, h.admitted a (List.mem_of_getElem? ha)⟩

theorem sourced_check {d : Aborad} (h : d.Sourced w s₀ past)
    (hd : (w.after s₀ past).daemon = some d) (i : Nat) (env : ApplyEnv) :
    (d.check ((w.after s₀ past).requests d.updates.applyRequestFile).isSome i env).Sourced w s₀
      (past ++ [.daemon (.check i env)]) := by
  have hlater := h.later (.daemon (.check i env))
  have hdropped : Aborad.Sourced w s₀ (past ++ [.daemon (.check i env)])
      { d with calls := d.calls.eraseIdx i } :=
    hlater.of_eq rfl (fun _ hu => hu) (.inl rfl) (List.Subset.refl _) List.eraseIdx_subset
      (List.Subset.refl _)
  unfold Aborad.check
  cases hc : d.calls[i]? with
  | none => exact hlater
  | some call =>
    dsimp only
    cases hdry : call.dryRun with
    | true => exact hdropped
    | false =>
      simp only [Bool.false_eq_true, if_false]
      cases hblock : d.updates.block call.config
          ((w.after s₀ past).requests d.updates.applyRequestFile).isSome env.localTime with
      | some reason => exact hdropped
      | none =>
        obtain ⟨hpending, -, hopen⟩ := block_eq_none_iff.mp hblock
        refine { hdropped with ready := fun p hp => ?_ }
        rcases List.mem_append.mp hp with hp | hp
        · exact hlater.ready p hp
        · rw [List.mem_singleton.mp hp]
          refine once_now ⟨i, env, d, rfl, hd, by simpa using hpending, hdry, hopen, rfl, ?_,
            h.calls call (List.mem_of_getElem? hc)⟩
          intro name hname
          obtain ⟨u, hu, rfl⟩ := List.mem_map.mp (mem_sortDedup.mp hname)
          exact h.available u hu

theorem sourced_evaluate {d : Aborad} (h : d.Sourced w s₀ past)
    (hd : (w.after s₀ past).daemon = some d) (now : Option LocalTime) :
    (d.evaluate now).Sourced w s₀ (past ++ [.daemon (.evaluate now)]) := by
  have hlater := h.later (.daemon (.evaluate now))
  unfold Aborad.evaluate
  cases d.loop.place with
  | waking =>
    refine { hlater with turn := fun turn ht => ?_ }
    cases ht
    exact once_now ⟨d, rfl, hd, rfl⟩
  | evaluated turn => exact hlater
  | ingested turn => exact hlater
  | checked turn => exact hlater

theorem sourced_ingest {d : Aborad} (h : d.Sourced w s₀ past) (file : Option ApplyResult)
    (saved : Option (Except StoreError Unit)) :
    (d.ingest w file saved).Sourced w s₀ past := by
  unfold Aborad.ingest
  cases hplace : d.loop.place with
  | waking => exact h
  | ingested turn => exact h
  | checked turn => exact h
  | evaluated turn =>
    have hturn : d.loop.place.turn? = some turn := by rw [hplace]; rfl
    cases saved with
    | none =>
      exact h.of_eq rfl (fun _ hu => hu) (.inl hturn.symm) (List.Subset.refl _)
        (List.Subset.refl _) (List.Subset.refl _)
    | some saved =>
      refine h.of_eq rfl (fun u hu => ingest_available hu) (.inl ?_) (List.Subset.refl _)
        (List.Subset.refl _) (List.Subset.refl _)
      rw [hturn]
      dsimp only
      split <;> rfl

/-- A check replaces the list by what the simulation says, which makes the check the source of each
of its packages, or leaves it. -/
theorem sourced_refresh {d : Aborad} (h : d.Sourced w s₀ past)
    (hd : (w.after s₀ past).daemon = some d) (env : Option CheckEnv) :
    (d.refresh env).Sourced w s₀ (past ++ [.daemon (.refresh env)]) := by
  have hlater := h.later (.daemon (.refresh env))
  unfold Aborad.refresh
  cases hplace : d.loop.place with
  | waking => exact hlater
  | evaluated turn => exact hlater
  | checked turn => exact hlater
  | ingested turn =>
    have hturn : d.loop.place.turn? = some turn := by rw [hplace]; rfl
    -- whatever becomes of the memory of the attempt
    have hloop (loop : Loop) (hl : loop.place = .checked turn) :
        Aborad.Sourced w s₀ (past ++ [.daemon (.refresh env)]) { d with loop := loop } := by
      refine hlater.of_eq rfl (fun _ hu => hu) (.inl ?_) (List.Subset.refl _)
        (List.Subset.refl _) (List.Subset.refl _)
      rw [hl, hturn]
      rfl
    dsimp only
    split
    · next hdue =>
      cases env with
      | none => exact hloop _ rfl
      | some c =>
        have hlist : ∀ u ∈ (d.updates.refresh turn.config.updates.channel c.run c.now
            c.saved).1.available,
            Once (Lists w s₀ u.component) (past ++ [.daemon (.refresh (some c))]) := by
          intro u hu
          rcases refresh_available d.updates turn.config.updates.channel c.run c.now c.saved with
            hsame | ⟨output, hrun, hnew⟩
          · rw [hsame] at hu
            exact hlater.available u hu
          · rw [hnew] at hu
            obtain ⟨v, hv, rfl⟩ := List.mem_map.mp hu
            exact once_now ⟨c, output, d, turn, rfl, hd, hplace, hdue, hrun, v, hv, rfl⟩
        dsimp only
        generalize d.updates.refresh turn.config.updates.channel c.run c.now c.saved = answer
          at hlist
        obtain ⟨updates, result⟩ := answer
        cases result with
        | ok n => exact { hloop _ rfl with available := hlist }
        | error e => exact { hloop _ rfl with available := hlist }
    · exact hloop _ rfl

theorem sourced_auto {d : Aborad} (h : d.Sourced w s₀ past) (pending : Bool) :
    (d.auto pending).Sourced w s₀ (past ++ [.daemon .auto]) := by
  have hlater := h.later (.daemon .auto)
  unfold Aborad.auto
  cases hplace : d.loop.place with
  | waking => exact hlater
  | evaluated turn => exact hlater
  | ingested turn => exact hlater
  | checked turn =>
    have hwakes (loop : Loop) (hl : loop.place = .waking) :
        Aborad.Sourced w s₀ (past ++ [.daemon .auto]) { d with loop := loop } := by
      refine hlater.of_eq rfl (fun _ hu => hu) (.inr ?_) (List.Subset.refl _)
        (List.Subset.refl _) (List.Subset.refl _)
      rw [hl]
      rfl
    dsimp only
    split
    · next hshould =>
      obtain ⟨hpermitted, -⟩ := shouldAutoApply_iff.mp hshould
      obtain ⟨hautomatic, hopen⟩ := installsPermitted_iff.mp hpermitted
      have hturn := h.turn turn (by rw [hplace]; rfl)
      refine { hwakes _ rfl with calls := fun call hc => ?_ }
      rcases List.mem_append.mp hc with hc | hc
      · exact hlater.calls call hc
      · rw [List.mem_singleton.mp hc]
        exact once_now ⟨rfl, rfl, hautomatic, turn.now, hopen, hturn⟩
    · exact hwakes _ rfl

theorem sourced_auth {d : Aborad} (h : d.Sourced w s₀ past) (auth : AuthState)
    (reloading : Bool) :
    Aborad.Sourced w s₀ past { d with auth := auth, reloading := reloading } :=
  h.of_eq rfl (fun _ hu => hu) (.inl rfl) (List.Subset.refl _) (List.Subset.refl _)
    (List.Subset.refl _)

theorem sourced_reload {d : Aborad} (h : d.Sourced w s₀ past) (fresh : Except String Config) :
    (d.reload fresh).Sourced w s₀ past := by
  unfold Aborad.reload
  split
  · exact h
  · split
    · exact sourced_auth h _ _
    · exact h

theorem sourced_tokens {d : Aborad} (h : d.Sourced w s₀ past) (load : PathBuf → Loaded) :
    (d.tokens load).Sourced w s₀ past := by
  unfold Aborad.tokens
  split
  · exact sourced_auth h _ _
  · exact h

/-! ## One step of the host -/

theorem sourced_boot {s : Host} (h : Sourced w s₀ past s) (config : Config)
    (source : ReloadSource) (load : PathBuf → Loaded)
    (opened : Except StoreError (UpdateStore × Opened)) :
    Sourced w s₀ past (s.boot w config source load opened) := by
  unfold Host.boot
  split
  · next auth routes _ _ hbuild =>
    refine { h with daemon := fun d hd => ?_ }
    cases hd
    refine
      { routes := ⟨config.api.basePath, ?_⟩
        available := fun u hu => ?_
        admitted := fun a ha => (by cases ha)
        turn := fun turn ht => (by cases ht)
        calls := fun call hc => (by cases hc)
        ready := fun p hp => (by cases hp) }
    · unfold build at hbuild
      split at hbuild
      · exact (Option.some.inj hbuild).symm
      · cases hbuild
    · -- a new daemon has checked nothing yet
      cases opened <;> cases hu
  · exact { h with daemon := fun d hd => (by cases hd) }

theorem sourced_daemonStep (h : Sourced w s₀ past (w.after s₀ past)) {d : Aborad}
    (hd : (w.after s₀ past).daemon = some d) (ev : DaemonEvent) :
    Sourced w s₀ (past ++ [.daemon ev]) ((w.after s₀ past).daemonStep w d ev) := by
  have hlater := h.later (.daemon ev)
  have hsrc := h.daemon d hd
  have hdaemon {d' : Aborad} (hd' : d'.Sourced w s₀ (past ++ [.daemon ev])) :
      Sourced w s₀ (past ++ [.daemon ev]) { w.after s₀ past with daemon := some d' } :=
    { hlater with daemon := fun _ he => (by cases he; exact hd') }
  cases ev with
  | http req m => exact hdaemon (sourced_http hsrc hd req m)
  | copy i => exact hdaemon (sourced_copy hsrc hd i)
  | check i env => exact hdaemon (sourced_check hsrc hd i env)
  | reload fresh => exact hdaemon (sourced_reload (hsrc.later _) fresh)
  | tokens load => exact hdaemon (sourced_tokens (hsrc.later _) load)
  | evaluate now => exact hdaemon (sourced_evaluate hsrc hd now)
  | ingest saved => exact hdaemon (sourced_ingest (hsrc.later _) _ saved)
  | refresh env => exact hdaemon (sourced_refresh hsrc hd env)
  | auto => exact hdaemon (sourced_auto hsrc _)
  | pass t =>
    refine hdaemon ((hsrc.later _).of_eq rfl (fun _ hu => hu) (.inl rfl) ?_ ?_ ?_) <;>
      exact List.Subset.refl _
  -- the one event that changes more than the daemon: a request comes to be, out of a call that is
  -- ready
  | write i written =>
    have hwritten : Aborad.Sourced w s₀ (past ++ [.daemon (.write i written)])
        { d with ready := d.ready.eraseIdx i } :=
      (hsrc.later _).of_eq rfl (fun _ hu => hu) (.inl rfl) (List.Subset.refl _)
        (List.Subset.refl _) List.eraseIdx_subset
    simp only [Host.daemonStep]
    cases hr : d.ready[i]? with
    | none => exact hlater
    | some p =>
      obtain ⟨call, r⟩ := p
      cases written with
      | error e => exact hdaemon hwritten
      | ok u =>
        refine { hdaemon hwritten with requests := fun path r' hr' => ?_ }
        dsimp only at hr'
        by_cases hpath : path = d.updates.applyRequestFile
        · rw [hpath] at hr' ⊢
          rw [Function.update_self] at hr'
          cases hr'
          exact once_now ⟨i, d, call, rfl, hd, rfl, hr, hsrc.ready _ (List.mem_of_getElem? hr)⟩
        · rw [Function.update_of_ne hpath] at hr'
          exact hlater.requests path r' hr'

/-- A run that leaves may take a request with it; it writes none. -/
theorem sourced_leave {s : Host} (h : Sourced w s₀ past s) (i : Nat) (removed : Bool) :
    Sourced w s₀ past (s.leave i removed) := by
  unfold Host.leave
  cases hi : s.ended[i]? with
  | none => exact h
  | some report =>
    refine { h with requests := fun path r hr => ?_ }
    cases hremoval : report.removal with
    | none =>
      simp only [hremoval] at hr
      exact h.requests path r hr
    | some gone =>
      simp only [hremoval] at hr
      split at hr
      · by_cases hpath : path = gone
        · rw [hpath, Function.update_self] at hr
          cases hr
        · rw [Function.update_of_ne hpath] at hr
          exact h.requests path r hr
      · exact h.requests path r hr

theorem sourced_step (h : Sourced w s₀ past (w.after s₀ past)) (ev : HostEvent) :
    Sourced w s₀ (past ++ [ev]) ((w.after s₀ past).step w ev) := by
  have hlater := h.later ev
  cases ev with
  | start config source load opened => exact sourced_boot hlater config source load opened
  | stop => exact { hlater with daemon := fun d hd => (by cases hd) }
  | daemon ev =>
    unfold Host.step
    cases hd : (w.after s₀ past).daemon with
    | none => simpa only [hd] using hlater
    | some d => simpa only [hd] using sourced_daemonStep h hd ev
  | helper args env => exact { hlater with }
  | leave i removed => exact sourced_leave hlater i removed

/-- **Everything the host holds comes from somewhere**, after any history: the run lemma of the
invariant, from a host without requests and daemon. -/
theorem sourced_after (hidle : s₀.Idle) (past : List HostEvent) :
    Sourced w s₀ past (w.after s₀ past) := by
  obtain ⟨hdown, hnone⟩ := hidle
  refine run_history (I := Sourced w s₀) (fun past ev h => sourced_step h ev) ?_ past
  refine ⟨fun path r hr => ?_, fun d hd => ?_⟩
  · rw [hnone path] at hr
    cases hr
  · rw [hdown] at hd
    cases hd

/-! ## The helper -/

/-- What a run does beyond its job is no install. -/
theorem mem_run_install_iff {fromStr : String → Except String Config}
    {decode : Bytes → Option ApplyRequest} {args : Helper.Args} {env : Helper.RunEnv}
    {packages : List String} :
    Helper.installCommand packages ∈ (Helper.run fromStr decode args env).commands ↔
      ∃ config,
        Helper.loadConfig fromStr args.config env.configStat env.configText = .ok config ∧
        Helper.installCommand packages ∈
          (Helper.process decode ⟨Helper.requestPath config, config⟩ env.toEnv).1 := by
  have hreboot (commands : List Helper.Command) :
      Helper.installCommand packages ∈ commands ++ [Helper.rebootCommand] ↔
        Helper.installCommand packages ∈ commands := by
    rw [List.mem_append, List.mem_singleton]
    refine or_iff_left fun heq => ?_
    have hprogram : "apt-get" = "systemctl" := congrArg Helper.Command.program heq
    exact absurd hprogram (by decide)
  unfold Helper.run
  cases hload : Helper.loadConfig fromStr args.config env.configStat env.configText with
  | error e => simp
  | ok config =>
    simp only [Except.ok.injEq, exists_eq_left']
    generalize Helper.process decode ⟨Helper.requestPath config, config⟩ env.toEnv = answer
    obtain ⟨commands, outcome⟩ := answer
    cases outcome with
    | none => exact Iff.rfl
    | some outcome =>
      cases env.written with
      | error e => exact Iff.rfl
      | ok u =>
        dsimp only
        split
        · cases env.runner Helper.rebootCommand with
          | error e => exact hreboot commands
          | ok out => exact hreboot commands
        · exact Iff.rfl

/-- An install is one that was let through: the helper's own safety, in the form it is needed
here. -/
theorem allowed_of_mem {decode : Bytes → Option ApplyRequest} {ctx : Helper.Ctx}
    {env : Helper.Env} {packages : List String}
    (h : Helper.installCommand packages ∈ (Helper.process decode ctx env).1) :
    ∃ r simulation, Helper.Accepted decode env r ∧ OpenAt ctx.config env.localTime ∧
      env.runner Helper.simulateCommand = .ok simulation ∧
      packages = Helper.todo r simulation ∧ packages ≠ [] := by
  rcases Helper.process_accepted decode ctx env with ⟨r, hacc, hproc⟩ | ⟨outcome, hproc, -⟩
  · rw [hproc] at h
    rcases Helper.perform_cases ctx env r with ⟨hcommands, -⟩ | ⟨sim, hopen, hsim, hne, hcommands, -⟩
    · exact absurd h (Helper.not_mem_install hcommands packages)
    · rw [hcommands] at h
      have heq := Helper.mem_install_iff.mp h
      exact ⟨r, sim, hacc, hopen, hsim, heq, heq ▸ hne⟩
  · rw [hproc] at h
    cases h

/-- **Nothing is installed that nobody asked for.** Every install of every helper run, at any point
of any history, is of packages that were narrowed down from a request which a call wrote at the path
the run looked at; `Writes` leads back from there to whoever asked, and `Passes` to the checks that
listed each package. -/
theorem install_traced (w : World) {s₀ : Host} (hidle : s₀.Idle) (past : List HostEvent)
    (args : Helper.Args) (env : Helper.RunEnv) (packages : List String)
    (h : Helper.installCommand packages ∈ (Helper.run w.fromStr w.requests.decode args
      ((w.after s₀ past).look w args env)).commands) : Traced w s₀ past args env packages := by
  obtain ⟨config, hload, hmem⟩ := mem_run_install_iff.mp h
  have hsourced := sourced_after (w := w) hidle past
  generalize w.after s₀ past = s at hload hmem hsourced
  cases hown : Helper.loadConfig w.fromStr args.config env.configStat env.configText with
  | error e =>
    simp only [Host.look, hown] at hload
    cases hload
  | ok config' =>
    obtain rfl : config' = config := by
      simp only [Host.look, hown] at hload
      split at hload <;> exact Except.ok.inj (hown.symm.trans hload)
    obtain ⟨r, simulation, hacc, hopen, hsim, rfl, hne⟩ := allowed_of_mem hmem
    simp only [Host.look, hown] at hacc hopen hsim
    cases hslot : s.requests (Helper.requestPath config') with
    | none =>
      -- nothing there, nothing accepted
      simp only [hslot] at hacc
      cases hacc.present
    | some r' =>
      simp only [hslot] at hacc hopen hsim
      obtain ⟨bytes, hcontents, hdec⟩ := hacc.decodes
      obtain rfl : r' = r := by
        cases hc : env.contents with
        | error e =>
          rw [hc] at hcontents
          cases hcontents
        | ok b =>
          rw [hc] at hcontents
          cases hcontents
          rw [w.requests.decode_encode] at hdec
          exact Option.some.inj hdec
      exact
        { config := ⟨config', r', simulation, hown, hopen, hsourced.requests _ _ hslot, hsim,
            Helper.todo_eq_filter r' simulation⟩
          nonempty := hne
          names := fun p hp => Helper.todo_valid hacc.valid hp }

end

/-! ## One install, traced -/

/-- A night on which only tokens open anything. -/
def guardedNight : Config :=
  { Helper.nightConfig with
    security := ⟨true, some (PathBuf.ofString "/etc/abora/tokens.toml")⟩ }

def guardedToml : String :=
  "[security]\nrequire_authentication = true\ntoken_file = \"/etc/abora/tokens.toml\"\n\n" ++
    Helper.nightToml

/-- The SHA-256 of `s3cret`, the secret of `applyCall`. -/
def secretDigest : Hash :=
  #v[
    0x1e, 0xc1, 0xc2, 0x6b, 0x50, 0xd5, 0xd3, 0xc5, 0x8d, 0x95, 0x83, 0x18,
    0x1a, 0xf8, 0x07, 0x66, 0x55, 0xfe, 0x00, 0x75, 0x6b, 0xf7, 0x28, 0x59,
    0x40, 0xba, 0x36, 0x70, 0xf9, 0x9f, 0xcb, 0xa0]

def guardedToken : Entry := ⟨⟨some "ops", ["read_all", "manage:updates"]⟩, secretDigest⟩

/-- What is not this program's, as it answers on this night's inputs. -/
def guardedWorld : World where
  ax := segmentAxum
  digest secret := if secret = "s3cret" then secretDigest else Vector.replicate 32 0
  fromStr text := if text = guardedToml then .ok guardedNight else .error "could not parse TOML"
  requests := nightRequests
  results := nightResults

/-- The night's first run, on a host with this configuration file. -/
def guardedRun : Helper.RunEnv :=
  { nightRun with
    configStat := .ok 154
    configText := .ok guardedToml }

def emptyHost : Host := ⟨none, fun _ => none, fun _ => none, []⟩

def opsRequest : HttpRequest := ⟨.post, "/api/v1/updates/apply", none, none, applyCall⟩

/-- The daemon starts, checks, and takes an operator's request to apply. -/
def guardedPast : List HostEvent :=
  [.start guardedNight (.file (PathBuf.ofString "/etc/abora/abora.toml"))
      (fun _ => .ok ⟨[guardedToken]⟩) (.ok (UpdateStore.inMemory, .fresh)),
    .daemon (.evaluate none), .daemon (.ingest none),
    .daemon (.refresh (some ⟨.ok nightSimulation, "2026-09-19T03:00:00Z", .ok ()⟩)),
    .daemon (.http opsRequest
      ⟨.ok (), .ok [], fun name => .error (.notFound name), false, none, .ok (), nightCall 0xa1⟩),
    .daemon (.copy 0), .daemon (.check 0 (nightCall 0xa1)), .daemon (.write 0 (.ok ()))]

theorem guarded_slot : (guardedWorld.after emptyHost guardedPast).requests
    (Helper.requestPath guardedNight) = some nightRequest := by decide +kernel

/-- The helper's run, half a minute after the operator's call. -/
theorem install_traced_night :
    Traced guardedWorld emptyHost guardedPast {} guardedRun ["openssl"] := by
  have hload : Helper.loadConfig guardedWorld.fromStr ({} : Helper.Args).config
      guardedRun.configStat guardedRun.configText = .ok guardedNight := by
    simp [Helper.loadConfig, guardedRun, guardedWorld, maxFileBytes, Except.mapError]
  have hlook : (guardedWorld.after emptyHost guardedPast).look guardedWorld {} guardedRun =
      { guardedRun with
        contents := .ok (guardedWorld.requests.encode nightRequest) } := by
    simp only [Host.look, hload, guarded_slot]
    rfl
  have hacc : Helper.Accepted guardedWorld.requests.decode
      { guardedRun.toEnv with
        contents := .ok (guardedWorld.requests.encode nightRequest) } nightRequest :=
    { present := rfl
      file := ⟨_, rfl, rfl, by decide, by decide⟩
      decodes := ⟨_, rfl, guardedWorld.requests.decode_encode _⟩
      valid := by decide }
  refine install_traced guardedWorld ⟨rfl, fun _ => rfl⟩ guardedPast {} guardedRun _ ?_
  rw [hlook]
  refine mem_run_install_iff.mpr ⟨guardedNight, hload, ?_⟩
  rw [Helper.process_of_accepted hacc]
  decide

end Abora.Protocol
