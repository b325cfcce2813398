import Abora.Protocol.Race

/-!
# A request nobody will read

The daemon takes *any* file at the request path for an apply in progress; the helper reads only a
regular one that is at most ten minutes old (`readable_iff`), and it removes the file only at the
end of a run that got that far (`Helper.run_cases`). A request that is left lying therefore blocks
the next ones for good once it is too old to be read: the path unit does not fire again for a file
that does not change.

An `Inbox` is the request file with its modification time, the helper run in progress and the clock.
`never_blocked_iff_guarded` is the exact condition on a history: no run ends and leaves a file
behind that is too old, and the clock does not pass a file's age while no run is on. What the daemon
says is only about the file (`neverBlocked_iff`), so the promise comes down to a file being there
only while somebody handles it.
-/

namespace Abora.Protocol

open Lib Update Daemon

/-- The request file with its age, the run in progress, and the clock. -/
structure Inbox where
  updates : UpdatesState
  /-- What `symlink_metadata` says of the request file. -/
  request : Option Metadata
  /-- The helper run in progress, with what the machine tells it. -/
  helper : Option (Helper.Args × Helper.RunEnv)
  now : SystemTime

inductive InboxEvent where
  | updates (ev : UpdatesEvent)
  | apply (config : Config) (caller : String) (dryRun : Bool) (env : ApplyEnv) (len : Nat)
  /-- A helper run starts: it looks for a request. -/
  | start (args : Helper.Args) (env : Helper.RunEnv)
  /-- It ends; the removal, if it came to that, may have failed. -/
  | finish (removed : Bool)
  | clock (now : SystemTime)

/-- The file is one the helper would still read. -/
def Readable (md : Metadata) (now : SystemTime) : Prop :=
  md.isFile = true ∧ md.age now ≤ maxRequestAge

/-- It is the helper's own check, for a file that is not too large. -/
theorem readable_iff {md : Metadata} {now : SystemTime} (hlen : md.len ≤ maxFileBytes)
    (path : PathBuf) (bytes : Bytes) :
    Readable md now ↔
      readRegularFile path (.ok md) now (.ok bytes) (some maxRequestAge) = .ok bytes := by
  rw [readRegularFile_ok_iff]
  simp [Readable, hlen]

/-- Somebody is handling the request, or will. -/
def Inbox.Live (s : Inbox) : Prop :=
  s.helper.isSome = true ∨ ∃ md, s.request = some md ∧ Readable md s.now

/-- Nothing says `installing` unless something is: no conflict for a pending request, no dry run
that reports one and no status that shows one. -/
structure Inbox.NeverBlocked (s : Inbox) : Prop where
  refused : ∀ (config : Config) (caller : String) (env : ApplyEnv),
    (s.updates.requestApply config caller false { env with pending := s.request.isSome }).1 =
      .error (.conflict UpdatesState.pendingReason) → s.Live
  dryRun : ∀ (config : Config) (caller : String) (env : ApplyEnv) (resp : ApplyResponse),
    (s.updates.requestApply config caller true { env with pending := s.request.isSome }).1 =
      .ok resp → resp.reason = some UpdatesState.pendingReason → s.Live
  shown : ∀ marker pkgs now saved component percent,
    (s.updates.response s.request.isSome marker pkgs now saved).2.status =
      some (.installing component percent) → s.Live

def Inbox.empty (updates : UpdatesState) (now : SystemTime) : Inbox := ⟨updates, none, none, now⟩

/-! ## What the daemon says -/

theorem block_eq_pending_iff {s : UpdatesState} {config : Config} {pending : Bool}
    {now : Option LocalTime} :
    s.block config pending now = some UpdatesState.pendingReason ↔ pending = true := by
  unfold UpdatesState.block
  cases pending with
  | true => simp
  | false =>
    have hempty : "no updates are available; the last check found nothing" ≠
        UpdatesState.pendingReason := by decide
    have hclosed : "updates may only be applied inside a maintenance window ([maintenance] enabled, and the local time inside a window)" ≠
        UpdatesState.pendingReason := by decide
    simp only [Bool.false_eq_true, if_false, iff_false]
    intro h
    split at h
    · exact hempty (Option.some.inj h)
    · split at h
      · exact hclosed (Option.some.inj h)
      · cases h

theorem status_ne_installing (p : HostPackageProvider) (component : String)
    (percent : Option Nat) : p.status.toOption ≠ some (.installing component percent) := by
  unfold HostPackageProvider.status
  intro h
  split at h <;> cases h

/-- **What the daemon says is only about the file**: all three answers are derived from its being
there. -/
theorem neverBlocked_iff {s : Inbox} : s.NeverBlocked ↔ (s.request.isSome = true → s.Live) := by
  constructor
  · intro h hsome
    refine h.shown false none "" (.ok ()) "host packages" none ?_
    simp [UpdatesState.response, hsome]
  · intro h
    refine ⟨fun config caller env hcall => h ?_, fun config caller env resp hcall hreason => h ?_,
      fun marker pkgs now saved component percent hstatus => h ?_⟩
    · rcases requestApply_cases s.updates config caller { env with pending := s.request.isSome }
        with ⟨reason, hblock, hc⟩ | ⟨-, ⟨e, -, hc⟩ | ⟨-, hc⟩⟩
      · rw [hc] at hcall
        cases hcall
        exact block_eq_pending_iff.mp hblock
      · rw [hc] at hcall
        cases hcall
      · rw [hc] at hcall
        cases hcall
    · cases hcall
      exact block_eq_pending_iff.mp hreason
    · by_contra habsent
      simp only [UpdatesState.response, habsent] at hstatus
      exact status_ne_installing _ component percent hstatus

/-! ## Steps -/

section

variable (fromStr : String → Except String Config) (request : Bytes → Option ApplyRequest)
  (result : Bytes → Option ApplyResult)

/-- What a run starting now is told: about the daemon's request file, the truth. -/
def Inbox.look (s : Inbox) (args : Helper.Args) (env : Helper.RunEnv) : Helper.RunEnv :=
  match Helper.loadConfig fromStr args.config env.configStat env.configText with
  | .error _ => env
  | .ok config =>
    if Helper.requestPath config = s.updates.applyRequestFile then
      { env with
        present := s.request.isSome
        stat :=
          match s.request with
          | some md => .ok md
          | none => .error "No such file or directory (os error 2)"
        fileNow := s.now }
    else env

/-- A run that has started keeps what it was told; the file may change under it. -/
def Inbox.step (s : Inbox) : InboxEvent → Inbox
  | .updates ev => { s with updates := updatesStep result s.updates ev }
  | .apply config caller dryRun env len =>
    match (s.updates.requestApply config caller dryRun
        { env with pending := s.request.isSome }).2 with
    | some _ => { s with request := some ⟨true, len, some s.now⟩ }
    | none => s
  | .start args env =>
    -- the service is a oneshot: it is not started twice
    match s.helper with
    | some _ => s
    | none => { s with helper := some (args, s.look fromStr args env) }
  | .finish removed =>
    match s.helper with
    | none => s
    | some (args, env) =>
      if (Helper.run fromStr request args env).removal = some s.updates.applyRequestFile ∧
          removed = true then
        { s with request := none, helper := none }
      else { s with helper := none }
  | .clock now => { s with now := now }

/-- A helper run that gets as far as the removal of the daemon's request file, and removes it. What
was in the file makes no difference to that. -/
structure Removes (path : PathBuf) (args : Helper.Args) (env : Helper.RunEnv) (removed : Bool) :
    Prop where
  config : ∃ config,
    Helper.loadConfig fromStr args.config env.configStat env.configText = .ok config ∧
      Helper.requestPath config = path
  present : env.present = true
  written : env.written = .ok ()
  removed : removed = true

theorem removes_iff {path : PathBuf} {args : Helper.Args} {env : Helper.RunEnv} {removed : Bool} :
    Removes fromStr path args env removed ↔
      (Helper.run fromStr request args env).removal = some path ∧ removed = true := by
  rw [Helper.run_removal_iff]
  constructor
  · intro h
    obtain ⟨config, hload, hpath⟩ := h.config
    exact ⟨⟨config, hload, hpath, h.present, h.written⟩, h.removed⟩
  · rintro ⟨⟨config, hload, hpath, hpresent, hwritten⟩, hremoved⟩
    exact ⟨⟨config, hload, hpath⟩, hpresent, hwritten, hremoved⟩

/-- A request outlives its ten minutes only under a helper run, and no run leaves one behind that
has. -/
def Served (s : Inbox) : InboxEvent → Prop
  | .finish removed => ∀ args env md, s.helper = some (args, env) → s.request = some md →
      Removes fromStr s.updates.applyRequestFile args env removed ∨
        md.age s.now ≤ maxRequestAge
  | .clock now => ∀ md, s.request = some md →
      s.helper.isSome = true ∨ md.age now ≤ maxRequestAge
  | _ => True

/-- The daemon writes regular files, and nobody else writes here. -/
def Inbox.Regular (s : Inbox) : Prop := ∀ md, s.request = some md → md.isFile = true

variable {fromStr request result}

theorem step_finish_removes {s : Inbox} {args : Helper.Args} {env : Helper.RunEnv} {removed : Bool}
    (hhelper : s.helper = some (args, env))
    (h : Removes fromStr s.updates.applyRequestFile args env removed) :
    s.step fromStr request result (.finish removed) =
      { s with request := none, helper := none } := by
  simp only [Inbox.step, hhelper]
  exact if_pos ((removes_iff fromStr request).mp h)

theorem step_finish_leaves {s : Inbox} {args : Helper.Args} {env : Helper.RunEnv} {removed : Bool}
    (hhelper : s.helper = some (args, env))
    (h : ¬ Removes fromStr s.updates.applyRequestFile args env removed) :
    s.step fromStr request result (.finish removed) = { s with helper := none } := by
  simp only [Inbox.step, hhelper]
  exact if_neg fun hrun => h ((removes_iff fromStr request).mpr hrun)

theorem regular_step {s : Inbox} (hs : s.Regular) (ev : InboxEvent) :
    (s.step fromStr request result ev).Regular := by
  cases ev with
  | updates ev => exact hs
  | apply config caller dryRun env len =>
    simp only [Inbox.step]
    split
    · intro md hmd
      cases hmd
      rfl
    · exact hs
  | start args env =>
    simp only [Inbox.step]
    split <;> exact hs
  | finish removed =>
    simp only [Inbox.step]
    split
    · exact hs
    · split
      · intro md hmd
        cases hmd
      · exact hs
  | clock now => exact hs

theorem live_keep {s : Inbox} (hr : s.Regular) (hs : s.NeverBlocked) {ev : InboxEvent}
    (hev : Served fromStr s ev) : (s.step fromStr request result ev).NeverBlocked := by
  rw [neverBlocked_iff] at hs ⊢
  cases ev with
  | updates ev => exact hs
  | apply config caller dryRun env len =>
    simp only [Inbox.step]
    split
    · intro _
      refine .inr ⟨_, rfl, rfl, ?_⟩
      simp [Metadata.age]
    · exact hs
  | start args env =>
    simp only [Inbox.step]
    split
    · exact hs
    · exact fun _ => .inl rfl
  -- a helper that removes the request leaves nothing behind; one that leaves it has to be young
  -- enough
  | finish removed =>
    cases hhelper : s.helper with
    | none =>
      simp only [Inbox.step, hhelper]
      exact hs
    | some call =>
      obtain ⟨args, env⟩ := call
      by_cases hrem : Removes fromStr s.updates.applyRequestFile args env removed
      · rw [step_finish_removes hhelper hrem]
        intro hsome
        cases hsome
      · rw [step_finish_leaves hhelper hrem]
        intro hsome
        obtain ⟨md, hmd⟩ := Option.isSome_iff_exists.mp hsome
        rcases hev args env md hhelper hmd with h | hage
        · exact absurd h hrem
        · exact .inr ⟨md, hmd, hr md hmd, hage⟩
  | clock now =>
    intro hsome
    obtain ⟨md, hmd⟩ := Option.isSome_iff_exists.mp hsome
    rcases hev md hmd with hhelper | hage
    · exact .inl hhelper
    · exact .inr ⟨md, hmd, hr md hmd, hage⟩

/-- A step that is not served leaves a file that no run will read, so what the daemon says of it is
wrong at once. -/
theorem live_break {s : Inbox} {ev : InboxEvent}
    (hnext : (s.step fromStr request result ev).NeverBlocked) : Served fromStr s ev := by
  rw [neverBlocked_iff] at hnext
  cases ev with
  | updates ev => trivial
  | apply config caller dryRun env len => trivial
  | start args env => trivial
  | finish removed =>
    intro args env md hhelper hmd
    by_cases hrem : Removes fromStr s.updates.applyRequestFile args env removed
    · exact .inl hrem
    rw [step_finish_leaves hhelper hrem] at hnext
    have hsome : s.request.isSome = true := by rw [hmd]; rfl
    rcases hnext hsome with hrunning | ⟨md', hmd', hread⟩
    · cases hrunning
    · cases hmd.symm.trans hmd'
      exact .inr hread.2
  | clock now =>
    intro md hmd
    have hsome : s.request.isSome = true := by rw [hmd]; rfl
    rcases hnext hsome with hrunning | ⟨md', hmd', hread⟩
    · exact .inl hrunning
    · cases hmd.symm.trans hmd'
      exact .inr hread.2

/-- **When a dead request never blocks**: over every interleaving of applies, helper runs,
refreshes, ingests and the clock, exactly when every request is served in time. The files of a run
are regular throughout, and each step keeps the promise or breaks it. -/
theorem never_blocked_iff_guarded (fromStr : String → Except String Config)
    (request : Bytes → Option ApplyRequest) (result : Bytes → Option ApplyResult)
    (updates : UpdatesState) (now : SystemTime) (events : List InboxEvent) :
    (∀ s ∈ visited (Inbox.step fromStr request result) (Inbox.empty updates now) events,
        s.NeverBlocked) ↔
      Guarded (Inbox.step fromStr request result) (Served fromStr) (Inbox.empty updates now)
        events := by
  have hregular : (Inbox.empty updates now).Regular := by
    intro md hmd
    cases hmd
  have hstart : (Inbox.empty updates now).NeverBlocked := by
    rw [neverBlocked_iff]
    exact fun hsome => Bool.noConfusion (show false = true from hsome)
  exact forall_visited_iff_guarded (I := Inbox.Regular) (fun _ ev hr => regular_step hr ev)
    (fun _ _ hr hs hev => live_keep hr hs hev) (fun _ _ _ _ hnext => live_break hnext)
    hregular hstart events

end

/-- A run right after the request that finds a configuration it cannot read. -/
def brokenConfigEnv : Helper.RunEnv :=
  { Helper.nightEnv with
    started := "2026-09-19T03:20:01Z"
    stat := .ok ⟨true, 138, some 1789788000000000000⟩
    fileNow := 1789788001000000000
    configStat := .ok 8
    configText := .ok "updates]"
    localTime := some ⟨.saturday, 200⟩ }

/-- **A dead request blocks**: the helper cannot load its configuration, and ten minutes later the
request it left is one that no run will read. -/
theorem dead_request_blocks :
    ¬ ∀ (fromStr : String → Except String Config) (request : Bytes → Option ApplyRequest)
        (result : Bytes → Option ApplyResult) (updates : UpdatesState) (now : SystemTime)
        (events : List InboxEvent),
        ∀ s ∈ visited (Inbox.step fromStr request result) (Inbox.empty updates now) events,
          s.NeverBlocked := by
  intro h
  let events : List InboxEvent :=
    [.apply Helper.nightConfig "ops" false (nightCall 0xa1) 138, .start {} brokenConfigEnv,
      .finish true, .clock (1789788000000000000 + 11 * 60 * 1000000000)]
  let last := run (Inbox.step (fun _ => .error "could not parse TOML") (fun _ => none)
    fun _ => none) (Inbox.empty oneListed 1789788000000000000) events
  have hlast : last.NeverBlocked := h _ _ _ _ _ events last (run_mem_visited _ _)
  have hrequest : last.request = some ⟨true, 138, some 1789788000000000000⟩ := by decide
  have hhelper : last.helper.isSome = false := by decide
  have hnow : last.now = 1789788000000000000 + 11 * 60 * 1000000000 := rfl
  rcases neverBlocked_iff.mp hlast (by rw [hrequest]; rfl) with hrunning | ⟨md, hmd, hread⟩
  · rw [hhelper] at hrunning
    cases hrunning
  · rw [hrequest] at hmd
    cases hmd
    rw [hnow] at hread
    exact absurd hread.2 (by decide)

end Abora.Protocol
