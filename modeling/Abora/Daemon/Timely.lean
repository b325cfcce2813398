import Abora.Daemon.Scheduler

/-!
# The scheduler does not fall behind

`scheduler_rate_limited` says that the loop never checks or applies too often. This is the other
side: as long as its turns do not take too long, it never goes without. Between two checks there is
the wait of the first one and a turn of the loop, however the configuration changes in between, a
check that fails is tried again after the shorter wait, and where a turn may ask for an automatic
apply, one was asked for an interval ago at most (`scheduler_keeps_up`).

How long a turn takes is not up to the loop, so it is bounded from outside: `TickEnv.Punctual` gives
a turn its length and its longest interval, and the result is in terms of these. The library's
`Prompt` is the invariant, a check that is not overdue at the end of every turn; what a turn does to
it is one of two cases, that it checks or that the check before it has not been waited for
(`checked_cases`).
-/

namespace Abora.Daemon

open Abora.Lib Abora.Update

/-- A turn takes no longer than `turn`, and no longer than `late` to come to its check. -/
structure TickEnv.Punctual (longest turn late : Duration) (env : TickEnv) : Prop where
  interval : checkInterval env.config ≤ longest
  late : env.toDue + env.toCheck ≤ late
  turn : env.toDue + env.toCheck + env.toInputs + env.toRequest + tickLength + env.overslept ≤ turn

/-- How long the check after this one may have to wait. -/
def CheckRun.wait (longest : Duration) (c : CheckRun) : Duration := checkWait c.ok longest

namespace Scheduler

def checked (decode : Bytes → Option ApplyResult) (l : Scheduler) (env : TickEnv) : Scheduler :=
  let (l, ingested) := (l.evaluate env).1.ingest decode env
  l.check env ingested

/-- A turn with everything an automatic apply needs, as it finds it after its check. -/
structure MayApply (decode : Bytes → Option ApplyResult) (l : Scheduler) (env : TickEnv) :
    Prop where
  permitted : (permissions env.config env.localTime.join).installsPermitted = true
  available : (env.others .inputs (l.checked decode env).updates).available ≠ []
  idle : env.pending = false

end Scheduler

/-- Nothing is overdue: there is a check, the newest is not older than its wait and a turn, and no
two neighbours are further apart than that. -/
structure NotOverdue (longest turn late : Duration) (l : Scheduler) : Prop where
  checked : l.checks ≠ []
  fresh : ∀ c ∈ l.checks.getLast?, l.clock ≤ c.started + checkWait c.ok longest + turn
  close : l.checks.IsChain fun a b =>
    b.started ≤ a.started + checkWait a.ok longest + turn + late

theorem checkWait_mono (ok : Bool) {a b : Duration} (h : a ≤ b) :
    checkWait ok a ≤ checkWait ok b := by
  unfold checkWait
  split
  · exact h
  · exact min_le_min_right _ h

/-- A check is started, or the wait for it is not over. -/
theorem check_or_wait (l : Scheduler) (env : TickEnv) (ingested : Bool) :
    (∃ t ∈ l.lastAttempt,
        l.clock + env.toDue - t < checkWait l.lastOk (checkInterval env.config) ∧
        (l.check env ingested).clock = l.clock + env.toDue ∧
        (l.check env ingested).checks = l.checks) ∨
      ∃ c : CheckRun, c.started = l.clock + env.toDue + env.toCheck ∧
        (l.check env ingested).clock = c.started ∧
        (l.check env ingested).checks = l.checks ++ [c] := by
  unfold Scheduler.check
  dsimp only
  by_cases hdue : ({ l with clock := l.clock + env.toDue } : Scheduler).due
      (checkInterval env.config) = true
  · rw [if_pos hdue]
    exact .inr ⟨_, rfl, rfl, rfl⟩
  · rw [if_neg hdue]
    cases hlast : l.lastAttempt with
    | none => exact absurd (by simp only [Scheduler.due, hlast]) hdue
    | some t =>
      refine .inl ⟨t, rfl, ?_, rfl, rfl⟩
      simpa [Scheduler.due, hlast, checkIsDue] using hdue

/-- What a turn finds in the memory of the checks is the newest one, unless it has just recorded a
result of the helper; so it checks, or the newest one has not been waited for. -/
theorem checked_cases (decode : Bytes → Option ApplyResult) {l : Scheduler} (hl : ChecksOk l)
    (env : TickEnv) :
    (∃ c ∈ l.checks.getLast?,
        l.clock + env.toDue < c.started + checkWait c.ok (checkInterval env.config) ∧
        (l.checked decode env).clock = l.clock + env.toDue ∧
        (l.checked decode env).checks = l.checks) ∨
      ∃ c : CheckRun, c.started = l.clock + env.toDue + env.toCheck ∧
        (l.checked decode env).clock = c.started ∧
        (l.checked decode env).checks = l.checks ++ [c] := by
  unfold Scheduler.checked
  obtain ⟨updates, h | h⟩ := ingest_eq decode (l.evaluate env).1 env
  · rw [h]
    rcases check_or_wait { (l.evaluate env).1 with updates := updates } env false with
      ⟨t, ht, hwait, hclock, hchecks⟩ | hmade
    · have hlast : t ∈ l.checks.getLast?.map CheckRun.started := hl.paced.last_eq ▸ ht
      obtain ⟨c, hc, rfl⟩ := Option.mem_map.mp hlast
      have hok : l.lastOk = c.ok := hl.ok c hc
      refine .inl ⟨c, hc, ?_, hclock, hchecks⟩
      rw [← hok]
      exact lt_add_of_tsub_lt_left hwait
    · exact .inr hmade
  · rw [h]
    rcases check_or_wait { (l.evaluate env).1 with
        updates := updates
        lastAttempt := none
        log := (l.evaluate env).1.log ++ [.applyFinished] } env true with ⟨t, ht, -⟩ | hmade
    · cases ht
    · exact .inr hmade

theorem tick_eq (decode : Bytes → Option ApplyResult) (l : Scheduler) (env : TickEnv) :
    l.tick decode env =
      ((l.checked decode env).auto env (permissions env.config env.localTime.join)).sleep env :=
  rfl

theorem tick_rest (decode : Bytes → Option ApplyResult) (l : Scheduler) (env : TickEnv) :
    (l.tick decode env).checks = (l.checked decode env).checks ∧
      (l.tick decode env).clock ≤ (l.checked decode env).clock + env.toInputs + env.toRequest +
        tickLength + env.overslept := by
  rw [tick_eq]
  rcases auto_cases (l.checked decode env) env (permissions env.config env.localTime.join) with
    ⟨updates, h⟩ | ⟨updates, log, -, h⟩
  · rw [h]
    refine ⟨rfl, ?_⟩
    dsimp only [Scheduler.sleep]
    gcongr ?_ + _ + _
    exact Nat.le_add_right _ _
  · rw [h]
    exact ⟨rfl, le_rfl⟩

/-- **One turn**: after it there is a check, and none is overdue. A turn that does not check ends
before the wait of the newest one is over, but for its own length. -/
theorem tick_prompt (decode : Bytes → Option ApplyResult) {l : Scheduler} {env : TickEnv}
    {longest turn late : Duration} (hl : ChecksOk l)
    (hprompt : Prompt CheckRun.started (CheckRun.wait longest) turn late l.clock l.checks)
    (henv : env.Punctual longest turn late) :
    Prompt CheckRun.started (CheckRun.wait longest) turn late (l.tick decode env).clock
        (l.tick decode env).checks ∧
      (l.tick decode env).checks ≠ [] := by
  obtain ⟨hchecks, hrest⟩ := tick_rest decode l env
  have hlate := henv.late
  have hturn := henv.turn
  rw [hchecks]
  rcases checked_cases decode hl env with
    ⟨c, hc, hwait, hclock, hkept⟩ | ⟨c, hstarted, hclock, hmade⟩
  · have hbound := checkWait_mono c.ok henv.interval
    rw [hkept]
    refine ⟨hprompt.skip (l.clock + env.toDue) ?_ (by grind), fun hnil => ?_⟩
    · intro a ha
      obtain rfl : c = a := Option.some.inj (hc.symm.trans ha)
      exact hwait.trans_le (Nat.add_le_add_left hbound _)
    · rw [hnil] at hc
      cases hc
  · rw [hmade]
    exact ⟨hprompt.push (by grind) (by grind), by simp⟩

/-- After a turn that may ask for an automatic apply, the last one asked for is no older than an
interval and a turn. -/
theorem tick_applied (decode : Bytes → Option ApplyResult) {l : Scheduler} {env : TickEnv}
    {longest turn late : Duration} (henv : env.Punctual longest turn late)
    (hmay : l.MayApply decode env) :
    ∃ t ∈ (l.tick decode env).lastAutoAttempt,
      (l.tick decode env).clock ≤ t + longest + turn := by
  have hinterval := henv.interval
  have hturn := henv.turn
  rw [tick_eq]
  unfold Scheduler.auto
  dsimp only
  split
  · refine ⟨_, rfl, ?_⟩
    dsimp only [Scheduler.sleep]
    grind
  · next hno =>
    -- everything else is there, so it is the wait that is not over
    obtain ⟨since, hsince, hshort⟩ : ∃ since ∈ (l.checked decode env).lastAutoAttempt.map
        ((l.checked decode env).clock + env.toInputs - ·), since < checkInterval env.config := by
      by_contra hover
      push Not at hover
      refine hno (shouldAutoApply_iff.mpr ⟨hmay.permitted, ?_, hmay.idle, hover⟩)
      simpa [UpdatesState.applyInputs] using hmay.available
    obtain ⟨t, ht, rfl⟩ := Option.mem_map.mp hsince
    refine ⟨t, ht, ?_⟩
    dsimp only [Scheduler.sleep]
    grind

/-- What a run of punctual turns keeps. -/
theorem run_prompt (decode : Bytes → Option ApplyResult) (clock : Instant) (updates : UpdatesState)
    {longest turn late : Duration} {ticks : List TickEnv}
    (hticks : ∀ e ∈ ticks, e.Punctual longest turn late) :
    let l := run (Scheduler.tick decode) (Scheduler.start clock updates) ticks
    ChecksOk l ∧ AutosOk l ∧
      Prompt CheckRun.started (CheckRun.wait longest) turn late l.clock l.checks := by
  have hguarded : Guarded (Scheduler.tick decode)
      (fun _ e => True ∧ e.Punctual longest turn late) (Scheduler.start clock updates) ticks :=
    (guarded_true _ _).and_forall hticks
  refine visited_of_guarded (I := fun l : Scheduler => ChecksOk l ∧ AutosOk l ∧
      Prompt CheckRun.started (CheckRun.wait longest) turn late l.clock l.checks) ?_ ?_ hguarded _
    (run_mem_visited _ _)
  · rintro l e ⟨hchecks, hautos, hprompt⟩ ⟨-, he⟩
    exact ⟨tick_checksOk decode hchecks e, tick_autosOk decode hautos e,
      (tick_prompt decode hchecks hprompt he).1⟩
  · exact ⟨start_checksOk clock updates, start_autosOk clock updates, .nil⟩

/-- **The scheduler does not fall behind**, however the configuration and everything else changes:
as long as its turns are punctual, there is a check after the first of them, the newest one is never
overdue and none was, and after a turn that may ask for an automatic apply, the newest one is no
older than an interval and a turn. -/
theorem scheduler_keeps_up (decode : Bytes → Option ApplyResult) (clock : Instant)
    (updates : UpdatesState) {longest turn late : Duration} (ticks : List TickEnv) (env : TickEnv)
    (hticks : ∀ e ∈ ticks ++ [env], e.Punctual longest turn late) :
    let l := run (Scheduler.tick decode) (Scheduler.start clock updates) ticks
    NotOverdue longest turn late (l.tick decode env) ∧
      (l.MayApply decode env → ∃ a ∈ (l.tick decode env).autos.getLast?,
        (l.tick decode env).clock ≤ a.started + longest + turn) := by
  intro l
  have henv := hticks env (List.mem_append_right _ List.mem_cons_self)
  obtain ⟨hchecks, hautos, hprompt⟩ := run_prompt decode clock updates
    fun e he => hticks e (List.mem_append_left _ he)
  obtain ⟨⟨hfresh, hclose⟩, hne⟩ := tick_prompt decode hchecks hprompt henv
  refine ⟨⟨hne, hfresh, hclose⟩, fun hmay => ?_⟩
  obtain ⟨t, ht, hold⟩ := tick_applied decode henv hmay
  rw [(tick_autosOk decode hautos env).paced.last_eq] at ht
  obtain ⟨a, ha, rfl⟩ := Option.mem_map.mp ht
  exact ⟨a, ha, hold⟩

def automaticConfig : Config :=
  { updates := { automatic := true }
    maintenance := { windows := [⟨[.saturday], "02:00", "04:00", none⟩] } }

def oneListed : UpdatesState :=
  { UpdatesState.host UpdateStore.inMemory (PathBuf.ofString "/run/request")
      (PathBuf.ofString "/run/result") with
    available := [⟨.stable, ⟨3, 0, 14, none, none⟩, "openssl", "", none, 0, none, none⟩] }

/-- A turn inside the window, a second late; the check fails. -/
def nightTurn : TickEnv where
  config := automaticConfig
  localTime := some (some ⟨.saturday, 180⟩)
  others _ updates := updates
  ingest := none
  check := some ⟨.error "no network", "2026-09-19T03:00:00Z", .ok ()⟩
  pending := false
  request := none
  toDue := 0
  toCheck := 0
  toInputs := 0
  toRequest := 0
  overslept := Duration.fromSecs 1

theorem scheduler_keeps_up_night :
    let l := run (Scheduler.tick fun _ => none) (Scheduler.start 0 oneListed) [nightTurn]
    NotOverdue (Duration.fromSecs 21600) (Duration.fromSecs 31) 0
        (l.tick (fun _ => none) nightTurn) ∧
      ∃ a ∈ (l.tick (fun _ => none) nightTurn).autos.getLast?,
        (l.tick (fun _ => none) nightTurn).clock ≤
          a.started + Duration.fromSecs 21600 + Duration.fromSecs 31 := by
  intro l
  have hpunctual : nightTurn.Punctual (Duration.fromSecs 21600) (Duration.fromSecs 31) 0 :=
    ⟨by decide +kernel, by decide, by decide⟩
  obtain ⟨hkeeps, happlied⟩ := scheduler_keeps_up (fun _ => none) 0 oneListed [nightTurn] nightTurn
    (by simpa using hpunctual)
  exact ⟨hkeeps, happlied ⟨by decide +kernel, by decide +kernel, rfl⟩⟩

end Abora.Daemon
