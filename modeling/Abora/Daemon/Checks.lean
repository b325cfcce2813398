import Abora.Lib.Run
import Abora.Daemon.State

/-!
# What a check leaves behind

A refresh writes four things, in two layers: the provider's last outcome, the stored time of the
check, the list of available updates and — derived from the first — the status and the health the
API reports. The provider's outcome is written *before* the store is asked to save, the other two
after. A save that fails in between leaves two of the four new and two old.

`Checked` is a run of refreshes that also remembers the latest call with its answer and the state
right after the last one that answered `Ok`. `TakesEffect` compares the four things with these two:
a refused check has to be refused everywhere, and one that found something has to have found it
everywhere. `takesEffect_iff` says that the save in between is the only thing that keeps the four
from agreeing, after any sequence of refreshes, however the earlier ones went.
-/

namespace Abora.Daemon

open Abora.Lib Abora.Update

/-- One call of `refresh`, with what the machine answers to it. -/
structure RefreshCall where
  channel : Channel
  run : Except String String
  now : String
  saved : Except StoreError Unit
  deriving DecidableEq

/-- One refresh, and its answer to the caller. -/
def UpdatesState.answer (s : UpdatesState) (c : RefreshCall) : UpdatesState × Except String Nat :=
  s.refresh c.channel c.run c.now c.saved

/-- Some refreshes, as seen from the latest. -/
structure Checked where
  state : UpdatesState
  /-- The state right after the last refresh that answered `Ok`; before the first one, the start. -/
  good : UpdatesState
  latest : Option (RefreshCall × Except String Nat)
  deriving DecidableEq

def Checked.start (s : UpdatesState) : Checked := ⟨s, s, none⟩

/-- One more refresh. Only one that answered `Ok` moves the state that later ones are compared
with. -/
def checkedStep (k : Checked) (c : RefreshCall) : Checked :=
  let (next, answer) := k.state.answer c
  ⟨next, if answer.isOk then next else k.good, some (c, answer)⟩

/-- A refused check is a refused check everywhere: the health is degraded, the status is an error,
and the list and the time are those of the last check that was not refused. -/
structure Refused (k : Checked) : Prop where
  health : k.state.health.status = .degraded
  status : ∃ message, k.state.provider.status = .ok (.error message)
  available : k.state.available = k.good.available
  lastCheck : k.state.store.lastCheck = k.good.store.lastCheck

/-- A check that found `n` updates found them everywhere: in the health, in the time, in the list,
and in the status, which names them if there are any. -/
structure Found (k : Checked) (c : RefreshCall) (n : Nat) : Prop where
  health : k.state.health.status = .ok
  lastCheck : k.state.store.lastCheck = some c.now
  length : k.state.available.length = n
  upToDate : k.state.provider.status = .ok .upToDate ↔ n = 0
  listed : ∃ output, c.run = .ok output ∧
    k.state.available = (parseSimulation output).map (PackageUpgrade.toAvailable c.channel) ∧
    (n ≠ 0 → k.state.provider.status =
      .ok (.updateAvailable ((parseSimulation output).map PackageUpgrade.label)))

/-- The latest refresh took effect everywhere or nowhere. -/
def TakesEffect (k : Checked) : Prop :=
  ∀ c answer, k.latest = some (c, answer) →
    match answer with
    | .error _ => Refused k
    | .ok n => Found k c n

/-- The check itself went well, and its time could not be saved. In memory there is nothing to save,
so this needs a path. -/
structure HalfDone (path : Option PathBuf) (c : RefreshCall) : Prop where
  ran : ∃ output, c.run = .ok output
  persistent : path ≠ none
  unsaved : ∃ e, c.saved = .error e

/-! ## One refresh -/

/-- **The three ways a refresh ends**: the check fails, its time cannot be saved, or it is done. -/
theorem refresh_cases (s : UpdatesState) (c : RefreshCall) :
    (∃ message, c.run = .error message ∧ s.answer c =
        ({ s with provider := ⟨s.store, some (.failed message)⟩ },
          .error (UpdateError.source message).text)) ∨
      ∃ output, c.run = .ok output ∧
        let last := some (LastCheck.updates ((parseSimulation output).map PackageUpgrade.label))
        ((∃ e, HalfDone s.store.path c ∧
            s.answer c = ({ s with provider := ⟨s.store, last⟩ }, .error (storeErr e).text)) ∨
          (¬ HalfDone s.store.path c ∧ s.answer c =
            ({ s with
                provider := ⟨⟨s.store.path, trim { s.store.data with lastCheck := some c.now }⟩, last⟩
                available := (parseSimulation output).map (PackageUpgrade.toAvailable c.channel) },
              .ok (parseSimulation output).length))) := by
  unfold UpdatesState.answer UpdatesState.refresh HostPackageProvider.check
  cases hrun : c.run with
  | error message => exact .inl ⟨message, rfl, rfl⟩
  | ok output =>
    refine .inr ⟨output, rfl, ?_⟩
    rcases perform_cases s.provider.store (.check c.now) c.saved with
      ⟨e, hpath, hsaved, h⟩ | ⟨hsaved, h⟩
    · have h : s.provider.store.recordCheck c.now c.saved = (s.provider.store, .error e) := h
      rw [h]
      exact .inl ⟨e, ⟨⟨output, hrun⟩, hpath, e, hsaved⟩, rfl⟩
    · have h : s.provider.store.recordCheck c.now c.saved =
          (⟨s.provider.store.path, trim { s.provider.store.data with lastCheck := some c.now }⟩,
            .ok ()) := h
      rw [h]
      refine .inr ⟨fun hhalf => ?_, by simp [UpdatesState.store]⟩
      obtain ⟨-, hpath, e, he⟩ := hhalf
      rcases hsaved with hnone | hok
      · exact hpath hnone
      · rw [hok] at he
        cases he

/-! ## Along a sequence -/

/-- What no refresh that fails touches. It is the invariant of the run: the list and the stored time
are still those of the last refresh that answered `Ok`. -/
structure CheckedOk (path : Option PathBuf) (k : Checked) : Prop where
  path : k.state.store.path = path
  available : k.state.available = k.good.available
  lastCheck : k.state.store.lastCheck = k.good.store.lastCheck

theorem checkedStep_ok {path : Option PathBuf} {k : Checked} (hk : CheckedOk path k)
    (c : RefreshCall) : CheckedOk path (checkedStep k c) := by
  unfold checkedStep
  rcases refresh_cases k.state c with ⟨message, -, h⟩ | ⟨output, -, ⟨e, -, h⟩ | ⟨-, h⟩⟩
  · rw [h]
    exact ⟨hk.path, hk.available, hk.lastCheck⟩
  · rw [h]
    exact ⟨hk.path, hk.available, hk.lastCheck⟩
  · rw [h]
    exact ⟨hk.path, rfl, rfl⟩

theorem health_failed (s : UpdatesState) {message : String}
    (h : s.provider.last = some (.failed message)) :
    s.health.status = .degraded ∧ s.provider.status = .ok (.error message) := by
  have hstatus : s.provider.status = .ok (.error message) := by
    rw [HostPackageProvider.status, h]
  refine ⟨?_, hstatus⟩
  rw [UpdatesState.health, hstatus]

/-- After a check that ran, nothing reports an error, whatever became of its time. -/
theorem health_updates (s : UpdatesState) {versions : List String}
    (h : s.provider.last = some (.updates versions)) :
    s.health.status = .ok ∧ (s.provider.status = .ok .upToDate ↔ versions = []) ∧
      (versions ≠ [] → s.provider.status = .ok (.updateAvailable versions)) := by
  cases versions with
  | nil =>
    have hstatus : s.provider.status = .ok .upToDate := by
      rw [HostPackageProvider.status, h]
    refine ⟨?_, by simp [hstatus], fun hne => absurd rfl hne⟩
    rw [UpdatesState.health, hstatus]
  | cons v vs =>
    have hstatus : s.provider.status = .ok (.updateAvailable (v :: vs)) := by
      rw [HostPackageProvider.status, h]
    refine ⟨?_, by simp [hstatus], fun _ => hstatus⟩
    rw [UpdatesState.health, hstatus]

/-- **One more refresh**, from any state the invariant holds in: the three ways it can end, and only
the second of them is bad. -/
theorem takesEffect_step_iff {path : Option PathBuf} {k : Checked} (hk : CheckedOk path k)
    (c : RefreshCall) : TakesEffect (checkedStep k c) ↔ ¬ HalfDone path c := by
  have hok := checkedStep_ok hk c
  obtain rfl := hk.path
  -- the command fails, or its output is listed and the store cannot be saved, or everything goes
  -- well
  rcases refresh_cases k.state c with
    ⟨message, hrun, h⟩ | ⟨output, hrun, ⟨e, hhalf, h⟩ | ⟨hnot, h⟩⟩
  · have hstep : (checkedStep k c).state.provider.last = some (.failed message) := by
      rw [checkedStep, h]
    obtain ⟨hhealth, hstatus⟩ := health_failed _ hstep
    constructor
    · intro _ hhalf
      obtain ⟨output, hout⟩ := hhalf.ran
      rw [hrun] at hout
      cases hout
    · intro _ c' answer hlatest
      have hanswer : answer = .error (UpdateError.source message).text := by
        rw [checkedStep, h] at hlatest
        exact (Prod.ext_iff.mp (Option.some.inj hlatest)).2.symm
      subst hanswer
      exact ⟨hhealth, ⟨message, hstatus⟩, hok.available, hok.lastCheck⟩
  · -- the answer is an error, and the provider's outcome says otherwise
    have hstep : (checkedStep k c).state.provider.last =
        some (.updates ((parseSimulation output).map PackageUpgrade.label)) := by
      rw [checkedStep, h]
    have hlatest : (checkedStep k c).latest = some (c, .error (storeErr e).text) := by
      rw [checkedStep, h]
    refine ⟨fun heffect => ?_, fun hnot => absurd hhalf hnot⟩
    have hrefused : Refused (checkedStep k c) := heffect c _ hlatest
    have hdegraded := hrefused.health
    rw [(health_updates _ hstep).1] at hdegraded
    cases hdegraded
  · refine ⟨fun _ => hnot, fun _ c' answer hlatest => ?_⟩
    have hstep : (checkedStep k c).state.provider.last =
        some (.updates ((parseSimulation output).map PackageUpgrade.label)) := by
      rw [checkedStep, h]
    have havailable : (checkedStep k c).state.available =
        (parseSimulation output).map (PackageUpgrade.toAvailable c.channel) := by
      rw [checkedStep, h]
    have hcheck : (checkedStep k c).state.store.lastCheck = some c.now := by
      rw [checkedStep, h]
      simp [UpdatesState.store, UpdateStore.lastCheck]
    obtain ⟨hhealth, hupToDate, hlisted⟩ := health_updates _ hstep
    have hpair : c = c' ∧ Except.ok (parseSimulation output).length = answer := by
      rw [checkedStep, h] at hlatest
      exact Prod.ext_iff.mp (Option.some.inj hlatest)
    obtain ⟨rfl, rfl⟩ := hpair
    refine ⟨hhealth, hcheck, by rw [havailable, List.length_map], ?_, output, hrun, havailable, ?_⟩
    · rw [hupToDate, List.map_eq_nil_iff, List.length_eq_zero_iff]
    · intro hne
      refine hlisted fun hnil => hne ?_
      rw [List.map_eq_nil_iff.mp hnil]
      rfl

/-- **When a check takes effect everywhere or nowhere**: after any sequence of refreshes, exactly
when the latest one is not a check that ran and whose time could not be saved. An earlier one that
was leaves no trace that a later check does not overwrite. -/
theorem takesEffect_iff (s : UpdatesState) (calls : List RefreshCall) (c : RefreshCall) :
    TakesEffect (run checkedStep (Checked.start s) (calls ++ [c])) ↔
      ¬ HalfDone s.store.path c := by
  rw [run_concat]
  refine takesEffect_step_iff ?_ c
  exact run_invariant (I := CheckedOk s.store.path) (fun k c hk => checkedStep_ok hk c)
    ⟨rfl, rfl, rfl⟩ calls

/-- **A check that fails and is reported as healthy**: the disk is full when its time is saved. The
answer is an error, the list stays empty, and the status announces an update. -/
theorem failed_check_healthy :
    let path := PathBuf.ofString "/var/lib/abora/updates.json"
    let s := UpdatesState.host ⟨some path, StoreData.empty⟩
      (PathBuf.ofString "/var/lib/abora/apply-request.json") defaultResultFile
    let c : RefreshCall :=
      ⟨.stable, .ok "Inst openssl [3.0.13] (3.0.14 Ubuntu:24.04/noble-updates [amd64])\n",
        "2026-09-20T09:00:00Z", .error (.io path.display "No space left on device")⟩
    let k := run checkedStep (Checked.start s) [c]
    (k.state.health.status = .ok ∧
        k.state.provider.status = .ok (.updateAvailable ["openssl 3.0.14"]) ∧
        k.state.available = []) ∧ ¬ TakesEffect k := by
  intro path s c k
  refine ⟨⟨by decide, by decide, by decide⟩, fun heffect => ?_⟩
  have hhalf : HalfDone s.store.path c :=
    ⟨⟨_, rfl⟩, Option.some_ne_none path, _, rfl⟩
  have hrun : k = run checkedStep (Checked.start s) ([] ++ [c]) := rfl
  rw [hrun, run_concat] at heffect
  exact (takesEffect_step_iff ⟨rfl, rfl, rfl⟩ c).mp heffect hhalf

end Abora.Daemon
