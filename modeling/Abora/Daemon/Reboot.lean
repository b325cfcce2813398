import Abora.Lib.Run
import Abora.Daemon.Checks

/-!
# Whether a reboot is reported (`reboot_required` in `abora-update/src/host.rs`, `response` here)

The reboot marker is a file, and the store remembers since when it has been there. A call that finds
the two in agreement answers without a save. A call that finds them apart saves first and answers
after; if the save fails it answers with what it failed to replace, so that the marker is denied
when it has just appeared and affirmed when it is gone.

`reboot_reported_iff` says that this is the only way the answer differs from the marker, at any call
of any run. It needs no invariant: each call compares the marker with the store it finds, so each is
judged by itself, and the run only says which store that is.
-/

namespace Abora.Daemon

open Abora.Lib Abora.Update

/-- One call of `response`, with what the machine answers to it. -/
structure ResponseCall where
  pending : Bool
  /-- The reboot marker exists. -/
  marker : Bool
  pkgs : Option String
  now : String
  saved : Except StoreError Unit
  deriving DecidableEq

/-- `response`, with what the machine answers to it. -/
def UpdatesState.respond (s : UpdatesState) (c : ResponseCall) : UpdatesState × UpdatesResponse :=
  s.response c.pending c.marker c.pkgs c.now c.saved

/-- Everything that touches the update state while the daemon runs. -/
inductive StateEvent where
  | response (c : ResponseCall)
  | refresh (c : RefreshCall)
  | ingest (channel : Channel) (env : IngestEnv)
  | schedule (info : ScheduleInfo)

def stateStep (decode : Bytes → Option ApplyResult) (s : UpdatesState) :
    StateEvent → UpdatesState
  | .response c => (s.respond c).1
  | .refresh c => (s.answer c).1
  | .ingest channel env => (s.ingestApplyResult decode channel env).1
  | .schedule info => s.setSchedule info

/-- The marker has changed since it was last remembered, and remembering it fails. -/
structure Forgets (s : UpdatesState) (c : ResponseCall) : Prop where
  changed : s.store.reboot.required ≠ c.marker
  onDisk : s.store.path ≠ none
  failed : ∃ e, c.saved = .error e

/-- No call of `response` forgets. -/
def KeepsUp (s : UpdatesState) : StateEvent → Prop
  | .response c => ¬ Forgets s c
  | _ => True

/-! ## One call -/

/-- Setting the status fails with its save and changes nothing, or succeeds. -/
theorem setReboot_cases (store : UpdateStore) (status : RebootStatus)
    (saved : Except StoreError Unit) :
    (∃ e, store.path ≠ none ∧ saved = .error e ∧
        store.setReboot status saved = (store, .error e)) ∨
      ((store.path = none ∨ saved = .ok ()) ∧
        ∃ next, store.setReboot status saved = (next, .ok ())) := by
  rcases perform_cases store (.reboot status) saved with h | ⟨hsaved, h⟩
  · exact .inl h
  · exact .inr ⟨hsaved, _, h⟩

/-- In agreement nothing is saved, and the answer is what both of them say. -/
theorem rebootRequired_agree {p : HostPackageProvider} {marker : Bool}
    (h : p.store.reboot.required = marker) (pkgs : Option String) (now : String)
    (saved : Except StoreError Unit) :
    ∃ status : RebootStatus, status.required = marker ∧
      p.rebootRequired marker pkgs now saved = (p, .ok status) := by
  unfold HostPackageProvider.rebootRequired
  subst h
  cases hcurrent : p.store.reboot.required with
  | false => exact ⟨RebootStatus.none, rfl, by simp [hcurrent]⟩
  | true => exact ⟨p.store.reboot, hcurrent, by simp [hcurrent]⟩

/-- Apart, the new status is answered once it is saved. What is answered when it is not, is up to
the caller. -/
theorem rebootRequired_apart {p : HostPackageProvider} {marker : Bool}
    (h : p.store.reboot.required ≠ marker) (pkgs : Option String) (now : String)
    (saved : Except StoreError Unit) :
    ∃ status : RebootStatus, status.required = marker ∧
      p.rebootRequired marker pkgs now saved =
        match p.store.setReboot status saved with
        | (store, .error e) => ({ p with store := store }, .error (storeErr e))
        | (store, .ok ()) => ({ p with store := store }, .ok status) := by
  unfold HostPackageProvider.rebootRequired
  cases marker with
  | false =>
    have hcurrent : p.store.reboot.required = true := by simpa using h
    refine ⟨RebootStatus.none, rfl, ?_⟩
    rcases p.store.setReboot RebootStatus.none saved with ⟨store, e | _⟩ <;> simp [hcurrent]
  | true =>
    have hcurrent : p.store.reboot.required = false := by simpa using h
    simp only [hcurrent, Bool.true_eq_false, Bool.false_eq_true, if_false]
    exact ⟨_, rfl, rfl⟩

/-- **One call**: the answer is the marker unless the call forgets. -/
theorem respond_required_iff (s : UpdatesState) (c : ResponseCall) :
    (s.respond c).2.reboot.required = c.marker ↔ ¬ Forgets s c := by
  unfold UpdatesState.respond UpdatesState.response
  by_cases hsame : s.provider.store.reboot.required = c.marker
  · obtain ⟨status, hstatus, h⟩ := rebootRequired_agree hsame c.pkgs c.now c.saved
    simp only [h]
    exact iff_of_true hstatus fun hforgets => hforgets.changed hsame
  · obtain ⟨status, hstatus, h⟩ := rebootRequired_apart hsame c.pkgs c.now c.saved
    simp only [h]
    rcases setReboot_cases s.provider.store status c.saved with
      ⟨e, hpath, hsaved, hset⟩ | ⟨hsaved, next, hset⟩
    · -- the answer is what was remembered, and that is the opposite
      simp only [hset]
      exact iff_of_false hsame fun hnot => hnot ⟨hsame, hpath, e, hsaved⟩
    · simp only [hset]
      refine iff_of_true hstatus fun hforgets => ?_
      obtain ⟨e, he⟩ := hforgets.failed
      rcases hsaved with hnone | hok
      · exact hforgets.onDisk hnone
      · rw [hok] at he
        cases he

/-! ## Any run -/

/-- **The reported requirement is the marker at every call** of a run, exactly when no call finds a
changed marker and fails to save the change. -/
theorem reboot_reported_iff (decode : Bytes → Option ApplyResult) (s : UpdatesState)
    (events : List StateEvent) :
    (∀ pre c post, events = pre ++ .response c :: post →
        ((run (stateStep decode) s pre).respond c).2.reboot.required = c.marker) ↔
      Guarded (stateStep decode) KeepsUp s events := by
  rw [guarded_iff_forall]
  constructor
  · intro h pre ev post hev
    cases ev with
    | response c => exact (respond_required_iff _ c).mp (h pre c post hev)
    | _ => trivial
  · intro h pre c post hev
    exact (respond_required_iff _ c).mpr (h pre (.response c) post hev)

/-- **A reboot that is needed is denied.** The marker is there, and the disk is full. -/
theorem reboot_denied_on_failed_save :
    ¬ ∀ (decode : Bytes → Option ApplyResult) (s : UpdatesState) (events : List StateEvent),
        ∀ pre c post, events = pre ++ .response c :: post →
          ((run (stateStep decode) s pre).respond c).2.reboot.required = c.marker := by
  intro h
  let file := PathBuf.ofString "/var/lib/abora/updates.json"
  let s := UpdatesState.host ⟨some file, StoreData.empty⟩
    (PathBuf.ofString "/var/lib/abora/apply-request.json") defaultResultFile
  let full : StoreError :=
    .io "/var/lib/abora/updates.json" "No space left on device (os error 28)"
  let c : ResponseCall := ⟨false, true, none, "2026-09-21T04:00:00Z", .error full⟩
  have hanswer := h (fun _ => none) s [.response c] [] c [] rfl
  exact (respond_required_iff s c).mp hanswer
    ⟨Bool.false_ne_true, Option.some_ne_none file, full, rfl⟩

end Abora.Daemon
