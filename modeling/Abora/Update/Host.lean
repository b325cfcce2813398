import Abora.Update.AptOutput
import Abora.Update.Store

/-!
# The host-package provider (`abora-update/src/host.rs`)

Read-only update checks against `apt`: a check runs a simulation, never an installation. It records
its outcome twice, in memory for `status` and in the store for the last-check time, and the second
can fail after the first has happened; `check_cases` keeps the three outcomes apart. So a check may
answer an error and leave a status that lists the updates it found.

The store is shared with the daemon's update state, so every operation returns the provider, the
store in it. The runner's answer, the clock and the marker file are arguments: what the runner makes
of the bytes `apt-get` wrote is `Abora.Update.Runner`.
-/

namespace Abora.Update

open Abora.Lib Abora.Lib.Text

/-- What `status` answers from: the labels of what the last check listed, or its failure. -/
inductive LastCheck where
  | updates (versions : List String)
  | failed (message : String)
  deriving DecidableEq, Repr

/-- `HostPackageProvider`; the runner, the marker and the clock are arguments of its methods. -/
structure HostPackageProvider where
  store : UpdateStore
  last : Option LastCheck
  deriving DecidableEq, Repr

def storeErr (e : StoreError) : UpdateError := .source e.text

/-- An upgrade as the API shows it. Its version is `apt`'s cut down to three numbers, so the summary
repeats both versions in full. -/
def PackageUpgrade.toAvailable (channel : Channel) (u : PackageUpgrade) : AvailableUpdate where
  channel := channel
  version := versionFromDebian u.target
  component := u.name
  summary :=
    match u.installed with
    | some installed => s!"{u.name}: {installed} -> {u.target} ({u.origin})"
    | none => s!"{u.name}: new, {u.target} ({u.origin})"
  releaseNotes := none
  sizeBytes := 0
  releasedAt := none
  checksums := none

def PackageUpgrade.label (u : PackageUpgrade) : String := s!"{u.name} {u.target}"

namespace HostPackageProvider

/-- `check`: what the simulation printed, the clock, and what the save of the check time did. `last`
is set before the store is asked to save. -/
def check (p : HostPackageProvider) (channel : Channel) (run : Except String String)
    (now : String) (saved : Except StoreError Unit) :
    HostPackageProvider × Except UpdateError AvailableUpdates :=
  match run with
  | .error message => ({ p with last := some (.failed message) }, .error (.source message))
  | .ok output =>
    let upgrades := parseSimulation output
    let last := some (LastCheck.updates (upgrades.map PackageUpgrade.label))
    match p.store.recordCheck now saved with
    | (store, .error e) => (⟨store, last⟩, .error (storeErr e))
    | (store, .ok ()) =>
      (⟨store, last⟩, .ok ⟨channel, upgrades.map (PackageUpgrade.toAvailable channel)⟩)

def status (p : HostPackageProvider) : Except UpdateError UpdateStatus :=
  match p.last with
  | none => .error (.conflict "no update check has run yet")
  | some (.failed message) => .ok (.error message)
  | some (.updates []) => .ok .upToDate
  | some (.updates versions) => .ok (.updateAvailable versions)

/-- `reboot_required`: whether the marker exists, the packages file beside it, and the clock. The
time since when is the store's, if the store knew of the reboot already. -/
def rebootRequired (p : HostPackageProvider) (marker : Bool) (pkgs : Option String) (now : String)
    (saved : Except StoreError Unit) : HostPackageProvider × Except UpdateError RebootStatus :=
  let current := p.store.reboot
  if marker = false then
    if current.required then
      match p.store.setReboot RebootStatus.none saved with
      | (store, .error e) => ({ p with store := store }, .error (storeErr e))
      | (store, .ok ()) => ({ p with store := store }, .ok RebootStatus.none)
    else (p, .ok RebootStatus.none)
  else if current.required then (p, .ok current)
  else
    let packages := (pkgs.map fun s =>
      ", ".intercalate (((lines s.toList).take 5).map String.ofList)).filter (· ≠ "")
    let reason :=
      match packages with
      | some packages => s!"updated packages need a reboot: {packages}"
      | none => "the system reports that a reboot is required"
    let status : RebootStatus := ⟨true, some reason, some now⟩
    match p.store.setReboot status saved with
    | (store, .error e) => ({ p with store := store }, .error (storeErr e))
    | (store, .ok ()) => ({ p with store := store }, .ok status)

end HostPackageProvider

/-! ## The outcomes of a check -/

theorem recordCheck_cases (s : UpdateStore) (now : String) (saved : Except StoreError Unit) :
    (∃ e, s.recordCheck now saved = (s, .error e)) ∨
      s.recordCheck now saved =
        (⟨s.path, trim { s.data with lastCheck := some now }⟩, .ok ()) := by
  rcases perform_cases s (.check now) saved with ⟨e, -, -, h⟩ | ⟨-, h⟩
  · exact .inl ⟨e, h⟩
  · exact .inr h

/-- **A check fails before anything is recorded, or fails to record its time, or succeeds** with one
update for each accepted line of the simulation. In the second case `status` knows what was found
and the store does not know that anyone looked. -/
theorem check_cases (p : HostPackageProvider) (channel : Channel) (run : Except String String)
    (now : String) (saved : Except StoreError Unit) :
    (∃ message, run = .error message ∧ p.check channel run now saved =
        ({ p with last := some (.failed message) }, .error (.source message))) ∨
      ∃ output, run = .ok output ∧
        let last := some (LastCheck.updates ((parseSimulation output).map PackageUpgrade.label))
        ((∃ e, p.check channel run now saved = (⟨p.store, last⟩, .error (storeErr e))) ∨
          p.check channel run now saved =
            (⟨⟨p.store.path, trim { p.store.data with lastCheck := some now }⟩, last⟩,
              .ok ⟨channel, (parseSimulation output).map (PackageUpgrade.toAvailable channel)⟩)) := by
  unfold HostPackageProvider.check
  cases run with
  | error message => exact .inl ⟨message, rfl, rfl⟩
  | ok output =>
    refine .inr ⟨output, rfl, ?_⟩
    rcases recordCheck_cases p.store now saved with ⟨e, h⟩ | h
    · rw [h]
      exact .inl ⟨e, rfl⟩
    · rw [h]
      exact .inr rfl

end Abora.Update
