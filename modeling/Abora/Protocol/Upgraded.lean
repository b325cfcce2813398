import Abora.Helper.Run
import Abora.Daemon.Ledger

/-!
# Which packages a result calls upgraded

An `Inst` line either names an installed package and its next version, or a new dependency. The
parser keeps the two apart (`PackageUpgrade.installed`), but the daemon's list, the request and the
helper's intersection carry names, and the install is run with `--only-upgrade`, which passes over
what is not installed. A new dependency that was requested is then reported as upgraded, and the
daemon takes it off its list (`removed_of_ingest`). `results_installed_iff` is exactly when that
does not happen.

The chain is short: what is gone from the list was in the result, what is in the result was
requested and listed, and what is requested and listed is installed or is not. Only the last link
can fail, and it fails in the simulation, before anything is installed.
-/

namespace Abora.Protocol

open Lib Update Daemon
open Helper (Ctx Env Outcome process todo upgradable installCommand simulateCommand)

/-- The simulation has an `Inst` line of `p` with an installed version, which is what
`--only-upgrade` asks for. -/
def ListedInstalled (simulation p : String) : Prop :=
  ∃ u ∈ parseSimulation simulation, u.name = p ∧ u.installed.isSome = true

/-- Every package of a successful result is one `--only-upgrade` acts on. -/
def ResultInstalled (simulation : String) (outcome : Option Outcome) : Prop :=
  ∀ o, outcome = some o → o.result.succeeded = true →
    ∀ p ∈ o.result.packages, ListedInstalled simulation p

/-- Every package an ingest of the result takes off a list is, too. -/
def RemovedInstalled (simulation : String) (outcome : Option Outcome) : Prop :=
  ∀ o, outcome = some o → ∀ (decode : Bytes → Option ApplyResult) (s : UpdatesState)
    (channel : Channel) (env : IngestEnv), s.readResult decode env = some o.result →
    ∀ u ∈ s.available, u ∉ (s.ingestApplyResult decode channel env).1.available →
      ListedInstalled simulation u.component

/-- A window is open and `apt-get` upgrades what is requested and listed. -/
def InstallSucceeds (ctx : Ctx) (env : Env) (request : ApplyRequest) (simulation : String) : Prop :=
  OpenAt ctx.config env.localTime ∧
    ∃ out, env.runner (installCommand (todo request simulation)) = .ok out

/-- Whatever is requested and listed is listed as installed. -/
def RequestsInstalled (request : ApplyRequest) (simulation : String) : Prop :=
  ∀ p ∈ request.packages, p ∈ upgradable simulation → ListedInstalled simulation p

theorem mem_todo_iff {request : ApplyRequest} {simulation p : String} :
    p ∈ todo request simulation ↔ p ∈ request.packages ∧ p ∈ upgradable simulation := by
  rw [Helper.todo_eq_filter, List.mem_filter, List.contains_iff_mem]

/-- What is gone from the list after an ingest was a package of a successful result. -/
theorem removed_of_ingest {decode : Bytes → Option ApplyResult} {s : UpdatesState}
    {channel : Channel} {env : IngestEnv} {result : ApplyResult}
    (hread : s.readResult decode env = some result) {u : AvailableUpdate} (hu : u ∈ s.available)
    (hgone : u ∉ (s.ingestApplyResult decode channel env).1.available) :
    result.succeeded = true ∧ u.component ∈ result.packages := by
  have hcall : s.ingestApplyResult decode channel env =
      s.ingestResult channel result env.saved := by rw [ingestApplyResult_eq, hread]
  rw [hcall] at hgone
  by_cases hrecords : Records s result env.saved
  · have hdropped : u ∉ ((s.withStore (recordedStore s channel result)).dropInstalled
        result).available := by
      rw [ingestResult_of_records hrecords channel] at hgone
      exact hgone
    rw [mem_dropInstalled_iff, not_and, not_not] at hdropped
    exact hdropped hu
  · rw [ingestResult_of_not hrecords channel] at hgone
    exact absurd hu hgone

/-- A successful result of an accepted request names nothing, or what is requested and listed. -/
theorem result_packages {decode : Bytes → Option ApplyRequest} {ctx : Ctx} {env : Env}
    {request : ApplyRequest} {simulation : String} (hacc : Helper.Accepted decode env request)
    (hsim : env.runner simulateCommand = .ok simulation) {o : Outcome}
    (ho : (process decode ctx env).2 = some o) :
    o.result.packages = [] ∨
      InstallSucceeds ctx env request simulation ∧ o.result.packages = todo request simulation := by
  rw [Helper.process_of_accepted hacc] at ho
  cases ho
  rcases Helper.perform_cases ctx env request with
    ⟨-, hquiet⟩ | ⟨simulation', hopen, hsim', -, -, ⟨e, -, hout⟩ | ⟨out, hinst, hout⟩⟩
  · exact .inl hquiet.1
  · rw [hout]
    exact .inl rfl
  · cases hsim.symm.trans hsim'
    rw [hout]
    exact .inr ⟨⟨hopen, out, hinst⟩, rfl⟩

/-- **Results, and the list after them, name installed packages only, exactly when** no install
succeeds or every requested package that is listed is listed with an installed version. The list
loses what the result names and nothing else, so both halves have one condition. -/
theorem results_installed_iff {decode : Bytes → Option ApplyRequest} {ctx : Ctx} {env : Env}
    {request : ApplyRequest} {simulation : String} (hacc : Helper.Accepted decode env request)
    (hsim : env.runner simulateCommand = .ok simulation) :
    (ResultInstalled simulation (process decode ctx env).2 ∧
        RemovedInstalled simulation (process decode ctx env).2) ↔
      (InstallSucceeds ctx env request simulation → RequestsInstalled request simulation) := by
  constructor
  · intro ⟨hresult, _⟩ ⟨hopen, out, hinst⟩ p hp hlisted
    have hmem := mem_todo_iff.mpr ⟨hp, hlisted⟩
    have hne : todo request simulation ≠ [] := List.ne_nil_of_mem hmem
    rw [Helper.process_of_accepted hacc, Helper.perform_of_listed hopen hsim hne, hinst] at hresult
    exact hresult _ rfl rfl p hmem
  · intro h
    have hresult : ∀ o, (process decode ctx env).2 = some o →
        ∀ p ∈ o.result.packages, ListedInstalled simulation p := by
      intro o ho p hp
      rcases result_packages hacc hsim ho with hnone | ⟨hsucceeds, hpackages⟩
      · rw [hnone] at hp
        cases hp
      · rw [hpackages] at hp
        obtain ⟨hrequested, hlisted⟩ := mem_todo_iff.mp hp
        exact h hsucceeds p hrequested hlisted
    refine ⟨fun o ho _ => hresult o ho, fun o ho rdecode s channel ienv hread u hu hgone => ?_⟩
    exact hresult o ho _ (removed_of_ingest hread hu hgone).2

/-- The night's request names an installed package. -/
theorem results_installed_night :
    let decode (bytes : Bytes) : Option ApplyRequest :=
      if bytes = Helper.nightJson then some Helper.nightRequest else none
    ResultInstalled "Inst openssl [3.0.13] (3.0.14 Ubuntu:24.04/noble-updates [amd64])\n"
      (process decode ⟨Helper.requestPath Helper.nightConfig, Helper.nightConfig⟩
        Helper.nightEnv.toEnv).2 := by
  intro decode
  have hacc : Helper.Accepted decode Helper.nightEnv.toEnv Helper.nightRequest :=
    { present := rfl
      file := ⟨_, rfl, rfl, by decide, by decide⟩
      decodes := ⟨Helper.nightJson, rfl, if_pos rfl⟩
      valid := by decide }
  refine ((results_installed_iff hacc rfl).mpr fun _ p hp _ => ?_).1
  rw [List.mem_singleton.mp hp]
  exact ⟨⟨"openssl", some "3.0.13", "3.0.14", "Ubuntu:24.04/noble-updates [amd64]"⟩, by decide, rfl,
    rfl⟩

def dependencyJson : Bytes :=
  Helper.requestText { Helper.nightRequest with packages := ["newdep"] }

/-- The same night, a simulation with a new dependency and a request for it. -/
def dependencyEnv : Env :=
  { Helper.nightEnv.toEnv with
    stat := .ok ⟨true, 137, some 1789790310000000000⟩
    contents := .ok dependencyJson
    runner := fun command =>
      if command = simulateCommand then .ok "Inst newdep (1.2-1 Ubuntu:24.04/noble [amd64])\n"
      else .ok "" }

/-- A package that was never installed is reported as upgraded. -/
theorem dependency_called_upgraded :
    let request := { Helper.nightRequest with packages := ["newdep"] }
    let decode (bytes : Bytes) : Option ApplyRequest :=
      if bytes = dependencyJson then some request else none
    (∃ o, (process decode ⟨Helper.requestPath Helper.nightConfig, Helper.nightConfig⟩
        dependencyEnv).2 = some o ∧ o.result.succeeded = true ∧ o.result.packages = ["newdep"]) ∧
      ¬ ListedInstalled "Inst newdep (1.2-1 Ubuntu:24.04/noble [amd64])\n" "newdep" := by
  intro request decode
  have hacc : Helper.Accepted decode dependencyEnv request :=
    { present := rfl
      file := ⟨_, rfl, rfl, by decide, by decide⟩
      decodes := ⟨dependencyJson, rfl, if_pos rfl⟩
      valid := by decide }
  have hopen : OpenAt Helper.nightConfig dependencyEnv.localTime := by decide
  have hsim : dependencyEnv.runner simulateCommand =
      .ok "Inst newdep (1.2-1 Ubuntu:24.04/noble [amd64])\n" := rfl
  refine ⟨?_, ?_⟩
  · rw [Helper.process_of_accepted hacc, Helper.perform_of_listed hopen hsim (by decide)]
    exact ⟨_, rfl, rfl, by decide⟩
  · rintro ⟨u, hu, -, hinstalled⟩
    have hall : (parseSimulation "Inst newdep (1.2-1 Ubuntu:24.04/noble [amd64])\n").all
        (fun u => u.installed.isNone) = true := by decide
    have hnone := List.all_eq_true.mp hall u hu
    rw [Option.isNone_iff_eq_none] at hnone
    rw [hnone] at hinstalled
    cases hinstalled

end Abora.Protocol
