import Abora.Config.Schedule
import Abora.Update.AptOutput
import Abora.Update.Apply

/-!
# The root helper's one job (`process` in `abora-apply/src/main.rs`)

`process` handles whatever request is waiting. Everything it asks the machine — is there a file,
what is it, what does it hold, what time is it, what did a command print — is a field of `Env`, one
field for each moment it asks, so nothing forces two answers to agree. Its own answer is the list of
commands it ran, in order, and the outcome.

The checks are one after another, and each of them ends the run: `process_cases` says that an
install was run only if every one of them passed, and that whatever was refused on the way left a
result without packages and without a reboot.

The code is split where its authors' checks end. `process` reads the request; `perform` is what is
done with one that is accepted, from the policy to the install; `installed` is the outcome of an
install that succeeded. Each half has a lemma with all it can do (`process_accepted`,
`perform_cases`), and the safety of the helper is put together from the two without looking at the
code again.
-/

namespace Abora.Helper

open Abora.Lib Abora.Update

/-- A command run through the `CommandRunner`: no shell, the arguments as they are. -/
structure Command where
  program : String
  args : List String
  deriving DecidableEq, Repr

/-- A simulation needs no lock and changes nothing, so the helper may run it whatever else is going
on. -/
def simulateCommand : Command := ⟨"apt-get", ["-s", "-o", "Debug::NoLocking=1", "upgrade"]⟩

def installCommand (packages : List String) : Command := ⟨"apt-get", installArgs packages⟩

def rebootCommand : Command := ⟨"systemctl", ["reboot"]⟩

/-- What the helper knows before it looks: the configuration it has just loaded, and the path that
follows from it. -/
structure Ctx where
  requestPath : PathBuf
  config : Config
  deriving DecidableEq, Repr

/-- What the machine answers, in the order it is asked. The runner's answer depends on the command
only; no result needs more than one run of each. -/
structure Env where
  /-- `symlink_metadata` of the request found something. -/
  present : Bool
  started : String
  stat : Except String Metadata
  fileNow : SystemTime
  contents : Except String Bytes
  localTime : Option LocalTime
  runner : Command → Except String String
  /-- The reboot marker, looked at twice after the install. -/
  marker : Bool
  markerLater : Bool
  finished : String

/-- What to do after the result is written. -/
structure Outcome where
  result : ApplyResult
  reboot : Bool
  deriving DecidableEq, Repr

/-- The outcome of a run that did nothing: not succeeded, no packages, no reboot. -/
def refuse (id started now note : String) : Outcome :=
  { result :=
      { id := id, startedAt := started, finishedAt := now, succeeded := false, packages := []
        note := some note, rebootStarted := false }
    reboot := false }

/-- `fail` inside `process`: every refusal after the file was found has this form. -/
def Env.fail (env : Env) (id note : String) : Outcome := refuse id env.started env.finished note

def upgradable (simulation : String) : List String :=
  (parseSimulation simulation).map PackageUpgrade.name

/-- The requested packages a simulation lists, and those it does not. The order is the request's. -/
def split (request : ApplyRequest) (simulation : String) : List String × List String :=
  request.packages.partition fun p => (upgradable simulation).contains p

def todo (request : ApplyRequest) (simulation : String) : List String :=
  (split request simulation).1

def gone (request : ApplyRequest) (simulation : String) : List String :=
  (split request simulation).2

theorem todo_eq_filter (request : ApplyRequest) (simulation : String) :
    todo request simulation =
      request.packages.filter fun p => (upgradable simulation).contains p := by
  rw [todo, split, List.partition_eq_filter_filter]

/-- The outcome after a successful install. The note says what was skipped and why there is no
reboot, if either is so. -/
def installed (env : Env) (id : String) (perms : Permissions) (todo gone : List String) :
    Outcome :=
  let reboot := env.marker && perms.rebootPermitted
  let skipped :=
    if gone = [] then none
    else some
      s!"{gone.length} requested package(s) were no longer upgradable and were skipped"
  let extra := "a reboot is needed but policy does not allow one now"
  let note :=
    if env.markerLater && !reboot then some (skipped.elim extra fun n => s!"{n}; {extra}")
    else skipped
  { result :=
      { id := id, startedAt := env.started, finishedAt := env.finished, succeeded := true
        packages := todo, note := note, rebootStarted := reboot }
    reboot := reboot }

/-- A request whose packages are all up to date by now has succeeded, with nothing installed. -/
def nothingToDo (env : Env) (id : String) : Outcome :=
  let outcome := env.fail id ""
  { outcome with
    result :=
      { outcome.result with
        succeeded := true
        note := some
          "nothing to do: none of the requested packages is upgradable any more" } }

/-- A validated request, from the policy check on: the simulation, what is left to do, the
install. -/
def perform (ctx : Ctx) (env : Env) (request : ApplyRequest) : List Command × Outcome :=
  let perms := permissions ctx.config env.localTime
  if perms.applyPermitted = false then
    ([], env.fail request.id
      "refused: updates may only be applied inside a maintenance window ([maintenance] enabled, and the local time inside a window)")
  else
    match env.runner simulateCommand with
    | .error e =>
      ([simulateCommand], env.fail request.id s!"could not check what is upgradable: {e}")
    | .ok simulation =>
      let todo := todo request simulation
      if todo = [] then ([simulateCommand], nothingToDo env request.id)
      else
        -- only what is both requested and listed right now is installed
        match env.runner (installCommand todo) with
        | .error e =>
          ([simulateCommand, installCommand todo], env.fail request.id s!"apt-get failed: {e}")
        | .ok _ =>
          ([simulateCommand, installCommand todo],
            installed env request.id perms todo (gone request simulation))

/-- `process`. The outcome is `none` when there is no request. -/
def process (decode : Bytes → Option ApplyRequest) (ctx : Ctx) (env : Env) :
    List Command × Option Outcome :=
  if env.present = false then ([], none)
  else
    match readRegularFile ctx.requestPath env.stat env.fileNow env.contents
        (some maxRequestAge) with
    | .error e => ([], some (env.fail "invalid" s!"request refused: {e}"))
    | .ok bytes =>
      match decode bytes with
      | none => ([], some (env.fail "invalid" "request refused: not valid JSON"))
      | some request =>
        match validateRequest request with
        | .error e =>
          -- an id that failed validation is not echoed back
          let id := if validRequestId request.id then request.id else "invalid"
          ([], some (env.fail id s!"request refused: {e}"))
        | .ok () => ((perform ctx env request).1, some (perform ctx env request).2)

/-! ## What the checks let through -/

/-- The request in the file is one the helper goes on with: it was there, small, regular and recent,
it decoded, and it is valid. -/
structure Accepted (decode : Bytes → Option ApplyRequest) (env : Env) (request : ApplyRequest) :
    Prop where
  present : env.present = true
  file : ∃ md, env.stat = .ok md ∧ md.isFile = true ∧ md.len ≤ maxFileBytes ∧
    md.age env.fileNow ≤ maxRequestAge
  decodes : ∃ bytes, env.contents = .ok bytes ∧ decode bytes = some request
  valid : validateRequest request = .ok ()

/-- What an install is run under: a request that was accepted, a simulation that lists the packages,
an open window, and names that are no options. -/
structure InstallAllowed (decode : Bytes → Option ApplyRequest) (ctx : Ctx) (env : Env)
    (packages : List String) : Prop where
  request : ∃ request simulation, Accepted decode env request ∧
    env.runner simulateCommand = .ok simulation ∧
    packages = request.packages.filter fun p => (upgradable simulation).contains p
  window : OpenAt ctx.config env.localTime
  nonempty : packages ≠ []
  names : ∀ p ∈ packages, validPackageName p = true ∧ p.toList.head? ≠ some '-'

/-- Nothing was installed, and no reboot follows. -/
def Outcome.Quiet (o : Outcome) : Prop :=
  o.result.packages = [] ∧ o.result.rebootStarted = false ∧ o.reboot = false

theorem fail_quiet (env : Env) (id note : String) : (env.fail id note).Quiet := ⟨rfl, rfl, rfl⟩

theorem nothingToDo_quiet (env : Env) (id : String) : (nothingToDo env id).Quiet :=
  ⟨rfl, rfl, rfl⟩

theorem Accepted.read {decode : Bytes → Option ApplyRequest} {env : Env} {request : ApplyRequest}
    (h : Accepted decode env request) (path : PathBuf) :
    ∃ bytes, readRegularFile path env.stat env.fileNow env.contents (some maxRequestAge) =
      .ok bytes ∧ decode bytes = some request := by
  obtain ⟨-, ⟨md, hstat, hfile, hlen, hage⟩, ⟨bytes, hcontents, hdec⟩, -⟩ := h
  refine ⟨bytes, readRegularFile_ok_iff.mpr ⟨md, hstat, hfile, hlen, fun limit hl => ?_, hcontents⟩,
    hdec⟩
  cases hl
  exact hage

theorem process_of_accepted {decode : Bytes → Option ApplyRequest} {env : Env}
    {request : ApplyRequest} (h : Accepted decode env request) (ctx : Ctx) :
    process decode ctx env = ((perform ctx env request).1, some (perform ctx env request).2) := by
  obtain ⟨bytes, hread, hdec⟩ := h.read ctx.requestPath
  unfold process
  rw [if_neg (by simp [h.present]), hread]
  simp only [hdec, h.valid]

/-- Either the request was accepted and is performed, or no command is run. -/
theorem process_accepted (decode : Bytes → Option ApplyRequest) (ctx : Ctx) (env : Env) :
    (∃ request, Accepted decode env request ∧
        process decode ctx env =
          ((perform ctx env request).1, some (perform ctx env request).2)) ∨
      (∃ outcome, process decode ctx env = ([], outcome) ∧
        ∀ o, outcome = some o → o.result.succeeded = false ∧ o.Quiet) := by
  have hfail : ∀ id note, ∀ o, some (env.fail id note) = some o →
      o.result.succeeded = false ∧ o.Quiet := by
    rintro id note o h
    cases h
    exact ⟨rfl, fail_quiet env id note⟩
  unfold process
  by_cases hpresent : env.present = false
  · rw [if_pos hpresent]
    exact .inr ⟨none, rfl, fun o h => by cases h⟩
  rw [if_neg hpresent]
  cases hread : readRegularFile ctx.requestPath env.stat env.fileNow env.contents
      (some maxRequestAge) with
  | error e => exact .inr ⟨_, rfl, hfail _ _⟩
  | ok bytes =>
    cases hdec : decode bytes with
    | none =>
      simp only [hdec]
      exact .inr ⟨_, rfl, hfail _ _⟩
    | some request =>
      cases hvalid : validateRequest request with
      | error e =>
        simp only [hdec, hvalid]
        exact .inr ⟨_, rfl, hfail _ _⟩
      | ok u =>
        obtain ⟨md, hstat, hfile, hlen, hage, hcontents⟩ := readRegularFile_ok_iff.mp hread
        simp only [hdec, hvalid]
        refine .inl ⟨request, ⟨by simpa using hpresent, ?_, ?_, hvalid⟩, rfl⟩
        · exact ⟨md, hstat, hfile, hlen, hage maxRequestAge rfl⟩
        · exact ⟨bytes, hcontents, hdec⟩

/-- **The three shapes of a run that got past the checks**: no command, the simulation alone, or the
simulation and one install of what it lists. The first two are quiet. -/
theorem perform_cases (ctx : Ctx) (env : Env) (request : ApplyRequest) :
    (((perform ctx env request).1 = [] ∨ (perform ctx env request).1 = [simulateCommand]) ∧
        (perform ctx env request).2.Quiet) ∨
      ∃ simulation, OpenAt ctx.config env.localTime ∧
        env.runner simulateCommand = .ok simulation ∧ todo request simulation ≠ [] ∧
        (perform ctx env request).1 =
          [simulateCommand, installCommand (todo request simulation)] ∧
        ((∃ e, env.runner (installCommand (todo request simulation)) = .error e ∧
            (perform ctx env request).2 = env.fail request.id s!"apt-get failed: {e}") ∨
          (∃ out, env.runner (installCommand (todo request simulation)) = .ok out ∧
            (perform ctx env request).2 = installed env request.id
              (permissions ctx.config env.localTime) (todo request simulation)
              (gone request simulation))) := by
  unfold perform
  by_cases hopen : (permissions ctx.config env.localTime).applyPermitted = false
  · simp only [hopen, if_true]
    exact .inl ⟨.inl trivial, fail_quiet _ _ _⟩
  simp only [if_neg hopen]
  have hwindow : OpenAt ctx.config env.localTime :=
    applyPermitted_iff.mp (by simpa using hopen)
  cases hsim : env.runner simulateCommand with
  | error e => exact .inl ⟨.inr rfl, fail_quiet _ _ _⟩
  | ok simulation =>
    by_cases htodo : todo request simulation = []
    · simp only [htodo, if_true]
      exact .inl ⟨.inr trivial, nothingToDo_quiet _ _⟩
    · simp only [if_neg htodo]
      refine .inr ⟨simulation, hwindow, rfl, htodo, ?_⟩
      cases hinst : env.runner (installCommand (todo request simulation)) with
      | error e => exact ⟨rfl, .inl ⟨e, rfl, rfl⟩⟩
      | ok out => exact ⟨rfl, .inr ⟨out, rfl, rfl⟩⟩

/-- Inside a window, with something left to do, the outcome is the install's: succeeded with what
was installed, or failed with its error. -/
theorem perform_of_listed {ctx : Ctx} {env : Env} {request : ApplyRequest} {simulation : String}
    (hopen : OpenAt ctx.config env.localTime)
    (hsim : env.runner simulateCommand = .ok simulation) (hne : todo request simulation ≠ []) :
    perform ctx env request =
      ([simulateCommand, installCommand (todo request simulation)],
        match env.runner (installCommand (todo request simulation)) with
        | .error e => env.fail request.id s!"apt-get failed: {e}"
        | .ok _ => installed env request.id (permissions ctx.config env.localTime)
            (todo request simulation) (gone request simulation)) := by
  have hpermitted := applyPermitted_iff.mpr hopen
  unfold perform
  simp only [hpermitted, hsim, if_neg hne, Bool.true_eq_false, if_false]
  cases env.runner (installCommand (todo request simulation)) with
  | error e => rfl
  | ok out => rfl

/-! ## The id of a result -/

theorem perform_result_id (ctx : Ctx) (env : Env) (request : ApplyRequest) :
    (perform ctx env request).2.result.id = request.id := by
  unfold perform
  by_cases hopen : (permissions ctx.config env.localTime).applyPermitted = false
  · simp only [hopen, if_true]
    rfl
  simp only [if_neg hopen]
  cases hsim : env.runner simulateCommand with
  | error e => rfl
  | ok simulation =>
    by_cases htodo : todo request simulation = []
    · simp only [htodo, if_true]
      rfl
    · simp only [if_neg htodo]
      cases env.runner (installCommand (todo request simulation)) with
      | error e => rfl
      | ok out => rfl

/-- **A result names the request that was read**, whatever became of it; only a request whose id is
not one, or that could not be read, is answered as `invalid`. -/
theorem process_result_id {decode : Bytes → Option ApplyRequest} {ctx : Ctx} {env : Env}
    {bytes : Bytes} {request : ApplyRequest} {o : Outcome}
    (hread : readRegularFile ctx.requestPath env.stat env.fileNow env.contents
      (some maxRequestAge) = .ok bytes)
    (hdec : decode bytes = some request) (hid : validRequestId request.id = true)
    (ho : (process decode ctx env).2 = some o) : o.result.id = request.id := by
  unfold process at ho
  by_cases hpresent : env.present = false
  · rw [if_pos hpresent] at ho
    cases ho
  rw [if_neg hpresent, hread] at ho
  cases hvalid : validateRequest request with
  | error e =>
    simp only [hdec, hvalid, hid, if_true] at ho
    cases ho
    rfl
  | ok u =>
    simp only [hdec, hvalid] at ho
    cases ho
    exact perform_result_id ctx env request

/-- **Every result has an id of a request or the placeholder.** -/
theorem process_result_id_cases {decode : Bytes → Option ApplyRequest} {ctx : Ctx} {env : Env}
    {o : Outcome} (ho : (process decode ctx env).2 = some o) :
    validRequestId o.result.id = true ∨ o.result.id = "invalid" := by
  unfold process at ho
  by_cases hpresent : env.present = false
  · rw [if_pos hpresent] at ho
    cases ho
  rw [if_neg hpresent] at ho
  cases hread : readRegularFile ctx.requestPath env.stat env.fileNow env.contents
      (some maxRequestAge) with
  | error e =>
    rw [hread] at ho
    cases ho
    exact .inr rfl
  | ok bytes =>
    cases hdec : decode bytes with
    | none =>
      simp only [hread, hdec] at ho
      cases ho
      exact .inr rfl
    | some request =>
      cases hvalid : validateRequest request with
      | error e =>
        simp only [hread, hdec, hvalid] at ho
        cases ho
        by_cases hid : validRequestId request.id = true
        · exact .inl (by simp [Env.fail, refuse, hid])
        · exact .inr (by simp [Env.fail, refuse, hid])
      | ok u =>
        simp only [hread, hdec, hvalid] at ho
        cases ho
        rw [perform_result_id]
        exact .inl (validateRequest_ok_iff.mp hvalid).1

/-! ## Safety -/

theorem installCommand_inj {p q : List String} : installCommand p = installCommand q ↔ p = q := by
  simp [installCommand, installArgs]

theorem installCommand_ne_simulate (p : List String) : installCommand p ≠ simulateCommand := by
  intro h
  have hargs := congrArg (fun c => c.args.head?) h
  simp [installCommand, installArgs, fixedInstallArgs, simulateCommand] at hargs

theorem mem_install_iff {p q : List String} :
    installCommand p ∈ [simulateCommand, installCommand q] ↔ p = q := by
  rw [List.mem_cons, List.mem_singleton, installCommand_inj]
  exact or_iff_right (installCommand_ne_simulate p)

theorem not_mem_install {commands : List Command}
    (h : commands = [] ∨ commands = [simulateCommand]) (p : List String) :
    installCommand p ∉ commands := by
  rcases h with rfl | rfl
  · exact List.not_mem_nil
  · rw [List.mem_singleton]
    exact installCommand_ne_simulate p

/-- A simulation can only narrow a valid request down, so what is left has the names of a valid
one. -/
theorem todo_valid {request : ApplyRequest} (hvalid : validateRequest request = .ok ())
    {simulation p : String} (hp : p ∈ todo request simulation) :
    validPackageName p = true ∧ p.toList.head? ≠ some '-' := by
  obtain ⟨-, -, -, hnames⟩ := validateRequest_ok_iff.mp hvalid
  rw [todo_eq_filter] at hp
  have hname := hnames p (List.mem_filter.mp hp).1
  exact ⟨hname, validPackageName_head hname⟩

/-- **The helper is safe.** It runs nothing, or the simulation, or the simulation and one install of
names a valid, recent, permitted request asked for and the simulation lists; and its result says
exactly what was installed. Nothing is assumed about the file or about what `apt-get` prints. -/
theorem process_safe (decode : Bytes → Option ApplyRequest) (ctx : Ctx) (env : Env) :
    let commands := (process decode ctx env).1
    let outcome := (process decode ctx env).2
    (commands = [] ∨ commands = [simulateCommand] ∨
      ∃ packages, commands = [simulateCommand, ⟨"apt-get", fixedInstallArgs ++ packages⟩] ∧
        fixedInstallArgs.length = 9 ∧ InstallAllowed decode ctx env packages) ∧
      (∀ o, outcome = some o → o.result.succeeded = false → o.Quiet) ∧
      (∀ packages out, installCommand packages ∈ commands →
        env.runner (installCommand packages) = .ok out →
        ∃ o, outcome = some o ∧ o.result.succeeded = true ∧ o.result.packages = packages) ∧
      (∀ o, outcome = some o →
        (∀ packages out, installCommand packages ∈ commands →
          env.runner (installCommand packages) ≠ .ok out) → o.result.packages = []) := by
  rcases process_accepted decode ctx env with ⟨request, hacc, h⟩ | ⟨outcome, h, hquiet⟩
  · rw [h]
    dsimp only
    rcases perform_cases ctx env request with
      ⟨hcommands, hquiet⟩ | ⟨simulation, hopen, hsim, hne, hcommands, hend⟩
    -- the run ends before it installs, whatever the simulation said
    · refine ⟨?_, ?_, ?_, ?_⟩
      · rcases hcommands with hc | hc
        · exact .inl hc
        · exact .inr (.inl hc)
      · intro o ho _
        cases ho
        exact hquiet
      · intro packages out hmem
        exact absurd hmem (not_mem_install hcommands packages)
      · intro o ho _
        cases ho
        exact hquiet.1
    -- the window is open, and something is left to install
    · have hallowed : InstallAllowed decode ctx env (todo request simulation) :=
        { request := ⟨request, simulation, hacc, hsim, todo_eq_filter request simulation⟩
          window := hopen
          nonempty := hne
          names := fun p hp => todo_valid hacc.valid hp }
      rw [hcommands]
      refine ⟨.inr (.inr ⟨_, rfl, rfl, hallowed⟩), ?_⟩
      -- the install may fail, and only then is the result a failure
      rcases hend with ⟨e, hinst, hout⟩ | ⟨out, hinst, hout⟩
      · rw [hout]
        refine ⟨fun o ho _ => ?_, fun packages out hmem hok => ?_, fun o ho _ => ?_⟩
        · cases ho
          exact fail_quiet _ _ _
        · rw [mem_install_iff.mp hmem, hinst] at hok
          cases hok
        · cases ho
          rfl
      · rw [hout]
        refine ⟨fun o ho hfailed => ?_, fun packages out hmem _ => ?_, fun o ho hnone => ?_⟩
        · cases ho
          cases hfailed
        · rw [mem_install_iff.mp hmem]
          exact ⟨_, rfl, rfl, rfl⟩
        · exact absurd hinst (hnone _ out (mem_install_iff.mpr rfl))
  · rw [h]
    refine ⟨.inl rfl, fun o ho _ => (hquiet o ho).2, ?_, fun o ho _ => (hquiet o ho).2.1⟩
    intro packages out hmem
    exact absurd hmem List.not_mem_nil

end Abora.Helper
