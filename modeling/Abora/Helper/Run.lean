import Abora.Helper.Process

/-!
# A whole run of the helper (`run` in `abora-apply/src/main.rs`)

Load the configuration, derive the two paths from it, process the request, write the result, remove
the request, and reboot if the outcome says so — in this order, and the first failure ends the run.
The order matters to the other side: a request file that is gone has a result, and a reboot has left
one behind.

The permission to reboot is part of the outcome, so it is the permission of the moment the policy
was evaluated: before the simulation, before the install. `reboot_follows_policy_iff` says when that
matters: under `ask`, when the window that was open then is closed by the time the reboot happens.
The clock at that moment is a field of the environment that the code itself never looks at.
-/

namespace Abora.Helper

open Abora.Lib Abora.Update

/-- The command line. A result file that is given there takes the place of the configured one. -/
structure Args where
  config : PathBuf := PathBuf.ofString "/etc/abora/abora.toml"
  /-- Overrides `[updates] apply_result_file`. -/
  resultFile : Option PathBuf := none
  deriving DecidableEq, Repr

/-- What the machine answers in a whole run. The last field is nothing the program asks for. -/
structure RunEnv extends Env where
  /-- The configuration file's length and text. -/
  configStat : Except String Nat
  configText : Except String String
  /-- What `write_atomic` of the result answered. -/
  written : Except String Unit
  /-- The clock when the reboot is started. -/
  localAtReboot : Option LocalTime

/-- `load_config`; `fromStr` is `Config::from_str`. The size is looked at before anything is
read. -/
def loadConfig (fromStr : String → Except String Config) (path : PathBuf)
    (stat : Except String Nat) (text : Except String String) : Except String Config :=
  match stat with
  | .error e => .error s!"{path.display}: {e}"
  | .ok len =>
    if len > maxFileBytes then .error s!"{path.display} is unreasonably large"
    else match text with
      | .error e => .error s!"{path.display}: {e}"
      | .ok text => (fromStr text).mapError fun e => s!"{path.display}: {e}"

/-- Where the helper looks for a request: next to the daemon's state file, whose path it has from
the configuration as well. -/
def requestPath (config : Config) : PathBuf :=
  (config.updates.stateFile.parent.getD (PathBuf.ofString ".")).join requestFileName

def resultPath (args : Args) (config : Config) : PathBuf :=
  args.resultFile.getD config.updates.applyResultFile

/-- What a run did, as far as anyone else can see it. -/
structure Report where
  commands : List Command
  /-- The result file, if it was written. -/
  result : Option (PathBuf × ApplyResult)
  /-- The request file, if its removal was attempted. -/
  removal : Option PathBuf
  exit : Except String Unit

/-- `run`. The reboot comes last, so its failure changes nothing but the exit. -/
def run (fromStr : String → Except String Config) (decode : Bytes → Option ApplyRequest)
    (args : Args) (env : RunEnv) : Report :=
  match loadConfig fromStr args.config env.configStat env.configText with
  | .error e => ⟨[], none, none, .error e⟩
  | .ok config =>
    let ctx : Ctx := ⟨requestPath config, config⟩
    match process decode ctx env.toEnv with
    | (commands, none) => ⟨commands, none, none, .ok ()⟩
    | (commands, some outcome) =>
      let resultFile := resultPath args config
      -- a result that cannot be written leaves the request where it is
      match env.written with
      | .error e => ⟨commands, none, none, .error s!"could not write {resultFile.display}: {e}"⟩
      | .ok () =>
        let result := some (resultFile, outcome.result)
        let removal := some ctx.requestPath
        -- decided when the policy was evaluated; the clock is not asked again
        if outcome.reboot then
          match env.runner rebootCommand with
          | .error e =>
            ⟨commands ++ [rebootCommand], result, removal, .error s!"reboot failed: {e}"⟩
          | .ok _ => ⟨commands ++ [rebootCommand], result, removal, .ok ()⟩
        else ⟨commands, result, removal, .ok ()⟩

/-! ## What a run leaves behind -/

/-- A run has an outcome exactly when there was a file. -/
theorem process_eq_none_iff {decode : Bytes → Option ApplyRequest} {ctx : Ctx} {env : Env} :
    (process decode ctx env).2 = none ↔ env.present = false := by
  unfold process
  by_cases hpresent : env.present = false
  · simp [hpresent]
  rw [if_neg hpresent]
  cases hread : readRegularFile ctx.requestPath env.stat env.fileNow env.contents
      (some maxRequestAge) with
  | error e => simp [hpresent]
  | ok bytes =>
    cases hdec : decode bytes with
    | none => simp [hdec, hpresent]
    | some request =>
      cases hvalid : validateRequest request with
      | error e => simp [hdec, hvalid, hpresent]
      | ok u => simp [hdec, hvalid, hpresent]

theorem present_of_process {decode : Bytes → Option ApplyRequest} {ctx : Ctx} {env : Env}
    {o : Outcome} (h : (process decode ctx env).2 = some o) : env.present = true := by
  by_contra habsent
  rw [process_eq_none_iff.mpr (by simpa using habsent)] at h
  cases h

/-- **Result first, then the removal**: a run does both, or it stopped before either of them — at
the configuration, without a request, or at the result. -/
theorem run_cases (fromStr : String → Except String Config)
    (decode : Bytes → Option ApplyRequest) (args : Args) (env : RunEnv) :
    (∃ config outcome,
        loadConfig fromStr args.config env.configStat env.configText = .ok config ∧
        (process decode ⟨requestPath config, config⟩ env.toEnv).2 = some outcome ∧
        env.written = .ok () ∧
        (run fromStr decode args env).result = some (resultPath args config, outcome.result) ∧
        (run fromStr decode args env).removal = some (requestPath config)) ∨
      ((∀ config, loadConfig fromStr args.config env.configStat env.configText = .ok config →
          env.present = true → env.written ≠ .ok ()) ∧
        (run fromStr decode args env).result = none ∧
        (run fromStr decode args env).removal = none) := by
  unfold run
  cases hload : loadConfig fromStr args.config env.configStat env.configText with
  | error e => exact .inr ⟨fun _ h => (by cases h), rfl, rfl⟩
  | ok config =>
    have hnone : (process decode ⟨requestPath config, config⟩ env.toEnv).2 = none ↔
        env.present = false := process_eq_none_iff
    simp only [Except.ok.injEq, exists_and_left, forall_eq', exists_eq_left']
    generalize process decode ⟨requestPath config, config⟩ env.toEnv = answer at hnone ⊢
    obtain ⟨commands, outcome⟩ := answer
    cases outcome with
    | none =>
      refine .inr ⟨fun hpresent => ?_, rfl, rfl⟩
      rw [hnone.mp rfl] at hpresent
      cases hpresent
    | some outcome =>
      cases hwritten : env.written with
      | error e => exact .inr ⟨fun _ h => (by cases h), rfl, rfl⟩
      | ok u =>
        refine .inl ⟨outcome, rfl, rfl, ?_⟩
        -- whether it reboots or not, both came first
        cases hreboot : outcome.reboot with
        | true =>
          simp only [hreboot, if_true]
          cases env.runner rebootCommand with
          | error e => exact ⟨rfl, rfl⟩
          | ok out => exact ⟨rfl, rfl⟩
        | false =>
          simp only [hreboot]
          exact ⟨rfl, rfl⟩

/-- When a run comes to the removal, and of which file. -/
theorem run_removal_iff {fromStr : String → Except String Config}
    {decode : Bytes → Option ApplyRequest} {args : Args} {env : RunEnv} {path : PathBuf} :
    (run fromStr decode args env).removal = some path ↔
      ∃ config, loadConfig fromStr args.config env.configStat env.configText = .ok config ∧
        requestPath config = path ∧ env.present = true ∧ env.written = .ok () := by
  rcases run_cases fromStr decode args env with
    ⟨config, outcome, hload, hproc, hwritten, -, hremoval⟩ | ⟨hstop, -, hremoval⟩
  · rw [hremoval, hload]
    simp [hwritten, present_of_process hproc]
  · rw [hremoval]
    refine ⟨fun h => (by cases h), fun ⟨config, hload, _, hpresent, hwritten⟩ => ?_⟩
    exact absurd hwritten (hstop config hload hpresent)

/-! ## When a reboot is started -/

/-- The run accepted a request inside a window, had something to install and installed it. -/
def Upgraded (decode : Bytes → Option ApplyRequest) (config : Config) (env : Env) : Prop :=
  ∃ request simulation out, Accepted decode env request ∧ OpenAt config env.localTime ∧
    env.runner simulateCommand = .ok simulation ∧ todo request simulation ≠ [] ∧
    env.runner (installCommand (todo request simulation)) = .ok out

theorem reboot_not_mem_process (decode : Bytes → Option ApplyRequest) (ctx : Ctx) (env : Env) :
    rebootCommand ∉ (process decode ctx env).1 := by
  have hsim : rebootCommand ≠ simulateCommand := by decide
  have hinst (p : List String) : rebootCommand ≠ installCommand p := by
    intro h
    have hprogram : "systemctl" = "apt-get" := congrArg Command.program h
    exact absurd hprogram (by decide)
  rcases process_accepted decode ctx env with ⟨request, -, h⟩ | ⟨outcome, h, -⟩
  · rw [h]
    rcases perform_cases ctx env request with
      ⟨hc | hc, -⟩ | ⟨simulation, -, -, -, hc, -⟩
    · simp [hc]
    · simp [hc, hsim]
    · simp [hc, hsim, hinst]
  · rw [h]
    exact List.not_mem_nil

/-- The outcome asks for a reboot exactly when an install succeeded, the machine asks for one and
the policy allowed one at the moment it was evaluated. -/
theorem outcome_reboot_iff {decode : Bytes → Option ApplyRequest} {ctx : Ctx} {env : Env} :
    (∃ o, (process decode ctx env).2 = some o ∧ o.reboot = true) ↔
      Upgraded decode ctx.config env ∧ env.marker = true ∧
        (permissions ctx.config env.localTime).rebootPermitted = true := by
  constructor
  · rintro ⟨o, ho, hreboot⟩
    rcases process_accepted decode ctx env with ⟨request, hacc, h⟩ | ⟨outcome, h, hquiet⟩
    · rw [h] at ho
      cases ho
      rcases perform_cases ctx env request with
        ⟨-, hquiet⟩ | ⟨simulation, hopen, hsim, hne, -, ⟨e, -, hout⟩ | ⟨out, hinst, hout⟩⟩
      · rw [hquiet.2.2] at hreboot
        cases hreboot
      · rw [hout] at hreboot
        cases hreboot
      · rw [hout] at hreboot
        simp only [installed, Bool.and_eq_true] at hreboot
        exact ⟨⟨request, simulation, out, hacc, hopen, hsim, hne, hinst⟩, hreboot⟩
    · rw [h] at ho
      rw [(hquiet o ho).2.2.2] at hreboot
      cases hreboot
  · rintro ⟨⟨request, simulation, out, hacc, hopen, hsim, hne, hinst⟩, hmarker, hperm⟩
    rw [process_of_accepted hacc, perform_of_listed hopen hsim hne, hinst]
    refine ⟨_, rfl, ?_⟩
    simp [installed, hmarker, hperm]

theorem reboot_mem_iff {fromStr : String → Except String Config}
    {decode : Bytes → Option ApplyRequest} {args : Args} {env : RunEnv} :
    rebootCommand ∈ (run fromStr decode args env).commands ↔
      ∃ config, loadConfig fromStr args.config env.configStat env.configText = .ok config ∧
        Upgraded decode config env.toEnv ∧ env.marker = true ∧ env.written = .ok () ∧
        (permissions config env.localTime).rebootPermitted = true := by
  unfold run
  cases hload : loadConfig fromStr args.config env.configStat env.configText with
  | error e => simp
  | ok config =>
    simp only [Except.ok.injEq, exists_eq_left']
    have hproc := reboot_not_mem_process decode ⟨requestPath config, config⟩ env.toEnv
    have hiff : (∃ o, (process decode ⟨requestPath config, config⟩ env.toEnv).2 = some o ∧
        o.reboot = true) ↔ _ := outcome_reboot_iff
    -- what `process` does no longer matters, only whether it answers and whether it wants a reboot
    generalize process decode ⟨requestPath config, config⟩ env.toEnv = answer at hproc hiff ⊢
    obtain ⟨commands, outcome⟩ := answer
    cases outcome with
    | none =>
      refine ⟨fun h => absurd h hproc, fun ⟨hup, hmarker, _, hperm⟩ => ?_⟩
      obtain ⟨o, ho, -⟩ := hiff.mpr ⟨hup, hmarker, hperm⟩
      cases ho
    | some outcome =>
      cases hwritten : env.written with
      | error e =>
        refine ⟨fun h => absurd h hproc, fun ⟨_, _, hw, _⟩ => ?_⟩
        cases hw
      | ok u =>
        by_cases hreboot : outcome.reboot = true
        · obtain ⟨hup, hmarker, hperm⟩ := hiff.mp ⟨outcome, rfl, hreboot⟩
          refine ⟨fun _ => ⟨hup, hmarker, rfl, hperm⟩, fun _ => ?_⟩
          simp only [hreboot, if_true]
          cases env.runner rebootCommand <;> simp
        · simp only [if_neg hreboot]
          refine ⟨fun h => absurd h hproc, fun ⟨hup, hmarker, _, hperm⟩ => ?_⟩
          obtain ⟨o, ho, hr⟩ := hiff.mpr ⟨hup, hmarker, hperm⟩
          cases ho
          exact absurd hr hreboot

/-- The policy as it should be obeyed when the reboot happens. -/
def RebootAllowed (config : Config) (now : Option LocalTime) : Prop :=
  config.updates.rebootPolicy = .always ∨
    config.updates.rebootPolicy = .ask ∧ OpenAt config now

/-- A reboot is started only when the policy allows one at that moment. -/
def RebootFollowsPolicy (fromStr : String → Except String Config)
    (decode : Bytes → Option ApplyRequest) (args : Args) (env : RunEnv) : Prop :=
  rebootCommand ∈ (run fromStr decode args env).commands →
    ∃ config, loadConfig fromStr args.config env.configStat env.configText = .ok config ∧
      RebootAllowed config env.localAtReboot

/-- Under `ask`, the window that was open when the policy was evaluated is closed when an
otherwise complete run comes to its reboot. -/
structure ClosedMeanwhile (decode : Bytes → Option ApplyRequest) (config : Config)
    (env : RunEnv) : Prop where
  policy : config.updates.rebootPolicy = .ask
  upgraded : Upgraded decode config env.toEnv
  marker : env.marker = true
  written : env.written = .ok ()
  closed : ¬ OpenAt config env.localAtReboot

/-- **When reboots follow the policy**: always, except that a window may have closed since the
policy was evaluated. A policy of `never` is never broken, and neither is `always`. -/
theorem reboot_follows_policy_iff (fromStr : String → Except String Config)
    (decode : Bytes → Option ApplyRequest) (args : Args) (env : RunEnv) :
    RebootFollowsPolicy fromStr decode args env ↔
      ∀ config, loadConfig fromStr args.config env.configStat env.configText = .ok config →
        ¬ ClosedMeanwhile decode config env := by
  constructor
  · intro h config hload hc
    have hperm : (permissions config env.localTime).rebootPermitted = true := by
      obtain ⟨request, simulation, out, -, hopen, -⟩ := hc.upgraded
      exact rebootPermitted_iff.mpr (.inr ⟨hc.policy, hopen⟩)
    have hmem := reboot_mem_iff.mpr
      ⟨config, hload, hc.upgraded, hc.marker, hc.written, hperm⟩
    obtain ⟨config', hload', hallowed⟩ := h hmem
    rw [hload, Except.ok.injEq] at hload'
    subst hload'
    rcases hallowed with halways | ⟨-, hopen⟩
    · rw [hc.policy] at halways
      cases halways
    · exact hc.closed hopen
  · intro h hmem
    obtain ⟨config, hload, hup, hmarker, hwritten, hperm⟩ := reboot_mem_iff.mp hmem
    refine ⟨config, hload, ?_⟩
    rcases rebootPermitted_iff.mp hperm with halways | ⟨hask, -⟩
    · exact .inl halways
    · refine .inr ⟨hask, ?_⟩
      by_contra hclosed
      exact h config hload ⟨hask, hup, hmarker, hwritten, hclosed⟩

/-- Default policy (`ask`), one window on Saturday night. -/
def nightConfig : Config :=
  { maintenance := { enabled := true, windows := [⟨[.saturday], "02:00", "04:00", none⟩] } }

def nightToml : String :=
  "[[maintenance.windows]]\ndays = [\"saturday\"]\nstart = \"02:00\"\nend = \"04:00\"\n"

/-- A request for one package, half a minute before the run. -/
def nightRequest : ApplyRequest :=
  ⟨"apply-00000000000000a1", "2026-09-19T03:58:30Z", "ops", ["openssl"]⟩

/-- A request as the daemon writes it with `to_vec_pretty`, if there are packages in it and none of
its texts needs an escape. -/
def requestText (r : ApplyRequest) : Bytes := 0x7b :: asciiBytes (
  "\n  \"id\": \"" ++ r.id ++ "\",\n  \"requested_at\": \"" ++ r.requestedAt ++
  "\",\n  \"requested_by\": \"" ++ r.requestedBy ++ "\",\n  \"packages\": [\n" ++
  ",\n".intercalate (r.packages.map fun p => "    \"" ++ p ++ "\"") ++ "\n  ]\n\x7d")

def nightJson : Bytes := requestText nightRequest

/-- A run that is let in with the window about to close. The request is half a minute old, the
policy is evaluated at 03:59 and finds the window open, and the install takes three minutes. -/
def nightEnv : RunEnv where
  present := true
  started := "2026-09-19T03:59:00Z"
  stat := .ok ⟨true, 138, some 1789790310000000000⟩
  fileNow := 1789790340000000000
  contents := .ok nightJson
  localTime := some ⟨.saturday, 239⟩
  runner command :=
    if command = simulateCommand then
      .ok "Inst openssl [3.0.13] (3.0.14 Ubuntu:24.04/noble-updates [amd64])\n"
    else .ok ""
  marker := true
  markerLater := true
  finished := "2026-09-19T04:02:00Z"
  configStat := .ok 74
  configText := .ok nightToml
  written := .ok ()
  localAtReboot := some ⟨.saturday, 242⟩

/-- The run that is let in one minute before the window closes reboots two minutes after it. -/
theorem reboot_after_window :
    ¬ ∀ (fromStr : String → Except String Config) (decode : Bytes → Option ApplyRequest)
        (args : Args) (env : RunEnv), RebootFollowsPolicy fromStr decode args env := by
  intro h
  let fromStr (text : String) : Except String Config :=
    if text = nightToml then .ok nightConfig else .error "could not parse TOML"
  let decode (bytes : Bytes) : Option ApplyRequest :=
    if bytes = nightJson then some nightRequest else none
  have hload : loadConfig fromStr ({} : Args).config nightEnv.configStat nightEnv.configText =
      .ok nightConfig := by
    simp [loadConfig, nightEnv, fromStr, maxFileBytes, Except.mapError]
  have hacc : Accepted decode nightEnv.toEnv nightRequest :=
    { present := rfl
      file := ⟨_, rfl, rfl, by decide, by decide⟩
      decodes := ⟨nightJson, rfl, if_pos rfl⟩
      valid := by decide }
  have hup : Upgraded decode nightConfig nightEnv.toEnv :=
    ⟨nightRequest, _, "", hacc, by decide, rfl, by decide, by decide⟩
  have hmem := reboot_mem_iff.mpr ⟨nightConfig, hload, hup, rfl, rfl, by decide⟩
  obtain ⟨config, hload', hallowed⟩ := h fromStr decode {} nightEnv hmem
  rw [hload, Except.ok.injEq] at hload'
  subst hload'
  rcases hallowed with halways | ⟨-, hopen⟩
  · exact absurd halways (by decide)
  · exact absurd hopen (by decide)

end Abora.Helper
