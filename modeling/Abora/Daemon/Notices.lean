import Abora.Config.Validate
import Abora.Daemon.Reload

/-!
# What a reload says (`apply_reload` and `changed_settings` in `aborad/src/reload.rs`)

The two configurations are compared field by field, by two lists written by hand: the settings that
take effect at once and those that need a restart. `Config.compared` is what the lists look at and
`Config.passedOver` what neither of them does; two of the settings passed over are read at startup
only. `reload_reports_iff` is exactly when nobody is told less than happened.

Being told is a matter of texts. A warning is about a setting when it starts with the setting's name
and speaks of a restart (`WarnsOf`), and the texts of the lists are the source's, so that it can be
decided which line is about what: the warnings there are begin in four different ways
(`warning_prefix`), and neither of the two paths is among them.

A token file that makes the loader panic ends the reload before any of its lines are written. The
lines are those given to the logger; its threshold is the operator's.
-/

namespace Abora

open Lib Lib.Text Update

def Update.Channel.text : Channel → String
  | .stable => "stable"
  | .beta => "beta"
  | .nightly => "nightly"
  | .custom name => s!"custom:{name}"

def Level.text : Level → String
  | .off => "off"
  | .error => "error"
  | .warn => "warn"
  | .info => "info"
  | .debug => "debug"
  | .trace => "trace"

/-- `RebootPolicy`, as `Debug` prints it. -/
def Update.RebootPolicy.debug : RebootPolicy → String
  | .ask => "Ask"
  | .always => "Always"
  | .never => "Never"

/-- What the two lists look at, as one value that can be compared. -/
def Config.compared (c : Config) :=
  (c.system, (c.updates.channel, c.updates.automatic, c.updates.checkInterval,
    c.updates.rebootPolicy), c.maintenance, c.remote.listenAddr, c.security, c.logging, c.api)

/-- What neither list looks at. The first two are read at startup only. -/
def Config.passedOver (c : Config) :=
  (c.updates.stateFile, c.updates.applyResultFile, (c.remote.enabled, c.remote.advertiseHostname),
    c.features, c.extensions)

end Abora

namespace Abora.Daemon

open Lib Lib.Text Update

structure ReloadLine where
  level : Level
  text : String
  deriving DecidableEq, Repr

/-- The text, if there is something to say. -/
def sayIf (differs : Prop) [Decidable differs] (text : String) : List String :=
  if differs then [text] else []

/-- `changed_settings`: the settings that take effect at once, each with the text the source has for
it. -/
def changedSettings (previous fresh : Config) : List String :=
  let hostname := fresh.system.hostname.getD "-"
  let tokenFile := (fresh.security.tokenFile.map PathBuf.display).getD "unset"
  sayIf (previous.system.hostname ≠ fresh.system.hostname) s!"[system] hostname = {hostname}" ++
  sayIf (previous.system.description ≠ fresh.system.description) "system description changed" ++
  sayIf (previous.updates.channel ≠ fresh.updates.channel)
    s!"[updates] channel = {fresh.updates.channel.text}" ++
  sayIf (previous.updates.automatic ≠ fresh.updates.automatic)
    s!"[updates] automatic = {fresh.updates.automatic}" ++
  sayIf (previous.updates.checkInterval ≠ fresh.updates.checkInterval)
    s!"[updates] check_interval = {fresh.updates.checkInterval}" ++
  sayIf (previous.updates.rebootPolicy ≠ fresh.updates.rebootPolicy)
    s!"[updates] reboot_policy = {fresh.updates.rebootPolicy.debug}" ++
  sayIf (previous.maintenance.enabled ≠ fresh.maintenance.enabled)
    s!"[maintenance] enabled = {fresh.maintenance.enabled}" ++
  sayIf (previous.maintenance.windows ≠ fresh.maintenance.windows)
    s!"[maintenance] {fresh.maintenance.windows.length} window(s)" ++
  sayIf (previous.security.requireAuthentication ≠ fresh.security.requireAuthentication)
    s!"[security] require_authentication = {fresh.security.requireAuthentication}" ++
  sayIf (previous.security.tokenFile ≠ fresh.security.tokenFile)
    s!"[security] token_file = {tokenFile}" ++
  sayIf (previous.logging.level ≠ fresh.logging.level)
    s!"[logging] level = {fresh.logging.level.text}" ++
  sayIf (previous.api.maxPayloadBytes ≠ fresh.api.maxPayloadBytes)
    s!"[api] max_payload_bytes = {fresh.api.maxPayloadBytes}" ++
  sayIf (previous.api.requestTimeoutSecs ≠ fresh.api.requestTimeoutSecs)
    s!"[api] request_timeout_secs = {fresh.api.requestTimeoutSecs}"

/-- `restart_required` inside `apply_reload`: what is fixed when the router and the listener are
built. -/
def restartRequired (previous fresh : Config) : List String :=
  sayIf (previous.remote.listenAddr ≠ fresh.remote.listenAddr)
    s!"[remote] listen_addr {previous.remote.listenAddr} -> {fresh.remote.listenAddr} (restart required)" ++
  sayIf (previous.api.basePath ≠ fresh.api.basePath)
    s!"[api] base_path {previous.api.basePath} -> {fresh.api.basePath} (restart required)" ++
  sayIf (previous.logging.format ≠ fresh.logging.format) "log format change requires a restart"

/-- The lines of `refresh_tokens`; `none` when loading the file panics. -/
def refreshLines (s : AuthState) (load : PathBuf → Loaded) : Option (List ReloadLine) :=
  match s.config.security.tokenFile with
  | none =>
    some (if s.tokens.isSome then
        [⟨.info, "config reload: token authentication disabled (no token_file)"⟩]
      else [])
  | some path =>
    match load path with
    | .ok store =>
      let note :=
        if store.len = 0 then
          "token file contains no tokens; all requests will be rejected with 401"
        else if (s.tokens.map TokenStore.len).getD 0 ≠ 0 then
          s!"{store.len} token(s) reloaded from {path.display}"
        else s!"token authentication enabled ({store.len} token(s) from {path.display})"
      some [⟨.info, s!"config reload: {note}"⟩]
    | .failed e =>
      some [⟨.warn, s!"config reload: token file {path.display} could not be loaded ({e}); keeping the previous token store"⟩]
    | .panicked => none

def unchangedLine : ReloadLine := ⟨.info, "config reload applied; configuration unchanged"⟩

/-- The lines of `apply_reload`. Nothing is said by a reload whose token file panics, as the lines
come after it. -/
def reloadLog (s : AuthState) (fresh : Config) (load : PathBuf → Loaded) : List ReloadLine :=
  let changes := changedSettings s.config fresh
  let restart := restartRequired s.config fresh
  match refreshLines { s with config := fresh } load with
  | none => []
  | some lines =>
    if changes = [] ∧ restart = [] then lines ++ [unchangedLine]
    else
      let suffix := if s.config.logging.level ≠ fresh.logging.level then " changed" else " unchanged"
      lines ++ changes.map (fun change => ⟨.info, s!"config reload: {change}"⟩) ++
        restart.map (fun note => ⟨.warn, s!"config reload: {note}"⟩) ++
        [⟨.info, s!"config reload applied (log level {fresh.logging.level.text}{suffix})"⟩]

/-! ## What a reload must say -/

/-- What the daemon reads at startup only. The first three are on the source's list. -/
inductive StartupSetting where
  | listenAddr | basePath | logFormat | stateFile | applyResultFile
  deriving DecidableEq, Repr

/-- What a line about the setting starts with. -/
def StartupSetting.label : StartupSetting → String
  | .listenAddr => "[remote] listen_addr"
  | .basePath => "[api] base_path"
  | .logFormat => "log format"
  | .stateFile => "[updates] state_file"
  | .applyResultFile => "[updates] apply_result_file"

def StartupSetting.Differs (previous fresh : Config) : StartupSetting → Prop
  | .listenAddr => previous.remote.listenAddr ≠ fresh.remote.listenAddr
  | .basePath => previous.api.basePath ≠ fresh.api.basePath
  | .logFormat => previous.logging.format ≠ fresh.logging.format
  | .stateFile => previous.updates.stateFile ≠ fresh.updates.stateFile
  | .applyResultFile => previous.updates.applyResultFile ≠ fresh.updates.applyResultFile

/-- A warning about the setting that speaks of a restart: its text goes on after the setting's
name. -/
def WarnsOf (log : List ReloadLine) (setting : StartupSetting) : Prop :=
  ∃ line ∈ log, line.level = .warn ∧
    s!"config reload: {setting.label} ".toList <+: line.text.toList ∧
    "restart".toList <:+: line.text.toList

/-- Nothing is called unchanged that changed, and every setting that needs a restart is named. -/
def ReportsAll (log : List ReloadLine) (previous fresh : Config) : Prop :=
  (unchangedLine ∈ log → previous = fresh) ∧
    ∀ setting : StartupSetting, setting.Differs previous fresh → WarnsOf log setting

/-- The fresh token file makes the loader panic. -/
def Panics (fresh : Config) (load : PathBuf → Loaded) : Prop :=
  ∃ path, fresh.security.tokenFile = some path ∧ load path = .panicked

/-! ## What the lines say -/

@[simp] theorem sayIf_eq_nil_iff {differs : Prop} [Decidable differs] {text : String} :
    sayIf differs text = [] ↔ ¬ differs := by
  unfold sayIf
  split <;> simp [*]

theorem mem_sayIf {differs : Prop} [Decidable differs] {t text : String} :
    t ∈ sayIf differs text ↔ differs ∧ t = text := by
  unfold sayIf
  split <;> simp [*]

/-- **The two lists are empty together exactly when nothing they look at differs**: each field
compared by one of them is a field of `compared`. -/
theorem nothing_said_iff {previous fresh : Config} :
    (changedSettings previous fresh = [] ∧ restartRequired previous fresh = []) ↔
      previous.compared = fresh.compared := by
  obtain ⟨⟨hostname, description⟩, updates, ⟨enabled, windows⟩, remote, ⟨require, tokenFile⟩,
    ⟨level, format⟩, ⟨basePath, payload, timeout⟩, -, -⟩ := previous
  obtain ⟨⟨hostname', description'⟩, updates', ⟨enabled', windows'⟩, remote',
    ⟨require', tokenFile'⟩, ⟨level', format'⟩, ⟨basePath', payload', timeout'⟩, -, -⟩ := fresh
  simp only [changedSettings, restartRequired, List.append_eq_nil_iff, sayIf_eq_nil_iff, not_not,
    Config.compared, Prod.mk.injEq, SystemConfig.mk.injEq, MaintenanceConfig.mk.injEq,
    SecurityConfig.mk.injEq, LoggingConfig.mk.injEq, ApiConfig.mk.injEq]
  tauto

theorem config_eq_iff {previous fresh : Config} :
    previous = fresh ↔
      previous.compared = fresh.compared ∧ previous.passedOver = fresh.passedOver := by
  constructor
  · intro h
    rw [h]
    exact ⟨rfl, rfl⟩
  · intro ⟨hcompared, hpassed⟩
    obtain ⟨system, ⟨channel, automatic, interval, policy, stateFile, resultFile⟩, maintenance,
      ⟨enabled, listenAddr, advertise⟩, security, logging, api, features, extensions⟩ := previous
    obtain ⟨system', ⟨channel', automatic', interval', policy', stateFile', resultFile'⟩,
      maintenance', ⟨enabled', listenAddr', advertise'⟩, security', logging', api', features',
      extensions'⟩ := fresh
    simp only [Config.compared, Config.passedOver, Prod.mk.injEq] at hcompared hpassed
    obtain ⟨rfl, ⟨rfl, rfl, rfl, rfl⟩, rfl, rfl, rfl, rfl, rfl⟩ := hcompared
    obtain ⟨rfl, rfl, ⟨rfl, rfl⟩, rfl, rfl⟩ := hpassed
    rfl

theorem refreshLines_eq_none_iff {s : AuthState} {load : PathBuf → Loaded} :
    refreshLines s load = none ↔ Panics s.config load := by
  unfold refreshLines Panics
  cases s.config.security.tokenFile with
  | none => simp
  | some path => cases hload : load path <;> simp [hload]

/-- Neither starts the other, so no text starts with both. -/
theorem not_prefix_of_prefix {p q l : Chars} (hq : q <+: l) (hpq : ¬ p <+: q) (hqp : ¬ q <+: p) :
    ¬ p <+: l := fun hp => (List.prefix_or_prefix_of_prefix hp hq).elim hpq hqp

theorem prefix_toList_append (s t : String) : s.toList <+: (s ++ t).toList := by
  rw [String.toList_append]
  exact List.prefix_append _ _

/-- A line of `refresh_tokens` is about the reload, and a warning among them about the file. -/
theorem refreshLines_start {s : AuthState} {load : PathBuf → Loaded} {lines : List ReloadLine}
    (h : refreshLines s load = some lines) {line : ReloadLine} (hline : line ∈ lines) :
    "config reload: ".toList <+: line.text.toList ∧
      (line.level = .warn → "config reload: token file ".toList <+: line.text.toList) := by
  unfold refreshLines at h
  split at h
  · cases h
    split at hline
    · rw [List.mem_singleton.mp hline]
      exact ⟨by decide, fun hwarn => by cases hwarn⟩
    · cases hline
  · split at h
    · cases h
      rw [List.mem_singleton.mp hline]
      exact ⟨prefix_toList_append "config reload: " _, fun hwarn => by cases hwarn⟩
    · cases h
      rw [List.mem_singleton.mp hline]
      exact ⟨by simp [toString, String.toList_append], fun _ => by
        simp [toString, String.toList_append]⟩
    · cases h

/-- **`configuration unchanged` is logged exactly when** the reload gets that far and nothing the
lists look at differs. No other line has this text. -/
theorem unchanged_mem_iff {s : AuthState} {fresh : Config} {load : PathBuf → Loaded} :
    unchangedLine ∈ reloadLog s fresh load ↔
      ¬ Panics fresh load ∧ s.config.compared = fresh.compared := by
  have hother {text : String} (h : "config reload: ".toList <+: text.toList) (level : Level) :
      unchangedLine ≠ ⟨level, text⟩ := by
    intro heq
    have htext : unchangedLine.text = text := congrArg ReloadLine.text heq
    rw [← htext] at h
    exact absurd h (by decide)
  rw [← nothing_said_iff, ← refreshLines_eq_none_iff (s := { s with config := fresh })]
  unfold reloadLog
  cases hlines : refreshLines { s with config := fresh } load with
  | none => simp
  | some lines =>
    dsimp only
    split
    · rename_i hnothing
      exact iff_of_true (List.mem_append_right _ (List.mem_singleton.mpr rfl)) ⟨by simp, hnothing⟩
    · rename_i hsomething
      refine iff_of_false (fun hmem => ?_) fun h => hsomething h.2
      simp only [List.mem_append, List.mem_map, List.mem_singleton] at hmem
      rcases hmem with ((hmem | ⟨change, -, heq⟩) | ⟨note, -, heq⟩) | heq
      · exact hother (refreshLines_start hlines hmem).1 _ rfl
      · exact hother (prefix_toList_append "config reload: " change) _ heq.symm
      · exact hother (prefix_toList_append "config reload: " note) _ heq.symm
      · have hfinal : "config reload applied (".toList <+: unchangedLine.text.toList := by
          rw [heq]
          simp [toString, String.toList_append]
        exact absurd hfinal (by decide)

/-- What `apply_reload` warns of by itself. -/
def StartupSetting.Compared : StartupSetting → Prop
  | .listenAddr | .basePath | .logFormat => True
  | .stateFile | .applyResultFile => False

theorem restart_mem_log {s : AuthState} {fresh : Config} {load : PathBuf → Loaded}
    (hload : ¬ Panics fresh load) {note : String} (hnote : note ∈ restartRequired s.config fresh) :
    ⟨.warn, s!"config reload: {note}"⟩ ∈ reloadLog s fresh load := by
  rw [← refreshLines_eq_none_iff (s := { s with config := fresh })] at hload
  unfold reloadLog
  cases hlines : refreshLines { s with config := fresh } load with
  | none => exact absurd hlines hload
  | some lines =>
    dsimp only
    rw [if_neg fun h => List.ne_nil_of_mem hnote h.2]
    exact List.mem_append_left _ (List.mem_append_right _ (List.mem_map_of_mem hnote))

theorem infix_append {m : Chars} {s t : String} (h : m <:+: t.toList) : m <:+: (s ++ t).toList := by
  rw [String.toList_append]
  exact h.trans (List.suffix_append _ _).isInfix

/-- A note that starts with the setting and speaks of a restart is logged as its warning. -/
theorem warnsOf_of_note {s : AuthState} {fresh : Config} {load : PathBuf → Loaded}
    (hload : ¬ Panics fresh load) {setting : StartupSetting} {note : String}
    (hnote : note ∈ restartRequired s.config fresh)
    (hlabel : s!"{setting.label} ".toList <+: note.toList)
    (hrestart : "restart".toList <:+: note.toList) : WarnsOf (reloadLog s fresh load) setting := by
  refine ⟨_, restart_mem_log hload hnote, rfl, ?_, ?_⟩
  · have happend := List.prefix_append_right_inj "config reload: ".toList |>.mpr hlabel
    simpa [toString, String.toList_append] using happend
  · exact infix_append hrestart

theorem warnsOf_compared {s : AuthState} {fresh : Config} {load : PathBuf → Loaded}
    (hload : ¬ Panics fresh load) {setting : StartupSetting} (hc : setting.Compared)
    (hdiffers : setting.Differs s.config fresh) : WarnsOf (reloadLog s fresh load) setting := by
  cases setting with
  | listenAddr =>
    refine warnsOf_of_note hload (List.mem_append_left _ (List.mem_append_left _
      (mem_sayIf.mpr ⟨hdiffers, rfl⟩))) ?_ ?_
    · simp [StartupSetting.label, toString, String.toList_append]
    · exact infix_append ⟨[' ', '('], " required)".toList, by simp [toString]⟩
  | basePath =>
    refine warnsOf_of_note hload (List.mem_append_left _ (List.mem_append_right _
      (mem_sayIf.mpr ⟨hdiffers, rfl⟩))) ?_ ?_
    · simp [StartupSetting.label, toString, String.toList_append]
    · exact infix_append ⟨[' ', '('], " required)".toList, by simp [toString]⟩
  | logFormat =>
    refine warnsOf_of_note hload (List.mem_append_right _
      (mem_sayIf.mpr ⟨hdiffers, rfl⟩)) ?_ ?_
    · simp [StartupSetting.label, toString]
    · exact ⟨"log format change requires a ".toList, [], by simp⟩
  | stateFile => exact absurd hc id
  | applyResultFile => exact absurd hc id

/-- Every warning is about the token file or about one of the three, and this is how it begins. -/
theorem warning_prefix {s : AuthState} {fresh : Config} {load : PathBuf → Loaded}
    {line : ReloadLine} (hline : line ∈ reloadLog s fresh load) (hwarn : line.level = .warn) :
    ¬ Panics fresh load ∧
      ∃ p ∈ ["config reload: token file ", "config reload: [remote] listen_addr ",
        "config reload: [api] base_path ", "config reload: log format "],
        p.toList <+: line.text.toList := by
  rw [← refreshLines_eq_none_iff (s := { s with config := fresh })]
  unfold reloadLog at hline
  cases hlines : refreshLines { s with config := fresh } load with
  | none =>
    rw [hlines] at hline
    cases hline
  | some lines =>
    refine ⟨by simp, ?_⟩
    have htoken (hmem : line ∈ lines) : "config reload: token file ".toList <+: line.text.toList :=
      (refreshLines_start hlines hmem).2 hwarn
    simp only [hlines] at hline
    split at hline
    · rcases List.mem_append.mp hline with hmem | hmem
      · exact ⟨_, List.mem_cons_self, htoken hmem⟩
      · rw [List.mem_singleton.mp hmem] at hwarn
        cases hwarn
    · simp only [List.mem_append, List.mem_map, List.mem_singleton] at hline
      rcases hline with ((hmem | ⟨change, -, rfl⟩) | ⟨note, hnote, rfl⟩) | rfl
      · exact ⟨_, List.mem_cons_self, htoken hmem⟩
      · cases hwarn
      · simp only [restartRequired, List.mem_append, mem_sayIf] at hnote
        rcases hnote with (⟨-, rfl⟩ | ⟨-, rfl⟩) | ⟨-, rfl⟩
        · exact ⟨"config reload: [remote] listen_addr ", by simp,
            by simp [toString, String.toList_append]⟩
        · exact ⟨"config reload: [api] base_path ", by simp,
            by simp [toString, String.toList_append]⟩
        · exact ⟨"config reload: log format ", by simp, by simp [toString]⟩
      · cases hwarn

theorem compared_of_warnsOf {s : AuthState} {fresh : Config} {load : PathBuf → Loaded}
    {setting : StartupSetting} (h : WarnsOf (reloadLog s fresh load) setting) :
    ¬ Panics fresh load ∧ setting.Compared := by
  obtain ⟨line, hline, hwarn, hlabel, -⟩ := h
  obtain ⟨hload, p, hp, hprefix⟩ := warning_prefix hline hwarn
  refine ⟨hload, ?_⟩
  have hclash : ¬ (s!"config reload: {setting.label} ".toList <+: p.toList ∨
      p.toList <+: s!"config reload: {setting.label} ".toList) → False := fun hnot =>
    not_prefix_of_prefix hprefix (fun h => hnot (.inl h)) (fun h => hnot (.inr h)) hlabel
  simp only [List.mem_cons, List.not_mem_nil, or_false] at hp
  cases setting with
  | listenAddr => trivial
  | basePath => trivial
  | logFormat => trivial
  | stateFile =>
    refine hclash ?_
    rcases hp with rfl | rfl | rfl | rfl <;> simp [StartupSetting.label, toString]
  | applyResultFile =>
    refine hclash ?_
    rcases hp with rfl | rfl | rfl | rfl <;> simp [StartupSetting.label, toString]

/-- **A reload reports everything exactly when** neither path that is read at startup changed, and
either the token file panics and nothing else of that kind changed, or whatever the lists pass over
changed only together with something they look at. -/
theorem reload_reports_iff (s : AuthState) (fresh : Config) (load : PathBuf → Loaded) :
    ReportsAll (reloadLog s fresh load) s.config fresh ↔
      s.config.updates.stateFile = fresh.updates.stateFile ∧
      s.config.updates.applyResultFile = fresh.updates.applyResultFile ∧
      (Panics fresh load → s.config.remote.listenAddr = fresh.remote.listenAddr ∧
        s.config.api.basePath = fresh.api.basePath ∧
        s.config.logging.format = fresh.logging.format) ∧
      (¬ Panics fresh load → s.config.compared = fresh.compared →
        s.config.passedOver = fresh.passedOver) := by
  constructor
  · intro ⟨hunchanged, hwarns⟩
    -- a setting that is not compared has no warning, so it may not differ
    have hsame (setting : StartupSetting) (hnot : Panics fresh load ∨ ¬ setting.Compared) :
        ¬ setting.Differs s.config fresh := by
      intro hdiffers
      obtain ⟨hload, hc⟩ := compared_of_warnsOf (hwarns setting hdiffers)
      exact hnot.elim hload fun h => h hc
    refine ⟨not_not.mp (hsame .stateFile (.inr id)),
      not_not.mp (hsame .applyResultFile (.inr id)), fun hload => ?_,
      fun hload hcompared => ?_⟩
    · exact ⟨not_not.mp (hsame .listenAddr (.inl hload)),
        not_not.mp (hsame .basePath (.inl hload)),
        not_not.mp (hsame .logFormat (.inl hload))⟩
    · exact (config_eq_iff.mp (hunchanged (unchanged_mem_iff.mpr ⟨hload, hcompared⟩))).2
  · intro ⟨hstate, hresult, hpanics, hpassed⟩
    refine ⟨fun hmem => ?_, fun setting hdiffers => ?_⟩
    · obtain ⟨hload, hcompared⟩ := unchanged_mem_iff.mp hmem
      exact config_eq_iff.mpr ⟨hcompared, hpassed hload hcompared⟩
    · by_cases hload : Panics fresh load
      · obtain ⟨hlisten, hbase, hformat⟩ := hpanics hload
        cases setting with
        | listenAddr => exact absurd hlisten hdiffers
        | basePath => exact absurd hbase hdiffers
        | logFormat => exact absurd hformat hdiffers
        | stateFile => exact absurd hstate hdiffers
        | applyResultFile => exact absurd hresult hdiffers
      · cases setting with
        | listenAddr => exact warnsOf_compared hload trivial hdiffers
        | basePath => exact warnsOf_compared hload trivial hdiffers
        | logFormat => exact warnsOf_compared hload trivial hdiffers
        | stateFile => exact absurd hstate hdiffers
        | applyResultFile => exact absurd hresult hdiffers

/-- The state file is moved, and the reload says that nothing changed. -/
theorem moved_state_file_unreported :
    let fresh : Config :=
      { updates := { stateFile := PathBuf.ofString "/srv/abora/updates.json" } }
    let s : AuthState := ⟨{}, none, .file (PathBuf.ofString "/etc/abora/abora.toml"), true⟩
    ({} : Config).validate = .ok () ∧ fresh.validate = .ok () ∧ s.config ≠ fresh ∧
      unchangedLine ∈ reloadLog s fresh (fun _ => .failed "no such file") ∧
      ¬ ReportsAll (reloadLog s fresh fun _ => .failed "no such file") s.config fresh := by
  intro fresh s
  have hdiffers : s.config ≠ fresh := by
    intro heq
    exact absurd (congrArg (fun c => c.updates.stateFile) heq) (by decide)
  have hload : ¬ Panics fresh fun _ => .failed "no such file" := by
    intro ⟨path, hpath, _⟩
    cases hpath
  have hunchanged : unchangedLine ∈ reloadLog s fresh (fun _ => .failed "no such file") :=
    unchanged_mem_iff.mpr ⟨hload, by simp only [Config.compared, s, fresh]⟩
  have hvalid : fresh.validate = .ok () := by decide +kernel
  exact ⟨validate_default, hvalid, hdiffers, hunchanged, fun h => hdiffers (h.1 hunchanged)⟩

end Abora.Daemon
