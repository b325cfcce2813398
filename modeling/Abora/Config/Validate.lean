import Mathlib.Data.List.Indexes
import Abora.Config.Config
import Abora.Lib.SocketAddr

/-!
# Validation (`Config::validate` and `validate_windows` in `abora-config/src/lib.rs`)

Every check pushes its texts onto one list, and a configuration is accepted when the list stays
empty. Each check is its own function here, with the source's texts, and `Config.errors` is their
concatenation in the source's order; so the report can be taken apart again by section.

The checks of one window are not independent: a clock that does not parse ends them, and
`windowErrors` keeps that. For *acceptance* it makes no difference (`windowErrors_eq_nil_iff`), as
an error has been pushed by then; for the report it does, and that is `Abora.Config.Report`.

`Valid` is acceptance read back, one field for each rule. What later modules need of an accepted
configuration they take from there, and never from the list of texts.
-/

namespace Abora

open Lib Lib.Text Update

/-- An absent hostname is fine. Whitespace is only looked for inside: what is around it was
trimmed. -/
def hostnameErrors (hostname : Option String) : List String :=
  match hostname with
  | none => []
  | some hostname =>
    let h := trim hostname.toList
    if h = [] then ["[system] hostname must not be empty"]
    else if h.any isWhitespace then
      [s!"[system] hostname `{hostname}` must not contain whitespace"]
    else []

/-- The check that the two paths of `[updates]` share. -/
def absoluteErrors (key : String) (path : PathBuf) : List String :=
  if path.isAbsolute then []
  else [s!"[updates] {key} `{path.display}` must be an absolute path"]

def intervalErrors (interval : String) : List String :=
  match parseDuration interval with
  | .ok _ => []
  | .error e => [s!"[updates] check_interval `{interval}` is not a valid duration: {e}"]

/-- The body of the loop of `validate_windows`, for window number `i`. -/
def windowErrors (i : Nat) (w : MaintenanceWindow) : List String :=
  let days :=
    if w.days = [] then [s!"[maintenance] window #{i} must define at least one day"] else []
  days ++
    match parseClock w.start with
    -- `continue`: the end and the cap of this window are not looked at
    | .error e => [s!"[maintenance] window #{i} start `{w.start}` is not HH:MM: {e}"]
    | .ok start =>
      match parseClock w.stop with
      | .error e => [s!"[maintenance] window #{i} end `{w.stop}` is not HH:MM: {e}"]
      | .ok stop =>
        (if stop ≤ start then
          [s!"[maintenance] window #{i}: end ({w.stop}) must be after start ({w.start})"]
        else []) ++
        (if w.maxDurationMinutes = some 0 then
          [s!"[maintenance] window #{i}: max_duration_minutes must be greater than zero"]
        else [])

def validateWindows (windows : List MaintenanceWindow) : List String :=
  (windows.mapIdx windowErrors).flatten

def listenAddrErrors (addr : String) : List String :=
  if (parseSocketAddr addr).isSome then []
  else [s!"[remote] listen_addr `{addr}` is not a valid socket address"]

/-- Two rules with one heading. A path with whitespace around it may fail the first as well. -/
def basePathErrors (path : String) : List String :=
  let trimmed := trim path.toList
  if trimmed.head? ≠ some '/' ∨ byteLen trimmed < 2 then
    [s!"[api] base_path `{path}` must start with `/` and be non-trivial"]
  else if path.toList ≠ trimmed then
    ["[api] base_path must not contain leading/trailing whitespace"]
  else []

/-- The check that the two limits of `[api]` share. -/
def limitErrors (key : String) (limit : Nat) : List String :=
  if limit = 0 then [s!"[api] {key} must be greater than zero"] else []

/-- Every problem found, in the order it is found. Nothing ends the list early. -/
def Config.errors (config : Config) : List String :=
  hostnameErrors config.system.hostname ++
  absoluteErrors "apply_result_file" config.updates.applyResultFile ++
  absoluteErrors "state_file" config.updates.stateFile ++
  intervalErrors config.updates.checkInterval ++
  validateWindows config.maintenance.windows ++
  listenAddrErrors config.remote.listenAddr ++
  basePathErrors config.api.basePath ++
  limitErrors "max_payload_bytes" config.api.maxPayloadBytes ++
  limitErrors "request_timeout_secs" config.api.requestTimeoutSecs

def Config.validate (config : Config) : Except (List String) Unit :=
  if config.errors = [] then .ok () else .error config.errors

/-! ## Acceptance -/

/-- Something is left after trimming, without whitespace inside. -/
def ValidHostname (hostname : String) : Prop :=
  trim hostname.toList ≠ [] ∧ ∀ c ∈ trim hostname.toList, isWhitespace c = false

/-- What an accepted window is. Its clocks are two times of one day, in their order. -/
structure ValidWindow (w : MaintenanceWindow) : Prop where
  days : w.days ≠ []
  clocks : ∃ start stop, parseClock w.start = .ok start ∧ parseClock w.stop = .ok stop ∧
    start < stop
  maxDuration : w.maxDurationMinutes ≠ some 0

/-- A path from the root, longer than the root, without whitespace around it. -/
structure ValidBasePath (path : String) : Prop where
  slash : path.toList.head? = some '/'
  nontrivial : 2 ≤ byteLen path.toList
  trimmed : trim path.toList = path.toList

/-- What an accepted configuration is. `[security]` and `[logging]` are not checked: every value of
their types is fine. -/
structure Config.Valid (config : Config) : Prop where
  hostname : ∀ h, config.system.hostname = some h → ValidHostname h
  applyResultFile : config.updates.applyResultFile.isAbsolute = true
  stateFile : config.updates.stateFile.isAbsolute = true
  checkInterval : ∃ secs, parseDuration config.updates.checkInterval = .ok secs
  windows : ∀ w ∈ config.maintenance.windows, ValidWindow w
  listenAddr : ∃ addr, parseSocketAddr config.remote.listenAddr = some addr
  basePath : ValidBasePath config.api.basePath
  maxPayload : config.api.maxPayloadBytes ≠ 0
  requestTimeout : config.api.requestTimeoutSecs ≠ 0

theorem hostnameErrors_eq_nil_iff {hostname : Option String} :
    hostnameErrors hostname = [] ↔ ∀ h, hostname = some h → ValidHostname h := by
  cases hostname with
  | none => simp [hostnameErrors]
  | some h =>
    have hsome : (∀ g, some h = some g → ValidHostname g) ↔ ValidHostname h :=
      ⟨fun hall => hall h rfl, fun hv g hg => by cases hg; exact hv⟩
    rw [hsome]
    unfold hostnameErrors ValidHostname
    by_cases hempty : trim h.toList = []
    · simp [hempty]
    · by_cases hspace : (trim h.toList).any isWhitespace = true
      · have hbad : ¬ ∀ c ∈ trim h.toList, isWhitespace c = false := by
          obtain ⟨c, hc, hw⟩ := List.any_eq_true.mp hspace
          intro hall
          rw [hall c hc] at hw
          cases hw
        simp [hempty, hspace, hbad]
      · have hgood : ∀ c ∈ trim h.toList, isWhitespace c = false := by
          intro c hc
          cases hw : isWhitespace c with
          | false => rfl
          | true => exact absurd (List.any_eq_true.mpr ⟨c, hc, hw⟩) hspace
        simp only [hempty, if_false, hspace, Bool.false_eq_true, ne_eq, not_false_eq_true,
          true_and, true_iff]
        exact hgood

theorem absoluteErrors_eq_nil_iff {key : String} {path : PathBuf} :
    absoluteErrors key path = [] ↔ path.isAbsolute = true := by
  unfold absoluteErrors
  split <;> simp_all

theorem intervalErrors_eq_nil_iff {interval : String} :
    intervalErrors interval = [] ↔ ∃ secs, parseDuration interval = .ok secs := by
  unfold intervalErrors
  cases parseDuration interval <;> simp

/-- **A window raises no error exactly when it is well formed**, whichever check stops early. -/
theorem windowErrors_eq_nil_iff {i : Nat} {w : MaintenanceWindow} :
    windowErrors i w = [] ↔ ValidWindow w := by
  unfold windowErrors
  constructor
  · intro h
    obtain ⟨hdays, hrest⟩ := List.append_eq_nil_iff.mp h
    cases hstart : parseClock w.start with
    | error e =>
      rw [hstart] at hrest
      cases hrest
    | ok start =>
      cases hstop : parseClock w.stop with
      | error e =>
        simp only [hstart, hstop] at hrest
        cases hrest
      | ok stop =>
        simp only [hstart, hstop] at hrest
        obtain ⟨horder, hmax⟩ := List.append_eq_nil_iff.mp hrest
        refine ⟨fun hempty => ?_, ⟨start, stop, hstart, hstop, ?_⟩, fun hzero => ?_⟩
        · simp [hempty] at hdays
        · by_cases hle : stop ≤ start
          · simp [hle] at horder
          · exact Nat.lt_of_not_le hle
        · simp [hzero] at hmax
  · intro h
    obtain ⟨start, stop, hstart, hstop, hlt⟩ := h.clocks
    simp [h.days, hstart, hstop, h.maxDuration, Nat.not_le.mpr hlt]

theorem mem_validateWindows {windows : List MaintenanceWindow} {text : String} :
    text ∈ validateWindows windows ↔
      ∃ i w, windows[i]? = some w ∧ text ∈ windowErrors i w := by
  unfold validateWindows
  rw [List.mem_flatten]
  constructor
  · intro ⟨l, hl, htext⟩
    obtain ⟨i, hi, rfl⟩ := List.mem_mapIdx.mp hl
    exact ⟨i, windows[i], List.getElem?_eq_getElem hi, htext⟩
  · intro ⟨i, w, hw, htext⟩
    obtain ⟨hi, rfl⟩ := List.getElem?_eq_some_iff.mp hw
    exact ⟨_, List.mem_mapIdx.mpr ⟨i, hi, rfl⟩, htext⟩

theorem validateWindows_eq_nil_iff {windows : List MaintenanceWindow} :
    validateWindows windows = [] ↔ ∀ w ∈ windows, ValidWindow w := by
  rw [List.eq_nil_iff_forall_not_mem]
  constructor
  · intro h w hw
    obtain ⟨i, hi, rfl⟩ := List.mem_iff_getElem.mp hw
    refine windowErrors_eq_nil_iff (i := i).mp (List.eq_nil_iff_forall_not_mem.mpr ?_)
    exact fun text ht => h text
      (mem_validateWindows.mpr ⟨i, _, List.getElem?_eq_getElem hi, ht⟩)
  · intro h text ht
    obtain ⟨i, w, hw, ht⟩ := mem_validateWindows.mp ht
    rw [windowErrors_eq_nil_iff.mpr (h w (List.mem_of_getElem? hw))] at ht
    cases ht

theorem listenAddrErrors_eq_nil_iff {addr : String} :
    listenAddrErrors addr = [] ↔ ∃ a, parseSocketAddr addr = some a := by
  unfold listenAddrErrors
  rw [← Option.isSome_iff_exists]
  split <;> simp_all

theorem basePathErrors_eq_nil_iff {path : String} :
    basePathErrors path = [] ↔ ValidBasePath path := by
  unfold basePathErrors
  constructor
  · intro h
    dsimp only at h
    split at h
    · cases h
    rename_i hshape
    split at h
    · cases h
    rename_i htrim
    have htrim : trim path.toList = path.toList := (not_not.mp htrim).symm
    rw [htrim, not_or] at hshape
    exact ⟨not_not.mp hshape.1, Nat.le_of_not_lt hshape.2, htrim⟩
  · intro h
    simp [h.trimmed, h.slash, Nat.not_lt.mpr h.nontrivial]

theorem limitErrors_eq_nil_iff {key : String} {limit : Nat} :
    limitErrors key limit = [] ↔ limit ≠ 0 := by
  unfold limitErrors
  split <;> simp_all

/-- There is no third outcome, and no rejection with an empty list. -/
theorem validate_cases (config : Config) :
    (config.validate = .ok () ∧ config.errors = []) ∨
      (config.validate = .error config.errors ∧ config.errors ≠ []) := by
  unfold Config.validate
  by_cases h : config.errors = []
  · exact .inl ⟨if_pos h, h⟩
  · exact .inr ⟨if_neg h, h⟩

theorem validate_ok_iff_errors {config : Config} :
    config.validate = .ok () ↔ config.errors = [] := by
  rcases validate_cases config with ⟨hok, hnil⟩ | ⟨herr, hne⟩
  · exact iff_of_true hok hnil
  · refine iff_of_false (fun hok => ?_) hne
    rw [herr] at hok
    cases hok

theorem eq_errors_of_validate {config : Config} {errors : List String}
    (h : config.validate = .error errors) : errors = config.errors := by
  rcases validate_cases config with ⟨hok, -⟩ | ⟨herr, -⟩
  · rw [hok] at h
    cases h
  · rw [herr] at h
    exact (Except.error.inj h).symm

/-- **What `validate` accepts.** Each conjunct of the empty concatenation is one field of
`Valid`. -/
theorem validate_ok_iff {config : Config} : config.validate = .ok () ↔ config.Valid := by
  rw [validate_ok_iff_errors]
  unfold Config.errors
  simp only [List.append_eq_nil_iff, hostnameErrors_eq_nil_iff, absoluteErrors_eq_nil_iff,
    intervalErrors_eq_nil_iff, validateWindows_eq_nil_iff, listenAddrErrors_eq_nil_iff,
    basePathErrors_eq_nil_iff, limitErrors_eq_nil_iff, and_assoc]
  constructor
  · intro ⟨hh, ha, hs, hi, hw, hl, hb, hm, hr⟩
    exact ⟨hh, ha, hs, hi, hw, hl, hb, hm, hr⟩
  · intro h
    exact ⟨h.hostname, h.applyResultFile, h.stateFile, h.checkInterval, h.windows, h.listenAddr,
      h.basePath, h.maxPayload, h.requestTimeout⟩

/-- The defaults pass their own checks. -/
theorem validate_default : ({} : Config).validate = .ok () := by decide +kernel

end Abora
