import Abora.Config.Config

/-!
# What the update policy allows right now (`abora-config/src/schedule.rs`)

Pure functions of the configuration and the local time. `OpenAt` is the policy in one sentence:
maintenance is enabled and the local time is known and inside a window. An install needs it; a
reboot needs it exactly under the policy `ask`. What the functions do *not* know is when their
answer is used: the helper asks once, before an install that may take an hour.

The same module of the source has the pacing of the daemon's checks, which is about durations and
not about clocks: how long after an attempt the next one is due, and how soon after a failed one.
-/

namespace Abora

open Lib.Text Update

/-- A weekday and the minute of the day, as `date` prints them. There is no date in it and no
zone. -/
structure LocalTime where
  weekday : Weekday
  minutes : Nat
  deriving DecidableEq, Repr

/-- What the policy allows at one moment. `applyPermitted` is for an operator's request,
`installsPermitted` for what the scheduler does by itself. -/
structure Permissions where
  /-- `none` when the local time is unknown. -/
  inMaintenanceWindow : Option Bool
  applyPermitted : Bool
  installsPermitted : Bool
  rebootPermitted : Bool
  deriving DecidableEq, Repr

/-- `date`'s `%u`: 1 is Monday. -/
def parseWeekday (day : Chars) : Option Weekday :=
  match day with
  | ['1'] => some .monday
  | ['2'] => some .tuesday
  | ['3'] => some .wednesday
  | ['4'] => some .thursday
  | ['5'] => some .friday
  | ['6'] => some .saturday
  | ['7'] => some .sunday
  | _ => none

/-- `parse_date_output`: `date +"%u %H:%M"`, such as `7 03:15`. A text it cannot read leaves the
local time unknown, which no window contains. -/
def parseDateOutput (text : String) : Option LocalTime := do
  let (day, clock) ← splitOnce ' ' (trim text.toList)
  let (hour, minute) ← splitOnce ':' clock
  let weekday ← parseWeekday day
  let hour ← parseUnsigned 32 hour
  let minute ← parseUnsigned 32 minute
  if hour < 24 ∧ minute < 60 then some ⟨weekday, hour * 60 + minute⟩ else none

/-- Whether `now` falls inside one window; a window that does not parse is never open. -/
def windowOpen (w : MaintenanceWindow) (now : LocalTime) : Bool :=
  match parseClock w.start, parseClock w.stop with
  | .ok start, .ok stop =>
    -- the end is not part of the window, and a window does not run past midnight
    w.days.contains now.weekday && decide (start ≤ now.minutes) && decide (now.minutes < stop)
  | _, _ => false

def inWindow (windows : List MaintenanceWindow) (now : LocalTime) : Bool :=
  windows.any fun w => windowOpen w now

/-- `permissions`: evaluate the policy for `now` (`none` = local time unknown). -/
def permissions (config : Config) (now : Option LocalTime) : Permissions :=
  let inMaintenanceWindow :=
    now.map fun t => config.maintenance.enabled && inWindow config.maintenance.windows t
  let inWin := inMaintenanceWindow == some true
  -- the reported window ignores `enabled`; the permissions do not
  { inMaintenanceWindow := now.map fun t => inWindow config.maintenance.windows t
    applyPermitted := inWin
    installsPermitted := config.updates.automatic && inWin
    rebootPermitted :=
      match config.updates.rebootPolicy with
      | .always => true
      | .never => false
      | .ask => inWin }

/-- A `Duration`, in nanoseconds. -/
abbrev Duration := Nat

def Duration.fromSecs (secs : Nat) : Duration := secs * 1000000000

def Duration.asSecs (d : Duration) : Nat := d / 1000000000

/-- `check_interval`: six hours for a value that does not parse. An accepted configuration has
none. -/
def checkInterval (config : Config) : Duration :=
  Duration.fromSecs <|
    match parseDuration config.updates.checkInterval with
    | .ok secs => secs
    | .error _ => 6 * 60 * 60

/-- `should_auto_apply`: whether the scheduler should ask for an automatic apply now. One that was
asked for less than an interval ago is not asked for again. -/
def shouldAutoApply (perms : Permissions) (hasAvailable applyPending : Bool)
    (sinceLastAttempt : Option Duration) (interval : Duration) : Bool :=
  perms.installsPermitted && hasAvailable && !applyPending &&
    match sinceLastAttempt with
    | none => true
    | some t => decide (interval ≤ t)

/-- How soon to try again after a failed check, at most. A shorter interval is not made longer by
it. -/
def retryAfterFailure : Duration := Duration.fromSecs (15 * 60)

def checkWait (lastSucceeded : Bool) (interval : Duration) : Duration :=
  if lastSucceeded then interval else min interval retryAfterFailure

/-- `check_is_due`, `sinceLastAttempt` after the previous check. -/
def checkIsDue (sinceLastAttempt : Duration) (lastSucceeded : Bool) (interval : Duration) : Bool :=
  decide (checkWait lastSucceeded interval ≤ sinceLastAttempt)

/-- Maintenance is enabled and `now` is a known time inside a window. It is decidable, so that a run
may be judged minute by minute. -/
def OpenAt (config : Config) (now : Option LocalTime) : Prop :=
  config.maintenance.enabled = true ∧
    ∃ t, now = some t ∧ inWindow config.maintenance.windows t = true

instance (config : Config) (now : Option LocalTime) : Decidable (OpenAt config now) :=
  match now with
  | none => isFalse fun ⟨_, _, h, _⟩ => by cases h
  | some t =>
    decidable_of_iff
      (config.maintenance.enabled = true ∧ inWindow config.maintenance.windows t = true)
      ⟨fun h => ⟨h.1, t, rfl, h.2⟩, fun ⟨h, _, ht, hw⟩ => ⟨h, by cases ht; exact hw⟩⟩

theorem applyPermitted_iff {config : Config} {now : Option LocalTime} :
    (permissions config now).applyPermitted = true ↔ OpenAt config now := by
  cases now with
  | none => simp [permissions, OpenAt]
  | some t => simp [permissions, OpenAt]

theorem installsPermitted_iff {config : Config} {now : Option LocalTime} :
    (permissions config now).installsPermitted = true ↔
      config.updates.automatic = true ∧ OpenAt config now := by
  rw [← applyPermitted_iff]
  exact Bool.and_eq_true_iff

theorem shouldAutoApply_iff {perms : Permissions} {hasAvailable applyPending : Bool}
    {sinceLastAttempt : Option Duration} {interval : Duration} :
    shouldAutoApply perms hasAvailable applyPending sinceLastAttempt interval = true ↔
      perms.installsPermitted = true ∧ hasAvailable = true ∧ applyPending = false ∧
        ∀ t ∈ sinceLastAttempt, interval ≤ t := by
  cases sinceLastAttempt with
  | none => simp [shouldAutoApply, and_assoc]
  | some t => simp [shouldAutoApply, and_assoc]

theorem rebootPermitted_iff {config : Config} {now : Option LocalTime} :
    (permissions config now).rebootPermitted = true ↔
      config.updates.rebootPolicy = .always ∨
        config.updates.rebootPolicy = .ask ∧ OpenAt config now := by
  rw [← applyPermitted_iff]
  cases hp : config.updates.rebootPolicy <;> simp [permissions, hp]

end Abora
