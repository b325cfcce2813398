import Abora.Lib.Path
import Abora.Lib.Text
import Abora.Update.Apply

/-!
# The configuration (`abora-config/src/lib.rs`)

Every section with its defaults. The daemon and the root helper each load this file for themselves
and at different times, so a `Config` is what one load of the file returned, not a global: the two
programs may well run on different ones.

Two parts are kept as text: the time and duration strings, which are parsed where they are used, and
the tables of other programs, which the framework only preserves. Both parsers are here, since both
sides of everything that follows use them: the validator refuses what they cannot read, and the
evaluator reads it again. `parseDuration` is the release build's; what a debug build does with a
product over 64 bits is `Abora.Config.Durations`.
-/

namespace Abora

open Lib Lib.Text Update

/-- The log levels, in the order of what they let through. -/
inductive Level where
  | off | error | warn | info | debug | trace
  deriving DecidableEq, Repr

inductive Format where
  | json | text
  deriving DecidableEq, Repr

structure SystemConfig where
  hostname : Option String := none
  description : Option String := none
  deriving DecidableEq, Repr

/-- `[updates]`. The two paths have to be absolute, which the validator sees to. -/
structure UpdatesConfig where
  channel : Channel := .stable
  automatic : Bool := false
  checkInterval : String := "6h"
  rebootPolicy : RebootPolicy := .ask
  /-- Read at startup; changing it needs a restart. -/
  stateFile : PathBuf := PathBuf.ofString "/var/lib/abora/updates.json"
  /-- Where the root update helper writes the outcome of an apply. Both programs read this setting,
  the daemon at startup and the helper at every run. -/
  applyResultFile : PathBuf := defaultResultFile
  deriving DecidableEq, Repr

/-- `[maintenance]`: the windows, and whether there are any as far as the policy is concerned. -/
structure MaintenanceConfig where
  enabled : Bool := true
  windows : List MaintenanceWindow := []
  deriving DecidableEq, Repr

structure RemoteConfig where
  enabled : Bool := false
  listenAddr : String := "127.0.0.1:7360"
  advertiseHostname : Option String := none
  deriving DecidableEq, Repr

/-- `[security]`. A token file that is set and cannot be loaded is not the same as none; see
`Abora.Daemon.Tokens`. -/
structure SecurityConfig where
  /-- Require a valid bearer token for every API operation. -/
  requireAuthentication : Bool := true
  tokenFile : Option PathBuf := none
  deriving DecidableEq, Repr

structure LoggingConfig where
  level : Level := .info
  format : Format := .json
  deriving DecidableEq, Repr

/-- `[api]`. The base path is put in front of every route when the router is built. -/
structure ApiConfig where
  basePath : String := "/api/v1"
  maxPayloadBytes : Nat := 1024 * 1024
  requestTimeoutSecs : Nat := 30
  deriving DecidableEq, Repr

structure FeaturesConfig where
  flags : List (String × Bool) := []
  deriving DecidableEq, Repr

/-- `Config`. `extensions` are the unknown top-level tables, each as its TOML text. -/
structure Config where
  system : SystemConfig := {}
  updates : UpdatesConfig := {}
  maintenance : MaintenanceConfig := {}
  remote : RemoteConfig := {}
  security : SecurityConfig := {}
  logging : LoggingConfig := {}
  api : ApiConfig := {}
  features : FeaturesConfig := {}
  extensions : List (String × String) := []
  deriving DecidableEq, Repr

/-- `parse_clock`: `HH:MM` as minutes since midnight. Lengths are of bytes, so a character that is
not ASCII fails the first test or the second. -/
def parseClock (value : String) : Except String Nat :=
  match splitOnce ':' value.toList with
  | none => .error "expected HH:MM format"
  | some (hour, minute) =>
    if byteLen hour ≠ 2 ∨ byteLen minute ≠ 2 then
      .error "expected two-digit hours and minutes"
    else if (hour.all Char.isDigit && minute.all Char.isDigit) = false then
      .error "expected digits"
    else
      match parseUnsigned 32 hour, parseUnsigned 32 minute with
      | none, _ => .error "invalid hour"
      | some _, none => .error "invalid minute"
      | some hour, some minute =>
        if hour > 23 then .error "hour out of range"
        else if minute > 59 then .error "minute out of range"
        else .ok (hour * 60 + minute)

/-- The seconds one of a unit stands for. The unit is everything after the digits, so `6 h` has
none. -/
def unitSeconds (unit : Chars) : Option Nat :=
  match unit with
  | ['s'] => some 1
  | ['m'] => some 60
  | ['h'] => some (60 * 60)
  | ['d'] => some (60 * 60 * 24)
  | _ => none

/-- `parse_duration`: `30m`, `6h` or `1d` as seconds. The product is taken modulo `2 ^ 64`, as in a
release build, and is not looked at again. -/
def parseDuration (value : String) : Except String Nat :=
  let value := trim value.toList
  let digits := value.takeWhile Char.isDigit
  let unit := value.dropWhile Char.isDigit
  if unit = [] then .error "missing unit (s, m, h, d)"
  else
    match parseUnsigned 64 digits with
    | none => .error "invalid number"
    | some number =>
      match unitSeconds unit with
      | none => .error s!"unknown unit `{String.ofList unit}` (expected s, m, h, d)"
      | some mult =>
        if number = 0 then .error "duration must be greater than zero"
        -- a release build multiplies modulo `2 ^ 64`
        else .ok (number * mult % 2 ^ 64)

end Abora
