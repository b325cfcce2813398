import Mathlib.Data.List.Basic

/-!
# The shared update vocabulary (`abora-update/src/lib.rs`)

The types that travel between the check, the store, the request files and the API. Sizes and version
numbers are `u64` in the source and `Nat` here: nothing in the framework computes with them, and
where a file is read back (`Abora.Update.Decode`) the bound is asked of the number that is read.

Fields keep the source's names in camel case, with two exceptions for words Lean reserves: a
window's `end` is `stop`, and an upgrade's `to` is `target`. What the serializers call the members
is in `Abora.Update.Encode`, where it matters.
-/

namespace Abora.Update

/-- `major.minor.patch` with the two optional suffixes, without their separators: what is behind the
`-`, and what is behind the `+`. The parser and `Display` are in `Abora.Update.Version`. -/
structure Version where
  major : Nat
  minor : Nat
  patch : Nat
  prerelease : Option String
  build : Option String
  deriving DecidableEq, Repr

def Version.new (major minor patch : Nat) : Version := ⟨major, minor, patch, none, none⟩

/-- Update channels; `custom` carries the name of a feed. A check only copies its channel into what
it reports: `apt` has its own idea of where updates come from. -/
inductive Channel where
  | stable
  | beta
  | nightly
  | custom (name : String)
  deriving DecidableEq, Repr

inductive RebootPolicy where
  /-- The default: never reboot outside a maintenance window. -/
  | ask
  /-- Reboot immediately after a successful update. -/
  | always
  /-- Wait for an operator. -/
  | never
  deriving DecidableEq, Repr

inductive Weekday where
  | monday | tuesday | wednesday | thursday | friday | saturday | sunday
  deriving DecidableEq, Repr

/-- A scheduled window; `start` and `stop` (the source's `end`) are `HH:MM` texts, as they stand in
the configuration. What times they mean, and across which midnight, is up to
`Abora.Config.Windows`. -/
structure MaintenanceWindow where
  days : List Weekday
  start : String
  stop : String
  maxDurationMinutes : Option Nat
  deriving DecidableEq, Repr

/-- One update a check found. `checksums` and `releaseNotes` are part of the format and never set by
the `apt` provider, which knows nothing about either. -/
structure AvailableUpdate where
  channel : Channel
  version : Version
  component : String
  summary : String
  releaseNotes : Option String
  sizeBytes : Nat
  releasedAt : Option String
  checksums : Option (List String)
  deriving DecidableEq, Repr

structure AvailableUpdates where
  channel : Channel
  updates : List AvailableUpdate
  deriving DecidableEq, Repr

/-- What `status` answers. No provider answers `installing`: the daemon does in its place, as long
as a request is waiting for the helper. -/
inductive UpdateStatus where
  | upToDate
  | updateAvailable (versions : List String)
  | installing (component : String) (progressPercent : Option Nat)
  | error (message : String)
  deriving DecidableEq, Repr

/-- Whether a reboot is required to finish applying updates, which packages asked for it, and since
when the store has known. -/
structure RebootStatus where
  required : Bool
  reason : Option String
  pendingSince : Option String
  deriving DecidableEq, Repr

def RebootStatus.none : RebootStatus := ⟨false, .none, .none⟩

/-- One line of the update history, as the daemon derives it from a result of the helper. The
versions are versions of the framework's own kind, not `apt`'s. -/
structure UpdateHistoryEntry where
  appliedAt : String
  fromVersion : Version
  toVersion : Version
  channel : Channel
  component : String
  succeeded : Bool
  note : Option String
  deriving DecidableEq, Repr

/-- The errors of a provider. Each carries a text that is shown as it is, behind the words that say
which kind it is (`UpdateError.text`). -/
inductive UpdateError where
  | notImplemented (what : String)
  | unsupported (what : String)
  | conflict (what : String)
  | source (what : String)
  deriving DecidableEq, Repr

def UpdateError.text : UpdateError → String
  | .notImplemented what => "not implemented: " ++ what
  | .unsupported what => "unsupported: " ++ what
  | .conflict what => "update conflict: " ++ what
  | .source what => "update source failure: " ++ what

end Abora.Update
