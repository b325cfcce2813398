import Abora.Lib.Json
import Abora.Update.Store

/-!
# What reads as the store's data (`abora-update/src/store.rs`, `lib.rs`)

The deserializers derived for `StoreData` and the types under it, on a value that has been parsed.
They know the current types only: a file that says it is from a newer schema is read through the
same fields, and says so only if all of them read. That is the difference between the refusal to
open a newer store and moving it aside as a damaged one, and `StoreData.ofJson_obj_isSome_iff` is
exactly where the line is.

A derived deserializer takes the members of an object by name, refuses one that it knows and finds
twice, ignores those it does not know, and takes an array of the right length in place of an object.
`Abora.Lib.Json` has all of that; what is here is the list of members of each type.
-/

namespace Abora.Update

open Abora.Lib

def Version.ofJson (j : Json) : Option Version :=
  if j.isRecord 5 then do
    let major ← (RecordField.required "major" (Json.asUnsigned 64)).get 0 j
    let minor ← (RecordField.required "minor" (Json.asUnsigned 64)).get 1 j
    let patch ← (RecordField.required "patch" (Json.asUnsigned 64)).get 2 j
    let prerelease ← (RecordField.optional "prerelease" Json.asStr).get 3 j
    let build ← (RecordField.optional "build" Json.asStr).get 4 j
    some ⟨major, minor, patch, prerelease, build⟩
  else none

/-- A unit variant is its name, or an object with that name and `null`; the variant with a name is
an object with one member. -/
def Channel.ofJson : Json → Option Channel
  | .str "stable" | .obj [("stable", .null)] => some .stable
  | .str "beta" | .obj [("beta", .null)] => some .beta
  | .str "nightly" | .obj [("nightly", .null)] => some .nightly
  | .obj [("custom", .str name)] => some (.custom name)
  | _ => none

/-- Two of its members may be missing, and are absent then; the first may not. -/
def RebootStatus.ofJson (j : Json) : Option RebootStatus :=
  if j.isRecord 3 then do
    let required ← (RecordField.required "required" Json.asBool).get 0 j
    let reason ← (RecordField.withDefault "reason" (Json.asOption Json.asStr) .none).get 1 j
    let pendingSince ←
      (RecordField.withDefault "pending_since" (Json.asOption Json.asStr) .none).get 2 j
    some ⟨required, reason, pendingSince⟩
  else .none

def UpdateHistoryEntry.ofJson (j : Json) : Option UpdateHistoryEntry :=
  if j.isRecord 7 then do
    let appliedAt ← (RecordField.required "applied_at" Json.asStr).get 0 j
    let fromVersion ← (RecordField.required "from_version" Version.ofJson).get 1 j
    let toVersion ← (RecordField.required "to_version" Version.ofJson).get 2 j
    let channel ← (RecordField.required "channel" Channel.ofJson).get 3 j
    let component ← (RecordField.required "component" Json.asStr).get 4 j
    let succeeded ← (RecordField.required "succeeded" Json.asBool).get 5 j
    let note ← (RecordField.withDefault "note" (Json.asOption Json.asStr) none).get 6 j
    some ⟨appliedAt, fromVersion, toVersion, channel, component, succeeded, note⟩
  else none

namespace StoreData

def schemaField : RecordField Nat := .required "schema" (Json.asUnsigned 32)

def lastCheckField : RecordField (Option String) :=
  .withDefault "last_check" (Json.asOption Json.asStr) none

def rebootField : RecordField RebootStatus :=
  .withDefault "reboot" RebootStatus.ofJson RebootStatus.none

def historyField : RecordField (List UpdateHistoryEntry) :=
  .withDefault "history" (Json.asList UpdateHistoryEntry.ofJson) []

/-- Everything but the schema has a default, so the smallest store is an object that names its
schema. -/
def ofJson (j : Json) : Option StoreData :=
  if j.isRecord 4 then do
    let schema ← schemaField.get 0 j
    let lastCheck ← lastCheckField.get 1 j
    let reboot ← rebootField.get 2 j
    let history ← historyField.get 3 j
    some ⟨schema, lastCheck, reboot, history⟩
  else none

end StoreData

/-- `serde_json::from_slice`, given what value a text stands for. -/
def decodeStore (parse : Bytes → Option Json) (bytes : Bytes) : Option StoreData :=
  (parse bytes).bind StoreData.ofJson

/-! ## Objects that read -/

/-- Every member of an object that the current types know has the shape they give it: each at most
once, a schema of 32 bits, and values of the right kind for those of the other three that are
there. -/
structure CurrentShape (members : List (String × Json)) : Prop where
  once : ∀ name ∈ ["schema", "last_check", "reboot", "history"],
    (Json.values name members).length ≤ 1
  schema : ∃ n : Nat, ("schema", .int n) ∈ members ∧ n < 2 ^ 32
  lastCheck : ∀ v, ("last_check", v) ∈ members → v = .null ∨ ∃ s, v = .str s
  reboot : ∀ v, ("reboot", v) ∈ members → (RebootStatus.ofJson v).isSome
  history : ∀ v, ("history", v) ∈ members →
    ∃ items, v = .arr items ∧ ∀ i ∈ items, (UpdateHistoryEntry.ofJson i).isSome

theorem StoreData.ofJson_eq_some_iff {members : List (String × Json)} {data : StoreData} :
    StoreData.ofJson (.obj members) = some data ↔
      schemaField.get 0 (.obj members) = some data.schema ∧
        lastCheckField.get 1 (.obj members) = some data.lastCheck ∧
        rebootField.get 2 (.obj members) = some data.reboot ∧
        historyField.get 3 (.obj members) = some data.history := by
  obtain ⟨schema, lastCheck, reboot, history⟩ := data
  show (do
    let schema ← schemaField.get 0 (.obj members)
    let lastCheck ← lastCheckField.get 1 (.obj members)
    let reboot ← rebootField.get 2 (.obj members)
    let history ← historyField.get 3 (.obj members)
    some (⟨schema, lastCheck, reboot, history⟩ : StoreData)) = _ ↔ _
  constructor
  · intro h
    obtain ⟨a, ha, h⟩ := Option.bind_eq_some_iff.mp h
    obtain ⟨b, hb, h⟩ := Option.bind_eq_some_iff.mp h
    obtain ⟨c, hc, h⟩ := Option.bind_eq_some_iff.mp h
    obtain ⟨d, hd, h⟩ := Option.bind_eq_some_iff.mp h
    cases h
    exact ⟨ha, hb, hc, hd⟩
  · rintro ⟨ha, hb, hc, hd⟩
    simp [ha, hb, hc, hd]

/-- The schema that is read is the one the object names, since it is named only once. -/
theorem StoreData.schema_of_ofJson {members : List (String × Json)} {data : StoreData}
    (h : StoreData.ofJson (.obj members) = some data) {n : Nat}
    (hn : ("schema", .int n) ∈ members) : data.schema = n := by
  obtain ⟨hschema, -, -, -⟩ := StoreData.ofJson_eq_some_iff.mp h
  have hread : Json.asUnsigned 32 (.int n) = some data.schema := schemaField.read_of_get hschema hn
  have hint := (asUnsigned_eq_some_iff.mp hread).1
  exact (Int.ofNat.inj (Json.int.inj hint)).symm

/-- **What the current types ask of an object**, member by member. Nothing is asked of members they
do not know, so a newer store reads exactly as long as it left these alone. -/
theorem StoreData.ofJson_obj_isSome_iff {members : List (String × Json)} :
    (StoreData.ofJson (.obj members)).isSome ↔ CurrentShape members := by
  have hfields : (StoreData.ofJson (.obj members)).isSome ↔
      (schemaField.get 0 (.obj members)).isSome ∧ (lastCheckField.get 1 (.obj members)).isSome ∧
        (rebootField.get 2 (.obj members)).isSome ∧ (historyField.get 3 (.obj members)).isSome := by
    simp only [Option.isSome_iff_exists, StoreData.ofJson_eq_some_iff]
    constructor
    · rintro ⟨data, ha, hb, hc, hd⟩
      exact ⟨⟨_, ha⟩, ⟨_, hb⟩, ⟨_, hc⟩, ⟨_, hd⟩⟩
    · rintro ⟨⟨a, ha⟩, ⟨b, hb⟩, ⟨c, hc⟩, ⟨d, hd⟩⟩
      exact ⟨⟨a, b, c, d⟩, ha, hb, hc, hd⟩
  rw [hfields, schemaField, RecordField.required_isSome_iff, lastCheckField,
    RecordField.withDefault_isSome_iff, rebootField, RecordField.withDefault_isSome_iff,
    historyField, RecordField.withDefault_isSome_iff]
  simp only [asOption_isSome_iff, asStr_isSome_iff, asList_isSome_iff]
  constructor
  · rintro ⟨⟨hs, v, hv, hread⟩, ⟨hl, hlast⟩, ⟨hr, hreboot⟩, ⟨hh, hhistory⟩⟩
    obtain ⟨n, hn⟩ := Option.isSome_iff_exists.mp hread
    obtain ⟨rfl, hlt⟩ := asUnsigned_eq_some_iff.mp hn
    exact ⟨by simp [hs, hl, hr, hh], ⟨n, hv, hlt⟩, hlast, hreboot, hhistory⟩
  · intro h
    obtain ⟨n, hn, hlt⟩ := h.schema
    have hread := Option.isSome_iff_exists.mpr ⟨n, asUnsigned_eq_some_iff.mpr ⟨rfl, hlt⟩⟩
    exact ⟨⟨h.once _ (by simp), .int n, hn, hread⟩, ⟨h.once _ (by simp), h.lastCheck⟩,
      ⟨h.once _ (by simp), h.reboot⟩, ⟨h.once _ (by simp), h.history⟩⟩

-- a status may be missing, but not `null`
example : (StoreData.ofJson (.obj [("schema", .int 1)])).isSome = true ∧
    (StoreData.ofJson (.obj [("schema", .int 1), ("reboot", .null)])).isSome = false :=
  ⟨rfl, rfl⟩

end Abora.Update
