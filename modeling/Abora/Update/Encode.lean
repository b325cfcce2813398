import Abora.Lib.Codec
import Abora.Update.Apply
import Abora.Update.Decode
import Abora.Update.Save

/-!
# What is written of the store's data and of the hand-over files

The serializers derived for `StoreData` and the types under it, for `ApplyRequest` and for
`ApplyResult`, as values; the text of a value is serde_json's, and a parameter. Members that are
`none` are left out where the source says `skip_serializing_if`, and are `null` where it does not.

Each type says which values stand for one of its own (`Form`): the members in any order and others
among them, in objects at every depth, so that a file another version has added to is one too. What
the type writes itself is the simplest of them (`StoreData.form_toJson`).

What was written reads back, whoever rearranged it (`rearranged_file_opens`), as long as the numbers
fit their types; the files of the hand-over have none, so theirs are serializers for every value,
and the `Codec`s that the protocol's modules take are built from them here. `own_file_loads` follows
a store and its file over any number of openings, stops and interrupted saves: it never takes its
own file for a damaged one.
-/

namespace Abora.Update

open Abora.Lib

/-! ## The serializers -/

/-- An `Option` that is not skipped: `null` when there is nothing. -/
def optionJson (s : Option String) : Json :=
  match s with
  | none => .null
  | some s => .str s

namespace Version

/-- Its five members in the order of the source, none of which is skipped. -/
def fields (v : Version) : List (String × Option Json) :=
  [("major", some (.int v.major)), ("minor", some (.int v.minor)), ("patch", some (.int v.patch)),
    ("prerelease", some (optionJson v.prerelease)), ("build", some (optionJson v.build))]

def toJson (v : Version) : Json := .obj (Json.members v.fields)

/-- What stands for a version: an object with its members, in any order and with others among them.
The other types have the same, each with the forms of what is inside it. -/
def Form (v : Version) (j : Json) : Prop := Json.Written v.fields j

/-- Its numbers are of 64 bits, as the source's always are; a `Nat` may be larger and would not read
back. -/
def Fits (v : Version) : Prop := v.major < 2 ^ 64 ∧ v.minor < 2 ^ 64 ∧ v.patch < 2 ^ 64

end Version

def Channel.toJson : Channel → Json
  | .stable => .str "stable"
  | .beta => .str "beta"
  | .nightly => .str "nightly"
  | .custom name => .obj [("custom", .str name)]

namespace RebootStatus

/-- Two members that are skipped when they are `none`. -/
def fields (r : RebootStatus) : List (String × Option Json) :=
  [("required", some (.bool r.required)), ("reason", r.reason.map .str),
    ("pending_since", r.pendingSince.map .str)]

def toJson (r : RebootStatus) : Json := .obj (Json.members r.fields)

def Form (r : RebootStatus) (j : Json) : Prop := Json.Written r.fields j

end RebootStatus

namespace UpdateHistoryEntry

/-- With the values of the two versions, since these may be any form of them. -/
def fields (e : UpdateHistoryEntry) (fromVersion toVersion : Json) : List (String × Option Json) :=
  [("applied_at", some (.str e.appliedAt)), ("from_version", some fromVersion),
    ("to_version", some toVersion), ("channel", some e.channel.toJson),
    ("component", some (.str e.component)), ("succeeded", some (.bool e.succeeded)),
    ("note", e.note.map .str)]

def toJson (e : UpdateHistoryEntry) : Json :=
  .obj (Json.members (e.fields e.fromVersion.toJson e.toVersion.toJson))

def Form (e : UpdateHistoryEntry) (j : Json) : Prop :=
  ∃ fromVersion toVersion, e.fromVersion.Form fromVersion ∧ e.toVersion.Form toVersion ∧
    Json.Written (e.fields fromVersion toVersion) j

def Fits (e : UpdateHistoryEntry) : Prop := e.fromVersion.Fits ∧ e.toVersion.Fits

end UpdateHistoryEntry

namespace StoreData

/-- With the values of the status and of the entries. The last check is skipped when there was
none. -/
def fields (d : StoreData) (reboot : Json) (history : List Json) : List (String × Option Json) :=
  [("schema", some (.int d.schema)), ("last_check", d.lastCheck.map .str), ("reboot", some reboot),
    ("history", some (.arr history))]

def toJson (d : StoreData) : Json :=
  .obj (Json.members (d.fields d.reboot.toJson (d.history.map UpdateHistoryEntry.toJson)))

def Form (d : StoreData) (j : Json) : Prop :=
  ∃ reboot history, d.reboot.Form reboot ∧
    List.Forall₂ UpdateHistoryEntry.Form d.history history ∧
    Json.Written (d.fields reboot history) j

def Fits (d : StoreData) : Prop := d.schema < 2 ^ 32 ∧ ∀ e ∈ d.history, e.Fits

end StoreData

/-- `serde_json::to_vec_pretty`, given the text of a value. -/
def encodeStore (print : Json → Bytes) (d : StoreData) : Bytes := print d.toJson

namespace ApplyRequest

def fields (r : ApplyRequest) : List (String × Option Json) :=
  [("id", some (.str r.id)), ("requested_at", some (.str r.requestedAt)),
    ("requested_by", some (.str r.requestedBy)), ("packages", some (.arr (r.packages.map .str)))]

def toJson (r : ApplyRequest) : Json := .obj (Json.members r.fields)

def ofJson (j : Json) : Option ApplyRequest :=
  if j.isRecord 4 then do
    let id ← (RecordField.required "id" Json.asStr).get 0 j
    let requestedAt ← (RecordField.required "requested_at" Json.asStr).get 1 j
    let requestedBy ← (RecordField.required "requested_by" Json.asStr).get 2 j
    let packages ← (RecordField.required "packages" (Json.asList Json.asStr)).get 3 j
    some ⟨id, requestedAt, requestedBy, packages⟩
  else none

end ApplyRequest

namespace ApplyResult

def fields (r : ApplyResult) : List (String × Option Json) :=
  [("id", some (.str r.id)), ("started_at", some (.str r.startedAt)),
    ("finished_at", some (.str r.finishedAt)), ("succeeded", some (.bool r.succeeded)),
    ("packages", some (.arr (r.packages.map .str))), ("note", r.note.map .str),
    ("reboot_started", some (.bool r.rebootStarted))]

def toJson (r : ApplyResult) : Json := .obj (Json.members r.fields)

def ofJson (j : Json) : Option ApplyResult :=
  if j.isRecord 7 then do
    let id ← (RecordField.required "id" Json.asStr).get 0 j
    let startedAt ← (RecordField.required "started_at" Json.asStr).get 1 j
    let finishedAt ← (RecordField.required "finished_at" Json.asStr).get 2 j
    let succeeded ← (RecordField.required "succeeded" Json.asBool).get 3 j
    let packages ← (RecordField.required "packages" (Json.asList Json.asStr)).get 4 j
    let note ← (RecordField.withDefault "note" (Json.asOption Json.asStr) none).get 5 j
    let rebootStarted ← (RecordField.withDefault "reboot_started" Json.asBool false).get 6 j
    some ⟨id, startedAt, finishedAt, succeeded, packages, note, rebootStarted⟩
  else none

end ApplyResult

/-! ## What was written reads back -/

theorem asOption_optionJson (s : Option String) :
    Json.asOption Json.asStr (optionJson s) = some s := by
  cases s <;> rfl

theorem asStr_str (s : String) : Json.asStr (.str s) = some s := rfl

theorem asBool_bool (b : Bool) : Json.asBool (.bool b) = some b := rfl

theorem asList_strs (ss : List String) :
    Json.asList Json.asStr (.arr (ss.map .str)) = some ss := by
  refine readAll_written ?_
  rw [List.forall₂_map_right_iff]
  exact List.forall₂_same.mpr fun _ _ => rfl

theorem asUnsigned_of_lt {bits n : Nat} (h : n < 2 ^ bits) :
    Json.asUnsigned bits (.int n) = some n :=
  asUnsigned_eq_some_iff.mpr ⟨rfl, h⟩

theorem Version.fields_nodup (v : Version) : (v.fields.map Prod.fst).Nodup := by
  show ["major", "minor", "patch", "prerelease", "build"].Nodup
  decide

/-- What stands for a version reads as it. The proof is the same for every type: the members are
distinct, so each field finds its own. -/
theorem Version.ofJson_of_form {v : Version} {j : Json} (h : v.Form j) (hfits : v.Fits) :
    Version.ofJson j = some v := by
  obtain ⟨hmajor, hminor, hpatch⟩ := hfits
  unfold Version.ofJson RecordField.required RecordField.optional
  rw [if_pos (h.isRecord 5),
    RecordField.get_member h v.fields_nodup 0 rfl (asUnsigned_of_lt hmajor),
    RecordField.get_member h v.fields_nodup 1 rfl (asUnsigned_of_lt hminor),
    RecordField.get_member h v.fields_nodup 2 rfl (asUnsigned_of_lt hpatch),
    RecordField.get_member h v.fields_nodup 3 rfl (asOption_optionJson v.prerelease),
    RecordField.get_member h v.fields_nodup 4 rfl (asOption_optionJson v.build)]
  rfl

theorem Channel.ofJson_toJson (c : Channel) : Channel.ofJson c.toJson = some c := by
  cases c <;> rfl

theorem RebootStatus.fields_nodup (r : RebootStatus) : (r.fields.map Prod.fst).Nodup := by
  show ["required", "reason", "pending_since"].Nodup
  decide

theorem RebootStatus.ofJson_of_form {r : RebootStatus} {j : Json} (h : r.Form j) :
    RebootStatus.ofJson j = some r := by
  unfold RebootStatus.ofJson RecordField.required
  rw [if_pos (h.isRecord 3), RecordField.get_member h r.fields_nodup 0 rfl (asBool_bool r.required),
    RecordField.get_skipped h r.fields_nodup 1 rfl, RecordField.get_skipped h r.fields_nodup 2 rfl]
  rfl

theorem UpdateHistoryEntry.fields_nodup (e : UpdateHistoryEntry) (a b : Json) :
    ((e.fields a b).map Prod.fst).Nodup := by
  show ["applied_at", "from_version", "to_version", "channel", "component", "succeeded",
    "note"].Nodup
  decide

theorem UpdateHistoryEntry.ofJson_of_form {e : UpdateHistoryEntry} {j : Json} (h : e.Form j)
    (hfits : e.Fits) : UpdateHistoryEntry.ofJson j = some e := by
  obtain ⟨a, b, hfrom, hto, h⟩ := h
  have hnodup := e.fields_nodup a b
  unfold UpdateHistoryEntry.ofJson RecordField.required
  rw [if_pos (h.isRecord 7), RecordField.get_member h hnodup 0 rfl (asStr_str e.appliedAt),
    RecordField.get_member h hnodup 1 rfl (Version.ofJson_of_form hfrom hfits.1),
    RecordField.get_member h hnodup 2 rfl (Version.ofJson_of_form hto hfits.2),
    RecordField.get_member h hnodup 3 rfl e.channel.ofJson_toJson,
    RecordField.get_member h hnodup 4 rfl (asStr_str e.component),
    RecordField.get_member h hnodup 5 rfl (asBool_bool e.succeeded),
    RecordField.get_skipped h hnodup 6 rfl]
  rfl

/-- Entry by entry, what stands for a history reads as it. -/
theorem entries_form {entries : List UpdateHistoryEntry} {js : List Json}
    (h : List.Forall₂ UpdateHistoryEntry.Form entries js) (hfits : ∀ e ∈ entries, e.Fits) :
    List.Forall₂ (fun e j => UpdateHistoryEntry.ofJson j = some e) entries js := by
  induction h with
  | nil => exact .nil
  | cons he _ ih =>
    obtain ⟨hfirst, hrest⟩ := List.forall_mem_cons.mp hfits
    exact .cons (UpdateHistoryEntry.ofJson_of_form he hfirst) (ih hrest)

theorem StoreData.fields_nodup (d : StoreData) (reboot : Json) (history : List Json) :
    ((d.fields reboot history).map Prod.fst).Nodup := by
  show ["schema", "last_check", "reboot", "history"].Nodup
  decide

/-- **What stands for a store's data reads as it**, at every depth, whatever else is in the
objects. -/
theorem StoreData.ofJson_of_form {d : StoreData} {j : Json} (h : d.Form j) (hfits : d.Fits) :
    StoreData.ofJson j = some d := by
  obtain ⟨reboot, history, hreboot, hhistory, h⟩ := h
  have hnodup := d.fields_nodup reboot history
  have hentries : Json.asList UpdateHistoryEntry.ofJson (.arr history) = some d.history :=
    readAll_written (entries_form hhistory hfits.2)
  unfold StoreData.ofJson schemaField lastCheckField rebootField historyField RecordField.required
  rw [if_pos (h.isRecord 4), RecordField.get_member h hnodup 0 rfl (asUnsigned_of_lt hfits.1),
    RecordField.get_skipped h hnodup 1 rfl]
  unfold RecordField.withDefault
  rw [RecordField.get_member h hnodup 2 rfl (RebootStatus.ofJson_of_form hreboot),
    RecordField.get_member h hnodup 3 rfl hentries]
  rfl

theorem ApplyRequest.fields_nodup (r : ApplyRequest) : (r.fields.map Prod.fst).Nodup := by
  show ["id", "requested_at", "requested_by", "packages"].Nodup
  decide

theorem ApplyRequest.ofJson_written {r : ApplyRequest} {j : Json} (h : Json.Written r.fields j) :
    ApplyRequest.ofJson j = some r := by
  unfold ApplyRequest.ofJson RecordField.required
  rw [if_pos (h.isRecord 4), RecordField.get_member h r.fields_nodup 0 rfl (asStr_str r.id),
    RecordField.get_member h r.fields_nodup 1 rfl (asStr_str r.requestedAt),
    RecordField.get_member h r.fields_nodup 2 rfl (asStr_str r.requestedBy),
    RecordField.get_member h r.fields_nodup 3 rfl (asList_strs r.packages)]
  rfl

theorem ApplyResult.fields_nodup (r : ApplyResult) : (r.fields.map Prod.fst).Nodup := by
  show ["id", "started_at", "finished_at", "succeeded", "packages", "note",
    "reboot_started"].Nodup
  decide

theorem ApplyResult.ofJson_written {r : ApplyResult} {j : Json} (h : Json.Written r.fields j) :
    ApplyResult.ofJson j = some r := by
  have hnote := RecordField.get_skipped h r.fields_nodup 5 rfl
  unfold ApplyResult.ofJson RecordField.required
  rw [if_pos (h.isRecord 7), RecordField.get_member h r.fields_nodup 0 rfl (asStr_str r.id),
    RecordField.get_member h r.fields_nodup 1 rfl (asStr_str r.startedAt),
    RecordField.get_member h r.fields_nodup 2 rfl (asStr_str r.finishedAt),
    RecordField.get_member h r.fields_nodup 3 rfl (asBool_bool r.succeeded),
    RecordField.get_member h r.fields_nodup 4 rfl (asList_strs r.packages), hnote]
  unfold RecordField.withDefault
  rw [RecordField.get_member h r.fields_nodup 6 rfl (asBool_bool r.rebootStarted)]
  rfl

/-- The request file: any text layer will do that gives the values of requests back. -/
def ApplyRequest.codec (print : Json → Bytes) (parse : Bytes → Option Json)
    (htext : ∀ r : ApplyRequest, parse (print r.toJson) = some r.toJson) : Codec ApplyRequest where
  encode r := print r.toJson
  decode bytes := (parse bytes).bind ApplyRequest.ofJson
  decode_encode r := by
    rw [htext]
    exact ApplyRequest.ofJson_written (Json.written_members r.fields)

/-- The result file, under the same condition on its own values. -/
def ApplyResult.codec (print : Json → Bytes) (parse : Bytes → Option Json)
    (htext : ∀ r : ApplyResult, parse (print r.toJson) = some r.toJson) : Codec ApplyResult where
  encode r := print r.toJson
  decode bytes := (parse bytes).bind ApplyResult.ofJson
  decode_encode r := by
    rw [htext]
    exact ApplyResult.ofJson_written (Json.written_members r.fields)

/-- **A file that says the same opens the same**: in whatever order its members are and whatever
else there is between them. A newer schema is refused, by the same comparison as in a file of one's
own. -/
theorem rearranged_file_opens {parse : Bytes → Option Json} {bytes : Bytes} {j : Json}
    {d : StoreData} (hparse : parse bytes = some j) (h : d.Form j) (hfits : d.Fits)
    (path : PathBuf) (moved : Except IoError Unit) :
    UpdateStore.open (decodeStore parse) path (.ok bytes) moved =
      if schemaVersion < d.schema then
        .error (.newerSchema path.display d.schema schemaVersion)
      else .ok (⟨some path, trim d⟩, .loaded) := by
  have hdecode : decodeStore parse bytes = some d := by
    rw [decodeStore, hparse]
    exact StoreData.ofJson_of_form h hfits
  unfold UpdateStore.open
  dsimp only
  rw [hdecode]

/-- The file of `checkedOnce` after another program has written it anew: its members are the other
way round, and there is one that nobody here knows. -/
def rewrittenJson : Json :=
  .obj [("retries", .int 3), ("history", .arr []), ("reboot", .obj [("required", .bool false)]),
    ("last_check", .str "2026-09-20T09:00:00Z"), ("schema", .int 1)]

def rewrittenText : Bytes := asciiBytes (
  "\x7b\"retries\":3,\"history\":[],\"reboot\":\x7b\"required\":false\x7d," ++
  "\"last_check\":\"2026-09-20T09:00:00Z\",\"schema\":1\x7d")

theorem rearranged_file_opens_reversed :
    let parse (bytes : Bytes) : Option Json :=
      if bytes = rewrittenText then some rewrittenJson else none
    let path := PathBuf.ofString "/var/lib/abora/updates.json"
    UpdateStore.open (decodeStore parse) path (.ok rewrittenText) (.ok ()) =
      .ok (⟨some path, checkedOnce⟩, .loaded) := by
  intro parse path
  have hparse : parse rewrittenText = some rewrittenJson := if_pos rfl
  have hform : checkedOnce.Form rewrittenJson := by
    refine ⟨.obj [("required", .bool false)], [],
      Json.written_members RebootStatus.none.fields, .nil, _, [("retries", .int 3)], rfl, ?_, ?_⟩
    · exact List.reverse_perm
        (Json.members (checkedOnce.fields (.obj [("required", .bool false)]) []) ++
          [("retries", .int 3)])
    · intro m hm
      rw [List.mem_singleton.mp hm]
      show "retries" ∉ ["schema", "last_check", "reboot", "history"]
      decide
  have hfits : checkedOnce.Fits := ⟨by decide, fun e he => by cases he⟩
  exact rearranged_file_opens hparse hform hfits path (.ok ())

/-! ## What is written stands for what it was written of -/

theorem entries_form_toJson (entries : List UpdateHistoryEntry) :
    List.Forall₂ UpdateHistoryEntry.Form entries (entries.map UpdateHistoryEntry.toJson) := by
  rw [List.forall₂_map_right_iff]
  exact List.forall₂_same.mpr fun e _ =>
    ⟨_, _, Json.written_members _, Json.written_members _, Json.written_members _⟩

theorem StoreData.form_toJson (d : StoreData) : d.Form d.toJson :=
  ⟨_, _, Json.written_members _, entries_form_toJson d.history, Json.written_members _⟩

/-! ## A store and its file, over any number of openings -/

def Call.Fits : Call → Prop
  | .update entry => entry.Fits
  | _ => True

theorem StoreData.Fits.next {d : StoreData} (h : d.Fits) {call : Call} (hcall : call.Fits) :
    (trim (call.edit d)).Fits := by
  obtain ⟨hschema, hentries⟩ := h
  refine ⟨by rwa [trim_schema, edit_schema], fun e he => ?_⟩
  rw [trim_history] at he
  have hmem := (keepLast_suffix _ _).mem he
  cases call with
  | check when_ => exact hentries e hmem
  | reboot status => exact hentries e hmem
  | update entry =>
    rcases List.mem_append.mp hmem with hold | hnew
    · exact hentries e hold
    · rw [List.mem_singleton.mp hnew]
      exact hcall

/-- A daemon that is started and stopped, and the file of its store. The store is gone while it is
stopped; the file stays. -/
structure Life where
  store : Option UpdateStore
  slot : Slot

inductive LifeEvent where
  | start (moved : Except IoError Unit)
  | stop
  /-- A recording call; the machine may stop in it, and the daemon is not running then. -/
  | call (call : Call) (f : SaveFaults)

section Life

variable (print : Json → Bytes) (parse : Bytes → Option Json) (path : PathBuf)

def Life.step (l : Life) : LifeEvent → Life
  | .start moved =>
    match openWorld (decodeStore parse) path moved l.slot with
    | .error _ => { l with store := none }
    | .ok w => ⟨some w.store, w.slot⟩
  | .stop => { l with store := none }
  | .call call f =>
    match l.store with
    | none => l
    | some s =>
      match (World.mk s l.slot).perform (encodeStore print) call f with
      | (none, w) => ⟨none, w.slot⟩
      | (some _, w) => ⟨some w.store, w.slot⟩

/-- The file has the data of the store, or there is none yet and the data is empty. `live` says that
a running store has the same, so a start changes nothing. -/
structure Life.Holds (l : Life) (d : StoreData) : Prop where
  fits : d.Fits
  schema_le : d.schema ≤ schemaVersion
  trimmed : trim d = d
  live : ∀ s, l.store = some s → s = ⟨some path, d⟩
  file : (l.slot.file = none ∧ d = StoreData.empty) ∨
    ∃ bytes, l.slot.file = some bytes ∧ decodeStore parse bytes = some d

variable {print parse path}

/-- A store's data reads back from its own text. -/
theorem decodeStore_encodeStore
    (htext : ∀ d : StoreData, d.Fits → parse (print d.toJson) = some d.toJson) {d : StoreData}
    (h : d.Fits) : decodeStore parse (encodeStore print d) = some d := by
  rw [decodeStore, encodeStore, htext d h]
  exact StoreData.ofJson_of_form d.form_toJson h

/-- What opening the file gives: the same data, and never by way of a recovery. -/
theorem Life.Holds.opens {l : Life} {d : StoreData} (h : l.Holds parse path d)
    (moved : Except IoError Unit) :
    ∃ o, UpdateStore.open (decodeStore parse) path (readSlot l.slot.file) moved =
      .ok (⟨some path, d⟩, o) ∧ (o = .fresh ∨ o = .loaded) := by
  rcases h.file with ⟨hnone, rfl⟩ | ⟨bytes, hsome, hdecode⟩
  · exact ⟨.fresh, by rw [hnone]; rfl, .inl rfl⟩
  · refine ⟨.loaded, ?_, .inr rfl⟩
    have hschema : ¬ d.schema > schemaVersion := Nat.not_lt.mpr h.schema_le
    simp only [hsome, readSlot, UpdateStore.open, hdecode, if_neg hschema, h.trimmed]

theorem Life.Holds.start {l : Life} {d : StoreData} (h : l.Holds parse path d)
    (moved : Except IoError Unit) :
    (l.step print parse path (.start moved)).Holds parse path d := by
  obtain ⟨o, hopen, ho⟩ := h.opens moved
  have hstep : l.step print parse path (.start moved) = ⟨some ⟨some path, d⟩, l.slot⟩ := by
    simp only [step, openWorld, hopen]
    rcases ho with rfl | rfl <;> rfl
  rw [hstep]
  exact ⟨h.fits, h.schema_le, h.trimmed, fun s hs => (Option.some.inj hs).symm, h.file⟩

/-- A call leaves a file with some data of the store's kind, whether it went through, failed or was
interrupted. Which data it is does not matter to the next start. -/
theorem Life.Holds.call
    (htext : ∀ d : StoreData, d.Fits → parse (print d.toJson) = some d.toJson) {l : Life}
    {d : StoreData} (h : l.Holds parse path d) {call : Call} (hcall : call.Fits) (f : SaveFaults) :
    ∃ d', (l.step print parse path (.call call f)).Holds parse path d' := by
  unfold step
  cases hlive : l.store with
  | none => exact ⟨d, h⟩
  | some s =>
    obtain rfl := h.live s hlive
    have hnext := h.fits.next hcall
    obtain ⟨hle, htrim⟩ := next_ok h.schema_le call
    have hread := decodeStore_encodeStore htext hnext
    dsimp only
    rcases World.perform_cases (encodeStore print) (w := ⟨⟨some path, d⟩, l.slot⟩) rfl call f with
      ⟨w, hw, hstore, hfile, -⟩ | ⟨e, w, hw, hstore, hsame⟩ | ⟨w, hw, -, hend⟩
    · rw [hw]
      exact ⟨_, hnext, hle, htrim, fun s hs => (Option.some.inj hs) ▸ hstore,
        .inr ⟨_, hfile, hread⟩⟩
    · rw [hw]
      refine ⟨d, h.fits, h.schema_le, h.trimmed, fun s hs => (Option.some.inj hs) ▸ hstore, ?_⟩
      rw [hsame.1]
      exact h.file
    · rw [hw]
      rcases hend with hsame | ⟨hfile, -⟩
      · refine ⟨d, h.fits, h.schema_le, h.trimmed, (fun s hs => nomatch hs), ?_⟩
        rw [hsame.1]
        exact h.file
      · exact ⟨_, hnext, hle, htrim, (fun s hs => nomatch hs), .inr ⟨_, hfile, hread⟩⟩

theorem Life.Holds.run
    (htext : ∀ d : StoreData, d.Fits → parse (print d.toJson) = some d.toJson) {l : Life}
    {d : StoreData} (h : l.Holds parse path d) {events : List LifeEvent}
    (hfits : ∀ call f, .call call f ∈ events → call.Fits) :
    ∃ d', (Lib.run (Life.step print parse path) l events).Holds parse path d' := by
  induction events generalizing l d with
  | nil => exact ⟨d, h⟩
  | cons event events ih =>
    have hrest : ∀ call f, .call call f ∈ events → call.Fits :=
      fun call f hmem => hfits call f (List.mem_cons_of_mem _ hmem)
    rw [run_cons]
    cases event with
    | start moved => exact ih (h.start moved) hrest
    | stop =>
      exact ih ⟨h.fits, h.schema_le, h.trimmed, (fun s hs => nomatch hs), h.file⟩ hrest
    | call call f =>
      obtain ⟨d', h'⟩ := h.call htext (hfits call f List.mem_cons_self) f
      exact ih h' hrest

/-- **A store never takes its own file for a damaged or a newer one.** However often it is opened,
stopped and interrupted, whatever steps of its saves fail: opening the file gives the data of the
running store, if one is running. `Life.Holds` is carried along the life, with the data of every
moment as a witness. -/
theorem own_file_loads
    (htext : ∀ d : StoreData, d.Fits → parse (print d.toJson) = some d.toJson)
    {events : List LifeEvent} (hfits : ∀ call f, .call call f ∈ events → call.Fits)
    (moved : Except IoError Unit) :
    let l := run (Life.step print parse path) ⟨none, ⟨none, none, []⟩⟩ events
    ∃ s o, UpdateStore.open (decodeStore parse) path (readSlot l.slot.file) moved = .ok (s, o) ∧
      (o = .fresh ∨ o = .loaded) ∧ ∀ live, l.store = some live → s = live := by
  intro l
  have hempty : (⟨none, ⟨none, none, []⟩⟩ : Life).Holds parse path StoreData.empty :=
    ⟨⟨by decide, fun e he => by cases he⟩, Nat.le_refl _, rfl, (fun s hs => nomatch hs),
      .inl ⟨rfl, rfl⟩⟩
  obtain ⟨d, hd⟩ := Life.Holds.run htext hempty hfits
  obtain ⟨o, hopen, ho⟩ := hd.opens moved
  exact ⟨_, o, hopen, ho, fun live hlive => (hd.live live hlive).symm⟩

end Life

/-- The store's data after a second check, an hour later, and its text. -/
def checkedTwice : StoreData :=
  { StoreData.empty with lastCheck := some "2026-09-20T10:00:00Z" }

def checkedTwiceJson : Bytes := 0x7b :: asciiBytes (
  "\n  \"schema\": 1,\n  \"last_check\": \"2026-09-20T10:00:00Z\",\n" ++
  "  \"reboot\": \x7b\n    \"required\": false\n  \x7d,\n  \"history\": []\n\x7d")

theorem checkedOnceJson_ne : checkedOnceJson ≠ checkedTwiceJson := by decide +kernel

/-- A serializer that writes the data of either check as they are really written. -/
def checkedCodec : Codec StoreData :=
  checkedOnceCodec.pin checkedTwice checkedTwiceJson
    (Codec.pin_ne (fun b => Codec.ofEncodable_ne (by decide) b) checkedOnceJson_ne)

/-- The text layer on top of it: a text for the value of every store's data, these two among
them. -/
def printed (j : Json) : Bytes :=
  match StoreData.ofJson j with
  | some d => checkedCodec.encode d
  | none => []

def parsed (bytes : Bytes) : Option Json := (checkedCodec.decode bytes).map StoreData.toJson

theorem parsed_printed (d : StoreData) (h : d.Fits) :
    parsed (printed d.toJson) = some d.toJson := by
  simp only [printed, parsed, StoreData.ofJson_of_form d.form_toJson h, Codec.decode_encode,
    Option.map_some]

/-- A first check, and another one in which the machine stops. -/
def stoppedLife : List LifeEvent :=
  [.start (.ok ()),
    .call (.check "2026-09-20T09:00:00Z") ⟨⟨.ok, .ok, 0, .ok, .ok, .ok⟩, .ok, .ok⟩,
    .call (.check "2026-09-20T10:00:00Z") ⟨⟨.ok, .ok, 0, .ok, .crash true, .ok⟩, .ok, .ok⟩]

theorem own_file_loads_stopped :
    let path := PathBuf.ofString "/var/lib/abora/updates.json"
    let l := run (Life.step printed parsed path) ⟨none, ⟨none, none, []⟩⟩ stoppedLife
    ∃ s o, UpdateStore.open (decodeStore parsed) path (readSlot l.slot.file) (.ok ()) = .ok (s, o) ∧
      (o = .fresh ∨ o = .loaded) := by
  intro path l
  have hfits : ∀ call f, LifeEvent.call call f ∈ stoppedLife → call.Fits := by
    intro call f hmem
    simp only [stoppedLife, List.mem_cons, reduceCtorEq, LifeEvent.call.injEq, List.not_mem_nil,
      false_or, or_false] at hmem
    rcases hmem with ⟨rfl, -⟩ | ⟨rfl, -⟩ <;> exact trivial
  obtain ⟨s, o, hopen, ho, -⟩ :=
    @own_file_loads printed parsed path parsed_printed stoppedLife hfits (.ok ())
  exact ⟨s, o, hopen, ho⟩

end Abora.Update
