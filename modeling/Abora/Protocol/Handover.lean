import Abora.Daemon.Ledger
import Abora.Lib.Codec
import Abora.Protocol.Race

/-!
# The way of a request and back

A request goes to the helper in one file and its result comes back in another, and each of the files
holds one thing at a time. The daemon looks at the request file before it writes the next request,
but nobody looks at the result file before writing the next result: what the daemon has not ingested
by then is gone.

A `Handover` is the daemon with both files. Three more fields record what happened and decide
nothing: the requests that were handled, everything that was ever recorded, and whether an ingest
has run since the last result. `nothing_lost_of_waits` says that the overwritten result is the only
way an outcome is lost.

The invariant is that an outcome which is not recorded yet is in the result file (`Handover.Kept`).
An ingest that runs then records it; a helper run that writes there overwrites it, so the condition
on a run of the helper is that nothing is pending but what it is about to handle (`Waits`). A run
need not be about this daemon at all: its configuration may name other files, and then it neither
reads a request of the daemon's nor overwrites a result. `Handover.look` is where the model says
what such a run is told.

The last part is one night of this, twice: once with an ingest after each result, once without.
-/

namespace Abora.Protocol

open Lib Update Daemon

/-- The daemon and the two files, with a record of what was handled and what was recorded. -/
structure Handover where
  updates : UpdatesState
  request : Option ApplyRequest
  result : Option ApplyResult
  /-- The ids of the requests that a helper run read and wrote a result for. -/
  handled : List String
  /-- An ingest has run since the result file was last written. -/
  settled : Bool
  /-- Every entry recorded so far, oldest first; the history is what the bound leaves of it. -/
  log : List UpdateHistoryEntry

/-- What the daemon does with its two files, and the runs of the helper. -/
inductive HandoverEvent where
  | refresh (channel : Channel) (run : Except String String) (now : String)
      (saved : Except StoreError Unit)
  /-- A manual apply or the scheduler's. -/
  | apply (config : Config) (caller : String) (dryRun : Bool) (env : ApplyEnv)
  /-- A helper run; the removal, if it came to that, may have failed. -/
  | helper (args : Helper.Args) (env : Helper.RunEnv) (removed : Bool)
  | ingest (channel : Channel)

/-- Some entry that was ever recorded carries the id. -/
def Handover.Recorded (s : Handover) (id : String) : Prop :=
  ∃ entry ∈ s.log, carries id entry = true

/-- A request was handled and nothing says so yet. -/
def Handover.Pending (s : Handover) (id : String) : Prop := id ∈ s.handled ∧ ¬ s.Recorded id

def Handover.start (path : Option PathBuf) (data : StoreData) (requestFile resultFile : PathBuf) :
    Handover :=
  ⟨UpdatesState.host ⟨path, trim data⟩ requestFile resultFile, none, none, [], true,
    (trim data).history⟩

/-- Every handled request whose result the daemon had time to ingest has an entry, and the history
has it too until enough newer ones came. -/
def Handover.NothingLost (s : Handover) : Prop :=
  s.settled = true → ∀ id ∈ s.handled, ∃ older entry newer,
    s.log = older ++ entry :: newer ∧ carries id entry = true ∧
      (newer.length < maxHistory → entry ∈ s.updates.store.history)

section

variable (fromStr : String → Except String Config) (requests : Codec ApplyRequest)
  (results : Codec ApplyResult)

/-- What a helper run is told: about the daemon's request file, what is in it. The run derives the
path it looks at from its own configuration file. If that is the daemon's path, the file is there
exactly when a request waits, and its contents are the request as the daemon's serializer writes it;
the size, the age and the clock are the event's. At any other path the model knows of no file, and
the run is told what the event says. -/
def Handover.look (s : Handover) (args : Helper.Args) (env : Helper.RunEnv) : Helper.RunEnv :=
  { env with
    toEnv :=
      match Helper.loadConfig fromStr args.config env.configStat env.configText with
      | .error _ => env.toEnv
      | .ok config =>
        if Helper.requestPath config = s.updates.applyRequestFile then
          match s.request with
          | none => { env.toEnv with present := false }
          | some r =>
            { env.toEnv with
              present := true
              contents := env.contents.map fun _ => requests.encode r }
        else env.toEnv }

/-- The run can read the daemon's request file. -/
def Handover.readable (s : Handover) (env : Helper.Env) : Bool :=
  (readRegularFile s.updates.applyRequestFile env.stat env.fileNow env.contents
    (some maxRequestAge)).isOk

/-- The run looks at the daemon's request file and reads a request with this id there: the paths
agree, the file is small and recent enough, and the request is this one. -/
structure Handover.Reads (s : Handover) (config : Config) (env : Helper.Env) (id : String) :
    Prop where
  path : Helper.requestPath config = s.updates.applyRequestFile
  readable : s.readable env = true
  slot : ∃ r, s.request = some r ∧ r.id = id

/-- A helper run. What it reads counts as handled when its result was written; the request is
removed if the run came that far and the removal went well. -/
def Handover.helper (s : Handover) (args : Helper.Args) (env : Helper.RunEnv) (removed : Bool) :
    Handover :=
  let env := s.look fromStr requests args env
  let report := Helper.run fromStr requests.decode args env
  let came := decide (report.removal = some s.updates.applyRequestFile)
  let written :=
    match report.result with
    | some (path, result) => if path = s.updates.applyResultFile then some result else none
    | none => none
  { s with
    request := if came && removed then none else s.request
    result := written.or s.result
    handled := s.handled ++
      -- a request that was refused unread has a result too, under the id `invalid`
      if came && s.readable env.toEnv then s.request.toList.map ApplyRequest.id else []
    settled := s.settled && written.isNone }

/-- What an ingest reads: the file as it is, of whatever age. Saves succeed. -/
def Handover.ingestEnv (s : Handover) : IngestEnv :=
  match s.result with
  | none =>
    let missing := "No such file or directory (os error 2)"
    ⟨.error missing, 0, .error missing, .ok ()⟩
  | some result =>
    let bytes := results.encode result
    ⟨.ok ⟨true, bytes.length, none⟩, 0, .ok bytes, .ok ()⟩

def Handover.ingest (s : Handover) (channel : Channel) : Handover :=
  let (updates, recorded) := s.updates.ingestApplyResult results.decode channel
    (s.ingestEnv results)
  { s with
    updates := updates
    settled := true
    log := if recorded then s.log ++ (s.result.map (applyEntry channel)).toList else s.log }

/-- The daemon's request file is the model's, so a call finds a request pending exactly if there is
one. -/
def Handover.step (s : Handover) : HandoverEvent → Handover
  | .refresh channel run now saved =>
    { s with updates := (s.updates.refresh channel run now saved).1 }
  | .apply config caller dryRun env =>
    let answer := s.updates.requestApply config caller dryRun
      { env with pending := s.request.isSome }
    { s with request := answer.2.or s.request }
  | .helper args env removed => s.helper fromStr requests args env removed
  | .ingest channel => s.ingest results channel

/-- A run that comes to write the daemon's result file finds no request pending but the one it reads
itself, and a run that writes elsewhere has read nothing that has to be recorded. An ingest is not
kept from a pending result by its size. -/
def Waits (s : Handover) : HandoverEvent → Prop
  | .helper args env _ => ∀ config,
      Helper.loadConfig fromStr args.config env.configStat env.configText = .ok config →
      (s.look fromStr requests args env).present = true → env.written = .ok () →
      if Helper.resultPath args config = s.updates.applyResultFile then
        ∀ id, s.Pending id → s.Reads config (s.look fromStr requests args env).toEnv id
      else ∀ id, s.Reads config (s.look fromStr requests args env).toEnv id → s.Recorded id
  | .ingest _ => ∀ result, s.result = some result → s.Pending result.id →
      (results.encode result).length ≤ maxFileBytes
  | _ => True

/-- What keeps outcomes from being lost: one that is not recorded yet is in the result file. The ids
in it are valid ones, so an ingest does not refuse them. -/
structure Handover.Kept (s : Handover) : Prop where
  history : s.updates.store.data.history = keepLast maxHistory s.log
  slot : ∀ r, s.request = some r → validRequestId r.id = true
  ids : ∀ id ∈ s.handled, validRequestId id = true
  outcome : ∀ id, s.Pending id →
    s.settled = false ∧ ∃ result, s.result = some result ∧ result.id = id

end

/-! ## Entries -/

/-- Of two ids of the same length, an entry carries its own only. -/
theorem carries_applyEntry_iff {id : String} {channel : Channel} {result : ApplyResult}
    (hlen : id.toList.length = result.id.toList.length) :
    carries id (applyEntry channel result) = true ↔ id = result.id := by
  constructor
  · intro h
    obtain ⟨rest, hrest⟩ := applyNote_toList result
    simp only [carries, applyEntry, hrest, List.isPrefixOf_iff_prefix, applyKey,
      String.toList_append, List.append_assoc, List.prefix_append_right_inj] at h
    have hid : id.toList <+: result.id.toList :=
      List.prefix_of_prefix_length_le h (List.prefix_append _ _) hlen.le
    exact String.toList_injective (hid.eq_of_length hlen)
  · rintro rfl
    exact carries_applyEntry channel result

/-! ## Steps -/

section

variable {fromStr : String → Except String Config} {requests : Codec ApplyRequest}
  {results : Codec ApplyResult}

/-- **One ingest**: it changes nothing — for lack of a result, or because the file is too large, the
id is not one or the history has it — or it records the result. -/
theorem ingest_cases (results : Codec ApplyResult) (s : Handover) (channel : Channel) :
    (s.ingest results channel = { s with settled := true } ∧
        ∀ result, s.result = some result → maxFileBytes < (results.encode result).length ∨
          (validRequestId result.id || result.id == "invalid") = false ∨
          s.updates.store.history.any (carries result.id) = true) ∨
      ∃ result, s.result = some result ∧ s.ingest results channel =
        { s with
          updates :=
            (s.updates.withStore (recordedStore s.updates channel result)).dropInstalled result
          settled := true
          log := s.log ++ [applyEntry channel result] } := by
  cases hresult : s.result with
  | none =>
    refine .inl ⟨?_, fun _ h => by cases h⟩
    simp [Handover.ingest, Handover.ingestEnv, hresult, UpdatesState.ingestApplyResult,
      readRegularFile]
  | some result =>
    cases hread : readRegularFile s.updates.applyResultFile
        (.ok ⟨true, (results.encode result).length, none⟩) 0 (.ok (results.encode result)) none with
    -- a regular file with its own text can only be refused for its size
    | error e =>
      refine .inl ⟨?_, fun result' h => .inl ?_⟩
      · simp [Handover.ingest, Handover.ingestEnv, hresult, UpdatesState.ingestApplyResult, hread]
      · cases h
        by_contra hsmall
        rw [readRegularFile_ok_iff.mpr
          ⟨_, rfl, rfl, Nat.le_of_not_lt hsmall, fun _ h => (by cases h), rfl⟩] at hread
        cases hread
    | ok bytes =>
      obtain ⟨md, -, -, -, -, hbytes⟩ := readRegularFile_ok_iff.mp hread
      cases hbytes
      have hcall : s.updates.ingestApplyResult results.decode channel (s.ingestEnv results) =
          s.updates.ingestResult channel result (.ok ()) := by
        simp only [UpdatesState.ingestApplyResult, Handover.ingestEnv, hresult, hread,
          Codec.decode_encode]
      rcases ingestResult_cases s.updates channel result (.ok ()) with
        ⟨hwhy, hnothing⟩ | ⟨-, -, hentry⟩
      · refine .inl ⟨by simp [Handover.ingest, hcall, hnothing, hresult], fun result' h => .inr ?_⟩
        cases h
        rcases hwhy with hid | hseen | ⟨-, e, hsaved⟩
        · exact .inl hid
        · exact .inr hseen
        · cases hsaved
      · exact .inr ⟨result, rfl, by simp [Handover.ingest, hcall, hentry, hresult]⟩

@[simp] theorem ingest_settled (results : Codec ApplyResult) (s : Handover) (channel : Channel) :
    (s.ingest results channel).settled = true := rfl

@[simp] theorem ingest_handled (results : Codec ApplyResult) (s : Handover) (channel : Channel) :
    (s.ingest results channel).handled = s.handled := rfl

/-- A run that looks at the daemon's request file finds what is in it, whatever the event says. -/
theorem look_slot (requests : Codec ApplyRequest) {s : Handover} {args : Helper.Args}
    {env : Helper.RunEnv} {config : Config} {r : ApplyRequest}
    (hload : Helper.loadConfig fromStr args.config env.configStat env.configText = .ok config)
    (hpath : Helper.requestPath config = s.updates.applyRequestFile) (hr : s.request = some r) :
    (s.look fromStr requests args env).toEnv =
      { env.toEnv with
        present := true
        contents := env.contents.map fun _ => requests.encode r } := by
  simp only [Handover.look, hload, if_pos hpath, hr]

/-- The result of a run that read the daemon's request names it. -/
theorem helper_result_id {s : Handover} {args : Helper.Args} {env : Helper.RunEnv}
    {config : Config} {id : String} {o : Helper.Outcome}
    (hload : Helper.loadConfig fromStr args.config env.configStat env.configText = .ok config)
    (hreads : s.Reads config (s.look fromStr requests args env).toEnv id)
    (hid : validRequestId id = true)
    (ho : (Helper.process requests.decode ⟨Helper.requestPath config, config⟩
      (s.look fromStr requests args env).toEnv).2 = some o) : o.result.id = id := by
  obtain ⟨r, hr, rfl⟩ := hreads.slot
  have hlook (bytes : Bytes) (h : (s.look fromStr requests args env).contents = .ok bytes) :
      bytes = requests.encode r := by
    rw [look_slot requests hload hreads.path hr] at h
    cases hcontents : env.contents with
    | error e =>
      rw [hcontents] at h
      cases h
    | ok b =>
      rw [hcontents] at h
      cases h
      rfl
  have hpath := hreads.path
  have hreadable := hreads.readable
  generalize (s.look fromStr requests args env).toEnv = seen at hlook hreadable ho
  rw [hpath] at ho
  unfold Handover.readable at hreadable
  cases hread : readRegularFile s.updates.applyRequestFile seen.stat seen.fileNow seen.contents
      (some maxRequestAge) with
  | error e =>
    rw [hread] at hreadable
    cases hreadable
  | ok bytes =>
    obtain ⟨md, -, -, -, -, hcontents⟩ := readRegularFile_ok_iff.mp hread
    have hdec : requests.decode bytes = some r := by
      rw [hlook bytes hcontents, Codec.decode_encode]
    refine Helper.process_result_id ?_ hdec hid ho
    exact hread

/-- What a run adds to the handled requests is what it read. -/
theorem mem_handled {s : Handover} {config : Config} {env : Helper.Env} {id : String}
    (h : id ∈ s.handled ++
      if decide (some (Helper.requestPath config) = some s.updates.applyRequestFile) &&
          s.readable env then s.request.toList.map ApplyRequest.id else []) :
    id ∈ s.handled ∨ s.Reads config env id := by
  rcases List.mem_append.mp h with hold | hnew
  · exact .inl hold
  split at hnew
  · next hboth =>
    simp only [Bool.and_eq_true, decide_eq_true_eq, Option.some.injEq] at hboth
    obtain ⟨r, hr, rfl⟩ := List.mem_map.mp hnew
    exact .inr ⟨hboth.1, hboth.2, r, Option.mem_toList.mp hr, rfl⟩
  · cases hnew

/-- A run that writes the result file is the one that handles what was pending, so its result takes
the place of one that is not needed any more. -/
theorem kept_helper {s : Handover} (hs : s.Kept) {args : Helper.Args} {env : Helper.RunEnv}
    {removed : Bool} (hev : Waits fromStr requests results s (.helper args env removed)) :
    (s.helper fromStr requests args env removed).Kept := by
  rcases Helper.run_cases fromStr requests.decode args (s.look fromStr requests args env) with
    ⟨config, o, hload, ho, hwritten, hresult, hremoval⟩ | ⟨-, hresult, hremoval⟩
  · have hload : Helper.loadConfig fromStr args.config env.configStat env.configText = .ok config :=
      hload
    have hwaits := hev config hload (Helper.present_of_process ho) hwritten
    have hvalid {id : String} (h : s.Reads config (s.look fromStr requests args env).toEnv id) :
        validRequestId id = true := by
      obtain ⟨r, hr, rfl⟩ := h.slot
      exact hs.slot r hr
    have hslot {gone : Bool} (r : ApplyRequest) (hr : (if gone then none else s.request) = some r) :
        validRequestId r.id = true := by
      split at hr
      · cases hr
      · exact hs.slot r hr
    have hids {id : String}
        (h : id ∈ s.handled ∨ s.Reads config (s.look fromStr requests args env).toEnv id) :
        validRequestId id = true := by
      rcases h with hold | hreads
      · exact hs.ids id hold
      · exact hvalid hreads
    by_cases hpath : Helper.resultPath args config = s.updates.applyResultFile
    · -- the result goes where the daemon looks, over the one that is there
      rw [if_pos hpath] at hwaits
      simp only [Handover.helper, hresult, hremoval, if_pos hpath, Option.some_or]
      refine ⟨hs.history, hslot, fun id hid => hids (mem_handled hid), fun id ⟨hid, hnot⟩ => ?_⟩
      have hreads : s.Reads config (s.look fromStr requests args env).toEnv id := by
        rcases mem_handled hid with hold | hreads
        · exact hwaits id ⟨hold, hnot⟩
        · exact hreads
      exact ⟨by simp, _, rfl, helper_result_id hload hreads (hvalid hreads) ho⟩
    · rw [if_neg hpath] at hwaits
      simp only [Handover.helper, hresult, hremoval, if_neg hpath, Option.none_or,
        Option.isNone_none, Bool.and_true]
      refine ⟨hs.history, hslot, fun id hid => hids (mem_handled hid), fun id ⟨hid, hnot⟩ => ?_⟩
      rcases mem_handled hid with hold | hreads
      · exact hs.outcome id ⟨hold, hnot⟩
      · exact absurd (hwaits id hreads) hnot
  · simp only [Handover.helper, hresult, hremoval]
    simpa using hs

/-- An ingest records what is pending: it is in the file, small enough, of a valid id, and new. -/
theorem kept_ingest {s : Handover} (hs : s.Kept) {channel : Channel}
    (hev : Waits fromStr requests results s (.ingest channel)) :
    (s.ingest results channel).Kept := by
  rcases ingest_cases results s channel with
    ⟨hnothing, hwhy⟩ | ⟨result, hresult, hentry⟩
  · rw [hnothing]
    refine ⟨hs.history, hs.slot, hs.ids, fun id hid => ?_⟩
    have hpending : s.Pending id := hid
    obtain ⟨-, result, hresult, rfl⟩ := hs.outcome id hpending
    -- nothing but an entry for it keeps a pending result from being recorded
    rcases hwhy result hresult with hlarge | hinvalid | hseen
    · exact absurd (hev result hresult hpending) (Nat.not_le_of_lt hlarge)
    · rw [hs.ids _ hpending.1] at hinvalid
      cases hinvalid
    · obtain ⟨entry, hentry, hcarries⟩ := List.any_eq_true.mp hseen
      have hmem : entry ∈ s.updates.store.data.history := List.mem_reverse.mp hentry
      rw [hs.history] at hmem
      exact absurd ⟨entry, (keepLast_suffix _ _).subset hmem, hcarries⟩ hpending.2
  · rw [hentry]
    refine ⟨?_, hs.slot, hs.ids, fun id ⟨hid, hnot⟩ => ?_⟩
    · rw [dropInstalled_store]
      exact recordedStore_history hs.history channel result
    · have hpending : s.Pending id :=
        ⟨hid, fun ⟨entry, hmem, hc⟩ => hnot ⟨entry, List.mem_append_left _ hmem, hc⟩⟩
      obtain ⟨-, result', hresult', rfl⟩ := hs.outcome id hpending
      cases hresult.symm.trans hresult'
      exact absurd ⟨_, List.mem_append_right _ (List.mem_singleton.mpr rfl),
        carries_applyEntry channel result⟩ hnot

theorem kept_step {s : Handover} (hs : s.Kept) {ev : HandoverEvent}
    (hev : Waits fromStr requests results s ev) : (s.step fromStr requests results ev).Kept := by
  cases ev with
  | refresh channel run now saved =>
    exact ⟨refresh_history hs.history channel run now saved, hs.slot, hs.ids, hs.outcome⟩
  | apply config caller dryRun env =>
    refine ⟨hs.history, fun r hr => ?_, hs.ids, hs.outcome⟩
    simp only [Handover.step] at hr
    cases dryRun with
    | true => exact hs.slot r hr
    | false =>
      rcases requestApply_cases s.updates config caller { env with pending := s.request.isSome }
        with ⟨reason, -, hcall⟩ | ⟨-, ⟨e, -, hcall⟩ | ⟨-, hcall⟩⟩
      · rw [hcall] at hr
        exact hs.slot r hr
      · rw [hcall] at hr
        exact hs.slot r hr
      · rw [hcall] at hr
        cases hr
        exact newRequestId_valid env.hash
  | helper args env removed => exact kept_helper hs hev
  | ingest channel => exact kept_ingest hs hev

/-- Once an ingest has run, nothing is pending: everything handled is recorded. -/
theorem Handover.Kept.nothingLost {s : Handover} (hs : s.Kept) : s.NothingLost := by
  intro hsettled id hid
  have hrecorded : s.Recorded id := by
    by_contra hnot
    obtain ⟨hopen, -⟩ := hs.outcome id ⟨hid, hnot⟩
    rw [hsettled] at hopen
    cases hopen
  obtain ⟨entry, hmem, hcarries⟩ := hrecorded
  obtain ⟨older, newer, hlog⟩ := List.append_of_mem hmem
  refine ⟨older, entry, newer, hlog, hcarries, fun hnewer => ?_⟩
  rw [UpdateStore.history, List.mem_reverse, hs.history, hlog]
  exact mem_keepLast hnewer

/-! ## One night -/

theorem step_apply_ok {s : Handover} {config : Config} {caller : String} {env : ApplyEnv}
    (hblock : s.updates.block config s.request.isSome env.localTime = none)
    (hwritten : env.written = .ok ()) :
    s.step fromStr requests results (.apply config caller false env) =
      { s with request := some (s.updates.request caller env) } := by
  simp only [Handover.step, UpdatesState.requestApply, hblock, hwritten, Bool.false_eq_true,
    if_false, Option.some_or]
  rfl

/-- A run that accepts the daemon's request, in files both of them know. -/
theorem helper_accepted {s : Handover} {args : Helper.Args} {env : Helper.RunEnv} {config : Config}
    {r : ApplyRequest} {md : Metadata} {bytes : Bytes}
    (hload : Helper.loadConfig fromStr args.config env.configStat env.configText = .ok config)
    (hpath : Helper.requestPath config = s.updates.applyRequestFile)
    (hresult : Helper.resultPath args config = s.updates.applyResultFile)
    (hr : s.request = some r) (hvalid : validateRequest r = .ok ()) (hstat : env.stat = .ok md)
    (hfile : md.isFile = true ∧ md.len ≤ maxFileBytes ∧ md.age env.fileNow ≤ maxRequestAge)
    (hcontents : env.contents = .ok bytes) (hwritten : env.written = .ok ()) :
    s.helper fromStr requests args env true =
      { s with
        request := none
        result := some (Helper.perform ⟨Helper.requestPath config, config⟩ env.toEnv r).2.result
        handled := s.handled ++ [r.id]
        settled := false } := by
  have hlook := look_slot requests hload hpath hr
  have hacc : Helper.Accepted requests.decode (s.look fromStr requests args env).toEnv r := by
    rw [hlook]
    exact
      { present := rfl
        file := ⟨md, hstat, hfile.1, hfile.2⟩
        decodes := ⟨requests.encode r, by rw [hcontents]; rfl, by simp⟩
        valid := hvalid }
  have hreadable : s.readable (s.look fromStr requests args env).toEnv = true := by
    obtain ⟨b, hread, -⟩ := hacc.read s.updates.applyRequestFile
    rw [Handover.readable, hread]
    rfl
  rcases Helper.run_cases fromStr requests.decode args (s.look fromStr requests args env) with
    ⟨config', o, hload', ho, -, hres, hrem⟩ | ⟨hstop, -, -⟩
  · cases hload.symm.trans hload'
    rw [Helper.process_of_accepted hacc, hlook] at ho
    cases ho
    simp only [Handover.helper, hres, hrem, hpath, hresult, hreadable, hr]
    simp
    rfl
  · exact absurd hwritten (hstop config hload hacc.present)

end

def nightParser (text : String) : Except String Config :=
  if text = Helper.nightToml then .ok Helper.nightConfig else .error "could not parse TOML"

/-- The run half a minute after the call of 03:20. It needs no reboot. -/
def nightRun : Helper.RunEnv :=
  { Helper.nightEnv with
    started := "2026-09-19T03:20:30Z"
    stat := .ok ⟨true, 138, some 1789788000000000000⟩
    fileNow := 1789788030000000000
    localTime := some ⟨.saturday, 200⟩
    marker := false
    markerLater := false
    finished := "2026-09-19T03:23:30Z"
    localAtReboot := some ⟨.saturday, 203⟩ }

/-- The scheduler's call twenty minutes later, when the first run is over. -/
def nightCallAgain (hash : UInt64) : ApplyEnv :=
  ⟨false, some ⟨.saturday, 220⟩, hash, "2026-09-19T03:40:00Z", .ok ()⟩

/-- And its run, which finds the packages upgraded. -/
def nightRunAgain : Helper.RunEnv :=
  { nightRun with
    started := "2026-09-19T03:40:30Z"
    stat := .ok ⟨true, 144, some 1789789200000000000⟩
    fileNow := 1789789230000000000
    localTime := some ⟨.saturday, 220⟩
    runner := fun _ => .ok ""
    finished := "2026-09-19T03:40:31Z"
    localAtReboot := some ⟨.saturday, 220⟩ }

def nightStart : Handover :=
  Handover.start (some (PathBuf.ofString "/var/lib/abora/updates.json")) StoreData.empty
    (PathBuf.ofString "/var/lib/abora/apply-request.json")
    (PathBuf.ofString "/var/lib/abora-apply/result.json")

def nightSimulation : String :=
  "Inst openssl [3.0.13] (3.0.14 Ubuntu:24.04/noble-updates [amd64])\n"

def nightListed : UpdatesState :=
  (nightStart.updates.refresh .stable (.ok nightSimulation) "2026-09-19T03:00:00Z" (.ok ())).1

def nightRefresh : HandoverEvent :=
  .refresh .stable (.ok nightSimulation) "2026-09-19T03:00:00Z" (.ok ())

/-- What the operator's call writes, and what the first run answers. -/
def nightRequest : ApplyRequest :=
  ⟨"apply-00000000000000a1", "2026-09-19T03:20:00Z", "ops", ["openssl"]⟩

def nightResult : ApplyResult :=
  ⟨"apply-00000000000000a1", "2026-09-19T03:20:30Z", "2026-09-19T03:23:30Z", true, ["openssl"],
    none, false⟩

deriving instance Encodable for ApplyRequest, ApplyResult

theorem nightParser_loads {env : Helper.RunEnv} (hstat : env.configStat = .ok 74)
    (htext : env.configText = .ok Helper.nightToml) :
    Helper.loadConfig nightParser ({} : Helper.Args).config env.configStat env.configText =
      .ok Helper.nightConfig := by
  rw [hstat, htext]
  simp [Helper.loadConfig, nightParser, maxFileBytes, Except.mapError]

theorem nightListed_packages : nightListed.requestPackages = ["openssl"] := by decide

theorem nightListed_request (caller : String) (env : ApplyEnv) :
    nightListed.request caller env =
      ⟨newRequestId env.hash, env.now, caller, ["openssl"]⟩ := by
  rw [UpdatesState.request, nightListed_packages]

theorem nightListed_block {now : Option LocalTime} (hopen : OpenAt Helper.nightConfig now) :
    nightListed.block Helper.nightConfig false now = none := by
  refine block_eq_none_iff.mpr ⟨rfl, ?_, hopen⟩
  rw [nightListed_packages]
  exact List.cons_ne_nil _ _

theorem nightListed_valid (caller : String) (env : ApplyEnv) :
    validateRequest (nightListed.request caller env) = .ok () := by
  rw [nightListed_request, validateRequest_ok_iff]
  refine ⟨newRequestId_valid env.hash, List.cons_ne_nil _ _, by simp [maxPackages], fun p hp => ?_⟩
  rw [List.mem_singleton.mp hp]
  decide

theorem nightListed_resultPath :
    Helper.resultPath {} Helper.nightConfig = nightListed.applyResultFile := by decide

/-- A run of the night that reads a request of the night. -/
theorem night_helper (requests : Codec ApplyRequest) (s : Handover) (env : Helper.RunEnv)
    {caller : String} {call : ApplyEnv} {md : Metadata} (hupdates : s.updates = nightListed)
    (hr : s.request = some (nightListed.request caller call)) (hstat : env.stat = .ok md)
    (hfile : md.isFile = true ∧ md.len ≤ maxFileBytes ∧ md.age env.fileNow ≤ maxRequestAge)
    (henv : env.configStat = .ok 74 ∧ env.configText = .ok Helper.nightToml ∧
      env.contents = .ok Helper.nightJson ∧ env.written = .ok ()) :
    s.helper nightParser requests {} env true =
      { s with
        request := none
        result := some (Helper.perform
          ⟨Helper.requestPath Helper.nightConfig, Helper.nightConfig⟩ env.toEnv
          (nightListed.request caller call)).2.result
        handled := s.handled ++ [newRequestId call.hash]
        settled := false } := by
  obtain ⟨hconfig, htext, hcontents, hwritten⟩ := henv
  have hrequest : Helper.requestPath Helper.nightConfig = nightListed.applyRequestFile := by decide
  exact helper_accepted (nightParser_loads hconfig htext) (by rw [hupdates, hrequest])
    (by rw [hupdates, nightListed_resultPath]) hr (nightListed_valid caller call) hstat hfile
    hcontents hwritten

/-- A check, an operator's call, and the helper's run. -/
def nightFirst : List HandoverEvent :=
  [nightRefresh, .apply Helper.nightConfig "ops" false (nightCall 0xa1), .helper {} nightRun true]

theorem night_handled (requests : Codec ApplyRequest) (results : Codec ApplyResult) :
    run (Handover.step nightParser requests results) nightStart nightFirst =
      { nightStart with
        updates := nightListed
        result := some nightResult
        handled := ["apply-00000000000000a1"]
        settled := false } := by
  have hresult : (Helper.perform ⟨Helper.requestPath Helper.nightConfig, Helper.nightConfig⟩
      nightRun.toEnv (nightListed.request "ops" (nightCall 0xa1))).2.result = nightResult := by
    rw [nightListed_request]
    decide
  have hid : newRequestId (nightCall 0xa1).hash = "apply-00000000000000a1" := by decide
  have hrefresh : nightStart.step nightParser requests results nightRefresh =
      { nightStart with updates := nightListed } := rfl
  simp only [nightFirst, run_cons, run_nil]
  have hopen : OpenAt Helper.nightConfig (nightCall 0xa1).localTime := by decide
  rw [hrefresh, step_apply_ok (nightListed_block hopen) rfl]
  have hhelper := night_helper requests
    { nightStart with
      updates := nightListed
      request := some (nightListed.request "ops" (nightCall 0xa1)) }
    nightRun rfl rfl rfl ⟨rfl, by decide, by decide⟩ ⟨rfl, rfl, rfl, rfl⟩
  rw [hresult, hid] at hhelper
  exact hhelper

/-- The first run to handle a request has nothing to wait for. -/
theorem waits_first {fromStr : String → Except String Config} {requests : Codec ApplyRequest}
    {results : Codec ApplyResult} {s : Handover} {args : Helper.Args} {env : Helper.RunEnv}
    {removed : Bool} (hnone : s.handled = [])
    (hpath : ∀ config,
      Helper.loadConfig fromStr args.config env.configStat env.configText = .ok config →
      Helper.resultPath args config = s.updates.applyResultFile) :
    Waits fromStr requests results s (.helper args env removed) := by
  intro config hload _ _
  rw [if_pos (hpath config hload)]
  intro id hid
  have hmem : id ∈ s.handled := hid.1
  rw [hnone] at hmem
  cases hmem

/-! ## No outcome is lost -/

/-- **No outcome is lost** in a run in which every result is ingested before the next one is
written. The induction carries `Kept` along the run; what is promised is read off it in every
state. -/
theorem nothing_lost_of_waits (fromStr : String → Except String Config)
    (requests : Codec ApplyRequest) (results : Codec ApplyResult) (path : Option PathBuf)
    (data : StoreData) (requestFile resultFile : PathBuf) {events : List HandoverEvent}
    (h : Guarded (Handover.step fromStr requests results) (Waits fromStr requests results)
      (Handover.start path data requestFile resultFile) events) :
    ∀ s ∈ visited (Handover.step fromStr requests results)
      (Handover.start path data requestFile resultFile) events, s.NothingLost := by
  intro s hs
  have hlen : (trim data).history.length ≤ maxHistory := by
    rw [trim_history, length_keepLast]
    exact Nat.min_le_left _ _
  have hstart : (Handover.start path data requestFile resultFile).Kept :=
    { history := (keepLast_eq_self hlen).symm
      slot := fun r hr => by cases hr
      ids := fun id hid => absurd hid List.not_mem_nil
      outcome := fun id hid => absurd hid.1 List.not_mem_nil }
  have hkept := visited_of_guarded (I := Handover.Kept) (fun s ev hs hev => kept_step hs hev)
    hstart h s hs
  exact hkept.nothingLost

/-- The first result of the night, as the helper writes it; a note that is not there is not
written. -/
def nightResultJson : Bytes := 0x7b :: asciiBytes (
  "\n  \"id\": \"apply-00000000000000a1\",\n  \"started_at\": \"2026-09-19T03:20:30Z\",\n" ++
  "  \"finished_at\": \"2026-09-19T03:23:30Z\",\n  \"succeeded\": true,\n" ++
  "  \"packages\": [\n    \"openssl\"\n  ],\n  \"reboot_started\": false\n\x7d")

/-- Serializers that write the night's request and its result as they are really written. -/
def nightRequests : Codec ApplyRequest :=
  (Codec.ofEncodable ApplyRequest).pin nightRequest (Helper.requestText nightRequest)
    fun b => Codec.ofEncodable_ne (by decide) b

def nightResults : Codec ApplyResult :=
  (Codec.ofEncodable ApplyResult).pin nightResult nightResultJson
    fun b => Codec.ofEncodable_ne (by decide) b

/-- One request that night, handled and ingested. -/
theorem nothing_lost_of_waits_once :
    let last := run (Handover.step nightParser nightRequests nightResults)
      nightStart (nightFirst ++ [.ingest .stable])
    last.NothingLost ∧ last.settled = true ∧ last.handled = ["apply-00000000000000a1"] := by
  have hpath (config : Config)
      (hload : Helper.loadConfig nightParser ({} : Helper.Args).config nightRun.configStat
        nightRun.configText = .ok config) :
      Helper.resultPath {} config = nightListed.applyResultFile := by
    cases (nightParser_loads rfl rfl).symm.trans hload
    exact nightListed_resultPath
  have hjson : (nightResults.encode nightResult).length ≤ maxFileBytes := by
    have htext : nightResults.encode nightResult = nightResultJson := Codec.pin_encode_self _ _ _ _
    -- counted piece by piece: deciding it would decode the whole text
    simp only [htext, nightResultJson, asciiBytes, List.length_cons, List.length_map,
      String.toList_append, List.length_append]
    simp [maxFileBytes]
  -- neither serializer is run: of requests any would do, and of results any with `hjson`
  generalize nightRequests = requests
  generalize nightResults = results at hjson
  have hhandled := night_handled requests results
  have hguard : Guarded (Handover.step nightParser requests results)
      (Waits nightParser requests results) nightStart (nightFirst ++ [.ingest .stable]) := by
    refine ⟨trivial, trivial, waits_first rfl hpath, fun result hr _ => ?_, trivial⟩
    cases (congrArg Handover.result hhandled).symm.trans hr
    exact hjson
  refine ⟨nothing_lost_of_waits nightParser requests results _ _ _ _ hguard _
    (run_mem_visited _ _), ?_⟩
  rw [run_concat, hhandled]
  exact ⟨ingest_settled results _ .stable, ingest_handled results _ .stable⟩

/-- The whole night: a second request is handled before the next ingest. -/
def nightEvents : List HandoverEvent :=
  nightFirst ++
    [.apply Helper.nightConfig "scheduler" false (nightCallAgain 0xb2),
      .helper {} nightRunAgain true, .ingest .stable]

/-- Whatever the serializers, the night ends without an entry for the first request. -/
theorem night_lost (requests : Codec ApplyRequest) (results : Codec ApplyResult) :
    ¬ (run (Handover.step nightParser requests results) nightStart nightEvents).NothingLost := by
  intro hlast
  rw [nightEvents, run_append, night_handled] at hlast
  simp only [run_cons, run_nil] at hlast
  have hopen : OpenAt Helper.nightConfig (nightCallAgain 0xb2).localTime := by decide
  rw [step_apply_ok (nightListed_block hopen) rfl] at hlast
  let before : Handover :=
    { nightStart with
      updates := nightListed
      request := some (nightListed.request "scheduler" (nightCallAgain 0xb2))
      result := some nightResult
      handled := ["apply-00000000000000a1"]
      settled := false }
  have hlast : ((before.helper nightParser requests {} nightRunAgain true).ingest results
    .stable).NothingLost := hlast
  have hsecond : (Helper.perform ⟨Helper.requestPath Helper.nightConfig, Helper.nightConfig⟩
      nightRunAgain.toEnv (nightListed.request "scheduler" (nightCallAgain 0xb2))).2.result.id =
      "apply-00000000000000b2" := by
    rw [Helper.perform_result_id]
    decide
  rw [night_helper requests before nightRunAgain rfl rfl rfl ⟨rfl, by decide, by decide⟩
    ⟨rfl, rfl, rfl, rfl⟩] at hlast
  generalize (Helper.perform ⟨Helper.requestPath Helper.nightConfig, Helper.nightConfig⟩
    nightRunAgain.toEnv (nightListed.request "scheduler" (nightCallAgain 0xb2))).2.result = second
    at hsecond hlast
  have hfirst : "apply-00000000000000a1" ∈ before.handled := List.mem_singleton.mpr rfl
  have hempty : before.log = [] := rfl
  rcases ingest_cases results _ .stable with ⟨hcall, -⟩ | ⟨result, hresult, hcall⟩
  · rw [hcall] at hlast
    obtain ⟨older, entry, newer, hlog, -⟩ := hlast rfl _ (List.mem_append_left _ hfirst)
    have hlog : before.log = older ++ entry :: newer := hlog
    rw [hempty] at hlog
    simp at hlog
  · rw [hcall] at hlast
    cases hresult
    obtain ⟨older, entry, newer, hlog, hcarries, -⟩ :=
      hlast rfl _ (List.mem_append_left _ hfirst)
    have hlog : before.log ++ [applyEntry .stable second] = older ++ entry :: newer := hlog
    rw [hempty, List.nil_append] at hlog
    have hentry : entry ∈ [applyEntry .stable second] := by
      rw [hlog]
      exact List.mem_append_right _ List.mem_cons_self
    have hlen : "apply-00000000000000a1".toList.length = second.id.toList.length := by
      rw [hsecond]
      decide
    rw [List.mem_singleton.mp hentry] at hcarries
    have hid := (carries_applyEntry_iff hlen).mp hcarries
    rw [hsecond] at hid
    exact absurd hid (by decide)

/-- **A second request before the next ingest**: the result of the first one is overwritten, and no
entry will ever carry its id. -/
theorem overwritten_result_lost :
    ¬ ∀ (fromStr : String → Except String Config) (requests : Codec ApplyRequest)
        (results : Codec ApplyResult) (path : Option PathBuf) (data : StoreData)
        (requestFile resultFile : PathBuf) (events : List HandoverEvent),
        ∀ s ∈ visited (Handover.step fromStr requests results)
          (Handover.start path data requestFile resultFile) events, s.NothingLost := by
  intro h
  have hnight (requests : Codec ApplyRequest) (results : Codec ApplyResult) :
      (run (Handover.step nightParser requests results) nightStart nightEvents).NothingLost :=
    h nightParser requests results (some (PathBuf.ofString "/var/lib/abora/updates.json"))
      StoreData.empty (PathBuf.ofString "/var/lib/abora/apply-request.json")
      (PathBuf.ofString "/var/lib/abora-apply/result.json") nightEvents _
      (run_mem_visited nightStart nightEvents)
  exact night_lost nightRequests nightResults (hnight _ _)

end Abora.Protocol
