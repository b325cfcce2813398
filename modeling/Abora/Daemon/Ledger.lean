import Abora.Daemon.Checks
import Abora.Daemon.Requests

/-!
# The update state over time

`refresh`, `ingest_apply_result` and `request_apply` in any order, each of them atomic, with the
request file the third one writes. A `Ledger` is the state they act on together with a record of
what they did: what the last successful refresh found, what was applied since, and every result that
was ever recorded. Nothing the daemon does depends on that record; it is there so that statements
about the list and the history can be made of what happened, and not of what the daemon remembers of
it.

The two invariants are here: the list of available updates names exactly what was found and not
applied (`Ledger.NamesOk`), and the history is what the bound leaves of the entries of the recorded
results (`Ledger.HistoryOk`). Each operation has one lemma that says all it can do
(`ledger_refresh_cases`, `ledger_ingest_cases`, `ledger_apply_cases`), and the invariants as well as
the modules about plans and about ingests use these and not the operations.
-/

namespace Abora.Daemon

open Abora.Lib Abora.Lib.Text Abora.Update

/-! ## Entries -/

/-- A note is the key of its id and a colon, then the rest, whatever the helper wrote in its own
note. -/
theorem applyNote_toList (result : ApplyResult) :
    ∃ rest, (applyNote result).toList = (applyKey result.id).toList ++ ':' :: rest := by
  unfold applyNote
  cases result.note with
  | none =>
    cases result.rebootStarted <;> simp [toString, String.toList_append]
  | some extra =>
    cases result.rebootStarted <;> simp [toString, String.toList_append]

theorem carries_applyEntry (channel : Channel) (result : ApplyResult) :
    carries result.id (applyEntry channel result) = true := by
  obtain ⟨rest, hrest⟩ := applyNote_toList result
  simp [carries, applyEntry, hrest, List.isPrefixOf_iff_prefix]

theorem refresh_history {s : UpdatesState} {log : List UpdateHistoryEntry}
    (h : s.store.data.history = keepLast maxHistory log) (channel : Channel)
    (run : Except String String) (now : String) (saved : Except StoreError Unit) :
    (s.refresh channel run now saved).1.store.data.history = keepLast maxHistory log := by
  unfold UpdatesState.refresh
  rcases check_cases s.provider channel run now saved with
    ⟨message, -, hc⟩ | ⟨output, -, ⟨e, hc⟩ | hc⟩
  · rw [hc]
    exact h
  · rw [hc]
    exact h
  · rw [hc]
    have htrim : keepLast maxHistory s.store.data.history = keepLast maxHistory log := by
      rw [h, keepLast_keepLast]
    simpa [UpdatesState.store] using htrim

theorem recordedStore_history {s : UpdatesState} {log : List UpdateHistoryEntry}
    (h : s.store.data.history = keepLast maxHistory log) (channel : Channel)
    (result : ApplyResult) :
    (recordedStore s channel result).data.history =
      keepLast maxHistory (log ++ [applyEntry channel result]) := by
  simp only [recordedStore, trim_history, Call.edit, h, keepLast_append_left]

/-! ## The three operations and their record -/

/-- The result an ingest finds: a small regular file that decodes. -/
def UpdatesState.readResult (decode : Bytes → Option ApplyResult) (s : UpdatesState)
    (env : IngestEnv) : Option ApplyResult :=
  match readRegularFile s.applyResultFile env.stat env.now env.contents none with
  | .error _ => none
  | .ok bytes => decode bytes

def namesOf (run : Except String String) : List String :=
  match run with
  | .error _ => []
  | .ok output => (parseSimulation output).map PackageUpgrade.name

/-- The update state, the request file, and a record of what was done to them. -/
structure Ledger where
  updates : UpdatesState
  /-- What is at the path of the request file. -/
  requestFile : Option Bytes
  /-- The names the last successful refresh found. -/
  found : List String
  /-- The packages of the successful results recorded since. -/
  applied : List String
  /-- Every result recorded so far, with the channel it was recorded under, oldest first. -/
  recorded : List (Channel × ApplyResult)

/-- An operation of the daemon, or somebody else at the request file: the helper, for one, which
removes it. -/
inductive LedgerEvent where
  | refresh (c : RefreshCall)
  | ingest (channel : Channel) (env : IngestEnv)
  | apply (config : Config) (caller : String) (dryRun : Bool) (env : ApplyEnv)
  /-- Someone else puts something at the request file's path, or takes it away. -/
  | outside (file : Option Bytes)

def Ledger.start (store : UpdateStore) (requestFile resultFile : PathBuf) (file : Option Bytes) :
    Ledger :=
  ⟨UpdatesState.host store requestFile resultFile, file, [], [], []⟩

/-- A refresh that answers an error leaves the record as it is, as it does the list. -/
def Ledger.refresh (l : Ledger) (c : RefreshCall) : Ledger :=
  let (updates, answer) := l.updates.answer c
  { l with
    updates := updates
    found := if answer.isOk then namesOf c.run else l.found
    applied := if answer.isOk then [] else l.applied }

/-- An ingest that recorded a result has it in the record; its packages count as applied if it
succeeded. -/
def Ledger.ingest (decode : Bytes → Option ApplyResult) (l : Ledger) (channel : Channel)
    (env : IngestEnv) : Ledger :=
  let (updates, isNew) := l.updates.ingestApplyResult decode channel env
  let new := if isNew then (l.updates.readResult decode env).toList else []
  { l with
    updates := updates
    applied := l.applied ++ (new.filter ApplyResult.succeeded).flatMap ApplyResult.packages
    recorded := l.recorded ++ new.map fun r => (channel, r) }

/-- A call of `request_apply`, with the request file in the place of the test for it. `write_atomic`
replaces the file as a whole, or fails and leaves it alone. -/
def Ledger.apply (encode : ApplyRequest → Bytes) (l : Ledger) (config : Config) (caller : String)
    (dryRun : Bool) (env : ApplyEnv) : Ledger × Except ApplyRefusal ApplyResponse :=
  let (answer, request) := l.updates.requestApply config caller dryRun
    { env with pending := l.requestFile.isSome }
  ({ l with requestFile := (request.map encode).or l.requestFile }, answer)

def ledgerStep (decode : Bytes → Option ApplyResult) (encode : ApplyRequest → Bytes) (l : Ledger) :
    LedgerEvent → Ledger
  | .refresh c => l.refresh c
  | .ingest channel env => l.ingest decode channel env
  | .apply config caller dryRun env => (l.apply encode config caller dryRun env).1
  | .outside file => { l with requestFile := file }

/-- The entry a recorded result became. -/
def entryOf (p : Channel × ApplyResult) : UpdateHistoryEntry := applyEntry p.1 p.2

/-- The results whose entries the history still has: the newest, up to the bound. -/
def Ledger.kept (l : Ledger) : List (Channel × ApplyResult) := keepLast maxHistory l.recorded

/-! ## One step -/

theorem ingestApplyResult_eq (decode : Bytes → Option ApplyResult) (s : UpdatesState)
    (channel : Channel) (env : IngestEnv) :
    s.ingestApplyResult decode channel env =
      match s.readResult decode env with
      | none => (s, false)
      | some result => s.ingestResult channel result env.saved := by
  unfold UpdatesState.ingestApplyResult UpdatesState.readResult
  cases readRegularFile s.applyResultFile env.stat env.now env.contents none with
  | error e => rfl
  | ok bytes => cases hdec : decode bytes <;> simp [hdec]

/-- The list after an ingest: without what a successful result reports. -/
theorem mem_dropInstalled_iff {s : UpdatesState} {result : ApplyResult} {u : AvailableUpdate} :
    u ∈ (s.dropInstalled result).available ↔
      u ∈ s.available ∧ ¬ (result.succeeded = true ∧ u.component ∈ result.packages) := by
  unfold UpdatesState.dropInstalled
  cases result.succeeded with
  | false => simp
  | true => simp

/-- Why an ingest records a result, or does not: its id is one, no entry carries it, and the save
goes well. -/
structure Records (s : UpdatesState) (result : ApplyResult) (saved : Except StoreError Unit) :
    Prop where
  id : (validRequestId result.id || result.id == "invalid") = true
  unseen : s.store.history.any (carries result.id) = false
  saved : s.store.path = none ∨ saved = .ok ()

theorem ingestResult_of_records {s : UpdatesState} {result : ApplyResult}
    {saved : Except StoreError Unit} (h : Records s result saved) (channel : Channel) :
    s.ingestResult channel result saved =
      ((s.withStore (recordedStore s channel result)).dropInstalled result, true) := by
  unfold UpdatesState.ingestResult
  rw [if_neg (by simp [h.id]), if_neg (by simp [h.unseen])]
  rcases perform_cases s.store (.update (applyEntry channel result)) saved with
    ⟨e, hpath, hsaved, -⟩ | ⟨-, hcall⟩
  · rcases h.saved with hnone | hok
    · exact absurd hnone hpath
    · rw [hok] at hsaved
      cases hsaved
  · have hcall : s.store.recordUpdate (applyEntry channel result) saved =
        (recordedStore s channel result, .ok ()) := hcall
    rw [hcall]

theorem ingestResult_of_not {s : UpdatesState} {result : ApplyResult}
    {saved : Except StoreError Unit} (h : ¬ Records s result saved) (channel : Channel) :
    s.ingestResult channel result saved = (s, false) := by
  unfold UpdatesState.ingestResult
  cases hid : validRequestId result.id || result.id == "invalid" with
  | false => rfl
  | true =>
    cases hseen : s.store.history.any (carries result.id) with
    | true => simp
    | false =>
      rcases perform_cases s.store (.update (applyEntry channel result)) saved with
        ⟨e, -, -, hcall⟩ | ⟨hsaved, -⟩
      · have hcall : s.store.recordUpdate (applyEntry channel result) saved = (s.store, .error e) :=
          hcall
        rw [hcall]
        rfl
      · exact absurd ⟨hid, hseen, hsaved⟩ h

/-- **One ingest**: it changes nothing at all, or it records the result it reads. In the second case
it says what becomes of the history and of the list. -/
theorem ledger_ingest_cases (decode : Bytes → Option ApplyResult) (l : Ledger) (channel : Channel)
    (env : IngestEnv) :
    ((∀ r, l.updates.readResult decode env = some r → ¬ Records l.updates r env.saved) ∧
        l.updates.ingestApplyResult decode channel env = (l.updates, false) ∧
        l.ingest decode channel env = l) ∨
      ∃ r, l.updates.readResult decode env = some r ∧ Records l.updates r env.saved ∧
        (l.updates.ingestApplyResult decode channel env).2 = true ∧
        l.ingest decode channel env =
          { l with
            updates := (l.updates.withStore (recordedStore l.updates channel r)).dropInstalled r
            applied := l.applied ++ if r.succeeded then r.packages else []
            recorded := l.recorded ++ [(channel, r)] } := by
  have hnothing (h : l.updates.ingestApplyResult decode channel env = (l.updates, false)) :
      l.ingest decode channel env = l := by
    obtain ⟨updates, requestFile, found, applied, recorded⟩ := l
    simp [Ledger.ingest, h]
  cases hread : l.updates.readResult decode env with
  | none =>
    have hcall : l.updates.ingestApplyResult decode channel env = (l.updates, false) := by
      rw [ingestApplyResult_eq, hread]
    exact .inl ⟨fun r h => (by cases h), hcall, hnothing hcall⟩
  | some r =>
    have heq : l.updates.ingestApplyResult decode channel env =
        l.updates.ingestResult channel r env.saved := by
      rw [ingestApplyResult_eq, hread]
    by_cases hrec : Records l.updates r env.saved
    · have hcall := heq.trans (ingestResult_of_records hrec channel)
      refine .inr ⟨r, rfl, hrec, by rw [hcall], ?_⟩
      cases hok : r.succeeded <;> simp [Ledger.ingest, hcall, hread, hok]
    · have hcall := heq.trans (ingestResult_of_not hrec channel)
      refine .inl ⟨fun r' h => ?_, hcall, hnothing hcall⟩
      cases h
      exact hrec

/-- **One refresh**: the list names what the refresh found, or it is as it was. -/
theorem ledger_refresh_cases (l : Ledger) (c : RefreshCall) :
    ((∃ e, (l.updates.answer c).2 = .error e) ∧ (l.refresh c).found = l.found ∧
        (l.refresh c).applied = l.applied ∧
        (l.refresh c).updates.available = l.updates.available) ∨
      ((∃ n, (l.updates.answer c).2 = .ok n) ∧ (l.refresh c).found = namesOf c.run ∧
        (l.refresh c).applied = [] ∧
        (l.refresh c).updates.available.map AvailableUpdate.component = namesOf c.run) := by
  unfold Ledger.refresh
  rcases refresh_cases l.updates c with ⟨message, -, h⟩ | ⟨output, hrun, ⟨e, -, h⟩ | ⟨-, h⟩⟩
  · rw [h]
    exact .inl ⟨⟨_, rfl⟩, rfl, rfl, rfl⟩
  · rw [h]
    exact .inl ⟨⟨_, rfl⟩, rfl, rfl, rfl⟩
  · rw [h]
    refine .inr ⟨⟨_, rfl⟩, rfl, rfl, ?_⟩
    simp only [hrun, namesOf, List.map_map]
    rfl

/-- A dry run answers what is listed and what stands against it, and changes nothing. -/
theorem apply_dryRun (encode : ApplyRequest → Bytes) (l : Ledger) (config : Config)
    (caller : String) (env : ApplyEnv) :
    l.apply encode config caller true env =
      (l, .ok ⟨true, (l.updates.block config l.requestFile.isSome env.localTime).isNone,
        l.updates.block config l.requestFile.isSome env.localTime, none,
        l.updates.requestPackages⟩) := rfl

/-- The request an accepted call puts in place. -/
def Ledger.request (l : Ledger) (caller : String) (env : ApplyEnv) : ApplyRequest :=
  l.updates.request caller { env with pending := l.requestFile.isSome }

/-- **One real call**: a conflict, a failed write, or a request in place. -/
theorem ledger_apply_cases (encode : ApplyRequest → Bytes) (l : Ledger) (config : Config)
    (caller : String) (env : ApplyEnv) :
    (∃ reason, l.updates.block config l.requestFile.isSome env.localTime = some reason ∧
        l.apply encode config caller false env = (l, .error (.conflict reason))) ∨
      (l.updates.block config l.requestFile.isSome env.localTime = none ∧
        ((∃ e, env.written = .error e ∧ l.apply encode config caller false env =
            (l, .error (.internal s!"could not write the apply request: {e}"))) ∨
          (env.written = .ok () ∧ l.apply encode config caller false env =
            ({ l with requestFile := some (encode (l.request caller env)) },
              .ok ⟨false, true, none, some (newRequestId env.hash),
                l.updates.requestPackages⟩)))) := by
  rcases requestApply_cases l.updates config caller { env with pending := l.requestFile.isSome }
    with ⟨reason, hblock, hcall⟩ | ⟨hblock, ⟨e, hwritten, hcall⟩ | ⟨hwritten, hcall⟩⟩
  · refine .inl ⟨reason, hblock, ?_⟩
    rw [Ledger.apply, hcall]
    rfl
  · refine .inr ⟨hblock, .inl ⟨e, hwritten, ?_⟩⟩
    rw [Ledger.apply, hcall]
    rfl
  · refine .inr ⟨hblock, .inr ⟨hwritten, ?_⟩⟩
    rw [Ledger.apply, hcall]
    rfl

/-! ## The invariants -/

/-- The list names what was found and not applied since. As a set: the order is not the list's. -/
def Ledger.NamesOk (l : Ledger) : Prop :=
  ∀ name, name ∈ l.updates.available.map AvailableUpdate.component ↔
    name ∈ l.found ∧ name ∉ l.applied

/-- The history is the entries of the recorded results, as far back as the bound goes. -/
def Ledger.HistoryOk (l : Ledger) : Prop :=
  l.updates.store.data.history = keepLast maxHistory (l.recorded.map entryOf)

theorem start_namesOk (store : UpdateStore) (requestFile resultFile : PathBuf)
    (file : Option Bytes) : (Ledger.start store requestFile resultFile file).NamesOk := by
  intro name
  simp [Ledger.start, UpdatesState.host]

theorem start_historyOk {store : UpdateStore} (hempty : store.data.history = [])
    (requestFile resultFile : PathBuf) (file : Option Bytes) :
    (Ledger.start store requestFile resultFile file).HistoryOk := by
  show store.data.history = keepLast maxHistory []
  rw [hempty]
  rfl

variable {decode : Bytes → Option ApplyResult} {encode : ApplyRequest → Bytes}

theorem namesOk_step {l : Ledger} (hl : l.NamesOk) (ev : LedgerEvent) :
    (ledgerStep decode encode l ev).NamesOk := by
  cases ev with
  | refresh c =>
    intro name
    rcases ledger_refresh_cases l c with
      ⟨-, hfound, happlied, havailable⟩ | ⟨-, hfound, happlied, hnames⟩
    · rw [ledgerStep, havailable, hfound, happlied]
      exact hl name
    · rw [ledgerStep, hnames, hfound, happlied]
      simp
  | ingest channel env =>
    intro name
    rcases ledger_ingest_cases decode l channel env with ⟨-, -, h⟩ | ⟨r, -, -, -, h⟩
    · rw [ledgerStep, h]
      exact hl name
    · rw [ledgerStep, h]
      have hname := hl name
      simp only [List.mem_map] at hname ⊢
      constructor
      -- what is still listed after the ingest was listed before it, and was not in the result
      · rintro ⟨u, hu, rfl⟩
        obtain ⟨hmem, hnot⟩ := mem_dropInstalled_iff.mp hu
        obtain ⟨hfound, happlied⟩ := hname.mp ⟨u, hmem, rfl⟩
        refine ⟨hfound, fun hin => ?_⟩
        rcases List.mem_append.mp hin with hin | hin
        · exact happlied hin
        · cases hok : r.succeeded with
          | false => simp [hok] at hin
          | true =>
            rw [hok, if_pos rfl] at hin
            exact hnot ⟨hok, hin⟩
      · rintro ⟨hfound, hnot⟩
        rw [List.mem_append, not_or] at hnot
        obtain ⟨u, hu, rfl⟩ := hname.mpr ⟨hfound, hnot.1⟩
        refine ⟨u, mem_dropInstalled_iff.mpr ⟨hu, fun ⟨hok, hin⟩ => hnot.2 ?_⟩, rfl⟩
        rw [hok, if_pos rfl]
        exact hin
  | apply config caller dryRun env => exact hl
  | outside file => exact hl

theorem historyOk_step {l : Ledger} (hl : l.HistoryOk) (ev : LedgerEvent) :
    (ledgerStep decode encode l ev).HistoryOk := by
  cases ev with
  | refresh c => exact refresh_history hl c.channel c.run c.now c.saved
  | ingest channel env =>
    rcases ledger_ingest_cases decode l channel env with ⟨-, -, h⟩ | ⟨r, -, -, -, h⟩
    · rw [ledgerStep, h]
      exact hl
    · rw [ledgerStep, h, Ledger.HistoryOk, dropInstalled_store, List.map_append]
      exact recordedStore_history hl channel r
  | apply config caller dryRun env => exact hl
  | outside file => exact hl

end Abora.Daemon
