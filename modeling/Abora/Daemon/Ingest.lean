import Abora.Daemon.Ledger
import Abora.Helper.Run

/-!
# Recording results

An ingest recognizes a result it has recorded by the words its history entry starts with. The
comparison is one of texts: `apply ` and the id, as a prefix of the note. An entry of the same
result is always found (`carries_applyEntry`), so nothing is recorded twice while its entry lasts.
An entry of *another* result is found too if its id continues this one's — and two runs that could
not tell what was asked of them share the id `invalid`. `ingest_records_iff` is the exact condition
under which a result of a helper run gets an entry of its own.

The history is compared with what the ledger remembers of it: the entries that are kept are those of
the newest recorded results (`Abora.Daemon.Ledger`), so "the history has an entry for this id" can
be said of results and need not be said of texts. A result whose save failed is recorded by a later
ingest; `Awaits` is what holds in between, and `StillThere` is what it takes from outside: that the
file keeps the result until then.
-/

namespace Abora.Daemon

open Abora.Lib Abora.Lib.Text Abora.Update

/-- What an ingest reads is a small regular file with this result. -/
structure Finds (decode : Bytes → Option ApplyResult) (env : IngestEnv) (r : ApplyResult) :
    Prop where
  file : ∃ md, env.stat = .ok md ∧ md.isFile = true ∧ md.len ≤ maxFileBytes
  decodes : ∃ bytes, env.contents = .ok bytes ∧ decode bytes = some r

/-- The two steps of reading and the decoding, as one condition on what the ingest found. -/
theorem readResult_eq_some_iff {decode : Bytes → Option ApplyResult} {s : UpdatesState}
    {env : IngestEnv} {r : ApplyResult} :
    s.readResult decode env = some r ↔ Finds decode env r := by
  unfold UpdatesState.readResult
  constructor
  · intro h
    cases hread : readRegularFile s.applyResultFile env.stat env.now env.contents none with
    | error e =>
      rw [hread] at h
      cases h
    | ok bytes =>
      rw [hread] at h
      obtain ⟨md, hstat, hfile, hlen, -, hcontents⟩ := readRegularFile_ok_iff.mp hread
      exact ⟨⟨md, hstat, hfile, hlen⟩, bytes, hcontents, h⟩
  · rintro ⟨⟨md, hstat, hfile, hlen⟩, bytes, hcontents, hdec⟩
    have hread : readRegularFile s.applyResultFile env.stat env.now env.contents none = .ok bytes :=
      readRegularFile_ok_iff.mpr ⟨md, hstat, hfile, hlen, fun _ h => (by cases h), hcontents⟩
    rw [hread]
    exact hdec

/-! ## No entry twice -/

/-- No two entries of the history were recorded for the same id. This is what *once* means as long
as entries are dropped from the history's end. -/
def Ledger.IdsOk (l : Ledger) : Prop := (l.kept.map fun p => p.2.id).Nodup

theorem history_eq_kept {l : Ledger} (hl : l.HistoryOk) :
    l.updates.store.data.history = l.kept.map entryOf := by
  rw [hl, keepLast_map]
  rfl

theorem start_idsOk (store : UpdateStore) (requestFile resultFile : PathBuf)
    (file : Option Bytes) : (Ledger.start store requestFile resultFile file).IdsOk := by
  simp [Ledger.IdsOk, Ledger.kept, Ledger.start, keepLast]

/-- A result that is not seen is not among those whose entries are kept: its own entry would carry
its id. -/
theorem unseen_not_mem {l : Ledger} (hl : l.HistoryOk) {r : ApplyResult}
    (hunseen : l.updates.store.history.any (carries r.id) = false) :
    r.id ∉ l.kept.map fun p => p.2.id := by
  intro hmem
  obtain ⟨p, hp, hid⟩ := List.mem_map.mp hmem
  have hentry : entryOf p ∈ l.updates.store.history := by
    rw [UpdateStore.history, List.mem_reverse, history_eq_kept hl]
    exact List.mem_map_of_mem hp
  have hnot := List.any_eq_false.mp hunseen _ hentry
  rw [← hid] at hnot
  exact hnot (carries_applyEntry p.1 p.2)

/-- The newest results, after one more: an old one may be dropped, none is added but the new one. -/
theorem kept_append (l : Ledger) (p : Channel × ApplyResult) :
    keepLast maxHistory (l.recorded ++ [p]) <:+ l.kept ++ [p] := by
  rw [← keepLast_append_left]
  exact keepLast_suffix _ _

variable {decode : Bytes → Option ApplyResult} {encode : ApplyRequest → Bytes}

/-- Only an ingest that records adds an id, and it has just looked whether that id is there. -/
theorem idsOk_step {l : Ledger} (hhist : l.HistoryOk) (hl : l.IdsOk) (ev : LedgerEvent) :
    (ledgerStep decode encode l ev).IdsOk := by
  cases ev with
  | refresh c => exact hl
  | apply config caller dryRun env => exact hl
  | outside file => exact hl
  | ingest channel env =>
    rcases ledger_ingest_cases decode l channel env with ⟨-, -, h⟩ | ⟨r, -, hrec, -, h⟩
    · rw [ledgerStep, h]
      exact hl
    · rw [ledgerStep, h]
      have hnew := unseen_not_mem hhist hrec.unseen
      have hboth : ((l.kept ++ [(channel, r)]).map fun p => p.2.id).Nodup := by
        rw [List.map_append]
        refine List.nodup_append.mpr ⟨hl, by simp, ?_⟩
        rintro a ha b hb rfl
        rw [List.map_singleton, List.mem_singleton] at hb
        exact hnew (hb ▸ ha)
      exact hboth.sublist ((kept_append l (channel, r)).sublist.map _)

/-! ## A result whose save failed -/

/-- The save is the only thing that keeps the result from being recorded. -/
structure SaveFails (s : UpdatesState) (r : ApplyResult) (saved : Except StoreError Unit) :
    Prop where
  otherwise : Records s r (.ok ())
  fails : ¬ Records s r saved

/-- Whatever an ingest reads, it reads this result. -/
def StillThere (decode : Bytes → Option ApplyResult) (r : ApplyResult) : LedgerEvent → Prop
  | .ingest _ env => Finds decode env r
  | _ => True

/-- The results recorded since `before` are none, or this one. The invariant of the time between a
failed save and the next that succeeds. -/
structure Awaits (before : Ledger) (r : ApplyResult) (l : Ledger) : Prop where
  history : l.HistoryOk
  recorded : l.recorded = before.recorded ∨
    ∃ channel, l.recorded = before.recorded ++ [(channel, r)]

theorem mem_kept_concat {l before : Ledger} {p : Channel × ApplyResult}
    (h : l.recorded = before.recorded ++ [p]) : p ∈ l.kept := by
  rw [Ledger.kept, h]
  exact mem_keepLast (by decide)

/-- While its entry is kept it is not recorded again, whatever the next save would have done. -/
theorem not_records_of_kept {l : Ledger} (hl : l.HistoryOk) {channel : Channel} {r : ApplyResult}
    (h : (channel, r) ∈ l.kept) (saved : Except StoreError Unit) : ¬ Records l.updates r saved := by
  intro hrec
  have hnew := unseen_not_mem hl hrec.unseen
  exact hnew (List.mem_map_of_mem (f := fun p : Channel × ApplyResult => p.2.id) h)

/-- Anything may happen in between except that an ingest finds another result. -/
theorem awaits_step {before : Ledger} {r : ApplyResult} {l : Ledger} (hl : Awaits before r l)
    {ev : LedgerEvent} (hev : StillThere decode r ev) :
    Awaits before r (ledgerStep decode encode l ev) := by
  refine ⟨historyOk_step hl.history ev, ?_⟩
  cases ev with
  | refresh c => exact hl.recorded
  | apply config caller dryRun env => exact hl.recorded
  | outside file => exact hl.recorded
  | ingest channel env =>
    rcases ledger_ingest_cases decode l channel env with ⟨-, -, h⟩ | ⟨r', hread, hrec, -, h⟩
    · rw [ledgerStep, h]
      exact hl.recorded
    · have hsame : r' = r := by
        rw [readResult_eq_some_iff.mpr hev] at hread
        exact (Option.some.inj hread).symm
      subst hsame
      rw [ledgerStep, h]
      rcases hl.recorded with hnone | ⟨ch, hsome⟩
      · exact .inr ⟨channel, by rw [hnone]⟩
      · exact absurd hrec (not_records_of_kept hl.history (mem_kept_concat hsome) _)

theorem ingest_recorded {before : Ledger} {r : ApplyResult} {l : Ledger} (hl : Awaits before r l)
    (hbefore : before.HistoryOk) (hrec : Records before.updates r (.ok ())) (channel : Channel)
    {env : IngestEnv} (hfinds : Finds decode env r) (hsaved : env.saved = .ok ()) :
    ∃ ch, (ch, r) ∈ (l.ingest decode channel env).kept := by
  have hread := readResult_eq_some_iff (s := l.updates).mpr hfinds
  rcases hl.recorded with hnone | ⟨ch, hsome⟩
  · -- nothing came in between, so it is as unseen as it was
    have hsame : l.updates.store.data.history = before.updates.store.data.history := by
      rw [hl.history, hbefore, hnone]
    have hrecl : Records l.updates r env.saved := by
      refine ⟨hrec.id, ?_, .inr hsaved⟩
      have hunseen := hrec.unseen
      rwa [UpdateStore.history, ← hsame] at hunseen
    rcases ledger_ingest_cases decode l channel env with ⟨hnot, -, -⟩ | ⟨r', hread', -, -, h⟩
    · exact absurd hrecl (hnot r hread)
    · rw [hread] at hread'
      cases hread'
      refine ⟨channel, ?_⟩
      rw [h]
      exact mem_keepLast (by decide)
  · rcases ledger_ingest_cases decode l channel env with ⟨-, -, h⟩ | ⟨r', hread', hrecl, -, -⟩
    · rw [h]
      exact ⟨ch, mem_kept_concat hsome⟩
    · rw [hread] at hread'
      cases hread'
      exact absurd hrecl (not_records_of_kept hl.history (mem_kept_concat hsome) _)

/-- The two invariants, along every run that starts with an empty history. -/
theorem ledger_run_ok (decode : Bytes → Option ApplyResult) (encode : ApplyRequest → Bytes)
    {store : UpdateStore} (hempty : store.data.history = []) (requestFile resultFile : PathBuf)
    (file : Option Bytes) (events : List LedgerEvent) :
    let l := run (ledgerStep decode encode) (Ledger.start store requestFile resultFile file) events
    l.HistoryOk ∧ l.IdsOk := by
  refine run_invariant (I := fun l : Ledger => l.HistoryOk ∧ l.IdsOk) (fun l ev hl => ?_) ?_ events
  · exact ⟨historyOk_step hl.1 ev, idsOk_step hl.1 hl.2 ev⟩
  · exact ⟨start_historyOk hempty requestFile resultFile file, start_idsOk _ _ _ _⟩

/-- **Results are recorded at most once, and all at once.** From an empty history, whatever the
result file holds and whichever saves fail: the entries of the history were recorded for pairwise
different ids; an ingest that answers `false` changed nothing; and a result whose save failed is
recorded by the next ingest that can save, if every ingest until then finds it. The first part is
`IdsOk` along the run, the second a look at the last step, the third `Awaits` along the rest. -/
theorem ingest_once_and_atomic (decode : Bytes → Option ApplyResult)
    (encode : ApplyRequest → Bytes) {store : UpdateStore} (hempty : store.data.history = [])
    (requestFile resultFile : PathBuf) (file : Option Bytes) (events : List LedgerEvent) :
    let l := run (ledgerStep decode encode) (Ledger.start store requestFile resultFile file) events
    (l.updates.store.data.history = l.kept.map entryOf ∧ (l.kept.map fun p => p.2.id).Nodup) ∧
      (∀ channel env, (l.updates.ingestApplyResult decode channel env).2 = false →
        (l.updates.ingestApplyResult decode channel env).1 = l.updates) ∧
      ∀ r channel env later channel' env', Finds decode env r →
        SaveFails l.updates r env.saved → (∀ ev ∈ later, StillThere decode r ev) →
        Finds decode env' r → env'.saved = .ok () →
        ∃ ch, entryOf (ch, r) ∈
          (run (ledgerStep decode encode) l
            (.ingest channel env :: later ++ [.ingest channel' env'])).updates.store.data.history := by
  intro l
  obtain ⟨hhist, hids⟩ := ledger_run_ok decode encode hempty requestFile resultFile file events
  have hhist : l.HistoryOk := hhist
  refine ⟨⟨history_eq_kept hhist, hids⟩, fun channel env hfalse => ?_, ?_⟩
  · rcases ledger_ingest_cases decode l channel env with ⟨-, hcall, -⟩ | ⟨r, -, -, htrue, -⟩
    · rw [hcall]
    · rw [htrue] at hfalse
      cases hfalse
  · intro r channel env later channel' env' hfinds hfails hlater hfinds' hsaved'
    -- the result waits from the failing save on, until an ingest is saved again
    have hstart : Awaits l r l := ⟨hhist, .inl rfl⟩
    have hall : ∀ ev ∈ LedgerEvent.ingest channel env :: later, StillThere decode r ev := by
      intro ev hev
      rcases List.mem_cons.mp hev with rfl | hev
      · exact hfinds
      · exact hlater ev hev
    have hguard : Guarded (ledgerStep decode encode) (fun _ ev => True ∧ StillThere decode r ev) l
        (.ingest channel env :: later) := (guarded_true l _).and_forall hall
    have hawaits := visited_of_guarded (I := Awaits l r) (fun _ _ h hev => awaits_step h hev.2)
      hstart hguard _ (run_mem_visited _ _)
    obtain ⟨ch, hmem⟩ := ingest_recorded hawaits hhist hfails.otherwise channel' hfinds' hsaved'
    refine ⟨ch, ?_⟩
    rw [run_concat]
    rw [history_eq_kept (historyOk_step hawaits.history (.ingest channel' env'))]
    exact List.mem_map_of_mem hmem

/-! ## An entry of its own -/

/-- No id has a colon in it, so the note's first colon is where the id ends. -/
theorem colon_not_mem {id : String} (h : (validRequestId id || id == "invalid") = true) :
    ':' ∉ id.toList := by
  intro hmem
  rcases Bool.or_eq_true_iff.mp h with hvalid | hinvalid
  · simp only [validRequestId, Bool.and_eq_true, List.all_eq_true] at hvalid
    have hcolon := hvalid.2 ':' hmem
    exact absurd hcolon (by decide)
  · rw [beq_iff_eq.mp hinvalid] at hmem
    exact absurd hmem (by decide)

/-- An entry carries the ids its own continues: the note has the id up to the colon, and the
comparison stops before it. -/
theorem carries_entryOf_iff {id : String} (hid : ':' ∉ id.toList) (p : Channel × ApplyResult) :
    carries id (entryOf p) = true ↔ id.toList <+: p.2.id.toList := by
  obtain ⟨rest, hrest⟩ := applyNote_toList p.2
  simp only [carries, entryOf, applyEntry, hrest, List.isPrefixOf_iff_prefix, applyKey,
    String.toList_append, List.append_assoc, List.prefix_append_right_inj]
  exact prefix_append_cons_iff hid

/-- With a save that succeeds, only an entry whose id continues this one keeps it out. -/
theorem records_ok_iff {l : Ledger} (hl : l.HistoryOk) {r : ApplyResult}
    (hid : (validRequestId r.id || r.id == "invalid") = true) :
    Records l.updates r (.ok ()) ↔ ∀ p ∈ l.kept, ¬ r.id.toList <+: p.2.id.toList := by
  have hcolon := colon_not_mem hid
  have hunseen : l.updates.store.history.any (carries r.id) = false ↔
      ∀ p ∈ l.kept, ¬ r.id.toList <+: p.2.id.toList := by
    rw [List.any_eq_false, UpdateStore.history, history_eq_kept hl]
    simp only [List.mem_reverse, List.forall_mem_map, carries_entryOf_iff hcolon]
  rw [← hunseen]
  exact ⟨fun h => h.unseen, fun h => ⟨hid, h, .inr rfl⟩⟩

/-- The result of a run of the helper that wrote one, whatever it was asked and whatever
happened. -/
def WrittenByHelper (r : ApplyResult) : Prop :=
  ∃ (fromStr : String → Except String Config) (requests : Bytes → Option ApplyRequest)
    (args : Helper.Args) (env : Helper.RunEnv) (path : PathBuf),
    (Helper.run fromStr requests args env).result = some (path, r)

theorem WrittenByHelper.id {r : ApplyResult} (h : WrittenByHelper r) :
    (validRequestId r.id || r.id == "invalid") = true := by
  obtain ⟨fromStr, requests, args, env, path, hresult⟩ := h
  rcases Helper.run_cases fromStr requests args env with
    ⟨config, o, -, ho, -, hrun, -⟩ | ⟨-, hrun, -⟩
  · rw [hrun] at hresult
    cases hresult
    rcases Helper.process_result_id_cases ho with hvalid | hinvalid
    · rw [hvalid, Bool.true_or]
    · rw [hinvalid]
      decide
  · rw [hrun] at hresult
    cases hresult

/-- Exactly one entry is added, and it is the result's. -/
structure AddsEntry (decode : Bytes → Option ApplyResult) (s : UpdatesState) (channel : Channel)
    (env : IngestEnv) (r : ApplyResult) : Prop where
  recorded : (s.ingestApplyResult decode channel env).2 = true
  history : (s.ingestApplyResult decode channel env).1.store.data.history =
    keepLast maxHistory (s.store.data.history ++ [applyEntry channel r])

theorem addsEntry_iff {l : Ledger} (hl : l.HistoryOk) (channel : Channel) {env : IngestEnv}
    {r : ApplyResult} (hid : (validRequestId r.id || r.id == "invalid") = true)
    (hfinds : Finds decode env r) (hsaved : env.saved = .ok ()) :
    AddsEntry decode l.updates channel env r ↔ ∀ p ∈ l.kept, ¬ r.id.toList <+: p.2.id.toList := by
  rw [← records_ok_iff hl hid, ← hsaved]
  have hread := readResult_eq_some_iff (s := l.updates).mpr hfinds
  have hcall : l.updates.ingestApplyResult decode channel env =
      l.updates.ingestResult channel r env.saved := by
    rw [ingestApplyResult_eq, hread]
  constructor
  · intro hadds
    by_contra hnot
    have hrecorded := hadds.recorded
    rw [hcall, ingestResult_of_not hnot channel] at hrecorded
    cases hrecorded
  · intro hrec
    have hdone := hcall.trans (ingestResult_of_records hrec channel)
    refine ⟨by rw [hdone], ?_⟩
    rw [hdone, dropInstalled_store]
    show (recordedStore l.updates channel r).data.history = _
    have hsame : l.updates.store.data.history =
        keepLast maxHistory l.updates.store.data.history := by
      rw [hl, keepLast_keepLast]
    exact recordedStore_history hsame channel r

/-- **When the result of a helper run gets its own entry.** In every state reached from an empty
history, with a save that succeeds: exactly when no entry the history still has was recorded for an
id that begins with this result's. The ids that the daemon makes all have one length, so between
them this is equality; `invalid` is the id that several results may share. -/
theorem ingest_records_iff (decode : Bytes → Option ApplyResult) (encode : ApplyRequest → Bytes)
    {store : UpdateStore} (hempty : store.data.history = []) (requestFile resultFile : PathBuf)
    (file : Option Bytes) (events : List LedgerEvent) (channel : Channel) {env : IngestEnv}
    {r : ApplyResult} (hr : WrittenByHelper r) (hfinds : Finds decode env r)
    (hsaved : env.saved = .ok ()) :
    let l := run (ledgerStep decode encode) (Ledger.start store requestFile resultFile file) events
    AddsEntry decode l.updates channel env r ↔
      ∀ p ∈ l.kept, ¬ r.id.toList <+: p.2.id.toList :=
  addsEntry_iff (ledger_run_ok decode encode hempty requestFile resultFile file events).1 channel
    hr.id hfinds hsaved

/-! ## Two requests that were cut off -/

/-- The request file breaks off after its first byte. -/
def brokenEnv (time : String) : Helper.RunEnv :=
  { Helper.nightEnv with
    started := time
    stat := .ok ⟨true, 1, some 1789790310000000000⟩
    finished := time
    contents := .ok [0x7b] }

def brokenResult (time : String) : ApplyResult :=
  ⟨"invalid", time, time, false, [], some "request refused: not valid JSON", false⟩

@[irreducible] def brokenJson (time : String) : Bytes :=
  asciiBytes "\x7b\n  \"id\": \"invalid\",\n  \"started_at\": \"" ++ (asciiBytes time ++
    (asciiBytes "\",\n  \"finished_at\": \"" ++ asciiBytes time ++
      asciiBytes ("\",\n  \"succeeded\": false,\n  \"packages\": [],\n" ++
        "  \"note\": \"request refused: not valid JSON\",\n  \"reboot_started\": false\n\x7d")))

theorem broken_written (time : String) : WrittenByHelper (brokenResult time) :=
  ⟨fun _ => .ok Helper.nightConfig, fun _ => none, {}, brokenEnv time, defaultResultFile, rfl⟩

def firstNight : String := "2026-09-19T03:59:00Z"

def secondNight : String := "2026-09-26T03:59:00Z"

theorem brokenJson_ne : brokenJson secondNight ≠ brokenJson firstNight := by
  intro h
  unfold brokenJson at h
  have htimes := (List.append_inj (List.append_cancel_left h) (by decide)).1
  exact absurd htimes (by decide)

def brokenDecode (bytes : Bytes) : Option ApplyResult :=
  if bytes = brokenJson firstNight then some (brokenResult firstNight)
  else if bytes = brokenJson secondNight then some (brokenResult secondNight)
  else none

def brokenIngest (time : String) (saved : Except StoreError Unit) : IngestEnv :=
  ⟨.ok ⟨true, 214, none⟩, 0, .ok (brokenJson time), saved⟩

theorem firstNight_finds (saved : Except StoreError Unit) :
    Finds brokenDecode (brokenIngest firstNight saved) (brokenResult firstNight) :=
  ⟨⟨_, rfl, rfl, by decide⟩, _, rfl, if_pos rfl⟩

theorem secondNight_finds (saved : Except StoreError Unit) :
    Finds brokenDecode (brokenIngest secondNight saved) (brokenResult secondNight) :=
  ⟨⟨_, rfl, rfl, by decide⟩, _, rfl, (if_neg brokenJson_ne).trans (if_pos rfl)⟩

/-- A first start with the default paths. -/
def firstStart : Ledger :=
  Ledger.start ⟨some (PathBuf.ofString "/var/lib/abora/updates.json"), StoreData.empty⟩
    (PathBuf.ofString "/var/lib/abora/apply-request.json") defaultResultFile none

def diskFull : StoreError := .io "/var/lib/abora/updates.json" "No space left on device"

/-- A save that failed is made up for by the next ingest. -/
theorem ingest_once_after_disk_full :
    ∃ ch, entryOf (ch, brokenResult firstNight) ∈
      (run (ledgerStep brokenDecode fun _ => []) firstStart
        [.ingest .stable (brokenIngest firstNight (.error diskFull)),
          .ingest .stable (brokenIngest firstNight (.ok ()))]).updates.store.data.history := by
  have hfails : SaveFails firstStart.updates (brokenResult firstNight) (.error diskFull) :=
    { otherwise := ⟨by decide, rfl, .inr rfl⟩
      fails := fun h => by
        rcases h.saved with hnone | hok
        · cases hnone
        · cases hok }
  have hempty : firstStart.updates.store.data.history = [] := rfl
  have hlater := (ingest_once_and_atomic brokenDecode (fun _ => []) hempty
    (PathBuf.ofString "/var/lib/abora/apply-request.json") defaultResultFile none []).2.2
  exact hlater (brokenResult firstNight) .stable (brokenIngest firstNight (.error diskFull)) []
    .stable (brokenIngest firstNight (.ok ())) (firstNight_finds _) hfails
    (fun _ h => (by cases h)) (firstNight_finds _) rfl

/-- The first broken request gets its entry. -/
theorem ingest_records_first_night :
    AddsEntry brokenDecode firstStart.updates .stable (brokenIngest firstNight (.ok ()))
      (brokenResult firstNight) :=
  (ingest_records_iff brokenDecode (fun _ => []) rfl _ _ none [] .stable
    (broken_written firstNight) (firstNight_finds _) rfl).mpr (fun _ h => (by cases h))

/-- **A run of the helper that leaves no entry.** A week later another request is broken: its
result is new, its save would succeed, and it is taken for the one that is already there. -/
theorem second_night_not_recorded :
    ¬ ∀ (decode : Bytes → Option ApplyResult) (encode : ApplyRequest → Bytes) (store : UpdateStore),
      store.data.history = [] → ∀ (requestFile resultFile : PathBuf) (file : Option Bytes)
        (events : List LedgerEvent) (channel : Channel) (env : IngestEnv) (r : ApplyResult),
      let l :=
        run (ledgerStep decode encode) (Ledger.start store requestFile resultFile file) events
      l.recorded.length ≤ maxHistory → WrittenByHelper r → Finds decode env r →
      (∀ p ∈ l.recorded, p.2 ≠ r) → env.saved = .ok () →
      AddsEntry decode l.updates channel env r := by
  intro hall
  let first : LedgerEvent := .ingest .stable (brokenIngest firstNight (.ok ()))
  let l := ledgerStep brokenDecode (fun _ => []) firstStart first
  have hstart : firstStart.HistoryOk := start_historyOk rfl _ _ none
  have hrecorded : l.recorded = [(.stable, brokenResult firstNight)] := by
    have hread := readResult_eq_some_iff (s := firstStart.updates).mpr (firstNight_finds (.ok ()))
    rcases ledger_ingest_cases brokenDecode firstStart .stable (brokenIngest firstNight (.ok ()))
      with ⟨hnot, -, -⟩ | ⟨r, hread', -, -, h⟩
    · exact absurd ⟨by decide, rfl, .inr rfl⟩ (hnot _ hread)
    · rw [hread] at hread'
      cases hread'
      show (firstStart.ingest brokenDecode .stable _).recorded = _
      rw [h]
      rfl
  have hother : ∀ p ∈ l.recorded, p.2 ≠ brokenResult secondNight := by
    intro p hp
    rw [hrecorded, List.mem_singleton] at hp
    rw [hp]
    decide
  have hadds : AddsEntry brokenDecode l.updates .stable (brokenIngest secondNight (.ok ()))
      (brokenResult secondNight) :=
    hall brokenDecode (fun _ => []) _ rfl _ _ none [first] .stable _ _
      (show l.recorded.length ≤ maxHistory by rw [hrecorded]; decide)
      (broken_written secondNight) (secondNight_finds _) hother rfl
  -- both results carry the id `invalid`, and the entry of the first is still there
  have hown := (addsEntry_iff (historyOk_step hstart first) .stable (by decide)
    (secondNight_finds _) rfl).mp hadds
  have hkept : (Channel.stable, brokenResult firstNight) ∈ l.kept := by
    rw [Ledger.kept, hrecorded]
    exact List.mem_singleton_self _
  exact hown _ hkept (List.prefix_refl _)

end Abora.Daemon
