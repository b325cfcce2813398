import Abora.Lib.Run
import Abora.Lib.Lists
import Abora.Lib.Commit
import Abora.Lib.Files
import Abora.Lib.Path
import Abora.Update.Types

/-!
# The update store (`abora-update/src/store.rs`)

History, last check and pending reboot, in one JSON file. This module is the store as its callers
see it: what `open` makes of a file, and what the three recording calls do when the save behind them
succeeds or fails. How a save touches the disk is `Abora.Update.Save`, and what is in the file is
`Abora.Update.Decode` and `Abora.Update.Encode`; here both are arguments.

What the store is *for* is a log that nothing but a successful call changes. The unbounded log is
`StoreData` edited by `Call.edit` and never trimmed; `perform_run` says that the store after any
sequence of calls is the trim of it. The three recording calls are one `change` with three edits, so
whatever is said of them is said once, of `perform` (`perform_cases`).

The trim commutes with the edits in the sense that a trim before an edit is not visible after the
one that follows it (`trim_edit_trim`). That is the one fact about the bound that the refinement
rests on; everything else would hold of a store that never forgets.
-/

namespace Abora.Update

open Abora.Lib

def schemaVersion : Nat := 1

/-- How many history entries are kept: the newest ones. The source trims when it opens a file as
well as after every edit. -/
def maxHistory : Nat := 500

/-- What is saved to disk. History is stored oldest first and shown newest first (`history`). -/
structure StoreData where
  schema : Nat
  lastCheck : Option String
  reboot : RebootStatus
  history : List UpdateHistoryEntry
  deriving DecidableEq, Repr

def StoreData.empty : StoreData := ⟨schemaVersion, none, RebootStatus.none, []⟩

/-- How the store came to its data: there was no file, there was one, or there was one that did not
parse. -/
inductive Opened where
  | fresh
  | loaded
  /-- The file did not parse. It was moved to `backup` and the store starts empty. -/
  | recovered (backup : PathBuf)
  deriving DecidableEq, Repr

/-- A save that failed, or a file whose schema this build does not know. The second one keeps the
store from opening at all. -/
inductive StoreError where
  | io (path message : String)
  | newerSchema (path : String) (found supported : Nat)
  deriving DecidableEq, Repr

def StoreError.text : StoreError → String
  | .io path message => s!"update store I/O error at {path}: {message}"
  | .newerSchema path found supported =>
    s!"update store {path} was written by a newer version (schema {found}, this build understands {supported}); refusing to overwrite it"

def ioErr (path : PathBuf) (e : IoError) : StoreError := .io path.display e.message

/-- The persistent store; `path` is `none` for an in-memory one, which never fails to save. -/
structure UpdateStore where
  path : Option PathBuf
  data : StoreData
  deriving DecidableEq, Repr

/-- Drop the oldest entries over the bound. It is the identity on data within the bound, so opening
an ordinary file changes nothing. -/
def trim (data : StoreData) : StoreData :=
  if data.history.length > maxHistory then
    { data with history := data.history.drop (data.history.length - maxHistory) }
  else data

namespace UpdateStore

def inMemory : UpdateStore := ⟨none, StoreData.empty⟩

/-- `open`: what the read of the file answered, and — for a file that does not parse — what
moving it aside did. -/
def «open» (decode : Bytes → Option StoreData) (path : PathBuf) (read : Except IoError Bytes)
    (moved : Except IoError Unit) : Except StoreError (UpdateStore × Opened) :=
  match read with
  | .ok bytes =>
    match decode bytes with
    | some data =>
      if data.schema > schemaVersion then
        .error (.newerSchema path.display data.schema schemaVersion)
      else .ok (⟨some path, trim data⟩, .loaded)
    | none =>
      match moved with
      | .error e => .error (ioErr path e)
      | .ok () => .ok (⟨some path, trim StoreData.empty⟩, .recovered (path.push ".corrupt"))
  | .error e =>
    if e.kind = .notFound then .ok (⟨some path, trim StoreData.empty⟩, .fresh)
    else .error (ioErr path e)

def snapshot (s : UpdateStore) : StoreData := s.data

/-- History, newest first, as the API presents it. -/
def history (s : UpdateStore) : List UpdateHistoryEntry := s.data.history.reverse

def lastCheck (s : UpdateStore) : Option String := s.data.lastCheck

def reboot (s : UpdateStore) : RebootStatus := s.data.reboot

/-- Apply `edit` to a copy, save it, and only then make it the live state. `saved` is what
`save` answers if it is called: an in-memory store has nothing to save. -/
def change (s : UpdateStore) (edit : StoreData → StoreData) (saved : Except StoreError Unit) :
    UpdateStore × Except StoreError Unit :=
  let next := trim (edit s.data)
  -- `next` is dropped when it could not be saved
  match s.path, saved with
  | some _, .error e => (s, .error e)
  | _, _ => ({ s with data := next }, .ok ())

def recordCheck (s : UpdateStore) (when_ : String) : Except StoreError Unit →
    UpdateStore × Except StoreError Unit :=
  s.change fun d => { d with lastCheck := some when_ }

def recordUpdate (s : UpdateStore) (entry : UpdateHistoryEntry) : Except StoreError Unit →
    UpdateStore × Except StoreError Unit :=
  s.change fun d => { d with history := d.history ++ [entry] }

def setReboot (s : UpdateStore) (status : RebootStatus) : Except StoreError Unit →
    UpdateStore × Except StoreError Unit :=
  s.change fun d => { d with reboot := status }

end UpdateStore

/-! ## Trimming -/

@[simp] theorem trim_history (d : StoreData) :
    (trim d).history = keepLast maxHistory d.history := by
  unfold trim
  by_cases h : d.history.length > maxHistory
  · rw [if_pos h, keepLast]
  · rw [if_neg h, keepLast_eq_self (Nat.le_of_not_lt h)]

@[simp] theorem trim_schema (d : StoreData) : (trim d).schema = d.schema := by
  unfold trim
  split <;> rfl

@[simp] theorem trim_lastCheck (d : StoreData) : (trim d).lastCheck = d.lastCheck := by
  unfold trim
  split <;> rfl

@[simp] theorem trim_reboot (d : StoreData) : (trim d).reboot = d.reboot := by
  unfold trim
  split <;> rfl

theorem StoreData.eq_of_fields {a b : StoreData} (hs : a.schema = b.schema)
    (hc : a.lastCheck = b.lastCheck) (hr : a.reboot = b.reboot) (hh : a.history = b.history) :
    a = b := by
  cases a
  cases b
  simp_all

theorem trim_trim (d : StoreData) : trim (trim d) = trim d :=
  StoreData.eq_of_fields (by simp) (by simp) (by simp) (by simp [keepLast_keepLast])

/-! ## The three calls as one -/

/-- The three recording calls, as data. `perform` is the call itself, and `Call.edit` what it is
for. -/
inductive Call where
  | check (when_ : String)
  | update (entry : UpdateHistoryEntry)
  | reboot (status : RebootStatus)
  deriving DecidableEq, Repr

/-- What the call does to the unbounded log. None of the three touches a field that is another's. -/
def Call.edit : Call → StoreData → StoreData
  | .check when_, d => { d with lastCheck := some when_ }
  | .update entry, d => { d with history := d.history ++ [entry] }
  | .reboot status, d => { d with reboot := status }

def UpdateStore.perform (s : UpdateStore) (call : Call) (saved : Except StoreError Unit) :
    UpdateStore × Except StoreError Unit :=
  match call with
  | .check when_ => s.recordCheck when_ saved
  | .update entry => s.recordUpdate entry saved
  | .reboot status => s.setReboot status saved

theorem perform_eq_change (s : UpdateStore) (call : Call) (saved : Except StoreError Unit) :
    s.perform call saved = s.change call.edit saved := by
  cases call <;> rfl

/-- A call together with what the save behind it answered. A run of the store is a list of these. -/
abbrev Attempt := Call × Except StoreError Unit

def attemptStep (s : UpdateStore) (a : Attempt) : UpdateStore := (s.perform a.1 a.2).1

/-- Whether the call went through: its save succeeded, or there was nothing to save. -/
def Attempt.saved (path : Option PathBuf) (a : Attempt) : Bool := path.isNone || a.2.isOk

/-- **One call**: it answers `Err` exactly when its save failed, and then nothing changed; otherwise
the edited and trimmed copy is the state. Every fact about runs is drawn from this case split and
not from the definition of `change`. -/
theorem perform_cases (s : UpdateStore) (call : Call) (saved : Except StoreError Unit) :
    (∃ e, s.path ≠ none ∧ saved = .error e ∧ s.perform call saved = (s, .error e)) ∨
      ((s.path = none ∨ saved = .ok ()) ∧
        s.perform call saved = (⟨s.path, trim (call.edit s.data)⟩, .ok ())) := by
  rw [perform_eq_change]
  obtain ⟨path, data⟩ := s
  cases path with
  | none => exact .inr ⟨.inl rfl, by cases saved <;> rfl⟩
  | some path =>
    cases saved with
    | error e => exact .inl ⟨e, by simp, rfl, rfl⟩
    | ok u => exact .inr ⟨.inr rfl, rfl⟩

theorem perform_path (s : UpdateStore) (call : Call) (saved : Except StoreError Unit) :
    (s.perform call saved).1.path = s.path := by
  rcases perform_cases s call saved with ⟨e, -, -, h⟩ | ⟨-, h⟩ <;> rw [h]

/-- The call commits its edit exactly when it went through. This is where the store becomes an
instance of `Abora.Lib.Commit`, whose run lemma does the induction. -/
theorem attemptStep_eq_commit (path : Option PathBuf) (d : StoreData) (a : Attempt) :
    attemptStep ⟨path, d⟩ a = ⟨path, commit trim a.1.edit (a.saved path) d⟩ := by
  obtain ⟨call, saved⟩ := a
  rcases perform_cases ⟨path, d⟩ call saved with ⟨e, hpath, rfl, h⟩ | ⟨hor, h⟩
  · have hfalse : Attempt.saved path (call, .error e) = false := by
      cases path with
      | none => exact absurd rfl hpath
      | some p => rfl
    rw [attemptStep, h, hfalse, commit_false]
  · have htrue : Attempt.saved path (call, saved) = true := by
      rcases hor with hpath | rfl
      · rw [show path = none from hpath]
        rfl
      · cases path <;> rfl
    rw [attemptStep, h, htrue, commit_true]

/-! ## What opening yields -/

/-- The data behind the answer of the read: an absent or unparseable file counts as empty, which is
what makes `open_ok` one statement and not three. -/
def storedData (decode : Bytes → Option StoreData) (read : Except IoError Bytes) : StoreData :=
  match read with
  | .ok bytes => (decode bytes).getD StoreData.empty
  | .error _ => StoreData.empty

/-- A store that opened has the trimmed data of its file, whose schema is one this build
understands. -/
theorem open_ok {decode : Bytes → Option StoreData} {path : PathBuf}
    {read : Except IoError Bytes} {moved : Except IoError Unit} {s : UpdateStore} {o : Opened}
    (h : UpdateStore.open decode path read moved = .ok (s, o)) :
    s = ⟨some path, trim (storedData decode read)⟩ ∧
      (storedData decode read).schema ≤ schemaVersion := by
  unfold UpdateStore.open at h
  cases read with
  | error e =>
    simp only at h
    split at h
    · cases h
      exact ⟨rfl, Nat.le_refl _⟩
    · cases h
  | ok bytes =>
    cases hdec : decode bytes with
    | none =>
      simp only [hdec] at h
      cases moved with
      | error e => cases h
      | ok u =>
        cases h
        simp only [storedData, hdec]
        exact ⟨rfl, Nat.le_refl _⟩
    | some data =>
      simp only [hdec] at h
      by_cases hnew : data.schema > schemaVersion
      · rw [if_pos hnew] at h
        cases h
      · rw [if_neg hnew] at h
        cases h
        simp only [storedData, hdec]
        exact ⟨rfl, Nat.le_of_not_lt hnew⟩

/-- Moving a damaged file aside decides whether the store opens, not what it opens with. -/
theorem open_moved {decode : Bytes → Option StoreData} {path : PathBuf}
    {read : Except IoError Bytes} {moved : Except IoError Unit} {so : UpdateStore × Opened}
    (h : UpdateStore.open decode path read moved = .ok so) :
    UpdateStore.open decode path read (.ok ()) = .ok so := by
  unfold UpdateStore.open at h ⊢
  cases read with
  | error e => exact h
  | ok bytes =>
    cases hdec : decode bytes with
    | some data =>
      simp only [hdec] at h ⊢
      exact h
    | none =>
      simp only [hdec] at h ⊢
      cases moved with
      | error e => cases h
      | ok u => exact h

/-- How a store comes into being, and the data it starts from: empty in memory, or opened from a
path with any answer of the read. -/
inductive Starts (decode : Bytes → Option StoreData) : UpdateStore → StoreData → Prop where
  | inMemory : Starts decode UpdateStore.inMemory StoreData.empty
  | opened {path : PathBuf} {read : Except IoError Bytes} {moved : Except IoError Unit}
      {s : UpdateStore} {o : Opened} (h : UpdateStore.open decode path read moved = .ok (s, o)) :
      Starts decode s (storedData decode read)

theorem Starts.data {decode : Bytes → Option StoreData} {s : UpdateStore} {d : StoreData}
    (h : Starts decode s d) : s.data = trim d := by
  cases h with
  | inMemory => rfl
  | opened h => rw [(open_ok h).1]

/-! ## The store is a bounded log -/

def Call.entry? : Call → Option UpdateHistoryEntry
  | .update entry => some entry
  | _ => none

def Call.when? : Call → Option String
  | .check when_ => some when_
  | _ => none

def Call.status? : Call → Option RebootStatus
  | .reboot status => some status
  | _ => none

/-- The unbounded log after a sequence of calls, in the order they were made. -/
def edits (calls : List Call) (d : StoreData) : StoreData :=
  calls.foldl (fun d call => call.edit d) d

/-- The history of the log is what was there, followed by the entries of the calls that carry
one. -/
theorem edits_history (calls : List Call) (d : StoreData) :
    (edits calls d).history = d.history ++ calls.filterMap Call.entry? := by
  induction calls generalizing d with
  | nil => simp [edits]
  | cons call calls ih =>
    rw [edits, List.foldl_cons, ← edits, ih]
    cases call <;> simp [Call.edit, Call.entry?, List.filterMap_cons]

/-- The last check of the log is the one recorded last, or the one it started with. -/
theorem edits_lastCheck (calls : List Call) (d : StoreData) :
    (edits calls d).lastCheck = (calls.filterMap Call.when?).getLast?.or d.lastCheck := by
  refine foldl_or_getLast? (fun d call => ?_) calls d
  cases call <;> rfl

theorem edits_reboot (calls : List Call) (d : StoreData) :
    (edits calls d).reboot = (calls.filterMap Call.status?).getLast?.getD d.reboot := by
  have hstep (d : StoreData) (call : Call) :
      some (call.edit d).reboot = call.status?.or (some d.reboot) := by
    cases call <;> rfl
  have hall := foldl_or_getLast? (f := fun d : StoreData => some d.reboot) hstep calls d
  rw [Option.or_some] at hall
  exact Option.some.inj hall

/-- A trim before an edit is not visible after the trim that follows it: what it dropped, the second
one would have dropped as well. -/
theorem trim_edit_trim (call : Call) (d : StoreData) :
    trim (call.edit (trim d)) = trim (call.edit d) := by
  refine StoreData.eq_of_fields ?_ ?_ ?_ ?_
  · cases call <;> simp [Call.edit]
  · cases call <;> simp [Call.edit]
  · cases call <;> simp [Call.edit]
  · cases call with
    | update entry => simp [Call.edit, keepLast_append_left]
    | check when_ => simp [Call.edit, keepLast_keepLast]
    | reboot status => simp [Call.edit, keepLast_keepLast]

/-- The calls of a run that went through. -/
def recorded (path : Option PathBuf) (attempts : List Attempt) : List Call :=
  successful (attempts.map fun a => (a.1, a.saved path))

theorem run_attempts_eq_foldl (path : Option PathBuf) (d : StoreData) (attempts : List Attempt) :
    run attemptStep ⟨path, d⟩ attempts =
      ⟨path, (attempts.map fun a => (a.1, a.saved path)).foldl
        (fun d a => commit trim a.1.edit a.2 d) d⟩ := by
  induction attempts generalizing d with
  | nil => rfl
  | cons a as ih =>
    rw [run_cons, attemptStep_eq_commit, ih]
    rfl

/-- **The run of a store is the trim of the unbounded log of its successful calls.** The library's
run lemma does the induction over the attempts; what is proved here is that an edit may be made
before or after a trim. -/
theorem perform_run (path : Option PathBuf) (d : StoreData) (attempts : List Attempt) :
    run attemptStep ⟨path, trim d⟩ attempts = ⟨path, trim (edits (recorded path attempts) d)⟩ := by
  rw [run_attempts_eq_foldl]
  exact congrArg (UpdateStore.mk path) (foldl_commit trim_edit_trim _ d)

/-- Taking the failed attempts out of a run does not change what was recorded in it. -/
theorem recorded_filter (path : Option PathBuf) (attempts : List Attempt) :
    recorded path (attempts.filter (Attempt.saved path)) = recorded path attempts := by
  induction attempts with
  | nil => rfl
  | cons a as ih =>
    cases h : a.saved path with
    | true => simpa [recorded, h] using ih
    | false => simpa [recorded, h] using ih

/-- What a call must leave alone: every field but its own, and the schema in any case. -/
def Call.Frame : Call → StoreData → StoreData → Prop
  | .check _, d, d' => d'.schema = d.schema ∧ d'.reboot = d.reboot ∧ d'.history = d.history
  | .update _, d, d' => d'.schema = d.schema ∧ d'.reboot = d.reboot ∧ d'.lastCheck = d.lastCheck
  | .reboot _, d, d' =>
    d'.schema = d.schema ∧ d'.lastCheck = d.lastCheck ∧ d'.history = d.history

/-- On data within the bound a call changes its own field and nothing else. Without the bound it
would not be true of a check, whose trim might drop entries. -/
theorem perform_frame {s : UpdateStore} (hs : trim s.data = s.data) (call : Call)
    (saved : Except StoreError Unit) : call.Frame s.data (s.perform call saved).1.data := by
  have hhist : keepLast maxHistory s.data.history = s.data.history := by
    rw [← trim_history, hs]
  rcases perform_cases s call saved with ⟨e, -, -, h⟩ | ⟨-, h⟩
  · rw [h]
    cases call <;> exact ⟨rfl, rfl, rfl⟩
  · rw [h]
    cases call <;> simp [Call.Frame, Call.edit, hhist]

/-- Along a run the path stays the same and the data stays within the bound. -/
theorem visited_trimmed {path : Option PathBuf} {d : StoreData} {attempts : List Attempt}
    {t : UpdateStore} (ht : t ∈ visited attemptStep ⟨path, trim d⟩ attempts) :
    t.path = path ∧ trim t.data = t.data := by
  refine visited_invariant (I := fun s => s.path = path ∧ trim s.data = s.data) ?_
    ⟨rfl, trim_trim d⟩ attempts t ht
  rintro ⟨p, d⟩ a ⟨rfl, hd⟩
  rw [attemptStep_eq_commit]
  refine ⟨rfl, ?_⟩
  cases a.saved p with
  | false => exact hd
  | true => exact trim_trim _

/-- **The store is a bounded log, whatever saves fail.** Every call of a run answers `Err` exactly
when its save failed and touches no field but its own; the state is the one the successful calls
alone lead to, which is the trim of the log that was never trimmed. The per-call half is
`perform_cases` at every visited state, the other half `perform_run` at the last one. -/
theorem store_refines_bounded_log {decode : Bytes → Option StoreData} {s₀ : UpdateStore}
    {d₀ : StoreData} (h₀ : Starts decode s₀ d₀) (attempts : List Attempt) :
    let s := run attemptStep s₀ attempts
    let calls := recorded s₀.path attempts
    let log := d₀.history ++ calls.filterMap Call.entry?
    (∀ t ∈ visited attemptStep s₀ attempts, ∀ a : Attempt,
        ((∃ e, (t.perform a.1 a.2).2 = .error e) ↔ t.path ≠ none ∧ ∃ e, a.2 = .error e) ∧
        a.1.Frame t.data (attemptStep t a).data ∧ (attemptStep t a).path = t.path) ∧
      s = run attemptStep s₀ (attempts.filter (Attempt.saved s₀.path)) ∧
      s.data = trim (edits calls d₀) ∧
      s.history = (keepLast maxHistory log).reverse ∧
      s.history.length = min maxHistory log.length ∧
      s.lastCheck = (calls.filterMap Call.when?).getLast?.or d₀.lastCheck ∧
      s.reboot = (calls.filterMap Call.status?).getLast?.getD d₀.reboot := by
  intro s calls log
  obtain ⟨path, data⟩ := s₀
  obtain rfl : data = trim d₀ := h₀.data
  have hs : s = ⟨path, trim (edits calls d₀)⟩ := perform_run path d₀ attempts
  have hhist : s.history = (keepLast maxHistory log).reverse := by
    rw [hs, UpdateStore.history, trim_history, edits_history]
  refine ⟨?_, ?_, by rw [hs], hhist, ?_, ?_, ?_⟩
  · intro t ht a
    obtain ⟨-, htrim⟩ := visited_trimmed ht
    refine ⟨?_, perform_frame htrim a.1 a.2, perform_path t a.1 a.2⟩
    rcases perform_cases t a.1 a.2 with ⟨e, hpath, hsave, h⟩ | ⟨hor, h⟩
    · rw [h]
      exact ⟨fun _ => ⟨hpath, e, hsave⟩, fun _ => ⟨e, rfl⟩⟩
    · rw [h]
      refine ⟨fun ⟨e, he⟩ => (by cases he), fun ⟨hpath, e, he⟩ => ?_⟩
      rcases hor with hnone | hok
      · exact absurd hnone hpath
      · rw [hok] at he
        cases he
  · rw [perform_run, recorded_filter]
    exact hs
  · rw [hhist, List.length_reverse, length_keepLast]
  · rw [hs, UpdateStore.lastCheck, trim_lastCheck, edits_lastCheck]
  · rw [hs, UpdateStore.reboot, trim_reboot, edits_reboot]

/-- A fresh store, one failed save in the middle: the entry it carried is not in the history. -/
theorem store_refines_bounded_log_fresh :
    let path := PathBuf.ofString "/var/lib/abora/updates.json"
    let entry (component : String) : UpdateHistoryEntry :=
      ⟨"2026-09-20T10:00:00Z", Version.new 0 4 0, Version.new 0 5 0, .stable, component, true, none⟩
    (run attemptStep ⟨some path, StoreData.empty⟩
        [(.check "2026-09-20T09:00:00Z", .ok ()), (.update (entry "curl"), .ok ()),
          (.update (entry "bash"), .error (.io path.display "disk full")),
          (.update (entry "zlib"), .ok ())]).history = [entry "zlib", entry "curl"] := by
  intro path entry
  have h₀ : Starts (fun _ => none) ⟨some path, StoreData.empty⟩ StoreData.empty :=
    Starts.opened (show UpdateStore.open (fun _ => none) path (.error ⟨.notFound, "not found"⟩)
      (.ok ()) = .ok (⟨some path, StoreData.empty⟩, .fresh) from rfl)
  exact (store_refines_bounded_log h₀ _).2.2.2.1.trans (by decide)

end Abora.Update
