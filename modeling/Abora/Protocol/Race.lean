import Abora.Daemon.Requests
import Abora.Helper.Run

/-!
# Checking and writing are two steps

`requestApply` looks whether a request file is present and, some time later, writes one. There is no
lock between the two, and the HTTP handlers and the scheduler call it at the same time. Here the two
halves are two events, so that any number of calls can be between them (`requestApply_eq` puts them
together again), and a helper run that removes the file may come at any point.

`OneAtATime` is what the check is for. It is kept by every step but one: a write that finds a file
in place overwrites a request whose caller was told `Ok`. `one_at_a_time_iff` says that this is the
whole condition. For the direction from the promise to the condition it has to be seen that somebody
*was* told `Ok` for the file in place, which is the second invariant (`Tracked`).
-/

namespace Abora.Protocol

open Lib Update Daemon

/-- The daemon's calls in flight, and the request file between them. -/
structure Race where
  updates : UpdatesState
  request : Option ApplyRequest
  /-- The calls that passed the check and have not written yet, each with what it will write. -/
  ready : List ApplyRequest
  /-- The ids answered `Ok` since the request file was last removed. -/
  accepted : List String
  answers : List (Except ApplyRefusal ApplyResponse)
  deriving DecidableEq

inductive RaceEvent where
  /-- A refresh, an ingest, a reload: the update state is another one. -/
  | updates (s : UpdatesState)
  /-- A call reads the list, the clock and whether a request is pending. -/
  | check (config : Config) (caller : String) (env : ApplyEnv)
  /-- The `i`-th call that passed its check writes its request. -/
  | write (i : Nat) (written : Except String Unit)
  /-- A helper run ends; it may have failed to remove the file. -/
  | helper (removed : Bool)

/-- The answer of a call whose request is in place. -/
def acceptedAnswer (r : ApplyRequest) : ApplyResponse := ⟨false, true, none, some r.id, r.packages⟩

/-- A check that passes takes with it what it will write: the list and the name are those of its own
moment. -/
def Race.step (s : Race) : RaceEvent → Race
  | .updates u => { s with updates := u }
  | .check config caller env =>
    match s.updates.block config s.request.isSome env.localTime with
    | some reason => { s with answers := s.answers ++ [.error (.conflict reason)] }
    | none => { s with ready := s.ready ++ [s.updates.request caller env] }
  | .write i written =>
    match s.ready[i]? with
    | none => s
    | some r =>
      match written with
      | .error e =>
        { s with
          ready := s.ready.eraseIdx i
          answers := s.answers ++
            [.error (.internal s!"could not write the apply request: {e}")] }
      -- the rename replaces whatever is in place
      | .ok () =>
        { s with
          request := some r
          ready := s.ready.eraseIdx i
          accepted := s.accepted ++ [r.id]
          answers := s.answers ++ [.ok (acceptedAnswer r)] }
  | .helper removed => if removed then { s with request := none, accepted := [] } else s

def Race.start (updates : UpdatesState) : Race := ⟨updates, none, [], [], []⟩

/-- **The two halves are the whole call**: a check directly followed by its own write puts in place
and answers what `requestApply` does. -/
theorem requestApply_eq (s : Race) (config : Config) (caller : String) (env : ApplyEnv) :
    let call := s.updates.requestApply config caller false
      { env with pending := s.request.isSome }
    let s' := run Race.step s [.check config caller env, .write s.ready.length env.written]
    s'.request = call.2.or s.request ∧ s'.ready = s.ready ∧ s'.answers = s.answers ++ [call.1] := by
  intro call s'
  have hs' : s' = (s.step (.check config caller env)).step (.write s.ready.length env.written) :=
    rfl
  rcases requestApply_cases s.updates config caller { env with pending := s.request.isSome } with
    ⟨reason, hblock, hcall⟩ | ⟨hblock, hend⟩
  · have hcheck : s.step (.check config caller env) =
        { s with answers := s.answers ++ [.error (.conflict reason)] } := by
      simp only [Race.step]
      rw [show s.updates.block config s.request.isSome env.localTime = some reason from hblock]
    have hnone : s.ready[s.ready.length]? = none := by simp
    rw [hs', hcheck]
    simp only [Race.step, hnone]
    exact ⟨by simp [call, hcall], trivial, by simp [call, hcall]⟩
  · have hcheck : s.step (.check config caller env) =
        { s with ready := s.ready ++ [s.updates.request caller env] } := by
      simp only [Race.step]
      rw [show s.updates.block config s.request.isSome env.localTime = none from hblock]
    have hlast : (s.ready ++ [s.updates.request caller env])[s.ready.length]? =
        some (s.updates.request caller env) := by simp
    have herase : (s.ready ++ [s.updates.request caller env]).eraseIdx s.ready.length =
        s.ready := by simp [List.eraseIdx_append_of_length_le]
    rw [hs', hcheck]
    rcases hend with ⟨e, hwritten, hcall⟩ | ⟨hwritten, hcall⟩
    · have hwritten : env.written = .error e := hwritten
      simp only [Race.step, hlast, hwritten, herase]
      exact ⟨by simp [call, hcall], trivial, by simp [call, hcall]⟩
    · have hwritten : env.written = .ok () := hwritten
      simp only [Race.step, hlast, hwritten, herase]
      exact ⟨by simp [call, hcall, UpdatesState.request], trivial,
        by simp [call, hcall, acceptedAnswer, UpdatesState.request]⟩

/-! ## One apply at a time -/

/-- What the pending check promises: one accepted call between two removals, its request in the
file, and a conflict for everyone else. -/
structure OneAtATime (s : Race) : Prop where
  /-- At most one call is accepted between two removals of the file. -/
  one : s.accepted.length ≤ 1
  /-- An accepted call's own request is in the file until it is removed. -/
  own : ∀ id ∈ s.accepted, ∃ r, s.request = some r ∧ r.id = id
  /-- Every call that is not accepted is a conflict. -/
  others : ∀ a ∈ s.answers, ∀ refusal, a = .error refusal → ∃ m, refusal = .conflict m

/-- A write goes well and finds no request in place. -/
def WritesAlone (s : Race) : RaceEvent → Prop
  | .write i written => ∀ r, s.ready[i]? = some r → written = .ok () ∧ s.request = none
  | _ => True

/-- Somebody was told `Ok` for the file in place, and for no other. -/
def Tracked (s : Race) : Prop := s.request = none ↔ s.accepted = []

theorem step_write_ok {s : Race} {i : Nat} {r : ApplyRequest} (hr : s.ready[i]? = some r) :
    s.step (.write i (.ok ())) =
      ⟨s.updates, some r, s.ready.eraseIdx i, s.accepted ++ [r.id],
        s.answers ++ [.ok (acceptedAnswer r)]⟩ := by
  simp only [Race.step, hr]

/-- A write that goes well fills the file and accepts a call, a removal empties both. -/
theorem tracked_step {s : Race} (hs : Tracked s) (ev : RaceEvent) : Tracked (s.step ev) := by
  cases ev with
  | updates u => exact hs
  | check config caller env =>
    simp only [Race.step]
    split <;> exact hs
  | write i written =>
    simp only [Race.step]
    split
    · exact hs
    · cases written with
      | error e => exact hs
      | ok u => simp [Tracked]
  | helper removed =>
    cases removed with
    | true => exact ⟨fun _ => rfl, fun _ => rfl⟩
    | false => exact hs

theorem one_at_a_time_keep {s : Race} (ht : Tracked s) (hs : OneAtATime s) {ev : RaceEvent}
    (hev : WritesAlone s ev) : OneAtATime (s.step ev) := by
  cases ev with
  | updates u => exact ⟨hs.one, hs.own, hs.others⟩
  | check config caller env =>
    simp only [Race.step]
    split
    · next reason hblock =>
      refine ⟨hs.one, hs.own, fun a ha refusal h => ?_⟩
      rcases List.mem_append.mp ha with ha | ha
      · exact hs.others a ha refusal h
      · rw [List.mem_singleton.mp ha, Except.error.injEq] at h
        exact ⟨reason, h.symm⟩
    · exact ⟨hs.one, hs.own, hs.others⟩
  | write i written =>
    cases hr : s.ready[i]? with
    | none =>
      simp only [Race.step, hr]
      exact hs
    | some r =>
      obtain ⟨rfl, hnone⟩ := hev r hr
      have hempty : s.accepted = [] := ht.mp hnone
      rw [step_write_ok hr]
      refine ⟨?_, fun id hid => ?_, fun a ha refusal h => ?_⟩
      · simp [hempty]
      · simp only [hempty, List.nil_append, List.mem_singleton] at hid
        exact ⟨r, rfl, hid.symm⟩
      · rcases List.mem_append.mp ha with ha | ha
        · exact hs.others a ha refusal h
        · rw [List.mem_singleton.mp ha] at h
          cases h
  | helper removed =>
    cases removed with
    | true => exact ⟨Nat.zero_le 1, fun id hid => absurd hid List.not_mem_nil, hs.others⟩
    | false => exact hs

/-- A write that finds a request in place accepts a second call, so the promise is broken at
once. -/
theorem one_at_a_time_break {s : Race} (ht : Tracked s) {ev : RaceEvent}
    (hnext : OneAtATime (s.step ev)) : WritesAlone s ev := by
  cases ev with
  | updates u => trivial
  | check config caller env => trivial
  | helper removed => trivial
  | write i written =>
    intro r hr
    cases written with
    | error e =>
      simp only [Race.step, hr] at hnext
      obtain ⟨m, hm⟩ := hnext.others _ (List.mem_append_right _ (List.mem_singleton.mpr rfl)) _ rfl
      cases hm
    | ok u =>
      rw [step_write_ok hr] at hnext
      refine ⟨rfl, ht.mpr ?_⟩
      have hone : (s.accepted ++ [r.id]).length ≤ 1 := hnext.one
      rw [List.length_append, List.length_singleton] at hone
      exact List.length_eq_zero_iff.mp (by omega)

/-- **When there is one apply at a time**: over every interleaving of calls, helper runs and changes
of the update state, exactly when no write fails or finds another request in place. -/
theorem one_at_a_time_iff (updates : UpdatesState) (events : List RaceEvent) :
    (∀ s ∈ visited Race.step (Race.start updates) events, OneAtATime s) ↔
      Guarded Race.step WritesAlone (Race.start updates) events :=
  have htracked : Tracked (Race.start updates) := ⟨fun _ => rfl, fun _ => rfl⟩
  have hstart : OneAtATime (Race.start updates) :=
    { one := Nat.zero_le 1
      own := fun _ hid => absurd hid List.not_mem_nil
      others := fun _ ha => absurd ha List.not_mem_nil }
  forall_visited_iff_guarded (I := Tracked) (fun _ ev ht => tracked_step ht ev)
    (fun _ _ ht hs hev => one_at_a_time_keep ht hs hev)
    (fun _ _ ht _ hnext => one_at_a_time_break ht hnext) htracked hstart events

def oneListed : UpdatesState :=
  { UpdatesState.host UpdateStore.inMemory (PathBuf.ofString "/var/lib/abora/apply-request.json")
      (PathBuf.ofString "/var/lib/abora-apply/result.json") with
    available := [⟨.stable, Version.new 3 0 14, "openssl",
      "openssl: 3.0.13 -> 3.0.14 (Ubuntu:24.04/noble-updates [amd64])", none, 0, none, none⟩] }

def nightCall (hash : UInt64) : ApplyEnv :=
  ⟨false, some ⟨.saturday, 200⟩, hash, "2026-09-19T03:20:00Z", .ok ()⟩

/-- **Two calls can both be accepted**: an operator's and the scheduler's, checked one after the
other and written one after the other. -/
theorem both_calls_accepted :
    ¬ ∀ (updates : UpdatesState) (events : List RaceEvent),
        ∀ s ∈ visited Race.step (Race.start updates) events, OneAtATime s := by
  intro h
  have hlast := h oneListed
    [.check Helper.nightConfig "ops" (nightCall 0xa1), .check Helper.nightConfig "scheduler" (nightCall 0xb2),
      .write 0 (.ok ()), .write 0 (.ok ())] _ (run_mem_visited _ _)
  exact absurd hlast.one (by decide)

end Abora.Protocol
