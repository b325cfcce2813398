import Abora.Lib.Run

/-!
# Signals (`signal_and_watch_loop` in `aborad/src/main.rs`)

The loop waits in one `select!` over three futures that are built anew for every wait, and the tick
of an interval that is not. `Fut` is what such a future is between two polls. Polling it for the
first time creates its listener; a listener hears what is delivered from then on; and whatever it
has heard is gone when another branch wins, because the futures that lose are dropped.

So what becomes of a signal depends on where it arrives. `Honoured` says that none was lost: every
termination has made the loop leave or is still in a listener's ear, and every `SIGHUP` that found
the loop waiting has been reloaded for or still may be. `signals_honoured_iff` says on which runs
that is so.

The three futures are written by hand in the source and differ in what they do when their listener
cannot be created, and in what they do after they have heard something: two are ready, and one goes
on to wait for nothing. Each has its own poll here, and `pollAll_created` and `pollAll_armed` are
what the `select!` makes of them, whichever branch it starts at. Everything after that is about one
poll of the whole, `poll_cases`.
-/

namespace Abora.Daemon

open Abora.Lib

inductive Signal where
  | hup | term | int
  deriving DecidableEq, Repr

/-- The branches of the `select!`, in the order they are written. -/
inductive Branch where
  | ctrlC | terminate | hangup | watch
  deriving DecidableEq, Repr

/-- A future of the `select!` between two polls. -/
inductive Fut where
  /-- Not polled yet: there is no listener. -/
  | created
  /-- Waiting in `recv`; `heard` is whether something was delivered since the listener exists. -/
  | listening (heard : Bool)
  /-- Waiting in `pending`. -/
  | parked
  deriving DecidableEq, Repr

inductive Polled where
  | pending (f : Fut)
  | ready
  /-- The poll does not return. -/
  | spins
  deriving DecidableEq, Repr

/-- `ctrl_c()`; it is ready at once, with an error, if the listener cannot be created. -/
def pollCtrlC (registers : Bool) : Fut → Polled
  | .created => if registers then .pending (.listening false) else .ready
  | .listening heard => if heard then .ready else .pending (.listening false)
  | .parked => .pending .parked

/-- `terminate`; without a listener its loop has nothing to await, and the poll does not return. -/
def pollTerminate (registers : Bool) : Fut → Polled
  | .created => if registers then .pending (.listening false) else .spins
  | .listening heard => if heard then .ready else .pending (.listening false)
  | .parked => .pending .parked

/-- `hangup`; what comes after its `recv` is never ready, with or without a signal. -/
def pollHangup (registers : Bool) : Fut → Polled
  | .created => .pending (if registers then .listening false else .parked)
  | .listening heard => .pending (if heard then .parked else .listening false)
  | .parked => .pending .parked

structure Futures where
  ctrlC : Fut
  terminate : Fut
  hangup : Fut
  deriving DecidableEq, Repr

def Futures.created : Futures := ⟨.created, .created, .created⟩

/-- What the poll of the whole `select!` answers. -/
inductive Turn where
  | pending (fs : Futures)
  | won (b : Branch)
  | spins
  deriving DecidableEq, Repr

def Polled.turn (b : Branch) (set : Fut → Futures) : Polled → Turn
  | .pending f => .pending (set f)
  | .ready => .won b
  | .spins => .spins

/-- One branch. The tick is the interval's, which outlives the wait. -/
def pollBranch (registers : Branch → Bool) (due : Bool) (fs : Futures) : Branch → Turn
  | .ctrlC => (pollCtrlC (registers .ctrlC) fs.ctrlC).turn .ctrlC fun f => { fs with ctrlC := f }
  | .terminate =>
    (pollTerminate (registers .terminate) fs.terminate).turn .terminate
      fun f => { fs with terminate := f }
  | .hangup =>
    (pollHangup (registers .hangup) fs.hangup).turn .hangup fun f => { fs with hangup := f }
  | .watch => if due then .won .watch else .pending fs

/-- The branches one after another, up to the first that does not answer `pending`. -/
def pollAll (registers : Branch → Bool) (due : Bool) : List Branch → Futures → Turn
  | [], fs => .pending fs
  | b :: bs, fs =>
    match pollBranch registers due fs b with
    | .pending fs => pollAll registers due bs fs
    | turn => turn

/-- `select!` starts at a random branch and goes round. -/
def pollOrder : Branch → List Branch
  | .ctrlC => [.ctrlC, .terminate, .hangup, .watch]
  | .terminate => [.terminate, .hangup, .watch, .ctrlC]
  | .hangup => [.hangup, .watch, .ctrlC, .terminate]
  | .watch => [.watch, .ctrlC, .terminate, .hangup]

inductive Phase where
  /-- Outside the `select!`: before the first wait, or in the body of a branch. -/
  | body
  | waiting (fs : Futures)
  /-- Out of the loop, the shutdown message sent. -/
  | left
  | spinning
  deriving DecidableEq, Repr

/-- Where the loop is, and what it has done. -/
structure SignalLoop where
  phase : Phase
  /-- The interval has a tick to give. -/
  due : Bool
  /-- The branches whose body called `reload`, oldest first. -/
  reloads : List Branch
  deriving DecidableEq, Repr

inductive LoopEvent where
  | deliver (sig : Signal)
  /-- The next deadline of the interval passes. -/
  | tick
  /-- The task is polled: it goes on with the `select!` it waits in, or finishes the body it is in
  and enters the next one. `changed` is whether a watched file is found changed. -/
  | poll (start : Branch) (registers : Branch → Bool) (changed : Bool)

def Fut.hear : Fut → Fut
  | .listening _ => .listening true
  | f => f

def Futures.hear (fs : Futures) : Signal → Futures
  | .hup => { fs with hangup := fs.hangup.hear }
  | .term => { fs with terminate := fs.terminate.hear }
  | .int => { fs with ctrlC := fs.ctrlC.hear }

/-- What the loop does with the answer of the `select!`. Every branch but a pending one drops the
futures. -/
def SignalLoop.resolve (s : SignalLoop) (changed : Bool) : Turn → SignalLoop
  | .pending fs => { s with phase := .waiting fs }
  | .won .ctrlC => { s with phase := .left }
  | .won .terminate => { s with phase := .left }
  | .won .hangup => { s with phase := .body, reloads := s.reloads ++ [.hangup] }
  | .won .watch =>
    { phase := .body, due := false
      reloads := if changed then s.reloads ++ [.watch] else s.reloads }
  | .spins => { s with phase := .spinning }

def loopStep (s : SignalLoop) : LoopEvent → SignalLoop
  | .deliver sig =>
    match s.phase with
    | .waiting fs => { s with phase := .waiting (fs.hear sig) }
    -- there is no listener, and a later one does not hear of it
    | _ => s
  | .tick => { s with due := true }
  | .poll start registers changed =>
    match s.phase with
    | .body =>
      s.resolve changed (pollAll registers s.due (pollOrder start) Futures.created)
    | .waiting fs => s.resolve changed (pollAll registers s.due (pollOrder start) fs)
    | .left => s
    | .spinning => s

/-! ## Which signals are still owed something -/

/-- The loop, and whether it still owes something for a signal. The debt is kept outside of it. -/
structure Tracked where
  loop : SignalLoop
  /-- A `SIGHUP` found the loop waiting and no reload was made for it yet. -/
  owedHup : Bool
  /-- A `SIGTERM` or Ctrl-C was delivered. -/
  owedTerm : Bool
  deriving DecidableEq, Repr

def Phase.isWaiting : Phase → Bool
  | .waiting _ => true
  | _ => false

/-- A `SIGHUP` is owed something only if it found the loop waiting; a termination always is. -/
def trackedStep (t : Tracked) (ev : LoopEvent) : Tracked where
  loop := loopStep t.loop ev
  owedHup :=
    match ev with
    | .deliver .hup => t.owedHup || t.loop.phase.isWaiting
    | .poll _ _ _ =>
      t.owedHup && !decide ((loopStep t.loop ev).reloads = t.loop.reloads ++ [.hangup])
    | _ => t.owedHup
  owedTerm :=
    match ev with
    | .deliver .term => true
    | .deliver .int => true
    | _ => t.owedTerm

/-- The loop is about to wait for the first time; the first tick of an interval is immediate. -/
def Tracked.start : Tracked := ⟨⟨.body, true, []⟩, false, false⟩

def Futures.get (fs : Futures) : Branch → Fut
  | .ctrlC => fs.ctrlC
  | .terminate => fs.terminate
  | .hangup => fs.hangup
  | .watch => .parked

/-- The branch's listener has heard a signal no poll has seen yet. -/
def Futures.Heard (fs : Futures) (b : Branch) : Prop := fs.get b = .listening true

instance (fs : Futures) (b : Branch) : Decidable (fs.Heard b) := inferInstanceAs (Decidable (_ = _))

/-- No signal was lost so far. -/
structure Honoured (t : Tracked) : Prop where
  /-- The reload can still come of the wait the `SIGHUP` interrupted. -/
  hup : t.owedHup = true → ∃ fs, t.loop.phase = .waiting fs ∧ fs.Heard .hangup
  term : t.owedTerm = true → t.loop.phase = .left ∨
    ∃ fs, t.loop.phase = .waiting fs ∧ (fs.Heard .ctrlC ∨ fs.Heard .terminate)

/-- The branches that are asked before the interval is. -/
def beforeWatch (start : Branch) : List Branch := (pollOrder start).takeWhile (· ≠ .watch)

/-- A poll makes the loop leave: a termination was heard, and no tick is taken first. Which is first
is where the `select!` starts. -/
def Leaves (start : Branch) (due : Bool) (fs : Futures) : Prop :=
  ∃ b, (b = .ctrlC ∨ b = .terminate) ∧ fs.Heard b ∧ (due = true → b ∈ beforeWatch start)

/-- Where a signal may arrive, and what a poll may find. For each event it is the exact condition
under which it loses nothing. -/
def Heeds (t : Tracked) : LoopEvent → Prop
  | .deliver .hup => ∀ fs, t.loop.phase = .waiting fs → fs.hangup ≠ .parked
  | .deliver .term => t.loop.phase = .left ∨ ∃ fs, t.loop.phase = .waiting fs
  | .deliver .int => t.loop.phase = .left ∨ ∃ fs, t.loop.phase = .waiting fs
  | .tick => True
  | .poll start _ _ => ∀ fs, t.loop.phase = .waiting fs →
      ¬ fs.Heard .hangup ∧
        (fs.Heard .ctrlC ∨ fs.Heard .terminate → Leaves start t.loop.due fs)

/-! ## One poll -/

/-- A wait that is past its first poll: the two terminations have listeners. -/
def Armed (fs : Futures) : Prop :=
  ∃ a b, fs.ctrlC = .listening a ∧ fs.terminate = .listening b ∧ fs.hangup ≠ .created

/-- Nothing was heard by the time the wait went to sleep. This is what a pending poll leaves
behind. -/
def Quiet (fs : Futures) : Prop :=
  Armed fs ∧ ¬ fs.Heard .hangup ∧ ¬ fs.Heard .ctrlC ∧ ¬ fs.Heard .terminate

theorem Quiet.not_term {fs : Futures} (h : Quiet fs) :
    ¬ (fs.Heard .ctrlC ∨ fs.Heard .terminate) := by
  rintro (hheard | hheard)
  · exact h.2.2.1 hheard
  · exact h.2.2.2 hheard

theorem quiet_of_pending {h : Fut} (hc : h ≠ .created) (hl : h ≠ .listening true) :
    Quiet ⟨.listening false, .listening false, h⟩ := by
  refine ⟨⟨false, false, rfl, rfl, hc⟩, hl, ?_, ?_⟩
  · intro hheard
    cases hheard
  · intro hheard
    cases hheard

theorem leaves_iff {start : Branch} {due a b : Bool} {h : Fut} :
    Leaves start due ⟨.listening a, .listening b, h⟩ ↔
      (a = true ∧ (due = true → .ctrlC ∈ beforeWatch start)) ∨
        (b = true ∧ (due = true → .terminate ∈ beforeWatch start)) := by
  constructor
  · rintro ⟨b, rfl | rfl, hheard, hbefore⟩
    · exact .inl ⟨Fut.listening.inj hheard, hbefore⟩
    · exact .inr ⟨Fut.listening.inj hheard, hbefore⟩
  · rintro (⟨rfl, hbefore⟩ | ⟨rfl, hbefore⟩)
    · exact ⟨.ctrlC, .inl rfl, rfl, hbefore⟩
    · exact ⟨.terminate, .inr rfl, rfl, hbefore⟩

/-- Entering the `select!`: it sleeps and has heard nothing, or a branch wins at once, or the poll
does not return. -/
theorem pollAll_created (registers : Branch → Bool) (due : Bool) (start : Branch) :
    (∃ fs, pollAll registers due (pollOrder start) Futures.created = .pending fs ∧ Quiet fs) ∨
      pollAll registers due (pollOrder start) Futures.created = .won .ctrlC ∨
      pollAll registers due (pollOrder start) Futures.created = .won .watch ∨
      pollAll registers due (pollOrder start) Futures.created = .spins := by
  have hparked := quiet_of_pending (h := .parked) (by simp) (by simp)
  have hquiet := quiet_of_pending (h := .listening false) (by simp) (by simp)
  cases hc : registers .ctrlC <;> cases ht : registers .terminate <;>
    cases hh : registers .hangup <;> cases due <;> cases start <;>
    simp [pollAll, pollOrder, pollBranch, Futures.created, Polled.turn, pollCtrlC, pollTerminate,
      pollHangup, hc, ht, hh, hparked, hquiet]

/-- Going on with one: the loop leaves exactly when `Leaves` says so, and otherwise it takes a
tick, or nothing terminal was heard and it sleeps on. -/
theorem pollAll_armed {fs : Futures} (hfs : Armed fs) (registers : Branch → Bool) (due : Bool)
    (start : Branch) :
    ((pollAll registers due (pollOrder start) fs = .won .ctrlC ∨
        pollAll registers due (pollOrder start) fs = .won .terminate) ∧ Leaves start due fs) ∨
      (pollAll registers due (pollOrder start) fs = .won .watch ∧ ¬ Leaves start due fs) ∨
      ∃ fs', pollAll registers due (pollOrder start) fs = .pending fs' ∧ Quiet fs' ∧
        ¬ (fs.Heard .ctrlC ∨ fs.Heard .terminate) := by
  obtain ⟨c, t, h⟩ := fs
  obtain ⟨a, b, rfl, rfl, hh⟩ := hfs
  have hparked := quiet_of_pending (h := .parked) (by simp) (by simp)
  have hquiet := quiet_of_pending (h := .listening false) (by simp) (by simp)
  cases h with
  | created => exact absurd rfl hh
  | parked =>
    cases a <;> cases b <;> cases due <;> cases start <;>
      simp [pollAll, pollOrder, pollBranch, Polled.turn, pollCtrlC, pollTerminate, pollHangup,
        leaves_iff, beforeWatch, Futures.Heard, Futures.get, hparked]
  | listening heard =>
    cases heard <;> cases a <;> cases b <;> cases due <;> cases start <;>
      simp [pollAll, pollOrder, pollBranch, Polled.turn, pollCtrlC, pollTerminate, pollHangup,
        leaves_iff, beforeWatch, Futures.Heard, Futures.get, hparked, hquiet]

/-- **What a poll does to the loop.** No reload of its comes from the `hangup` branch. -/
theorem poll_cases {s : SignalLoop} (harmed : ∀ fs, s.phase = .waiting fs → Armed fs)
    (start : Branch) (registers : Branch → Bool) (changed : Bool) :
    let s' := loopStep s (.poll start registers changed)
    s'.reloads ≠ s.reloads ++ [.hangup] ∧
      (((s.phase = .left ∨ s.phase = .spinning) ∧ s' = s) ∨
        (∃ fs', s'.phase = .waiting fs' ∧ Quiet fs' ∧
          ∀ fs, s.phase = .waiting fs → ¬ (fs.Heard .ctrlC ∨ fs.Heard .terminate)) ∨
        (s'.phase = .left ∧ ∀ fs, s.phase = .waiting fs → Leaves start s.due fs) ∨
        ((s'.phase = .body ∨ s'.phase = .spinning) ∧
          ∀ fs, s.phase = .waiting fs → ¬ Leaves start s.due fs)) := by
  intro s'
  obtain ⟨phase, due, reloads⟩ := s
  have hwatch : (if changed then reloads ++ [.watch] else reloads) ≠ reloads ++ [.hangup] := by
    cases changed <;> simp
  cases phase with
  | left => exact ⟨by simp [s', loopStep], .inl ⟨.inl rfl, rfl⟩⟩
  | spinning => exact ⟨by simp [s', loopStep], .inl ⟨.inr rfl, rfl⟩⟩
  -- the futures are new, so none of them can have heard anything
  | body =>
    have hs' : s' = SignalLoop.resolve ⟨.body, due, reloads⟩ changed
        (pollAll registers due (pollOrder start) Futures.created) := rfl
    rcases pollAll_created registers due start with ⟨fs, h, hq⟩ | h | h | h
    · rw [hs', h]
      exact ⟨by simp [SignalLoop.resolve], .inr (.inl ⟨fs, rfl, hq, fun fs h => by cases h⟩)⟩
    · rw [hs', h]
      exact ⟨by simp [SignalLoop.resolve], .inr (.inr (.inl ⟨rfl, fun fs h => by cases h⟩))⟩
    · rw [hs', h]
      exact ⟨hwatch, .inr (.inr (.inr ⟨.inl rfl, fun fs h => by cases h⟩))⟩
    · rw [hs', h]
      exact ⟨by simp [SignalLoop.resolve],
        .inr (.inr (.inr ⟨.inr rfl, fun fs h => by cases h⟩))⟩
  -- what was heard while the loop slept decides, from the branch that is asked first
  | waiting fs =>
    have hs' : s' = SignalLoop.resolve ⟨.waiting fs, due, reloads⟩ changed
        (pollAll registers due (pollOrder start) fs) := rfl
    rcases pollAll_armed (harmed fs rfl) registers due start with
      ⟨h | h, hleaves⟩ | ⟨h, hstays⟩ | ⟨fs', h, hq, hunheard⟩
    · rw [hs', h]
      exact ⟨by simp [SignalLoop.resolve],
        .inr (.inr (.inl ⟨rfl, fun fs h => by cases h; exact hleaves⟩))⟩
    · rw [hs', h]
      exact ⟨by simp [SignalLoop.resolve],
        .inr (.inr (.inl ⟨rfl, fun fs h => by cases h; exact hleaves⟩))⟩
    · rw [hs', h]
      exact ⟨hwatch, .inr (.inr (.inr ⟨.inl rfl, fun fs h => by cases h; exact hstays⟩))⟩
    · rw [hs', h]
      exact ⟨by simp [SignalLoop.resolve],
        .inr (.inl ⟨fs', rfl, hq, fun fs h => by cases h; exact hunheard⟩)⟩

/-! ## The invariant -/

/-- A listener hears only what was delivered. The invariant of every run, honoured or not. -/
structure LoopOk (t : Tracked) : Prop where
  armed : ∀ fs, t.loop.phase = .waiting fs → Armed fs
  hup : ∀ fs, t.loop.phase = .waiting fs → fs.Heard .hangup → t.owedHup = true
  term : ∀ fs, t.loop.phase = .waiting fs → fs.Heard .ctrlC ∨ fs.Heard .terminate →
    t.owedTerm = true

theorem start_ok : LoopOk Tracked.start :=
  ⟨fun _ h => (by cases h), fun _ h => (by cases h), fun _ h => (by cases h)⟩

theorem hear_ne_created {f : Fut} (h : f ≠ .created) : f.hear ≠ .created := by
  cases f with
  | created => exact absurd rfl h
  | listening heard => simp [Fut.hear]
  | parked => simp [Fut.hear]

theorem Armed.hear {fs : Futures} (h : Armed fs) (sig : Signal) : Armed (fs.hear sig) := by
  obtain ⟨a, b, hc, ht, hh⟩ := h
  cases sig with
  | hup => exact ⟨a, b, hc, ht, hear_ne_created hh⟩
  | term => exact ⟨a, true, hc, by simp [Futures.hear, ht, Fut.hear], hh⟩
  | int => exact ⟨true, b, by simp [Futures.hear, hc, Fut.hear], ht, hh⟩

theorem deliver_loop (s : SignalLoop) (sig : Signal) :
    (∃ fs, s.phase = .waiting fs ∧
        loopStep s (.deliver sig) = { s with phase := .waiting (fs.hear sig) }) ∨
      ((∀ fs, s.phase ≠ .waiting fs) ∧ loopStep s (.deliver sig) = s) := by
  obtain ⟨phase, due, reloads⟩ := s
  cases phase with
  | waiting fs => exact .inl ⟨fs, rfl, rfl⟩
  | body => exact .inr ⟨fun _ h => (by cases h), rfl⟩
  | left => exact .inr ⟨fun _ h => (by cases h), rfl⟩
  | spinning => exact .inr ⟨fun _ h => (by cases h), rfl⟩

@[simp] theorem trackedStep_loop (t : Tracked) (ev : LoopEvent) :
    (trackedStep t ev).loop = loopStep t.loop ev := rfl

/-- A wait that is still on after a poll has heard nothing. -/
theorem poll_quiet {s : SignalLoop} (harmed : ∀ fs, s.phase = .waiting fs → Armed fs)
    {start : Branch} {registers : Branch → Bool} {changed : Bool} {fs : Futures}
    (hw : (loopStep s (.poll start registers changed)).phase = .waiting fs) : Quiet fs := by
  obtain ⟨-, ⟨hend, hsame⟩ | ⟨fs', hw', hq, -⟩ | ⟨hw', -⟩ | ⟨hw', -⟩⟩ :=
    poll_cases harmed start registers changed
  · rw [hsame] at hw
    rcases hend with hend | hend
    · rw [hend] at hw
      cases hw
    · rw [hend] at hw
      cases hw
  · rw [hw'] at hw
    rw [← Phase.waiting.inj hw]
    exact hq
  · rw [hw'] at hw
    cases hw
  · rcases hw' with hw' | hw'
    · rw [hw'] at hw
      cases hw
    · rw [hw'] at hw
      cases hw

theorem trackedStep_ok {t : Tracked} (ht : LoopOk t) (ev : LoopEvent) :
    LoopOk (trackedStep t ev) := by
  cases ev with
  | tick => exact ⟨ht.armed, ht.hup, ht.term⟩
  | deliver sig =>
    rcases deliver_loop t.loop sig with ⟨fs, hw, h⟩ | ⟨hnot, h⟩
    · have hphase : ∀ fs', (trackedStep t (.deliver sig)).loop.phase = .waiting fs' →
          fs' = fs.hear sig := by
        intro fs' hw'
        rw [trackedStep_loop, h] at hw'
        exact (Phase.waiting.inj hw').symm
      refine ⟨fun fs' hw' => ?_, fun fs' hw' hheard => ?_, fun fs' hw' hheard => ?_⟩
      · rw [hphase fs' hw']
        exact (ht.armed fs hw).hear sig
      · rw [hphase fs' hw'] at hheard
        cases sig with
        | hup => simp [trackedStep, hw, Phase.isWaiting]
        | term => exact ht.hup fs hw hheard
        | int => exact ht.hup fs hw hheard
      · rw [hphase fs' hw'] at hheard
        cases sig with
        | hup => exact ht.term fs hw hheard
        | term => rfl
        | int => rfl
    · have hphase : ∀ fs', (trackedStep t (.deliver sig)).loop.phase ≠ .waiting fs' := by
        intro fs' hw'
        rw [trackedStep_loop, h] at hw'
        exact hnot fs' hw'
      exact ⟨fun fs' hw' => absurd hw' (hphase fs'), fun fs' hw' => absurd hw' (hphase fs'),
        fun fs' hw' => absurd hw' (hphase fs')⟩
  | poll start registers changed =>
    have hquiet : ∀ fs, (trackedStep t (.poll start registers changed)).loop.phase = .waiting fs →
        Quiet fs := fun fs hw => poll_quiet ht.armed hw
    refine ⟨fun fs hw => (hquiet fs hw).1, fun fs hw h => ?_, fun fs hw h => ?_⟩
    · exact absurd h (hquiet fs hw).2.1
    · exact absurd h (hquiet fs hw).not_term

/-! ## One step of the promise -/

/-- A `SIGHUP` that finds the loop waiting is heard, unless the listener was never created. What is
heard is not yet answered. -/
theorem deliver_hup_iff {t : Tracked} (ht : LoopOk t) (h : Honoured t) :
    Honoured (trackedStep t (.deliver .hup)) ↔ Heeds t (.deliver .hup) := by
  -- a loop that sleeps hears it unless the branch has parked, and then waits for ever
  rcases deliver_loop t.loop .hup with ⟨fs, hw, hloop⟩ | ⟨hnot, hloop⟩
  · have howed : (trackedStep t (.deliver .hup)).owedHup = true := by
      simp [trackedStep, hw, Phase.isWaiting]
    have hheard : (fs.hear .hup).Heard .hangup ↔ fs.hangup ≠ .parked := by
      obtain ⟨a, b, -, -, hcreated⟩ := ht.armed fs hw
      obtain ⟨c, m, g⟩ := fs
      cases g with
      | created => exact absurd rfl hcreated
      | listening heard => simp [Futures.Heard, Futures.get, Futures.hear, Fut.hear]
      | parked => simp [Futures.Heard, Futures.get, Futures.hear, Fut.hear]
    constructor
    · intro hnext fs' hw'
      rw [hw] at hw'
      cases hw'
      obtain ⟨fs', hw', hg⟩ := hnext.hup howed
      rw [trackedStep_loop, hloop] at hw'
      cases hw'
      exact hheard.mp hg
    · intro hheeds
      refine ⟨fun _ => ⟨fs.hear .hup, by rw [trackedStep_loop, hloop], ?_⟩, fun howedTerm => ?_⟩
      · exact hheard.mpr (hheeds fs hw)
      · rcases h.term howedTerm with hleft | ⟨fs', hw', hg⟩
        · rw [hw] at hleft
          cases hleft
        · rw [hw] at hw'
          cases hw'
          exact .inr ⟨fs.hear .hup, by rw [trackedStep_loop, hloop], hg⟩
  · have hphase : t.loop.phase.isWaiting = false := by
      cases hp : t.loop.phase with
      | waiting fs => exact absurd hp (hnot fs)
      | body => rfl
      | left => rfl
      | spinning => rfl
    refine ⟨fun _ fs hw => absurd hw (hnot fs), fun _ => ⟨fun howed => ?_, fun howed => ?_⟩⟩
    · rw [trackedStep_loop, hloop]
      exact h.hup (by simpa [trackedStep, hphase] using howed)
    · rw [trackedStep_loop, hloop]
      exact h.term howed

/-- A termination is heard exactly while the loop waits, and needs no hearing after it left. -/
theorem deliver_term_iff {t : Tracked} (ht : LoopOk t) (h : Honoured t) {sig : Signal}
    (hsig : sig = .term ∨ sig = .int) :
    Honoured (trackedStep t (.deliver sig)) ↔
      t.loop.phase = .left ∨ ∃ fs, t.loop.phase = .waiting fs := by
  have howed : (trackedStep t (.deliver sig)).owedTerm = true := by
    rcases hsig with rfl | rfl
    · rfl
    · rfl
  have hhup : (trackedStep t (.deliver sig)).owedHup = t.owedHup := by
    rcases hsig with rfl | rfl
    · rfl
    · rfl
  -- a loop that sleeps has its listeners out; any other has none that the signal could reach
  rcases deliver_loop t.loop sig with ⟨fs, hw, hloop⟩ | ⟨hnot, hloop⟩
  · refine ⟨fun _ => .inr ⟨fs, hw⟩, fun _ => ⟨fun howedHup => ?_, fun _ => .inr ?_⟩⟩
    · rw [hhup] at howedHup
      obtain ⟨fs', hw', hg⟩ := h.hup howedHup
      rw [hw] at hw'
      cases hw'
      refine ⟨fs.hear sig, by rw [trackedStep_loop, hloop], ?_⟩
      rcases hsig with rfl | rfl
      · exact hg
      · exact hg
    · obtain ⟨a, b, hc, hterm, -⟩ := ht.armed fs hw
      refine ⟨fs.hear sig, by rw [trackedStep_loop, hloop], ?_⟩
      rcases hsig with rfl | rfl
      · exact .inr (by simp [Futures.Heard, Futures.get, Futures.hear, hterm, Fut.hear])
      · exact .inl (by simp [Futures.Heard, Futures.get, Futures.hear, hc, Fut.hear])
  · constructor
    · intro hnext
      have hend := hnext.term howed
      rw [trackedStep_loop, hloop] at hend
      rcases hend with hleft | ⟨fs, hw, -⟩
      · exact .inl hleft
      · exact .inr ⟨fs, hw⟩
    · rintro (hleft | ⟨fs, hw⟩)
      · refine ⟨fun howedHup => ?_, fun _ => .inl (by rw [trackedStep_loop, hloop, hleft])⟩
        rw [hhup] at howedHup
        rw [trackedStep_loop, hloop]
        exact h.hup howedHup
      · exact absurd hw (hnot fs)

/-- A loop that is neither waiting nor out has no termination to answer for. -/
theorem Honoured.not_owed {t : Tracked} (h : Honoured t)
    (hout : t.loop.phase = .body ∨ t.loop.phase = .spinning) : t.owedTerm ≠ true := by
  intro howed
  rcases h.term howed with hleft | ⟨fs, hw, -⟩
  · rcases hout with hout | hout
    · rw [hout] at hleft
      cases hleft
    · rw [hout] at hleft
      cases hleft
  · rcases hout with hout | hout
    · rw [hout] at hw
      cases hw
    · rw [hout] at hw
      cases hw

/-- A poll keeps the promise exactly when it finds no `SIGHUP` and leaves for a termination, if it
finds one. -/
theorem poll_iff {t : Tracked} (ht : LoopOk t) (h : Honoured t) (start : Branch)
    (registers : Branch → Bool) (changed : Bool) :
    Honoured (trackedStep t (.poll start registers changed)) ↔
      Heeds t (.poll start registers changed) := by
  obtain ⟨hreload, hcases⟩ := poll_cases ht.armed start registers changed
  have howed : (trackedStep t (.poll start registers changed)).owedHup = t.owedHup := by
    simp [trackedStep, hreload]
  have hquiet : ∀ fs, (trackedStep t (.poll start registers changed)).loop.phase = .waiting fs →
      Quiet fs := fun fs hw => poll_quiet ht.armed hw
  have hgoing {fs : Futures} (hw : t.loop.phase = .waiting fs) :
      ¬ (t.loop.phase = .left ∨ t.loop.phase = .spinning) := by
    rw [hw]
    simp
  constructor
  · intro hnext fs hw
    refine ⟨fun hg => ?_, fun hterm => ?_⟩
    · -- the reload that is owed never comes: the future parks, or is dropped
      obtain ⟨fs', hw', hg'⟩ := hnext.hup (howed.trans (ht.hup fs hw hg))
      exact (hquiet fs' hw').2.1 hg'
    · rcases hcases with ⟨hend, -⟩ | ⟨fs', hw', -, hunheard⟩ | ⟨-, hleaves⟩ | ⟨hout, -⟩
      · exact absurd hend (hgoing hw)
      · exact absurd hterm (hunheard fs hw)
      · exact hleaves fs hw
      · exact absurd (ht.term fs hw hterm) (hnext.not_owed hout)
  · intro hheeds
    refine ⟨fun howedHup => ?_, fun howedTerm => ?_⟩
    · rw [howed] at howedHup
      obtain ⟨fs, hw, hg⟩ := h.hup howedHup
      exact absurd hg (hheeds fs hw).1
    · rcases h.term howedTerm with hleft | ⟨fs, hw, hg⟩
      · refine .inl ?_
        rw [trackedStep_loop, loopStep, hleft]
        exact hleft
      · have hleaves := (hheeds fs hw).2 hg
        rcases hcases with ⟨hend, -⟩ | ⟨fs', hw', -, hunheard⟩ | ⟨hleft, -⟩ | ⟨-, hstays⟩
        · exact absurd hend (hgoing hw)
        · exact absurd hg (hunheard fs hw)
        · exact .inl hleft
        · exact absurd hleaves (hstays fs hw)

theorem honoured_step_iff {t : Tracked} (ht : LoopOk t) (h : Honoured t) (ev : LoopEvent) :
    Honoured (trackedStep t ev) ↔ Heeds t ev := by
  cases ev with
  | tick => exact ⟨fun _ => trivial, fun _ => ⟨h.hup, h.term⟩⟩
  | poll start registers changed => exact poll_iff ht h start registers changed
  | deliver sig =>
    cases sig with
    | hup => exact deliver_hup_iff ht h
    | term => exact deliver_term_iff ht h (.inl rfl)
    | int => exact deliver_term_iff ht h (.inr rfl)

/-! ## Runs -/

/-- **When no signal is lost.** In every run: exactly when no poll finds a `SIGHUP` in its listener
(and none arrives where there is no listener), every termination is delivered while the loop waits,
and no tick is taken before it. On such runs the poll after a termination leaves. The equivalence is
one step's (`honoured_step_iff`), carried along the run with `LoopOk`. -/
theorem signals_honoured_iff (events : List LoopEvent) :
    ((∀ t ∈ visited trackedStep Tracked.start events, Honoured t) ↔
        Guarded trackedStep Heeds Tracked.start events) ∧
      (Guarded trackedStep Heeds Tracked.start events →
        ∀ t ∈ visited trackedStep Tracked.start events, t.owedTerm = true →
          ∀ start registers changed, Heeds t (.poll start registers changed) →
            (trackedStep t (.poll start registers changed)).loop.phase = .left) := by
  have hstart : Honoured Tracked.start := ⟨fun h => (by cases h), fun h => (by cases h)⟩
  have hiff := forall_visited_iff_guarded (I := LoopOk) (P := Honoured) (G := Heeds)
    (fun t ev ht => trackedStep_ok ht ev)
    (fun t ev ht h hg => (honoured_step_iff ht h ev).mpr hg)
    (fun t ev ht h hnext => (honoured_step_iff ht h ev).mp hnext)
    start_ok hstart events
  refine ⟨hiff, fun hg t hmem howed start registers changed hheeds => ?_⟩
  have hok := visited_invariant (I := LoopOk) (fun t ev ht => trackedStep_ok ht ev) start_ok events
    t hmem
  have hnext := (honoured_step_iff hok (hiff.mpr hg t hmem) _).mpr hheeds
  rcases hnext.term howed with hleft | ⟨fs, hw, hheard⟩
  · exact hleft
  · exact absurd hheard (poll_quiet hok.armed hw).not_term

/-- The first tick is immediate; after it the loop is asleep in its second wait. -/
def fallAsleep : List LoopEvent :=
  [.poll .watch (fun _ => true) false, .poll .watch (fun _ => true) false]

/-- A `SIGTERM` that finds the loop asleep makes it leave. -/
theorem signals_honoured_term :
    let t := run trackedStep Tracked.start (fallAsleep ++ [.deliver .term])
    Honoured t ∧ (trackedStep t (.poll .ctrlC (fun _ => true) false)).loop.phase = .left := by
  intro t
  let asleep : Futures := ⟨.listening false, .listening false, .listening false⟩
  have hasleep : run trackedStep Tracked.start fallAsleep =
      ⟨⟨.waiting asleep, false, []⟩, false, false⟩ := by decide
  have ht : t = ⟨⟨.waiting (asleep.hear .term), false, []⟩, false, true⟩ := by decide
  have hguard : Guarded trackedStep Heeds Tracked.start (fallAsleep ++ [.deliver .term]) := by
    refine ⟨fun _ h => (by cases h), fun _ h => (by cases h), ?_, trivial⟩
    exact .inr ⟨asleep, by decide⟩
  obtain ⟨hiff, hleft⟩ := signals_honoured_iff (fallAsleep ++ [.deliver .term])
  have hmem : t ∈ visited trackedStep Tracked.start (fallAsleep ++ [.deliver .term]) :=
    run_mem_visited _ _
  refine ⟨hiff.mpr hguard _ hmem, hleft hguard _ hmem (by decide) _ _ _ fun fs hw => ?_⟩
  have hfs : fs = asleep.hear .term := by
    have hw : t.loop.phase = .waiting fs := hw
    rw [ht] at hw
    exact (Phase.waiting.inj hw).symm
  subst hfs
  refine ⟨by decide, fun _ => ⟨.terminate, .inr rfl, by decide, fun _ => by decide⟩⟩

/-- **Three signals that are lost**: a `SIGHUP` that finds the loop asleep, a `SIGTERM` that comes
while a reload is running, and a `SIGTERM` that is heard just before a tick that is taken first. -/
theorem signals_lost :
    let registers : Branch → Bool := fun _ => true
    let after (events : List LoopEvent) := run trackedStep Tracked.start (fallAsleep ++ events)
    (¬ Honoured (after [.deliver .hup, .poll .ctrlC registers false]) ∧
      ¬ Honoured (after [.tick, .poll .ctrlC registers true, .deliver .term]) ∧
      ¬ Honoured (after [.deliver .term, .tick, .poll .watch registers true])) ∧
      ¬ ∀ events, ∀ t ∈ visited trackedStep Tracked.start events, Honoured t := by
  intro registers after
  have hhup : ¬ Honoured (after [.deliver .hup, .poll .ctrlC registers false]) := by
    have hend : after [.deliver .hup, .poll .ctrlC registers false] =
        ⟨⟨.waiting ⟨.listening false, .listening false, .parked⟩, false, []⟩, true, false⟩ := by
      decide
    rw [hend]
    intro h
    obtain ⟨fs, hw, hheard⟩ := h.hup rfl
    cases hw
    cases hheard
  have hbody : ∀ t : Tracked, t.owedTerm = true → t.loop.phase = .body → ¬ Honoured t :=
    fun t howed hphase h => h.not_owed (.inl hphase) howed
  refine ⟨⟨hhup, hbody _ (by decide) (by decide), hbody _ (by decide) (by decide)⟩, fun hall => ?_⟩
  exact hhup (hall _ _ (run_mem_visited _ _))

end Abora.Daemon
