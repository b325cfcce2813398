import Abora.Boot.Screen
import Abora.Lib.Decimal
import Abora.Lib.Run
import Abora.Lib.Utf8

/-!
# The boot program at work (`abora-boot/src/main.rs`)

Two threads read the sources of the log and send lines to the main one, which echoes what came from
init, pushes every line to the screen and redraws it after a batch. When an event comes is left
open: a record of the kernel, some bytes written to the FIFO, the next turn of the main thread.

Whatever the order, the lines that were taken are the first of those that were sent; the echo and
the screen are what these lines make of them, however they were batched (`loop_shows`), and once
nothing new comes the rest follows (`caught_up`).

The invariant is `Took`: the state of the program from the lines it took. One turn takes a line off
the queue or none (`turn_took`), any other event adds to the end of it, and so over a whole run what
was sent is what was taken and what is waiting (`run_took`). That the waiting part becomes empty is
a matter of counting turns (`turns_ahead`).
-/

namespace Abora.Boot

open Lib
open Lib.Text

/-- `Source`: who has a line to say. -/
inductive Source where
  | kernel
  | init
  deriving DecidableEq, Repr

structure Line where
  source : Source
  text : String
  deriving DecidableEq, Repr

/-- `{:>w}`. -/
def leftPadded (w : Nat) (s : Chars) : Chars := List.replicate (w - s.length) ' ' ++ s

/-- How a record of the kernel is shown, from its time in microseconds: the seconds and three digits
behind the point. -/
def stamped (usec : Nat) (message : Chars) : Chars :=
  ['['] ++ leftPadded 5 (Nat.toDigits 10 (usec / 1000000)) ++ ['.'] ++
    zeroPadded 3 (usec / 1000 % 1000) ++ [']', ' '] ++ trimEnd message

/-- `parse_kmsg`: the third of the fields before the semicolon is the time. A record that is not of
this form is not shown. -/
def parseKmsg (record : String) : Option String := do
  let first ← (lines record.toList)[0]?
  let (fields, message) ← splitOnce ';' first
  let usec ← parseUnsigned 64 (← (splitAll ',' fields)[2]?)
  some (String.ofList (stamped usec message))

/-- `BufReader::lines` up to the first error: what came behind the last newline, and the lines
before. After a line that was not text nothing is read any more. -/
def readFifo : Option Bytes → Bytes → Option Bytes × List String
  | none, _ => (none, [])
  | some pending, [] => (some pending, [])
  | some pending, b :: bs =>
    if b = 0x0A then
      match fromUtf8 pending with
      | none => (none, [])
      | some text =>
        let (pending, texts) := readFifo (some []) bs
        (pending, String.ofList (dropCr text.toList) :: texts)
    else readFifo (some (pending ++ [b])) bs

/-- What may come next. Neither thread waits for the other, so any order of these is a run. -/
inductive Event where
  /-- One read of `/dev/kmsg`, as text. -/
  | record (text : String)
  /-- The ring buffer has overtaken the reader, or ended. -/
  | lost
  /-- Bytes written to the FIFO, read at once. -/
  | written (bytes : Bytes)
  /-- The main thread goes on. -/
  | turn

/-- Where the main thread is in its loop. -/
inductive Phase where
  | waiting
  /-- In the batch, with so many lines behind the first one. -/
  | batch (taken : Nat)
  | ended
  deriving DecidableEq, Repr

/-- The threads and the channel between them. The screen is there unless there is no framebuffer,
and `echoed` is what has been printed to the serial console so far. -/
structure Program where
  /-- What the FIFO thread has read of the next line, unless it has ended. -/
  fifo : Option Bytes
  /-- The thread that reads the ring buffer is there. -/
  kmsg : Bool
  queue : List Line
  phase : Phase
  screen : Option Screen
  echoed : List String

namespace Program

/-- What `run` sets up; either thread may end because it cannot open its source. -/
def start (fifoOpens kmsgOpens : Bool) (screen : Option Screen) : Program :=
  ⟨if fifoOpens then some [] else none, kmsgOpens, [], .waiting, screen, []⟩

/-- The body of the loop over a batch. What the kernel says is on the serial console already, so
only the lines of init are echoed. -/
def handle (p : Program) (line : Line) : Program :=
  { p with
    echoed := if line.source = .init then p.echoed ++ [line.text] else p.echoed
    screen := p.screen.map fun screen => screen.push line.text }

/-- The end of a batch. -/
def redraw (p : Program) : Program :=
  { p with screen := p.screen.map Screen.draw, phase := .waiting }

/-- One turn of the main thread. It waits as long as the queue is empty, and ends when nobody is
left who could send; a batch is the line that was waited for and up to 500 more. -/
def turn (p : Program) : Program :=
  match p.phase, p.queue with
  | .ended, _ => p
  | .waiting, [] => if p.fifo = none ∧ p.kmsg = false then { p with phase := .ended } else p
  | .waiting, line :: queue => { p with queue := queue, phase := .batch 0 }.handle line
  | .batch _, [] => p.redraw
  | .batch taken, line :: queue =>
    if taken < 500 then { p with queue := queue, phase := .batch (taken + 1) }.handle line
    else p.redraw

/-- What the threads send. A thread that has ended sends nothing. -/
def emits (p : Program) : Event → List Line
  | .record text => if p.kmsg then (parseKmsg text).toList.map (⟨.kernel, ·⟩) else []
  | .written bytes => (readFifo p.fifo bytes).2.map (⟨.init, ·⟩)
  | .lost | .turn => []

/-- One event. -/
def step (p : Program) : Event → Program
  | .record text => { p with queue := p.queue ++ p.emits (.record text) }
  | .lost => { p with kmsg := false }
  | .written bytes =>
    { p with
      fifo := (readFifo p.fifo bytes).1
      queue := p.queue ++ p.emits (.written bytes) }
  | .turn => p.turn

/-- All lines that are sent in the course of some events. -/
def sent : Program → List Event → List Line
  | _, [] => []
  | p, event :: events => p.emits event ++ (p.step event).sent events

end Program

/-- What init wrote, in one piece. How it was cut is forgotten. -/
def writes (events : List Event) : Bytes :=
  events.flatMap fun
    | .written bytes => bytes
    | _ => []

/-- The records that were read before the buffer was lost. -/
def records : List Event → List String
  | [] => []
  | .record text :: events => text :: records events
  | .lost :: _ => []
  | _ :: events => records events

def textsOf (source : Source) (lines : List Line) : List String :=
  (lines.filter fun line => line.source = source).map Line.text

/-- The rows that lines take on the screen, if all of them are kept. -/
def Screen.log (s : Screen) (lines : List Line) : List (List Char) :=
  lines.flatMap fun line =>
    Screen.wrapped s.cols (line.text.toList.map fun c => if c = '\t' then ' ' else c)

/-! ## What is read -/

/-- A record of the kernel is shown with its time, and without what follows its first line. The
fields before the time and the flags behind it are not looked at. -/
theorem parseKmsg_record {priority sequence message : Chars} {flags : List Chars} {usec : Nat}
    (hfields : ∀ field ∈ priority :: sequence :: Nat.toDigits 10 usec :: flags, ',' ∉ field)
    (hhead : ';' ∉ joinAll ',' (priority :: sequence :: Nat.toDigits 10 usec :: flags))
    (husec : usec < 2 ^ 64)
    (hline : ∀ c ∈ joinAll ',' (priority :: sequence :: Nat.toDigits 10 usec :: flags) ++
      ';' :: message, c ≠ '\n' ∧ c ≠ '\r') (rest : Chars) :
    parseKmsg (String.ofList (joinAll ',' (priority :: sequence :: Nat.toDigits 10 usec :: flags) ++
      ';' :: message ++ '\n' :: rest)) = some (String.ofList (stamped usec message)) := by
  have hnumber : parseUnsigned 64 (Nat.toDigits 10 usec) = some usec := by
    rw [parseUnsigned_of_digits (toDigits_isDigit usec), parseDigits_toDigits]
    exact if_pos (decide_eq_true husec)
  have hsplit := splitAll_joinAll (List.cons_ne_nil priority _) hfields
  generalize joinAll ',' (priority :: sequence :: Nat.toDigits 10 usec :: flags) = head at *
  have hcut : (lines (head ++ ';' :: message ++ '\n' :: rest))[0]? =
      some (head ++ ';' :: message) := by
    rw [lines, linesFrom_append [] _ fun h => (hline _ h).1 rfl, List.nil_append,
      dropCr_eq fun h => (hline _ h).2 rfl]
    rfl
  unfold parseKmsg
  rw [String.toList_ofList, hcut]
  simp only [Option.bind_eq_bind, Option.bind_some, splitOnce_append _ hhead, hsplit]
  show (parseUnsigned 64 (Nat.toDigits 10 usec)).bind _ = _
  rw [hnumber]
  rfl

example : parseKmsg "6,339,5140900,-;NET: Registered PF_INET\n SUBSYSTEM=net\n" =
    some "[    5.140] NET: Registered PF_INET" := by decide +kernel

/-- It does not matter how the bytes were cut: reading two pieces is reading both at once. The state
between them is what came behind the last newline. -/
theorem readFifo_append (pending : Option Bytes) (a b : Bytes) :
    readFifo pending (a ++ b) =
      ((readFifo (readFifo pending a).1 b).1,
        (readFifo pending a).2 ++ (readFifo (readFifo pending a).1 b).2) := by
  fun_induction readFifo pending a with
  | case1 => simp only [readFifo, List.append_nil]
  | case2 pending => rfl
  | case3 pending bs hnone =>
    simp only [List.cons_append, readFifo, if_true, hnone, List.append_nil]
  | case4 pending bs text hsome pending' texts heq ih =>
    rw [heq] at ih
    simp only [List.cons_append, readFifo, if_true, hsome, ih]
  | case5 pending b bs hb ih => rw [List.cons_append, readFifo, if_neg hb, ih]

theorem readFifo_collect {bs : Bytes} (pending rest : Bytes) (h : 0x0A ∉ bs) :
    readFifo (some pending) (bs ++ rest) = readFifo (some (pending ++ bs)) rest := by
  induction bs generalizing pending with
  | nil => rw [List.nil_append, List.append_nil]
  | cons b bs ih =>
    rw [List.mem_cons, not_or] at h
    rw [List.cons_append, readFifo, if_neg (Ne.symm h.1), ih (pending ++ [b]) h.2,
      List.append_assoc, List.singleton_append]

/-- In UTF-8 only a newline has the byte of a newline, so a line can be found before it is
decoded. -/
theorem newline_not_mem_encode {s : Chars} (h : '\n' ∉ s) : 0x0A ∉ encode s := by
  intro hmem
  obtain ⟨c, hc, hb⟩ := List.mem_flatMap.mp hmem
  obtain rfl : c = '\n' := char_eq_of_toNat (mem_utf8EncodeChar_ascii hb (by decide)).1
  exact h hc

/-- **What was echoed as lines is read as these lines**; what is behind the last newline waits. -/
theorem readFifo_unlines {texts : List Chars} (h : ∀ text ∈ texts, '\n' ∉ text) {rest : Chars}
    (hrest : '\n' ∉ rest) :
    readFifo (some []) (encode (unlines texts ++ rest)) =
      (some (encode rest), texts.map fun text => String.ofList (dropCr text)) := by
  induction texts with
  | nil =>
    have hcollect := readFifo_collect [] [] (newline_not_mem_encode hrest)
    rw [List.append_nil, List.nil_append] at hcollect
    exact hcollect
  | cons text texts ih =>
    obtain ⟨htext, htexts⟩ := List.forall_mem_cons.mp h
    have hbyte : String.utf8EncodeChar '\n' = [0x0A] := rfl
    rw [unlines_cons, List.append_assoc, List.cons_append, encode_append, encode_cons, hbyte,
      readFifo_collect _ _ (newline_not_mem_encode htext), List.nil_append, List.singleton_append,
      readFifo, if_pos rfl, fromUtf8_encode, ih htexts]
    simp only [String.toList_ofList, List.map_cons]

/-! ## What the lines make of a screen -/

namespace Screen

/-- `s` is `first` after some lines: its geometry is the same, and its lines are the last of
theirs. -/
structure Shows (first : Screen) (taken : List Line) (s : Screen) : Prop where
  font : s.font = first.font
  x : s.x = first.x
  y : s.y = first.y
  w : s.w = first.w
  h : s.h = first.h
  placed : s.Placed
  lines : s.lines = keepLast maxLines (first.log taken)

/-- The text area has the last lines that fit, and the framebuffer has it. -/
def Drawn (first s : Screen) : Prop :=
  ∀ p ∈ first.textArea,
    s.canvas.pixel p = some (first.picture (keepLast first.rows s.lines) p).pixel ∧
      s.canvas.shown p = some (first.picture (keepLast first.rows s.lines) p).pixel

namespace Shows

variable {first s : Screen} {taken : List Line}

theorem push (h : Shows first taken s) (line : Line) :
    Shows first (taken ++ [line]) (s.push line.text) := by
  have hcols : s.cols = first.cols := by
    rw [cols, h.w]
    rfl
  have hlines : (s.push line.text).lines = keepLast maxLines (first.log (taken ++ [line])) := by
    simp only [Screen.push, h.lines, keepLast_append_left, log, List.flatMap_append,
      List.flatMap_singleton, hcols]
  unfold Screen.push at hlines ⊢
  exact ⟨h.font, h.x, h.y, h.w, h.h, ⟨h.placed.right, h.placed.bottom, h.placed.wide⟩, hlines⟩

theorem draw (h : Shows first taken s) : Shows first taken s.draw := by
  have hclear := Canvas.fillRect_draws s.canvas s.x s.y s.w s.h background
  have hdrawn := s.drawLines_draws (s.canvas.fillRect s.x s.y s.w s.h background)
  refine ⟨h.font, h.x, h.y, h.w, h.h, ⟨?_, ?_, h.placed.wide⟩, h.lines⟩
  · unfold Screen.draw
    rw [Canvas.flushRows_width, hdrawn.width, hclear.width]
    exact h.placed.right
  · unfold Screen.draw
    rw [Canvas.flushRows_height, hdrawn.height, hclear.height]
    exact h.placed.bottom

/-- After a redraw the text area shows the lines, on the canvas and on the framebuffer. -/
theorem drawn (h : Shows first taken s) : Drawn first s.draw := by
  intro p hp
  have harea : p ∈ s.textArea := by
    rw [textArea, h.x, h.y, h.w, h.h]
    exact hp
  have hpicture : s.picture (keepLast s.rows s.lines) p =
      first.picture (keepLast first.rows s.lines) p := by
    unfold picture rows
    rw [h.font, h.x, h.y, h.h]
  have hpixel := draw_inside h.placed harea
  rw [hpicture] at hpixel
  have hshown : s.draw.canvas.shown p = s.draw.canvas.pixel p := by
    unfold Screen.draw
    rw [Canvas.flushRows_shown, if_pos harea.2.2, Canvas.flushRows_pixel]
  exact ⟨hpixel, hshown.trans hpixel⟩

end Shows

theorem new_shows {build : Build} {canvas : Canvas} {font : Font} {logo : Option Logo} {s : Screen}
    (hwidth : 256 ≤ canvas.width) (hheight : 128 ≤ canvas.height)
    (hnew : new build canvas font logo = some s) : Shows s [] s ∧ Drawn s s := by
  obtain ⟨hplaced, hlines, hshown⟩ := new_placed hwidth hheight hnew
  have hlog : s.lines = keepLast maxLines (s.log []) := by
    rw [hlines, log, List.flatMap_nil, keepLast, List.drop_nil]
  refine ⟨⟨rfl, rfl, rfl, rfl, rfl, hplaced, hlog⟩, fun p hp => ?_⟩
  have hpicture : s.picture (keepLast s.rows s.lines) p = background := by
    rw [hlines, picture, if_neg]
    simp [lit, keepLast]
  rw [hshown, hpicture, and_self]
  obtain ⟨-, hx, -, hy⟩ := hp
  have hclear := Canvas.fillRect_draws canvas 0 0 canvas.width canvas.height background
  have hblank (hin : p.1 < canvas.width ∧ p.2 < canvas.height) :
      (canvas.fillRect 0 0 canvas.width canvas.height background).pixel p = some background.pixel :=
    hclear.painted.inside p ⟨⟨Nat.zero_le _, by omega, Nat.zero_le _, by omega⟩, hin⟩
  unfold new at hnew
  cases logo with
  | none =>
    obtain rfl := Option.some.inj hnew
    dsimp only [margin] at hx hy ⊢
    rw [Canvas.flushAll, Canvas.flushRows_pixel]
    exact hblank ⟨by omega, by omega⟩
  | some logo =>
    obtain ⟨blitted, hblit, hnew⟩ := Option.bind_eq_some_iff.mp hnew
    obtain rfl := Option.some.inj hnew
    have hsize : logoSize canvas.width canvas.height ≤ canvas.width / 3 := Nat.min_le_right ..
    dsimp only [margin] at hx hy hblit ⊢
    rw [Canvas.flushAll, Canvas.flushRows_pixel, Canvas.blitScaled_left hblit (by omega)]
    exact hblank ⟨by omega, by omega⟩

end Screen

/-! ## What is sent -/

theorem textsOf_append (source : Source) (a b : List Line) :
    textsOf source (a ++ b) = textsOf source a ++ textsOf source b := by
  simp [textsOf]

theorem textsOf_same (source : Source) (texts : List String) :
    textsOf source (texts.map fun text => ⟨source, text⟩) = texts := by
  simp [textsOf, List.filter_map, Function.comp_def]

theorem textsOf_other {source source' : Source} (h : source' ≠ source) (texts : List String) :
    textsOf source (texts.map fun text => ⟨source', text⟩) = [] := by
  simp [textsOf, List.filter_map, Function.comp_def, h]

theorem textsOf_concat (source : Source) (taken : List Line) (line : Line) :
    textsOf source (taken ++ [line]) =
      if line.source = source then textsOf source taken ++ [line.text]
      else textsOf source taken := by
  unfold textsOf
  split <;> simp [*]

namespace Program

variable {p : Program}

theorem sent_concat (p : Program) (past : List Event) (event : Event) :
    p.sent (past ++ [event]) = p.sent past ++ (run step p past).emits event := by
  induction past generalizing p with
  | nil => simp [sent]
  | cons e past ih => rw [List.cons_append, sent, ih, sent, List.append_assoc, run_cons]

@[simp] theorem handle_fifo (p : Program) (line : Line) : (p.handle line).fifo = p.fifo := rfl

@[simp] theorem handle_kmsg (p : Program) (line : Line) : (p.handle line).kmsg = p.kmsg := rfl

@[simp] theorem turn_fifo (p : Program) : p.turn.fifo = p.fifo := by
  unfold turn
  split <;> (try split) <;> rfl

@[simp] theorem turn_kmsg (p : Program) : p.turn.kmsg = p.kmsg := by
  unfold turn
  split <;> (try split) <;> rfl

/-- What comes from init are the lines of what it wrote, however it was cut. The kernel's records
may come in between; they are lines of the other source. -/
theorem sent_init (p : Program) (events : List Event) :
    textsOf .init (p.sent events) = (readFifo p.fifo (writes events)).2 := by
  induction events generalizing p with
  | nil =>
    cases hfifo : p.fifo with
    | none => rfl
    | some pending => rfl
  | cons event events ih =>
    rw [sent, textsOf_append, ih]
    cases event with
    | record text =>
      have hnone : textsOf .init (p.emits (.record text)) = [] := by
        unfold emits
        dsimp only
        split
        · exact textsOf_other (by decide) _
        · rfl
      rw [hnone]
      rfl
    | lost => rfl
    | written bytes =>
      have hwrites : writes (.written bytes :: events) = bytes ++ writes events := rfl
      rw [emits, textsOf_same, hwrites, readFifo_append]
      rfl
    | turn =>
      show [] ++ (readFifo p.turn.fifo (writes events)).2 = _
      rw [turn_fifo]
      rfl

/-- What comes from the kernel are its records, up to where they were lost. -/
theorem sent_kernel (p : Program) (events : List Event) :
    textsOf .kernel (p.sent events) =
      if p.kmsg then (records events).filterMap parseKmsg else [] := by
  induction events generalizing p with
  | nil => exact (ite_self _).symm
  | cons event events ih =>
    rw [sent, textsOf_append, ih]
    cases event with
    | record text =>
      show textsOf .kernel (if p.kmsg then _ else _) ++ (if p.kmsg then _ else _) = _
      cases p.kmsg with
      | false => rfl
      | true =>
        rw [if_pos rfl, if_pos rfl, if_pos rfl, textsOf_same, records]
        cases hparse : parseKmsg text with
        | none => rw [List.filterMap_cons_none hparse]; rfl
        | some line => rw [List.filterMap_cons_some hparse]; rfl
    | lost => exact (ite_self _).symm
    | written bytes =>
      rw [emits, textsOf_other (by decide)]
      rfl
    | turn =>
      show [] ++ (if p.turn.kmsg then _ else _) = _
      rw [turn_kmsg]
      rfl

/-- What a turn may do: wait, end, take a line or redraw. -/
theorem turn_cases (p : Program) :
    (p.turn = p ∧ (p.phase = .ended ∨ p.phase = .waiting ∧ p.queue = [])) ∨
    (p.turn = { p with phase := .ended } ∧ p.phase = .waiting ∧ p.queue = []) ∨
    (∃ line queue taken, p.queue = line :: queue ∧
      p.turn = { p with queue := queue, phase := .batch taken }.handle line) ∨
    (p.turn = p.redraw ∧ ∃ taken, p.phase = .batch taken) := by
  unfold turn
  cases hphase : p.phase with
  | ended => exact .inl ⟨rfl, .inl rfl⟩
  | waiting =>
    cases hqueue : p.queue with
    | nil =>
      dsimp only
      split
      · exact .inr (.inl ⟨rfl, rfl, rfl⟩)
      · exact .inl ⟨rfl, .inr ⟨rfl, rfl⟩⟩
    | cons line queue => exact .inr (.inr (.inl ⟨line, queue, 0, rfl, rfl⟩))
  | batch taken =>
    cases hqueue : p.queue with
    | nil => exact .inr (.inr (.inr ⟨rfl, taken, rfl⟩))
    | cons line queue =>
      dsimp only
      split
      · exact .inr (.inr (.inl ⟨line, queue, taken + 1, rfl, rfl⟩))
      · exact .inr (.inr (.inr ⟨rfl, taken, rfl⟩))

/-- Not in a batch, and so since the last redraw nothing was pushed. -/
def Idle (p : Program) : Prop := ∀ taken, p.phase ≠ .batch taken

/-- What `p` has made of the lines it took: it has echoed those of init, and its screen shows all of
them. Inside a batch some of them have not been drawn yet, so there nothing is said of the text
area. -/
structure Took (screen : Option Screen) (taken : List Line) (p : Program) : Prop where
  echoed : p.echoed = textsOf .init taken
  screen :
    Option.Rel (fun first s => first.Shows taken s ∧ (p.Idle → first.Drawn s)) screen p.screen

namespace Took

variable {screen : Option Screen} {taken : List Line}

/-- A line is handled: it is taken, and the program is in a batch, where the text area is left
open. -/
theorem handle (h : Took screen taken p) (line : Line) (queue : List Line) (n : Nat) :
    Took screen (taken ++ [line]) ({ p with queue := queue, phase := .batch n }.handle line) := by
  refine ⟨?_, ?_⟩
  · rw [textsOf_concat, ← h.echoed]
    rfl
  · have hrel := h.screen
    show Option.Rel _ screen (p.screen.map fun screen => screen.push line.text)
    generalize p.screen = current at hrel ⊢
    cases hrel with
    | none => exact .none
    | some hshows => exact .some ⟨hshows.1.push line, fun hidle => absurd rfl (hidle n)⟩

theorem redraw (h : Took screen taken p) : Took screen taken p.redraw := by
  refine ⟨h.echoed, ?_⟩
  have hrel := h.screen
  show Option.Rel _ screen (p.screen.map Screen.draw)
  generalize p.screen = current at hrel ⊢
  cases hrel with
  | none => exact .none
  | some hshows => exact .some ⟨hshows.1.draw, fun _ => hshows.1.drawn⟩

/-- What a program has made of its lines is to be seen in its echo and on its screen. The queue, the
FIFO and the ring buffer may change under it, and it may go from idle into a batch, but not from a
batch to being idle, for which it would have to redraw. -/
theorem congr {q : Program} (h : Took screen taken p) (hechoed : q.echoed = p.echoed)
    (hscreen : q.screen = p.screen) (hidle : q.Idle → p.Idle) : Took screen taken q := by
  refine ⟨hechoed.trans h.echoed, ?_⟩
  have hrel := h.screen
  rw [hscreen]
  generalize p.screen = current at hrel ⊢
  cases hrel with
  | none => exact .none
  | some hshows => exact .some ⟨hshows.1, fun hq => hshows.2 (hidle hq)⟩

end Took

/-- **One turn** takes a line off the queue, or none. What it took before and what is waiting are,
one behind the other, the same lines before and after. -/
theorem turn_took {screen : Option Screen} {taken : List Line} (h : Took screen taken p) :
    ∃ taken', taken' ++ p.turn.queue = taken ++ p.queue ∧ Took screen taken' p.turn := by
  rcases turn_cases p with ⟨hturn, -⟩ | ⟨hturn, hwaiting, -⟩ | ⟨line, queue, n, hqueue, hturn⟩ |
    ⟨hturn, -⟩
  · rw [hturn]
    exact ⟨taken, rfl, h⟩
  · refine ⟨taken, by rw [hturn], hturn ▸ h.congr rfl rfl fun _ n hn => ?_⟩
    rw [hwaiting] at hn
    cases hn
  · refine ⟨taken ++ [line], ?_, hturn ▸ h.handle line queue n⟩
    rw [hturn, hqueue, List.append_assoc]
    rfl
  · exact ⟨taken, by rw [hturn]; rfl, hturn ▸ h.redraw⟩

/-- Any event keeps what was taken, and what is sent goes to the end of the queue. -/
theorem step_took {screen : Option Screen} {taken : List Line} (h : Took screen taken p)
    (event : Event) : ∃ taken', taken' ++ (p.step event).queue = taken ++ p.queue ++ p.emits event ∧
      Took screen taken' (p.step event) := by
  cases event with
  | record text => exact ⟨taken, (List.append_assoc ..).symm, h.congr rfl rfl id⟩
  | lost => exact ⟨taken, (List.append_nil _).symm, h.congr rfl rfl id⟩
  | written bytes => exact ⟨taken, (List.append_assoc ..).symm, h.congr rfl rfl id⟩
  | turn =>
    obtain ⟨taken', hqueue, htook⟩ := turn_took h
    exact ⟨taken', hqueue.trans (List.append_nil _).symm, htook⟩

/-- **Nothing is lost, doubled or moved**, over any events: what was sent is what was taken and,
behind it, what is waiting. -/
theorem run_took {screen : Option Screen} {p : Program} (h : Took screen [] p)
    (hqueue : p.queue = []) (events : List Event) :
    ∃ taken, p.sent events = taken ++ (run step p events).queue ∧
      Took screen taken (run step p events) := by
  refine run_history (I := fun past q => ∃ taken, p.sent past = taken ++ q.queue ∧
    Took screen taken q) ?_ ⟨[], by rw [hqueue]; rfl, h⟩ events
  rintro past event ⟨taken, hsent, htook⟩
  obtain ⟨taken', hstep, htook'⟩ := step_took htook event
  exact ⟨taken', by rw [sent_concat, hsent, hstep], htook'⟩

/-! ## Catching up -/

/-- It ends only when there is nothing left and nothing can come. -/
def Closed (p : Program) : Prop :=
  p.phase = .ended → p.queue = [] ∧ p.fifo = none ∧ p.kmsg = false

/-- Once both threads have ended nothing is sent any more, so the queue stays empty. -/
theorem step_closed (h : p.Closed) (event : Event) : (p.step event).Closed := by
  cases event with
  | record text =>
    intro hended
    obtain ⟨hqueue, hfifo, hkmsg⟩ := h hended
    refine ⟨?_, hfifo, hkmsg⟩
    simp only [step, emits, hqueue, hkmsg]
    rfl
  | lost => exact fun hended => ⟨(h hended).1, (h hended).2.1, rfl⟩
  | written bytes =>
    intro hended
    obtain ⟨hqueue, hfifo, hkmsg⟩ := h hended
    refine ⟨?_, ?_, hkmsg⟩
    · simp only [step, emits, hqueue, hfifo, readFifo]
      rfl
    · simp only [step, hfifo, readFifo]
  | turn =>
    show p.turn.Closed
    unfold turn
    split
    · exact h
    · split
      · rename_i hwaiting hqueue hends
        exact fun _ => ⟨hqueue, hends⟩
      · exact h
    · exact fun hended => by cases hended
    · exact fun hended => by cases hended
    · split
      · exact fun hended => by cases hended
      · exact fun hended => by cases hended

theorem run_closed (h : p.Closed) (events : List Event) : (run step p events).Closed :=
  run_history (I := fun _ (q : Program) => q.Closed) (fun _ event h => step_closed h event) h events

/-- How many turns there are to come: each line is worth two of them, so that a batch which was cut
off at its limit is still paid for. -/
def ahead (p : Program) : Nat :=
  2 * p.queue.length + match p.phase with
    | .batch _ => 1
    | _ => 0

theorem turn_ahead (h : p.Closed) : p.turn.ahead ≤ p.ahead - 1 := by
  unfold turn ahead
  cases hphase : p.phase with
  | ended => simp [hphase, (h hphase).1]
  | waiting =>
    cases hqueue : p.queue with
    | nil =>
      dsimp only
      split
      · simp
      · simp [hphase, hqueue]
    | cons line queue =>
      simp only [handle, List.length_cons]
      omega
  | batch taken =>
    cases hqueue : p.queue with
    | nil => simp [redraw, hqueue]
    | cons line queue =>
      dsimp only
      split
      · simp only [handle, List.length_cons]
        omega
      · simp [redraw, hqueue]

/-- With no turn ahead the queue is empty, and the last batch has been drawn. -/
theorem idle_of_ahead (h : p.ahead = 0) : p.queue = [] ∧ p.Idle := by
  unfold ahead at h
  refine ⟨List.eq_nil_of_length_eq_zero (by omega), fun taken hphase => ?_⟩
  rw [hphase] at h
  dsimp only at h
  omega

/-- **Every turn counts** until nothing is waiting. -/
theorem turns_ahead (h : p.Closed) {n : Nat} (hn : p.ahead ≤ n) :
    (run step p (List.replicate n .turn)).ahead = 0 := by
  induction n generalizing p with
  | zero => exact Nat.le_zero.mp hn
  | succ n ih =>
    have hless := turn_ahead h
    exact ih (step_closed h .turn) (by show p.turn.ahead ≤ n; omega)

theorem sent_turns (p : Program) (events : List Event) (n : Nat) :
    p.sent (events ++ List.replicate n .turn) = p.sent events := by
  induction n with
  | zero => rw [List.replicate_zero, List.append_nil]
  | succ n ih =>
    rw [List.replicate_succ', ← List.append_assoc, sent_concat, ih]
    exact List.append_nil _

end Program

/-- A screen as `run` gets one, if there is a framebuffer at all. The canvas has 256 × 128 pixels or
more, which nothing in the program looks at: `Screen::new` takes the margins off whatever `open`
found in sysfs, and on a canvas with no room for them these differences leave the numbers. -/
def Opened (screen : Option Screen) : Prop :=
  ∀ first, screen = some first → ∃ build canvas font logo, 256 ≤ canvas.width ∧
    128 ≤ canvas.height ∧ Screen.new build canvas font logo = some first

/-- At the start no line was taken, and the screen is as `new` left it. -/
theorem start_took {screen : Option Screen} (h : Opened screen) (fifoOpens kmsgOpens : Bool) :
    (Program.start fifoOpens kmsgOpens screen).Took screen [] := by
  refine ⟨rfl, ?_⟩
  show Option.Rel _ screen screen
  cases screen with
  | none => exact .none
  | some first =>
    obtain ⟨build, canvas, font, logo, hwidth, hheight, hnew⟩ := h first rfl
    obtain ⟨hshows, hdrawn⟩ := Screen.new_shows hwidth hheight hnew
    exact .some ⟨hshows, fun _ => hdrawn⟩

theorem start_closed (screen : Option Screen) (fifoOpens kmsgOpens : Bool) :
    (Program.start fifoOpens kmsgOpens screen).Closed := fun hended => by cases hended

/-- What `taken` makes of the screen: it is still there, and stores the last of the lines. -/
theorem Program.Took.exists_screen {first : Screen} {taken : List Line} {p : Program}
    (h : p.Took (some first) taken) :
    ∃ s, p.screen = some s ∧ s.lines = keepLast maxLines (first.log taken) ∧
      (p.Idle → first.Drawn s) := by
  have hrel := h.screen
  generalize p.screen = current at hrel
  cases hrel with
  | some hshows => exact ⟨_, rfl, hshows.1.lines, hshows.2⟩

/-- **The echo and the screen show what was sent**, at any moment of any run: some of the lines are
still in the queue, all before them were echoed and pushed, in the order they were sent and each
once. Between two batches the text area is the picture of the last of them. -/
theorem loop_shows {screen : Option Screen} (h : Opened screen) (fifoOpens kmsgOpens : Bool)
    (events : List Event) :
    let start := Program.start fifoOpens kmsgOpens screen
    let p := run Program.step start events
    textsOf .init (start.sent events) = (readFifo start.fifo (writes events)).2 ∧
    textsOf .kernel (start.sent events) =
      (if kmsgOpens then (records events).filterMap parseKmsg else []) ∧
    ∃ taken, start.sent events = taken ++ p.queue ∧ p.echoed = textsOf .init taken ∧
      ∀ first, screen = some first → ∃ s, p.screen = some s ∧
        s.lines = keepLast maxLines (first.log taken) ∧ (p.Idle → first.Drawn s) := by
  intro start p
  obtain ⟨taken, hsent, htook⟩ :=
    Program.run_took (start_took h fifoOpens kmsgOpens) rfl events
  refine ⟨start.sent_init events, start.sent_kernel events, taken, hsent, htook.echoed, ?_⟩
  rintro first rfl
  exact htook.exists_screen

/-- Two turns for each line in the queue and one more. -/
def turnsLeft (p : Program) : Nat := 2 * p.queue.length + 1

/-- After so many turns all that was sent has been taken, since what is waiting is nothing. -/
theorem took_all {screen : Option Screen} (h : Opened screen) (fifoOpens kmsgOpens : Bool)
    (events : List Event) {n : Nat}
    (hn : turnsLeft (run Program.step (Program.start fifoOpens kmsgOpens screen) events) ≤ n) :
    let start := Program.start fifoOpens kmsgOpens screen
    let p := run Program.step start (events ++ List.replicate n .turn)
    p.queue = [] ∧ p.Idle ∧ p.Took screen (start.sent events) := by
  intro start p
  have hclosed := Program.run_closed (start_closed screen fifoOpens kmsgOpens) events
  have hahead : p.ahead = 0 := by
    show (run Program.step start (events ++ List.replicate n .turn)).ahead = 0
    rw [run_append]
    refine Program.turns_ahead hclosed (Nat.le_trans ?_ hn)
    unfold Program.ahead turnsLeft
    split <;> omega
  obtain ⟨hqueue, hidle⟩ := Program.idle_of_ahead hahead
  obtain ⟨taken, hsent, htook⟩ :=
    Program.run_took (start_took h fifoOpens kmsgOpens) rfl (events ++ List.replicate n .turn)
  have htaken : start.sent events = taken ++ p.queue := by
    rw [← hsent]
    exact (Program.sent_turns start events n).symm
  rw [hqueue, List.append_nil] at htaken
  exact ⟨hqueue, hidle, htaken ▸ htook⟩

/-- **The program catches up** if nothing new comes: everything is echoed and on the screen. -/
theorem caught_up {screen : Option Screen} (h : Opened screen) (fifoOpens kmsgOpens : Bool)
    (events : List Event) {n : Nat}
    (hn : turnsLeft (run Program.step (Program.start fifoOpens kmsgOpens screen) events) ≤ n) :
    let start := Program.start fifoOpens kmsgOpens screen
    let p := run Program.step start (events ++ List.replicate n .turn)
    p.queue = [] ∧ p.echoed = textsOf .init (start.sent events) ∧
      ∀ first, screen = some first → ∃ s, p.screen = some s ∧
        s.lines = keepLast maxLines (first.log (start.sent events)) ∧ first.Drawn s := by
  intro start p
  obtain ⟨hqueue, hidle, htook⟩ := took_all h fifoOpens kmsgOpens events hn
  refine ⟨hqueue, htook.echoed, ?_⟩
  rintro first rfl
  obtain ⟨s, hs, hlines, hdrawn⟩ := htook.exists_screen
  exact ⟨s, hs, hlines, hdrawn hidle⟩

theorem opened_smallScreen : Opened (some Screen.smallScreen) := by
  intro first hfirst
  obtain rfl := Option.some.inj hfirst
  exact ⟨.release, Screen.smallCanvas, Screen.blockFont, none, by decide, by decide,
    Screen.new_smallScreen⟩

/-- A record of the kernel, a line of init in two pieces, and the turns that take both and
redraw. -/
def smallEvents : List Event :=
  [.record "6,339,5140900,-;NET: Registered\n", .written [0x75], .turn, .written [0x70, 0x0A],
    .turn, .turn]

def smallLines : List Line := [⟨.kernel, "[    5.140] NET: Registered"⟩, ⟨.init, "up"⟩]

theorem parseKmsg_small : parseKmsg "6,339,5140900,-;NET: Registered\n" =
    some "[    5.140] NET: Registered" := by decide +kernel

theorem sent_small (screen : Option Screen) :
    (Program.start true true screen).sent smallEvents = smallLines := by
  unfold smallEvents
  simp only [Program.sent, Program.emits, Program.start, parseKmsg_small, if_true]
  rfl

theorem log_small : keepLast maxLines (Screen.smallScreen.log smallLines) =
    ["[    5.140] NET: Registered".toList, "up".toList] := by decide +kernel

theorem run_small (screen : Option Screen) :
    let p := run Program.step (Program.start true true screen) smallEvents
    p.queue = [] ∧ p.phase = .waiting := by
  unfold smallEvents
  simp only [run_cons, run_nil, Program.step, Program.emits, Program.start, parseKmsg_small, if_true]
  exact ⟨rfl, rfl⟩

theorem loop_shows_small :
    let p := run Program.step (Program.start true true (some Screen.smallScreen)) smallEvents
    p.queue = [] ∧ p.echoed = ["up"] ∧ ∃ s, p.screen = some s ∧
      s.lines = ["[    5.140] NET: Registered".toList, "up".toList] ∧
      Screen.smallScreen.Drawn s := by
  intro p
  obtain ⟨hqueue, hphase⟩ := run_small (some Screen.smallScreen)
  obtain ⟨-, -, taken, hsent, hechoed, hscreen⟩ :=
    loop_shows opened_smallScreen true true smallEvents
  rw [sent_small, hqueue, List.append_nil] at hsent
  subst hsent
  obtain ⟨s, hs, hlines, hdrawn⟩ := hscreen _ rfl
  have hidle : p.Idle := fun taken hbatch => by
    rw [show p.phase = .waiting from hphase] at hbatch
    cases hbatch
  exact ⟨hqueue, hechoed, s, hs, hlines.trans log_small, hdrawn hidle⟩

theorem caught_up_small :
    let p := run Program.step (Program.start true true (some Screen.smallScreen))
      (smallEvents.take 4 ++ List.replicate 3 .turn)
    p.queue = [] ∧ p.echoed = ["up"] ∧ ∃ s, p.screen = some s ∧
      s.lines = ["[    5.140] NET: Registered".toList, "up".toList] ∧
      Screen.smallScreen.Drawn s := by
  have htake : smallEvents.take 4 = [.record "6,339,5140900,-;NET: Registered\n",
    .written [0x75], .turn, .written [0x70, 0x0A]] := rfl
  -- the record has been taken when the line of init comes
  have hleft : turnsLeft (run Program.step (Program.start true true (some Screen.smallScreen))
      (smallEvents.take 4)) ≤ 3 := by
    rw [htake]
    simp only [run_cons, run_nil, Program.step, Program.emits, Program.start, parseKmsg_small,
      if_true]
    exact Nat.le_refl 3
  have hsent : (Program.start true true (some Screen.smallScreen)).sent (smallEvents.take 4) =
      smallLines := by
    rw [htake]
    simp only [Program.sent, Program.emits, Program.start, parseKmsg_small, if_true]
    rfl
  obtain ⟨hqueue, hechoed, hscreen⟩ := caught_up opened_smallScreen true true _ hleft
  rw [hsent] at hechoed hscreen
  obtain ⟨s, hs, hlines, hdrawn⟩ := hscreen _ rfl
  exact ⟨hqueue, hechoed, s, hs, hlines.trans log_small, hdrawn⟩

/-! ## Without a screen -/

namespace Program

/-- The program as it would be without a framebuffer. -/
def blind (p : Program) : Program := { p with screen := none }

theorem turn_blind (p : Program) : p.turn.blind = p.blind.turn := by
  have hphase : p.blind.phase = p.phase := rfl
  have hqueue : p.blind.queue = p.queue := rfl
  unfold turn
  rw [hphase, hqueue]
  split
  · rfl
  · exact apply_ite blind _ _ _
  · rfl
  · rfl
  · exact apply_ite blind _ _ _

/-- The screen decides nothing: what is read, queued and echoed is the same without it. -/
theorem run_blind (p : Program) (events : List Event) :
    (run step p events).blind = run step p.blind events := by
  induction events generalizing p with
  | nil => rfl
  | cons event events ih =>
    have hstep : (p.step event).blind = p.blind.step event := by
      cases event with
      | record text => rfl
      | lost => rfl
      | written bytes => rfl
      | turn => exact turn_blind p
    rw [run_cons, run_cons, ih, hstep]

end Program

/-- **What init echoes is on the serial console line by line**, however the reader got the bytes,
whatever the kernel says in between and whether or not there is a screen. A line that ends in a
carriage return loses it, as in `BufRead::lines`; a line that has not ended yet is held back. -/
theorem echo_complete {screen : Option Screen} (kmsgOpens : Bool) {events : List Event}
    {texts : List Chars} (htexts : ∀ text ∈ texts, '\n' ∉ text) {rest : Chars}
    (hrest : '\n' ∉ rest) (hwrites : writes events = encode (unlines texts ++ rest)) {n : Nat}
    (hn : turnsLeft (run Program.step (Program.start true kmsgOpens screen) events) ≤ n) :
    (run Program.step (Program.start true kmsgOpens screen)
      (events ++ List.replicate n .turn)).echoed =
      texts.map fun text => String.ofList (dropCr text) := by
  have hblind (events : List Event) :
      (run Program.step (Program.start true kmsgOpens screen) events).blind =
        run Program.step (Program.start true kmsgOpens none) events :=
    Program.run_blind _ events
  have hleft : turnsLeft (run Program.step (Program.start true kmsgOpens none) events) ≤ n := by
    rw [← hblind]
    exact hn
  obtain ⟨-, -, htook⟩ := took_all (fun _ hnone => by cases hnone) true kmsgOpens events hleft
  have hechoed := htook.echoed
  rw [← hblind, Program.sent_init, hwrites] at hechoed
  exact hechoed.trans (congrArg Prod.snd (readFifo_unlines htexts hrest))

/-- Two lines in three pieces, the first with a carriage return, and the beginning of a third. -/
theorem echo_complete_cut : (run Program.step (Program.start true true (some Screen.smallScreen))
    ([.written [0x61], .lost, .written [0x62, 0x0D, 0x0A, 0x63], .turn, .written [0x0A, 0x64]] ++
      List.replicate 3 .turn)).echoed = ["ab", "c"] :=
  @echo_complete (some Screen.smallScreen) true
    [.written [0x61], .lost, .written [0x62, 0x0D, 0x0A, 0x63], .turn, .written [0x0A, 0x64]]
    [['a', 'b', '\r'], ['c']] (by simp) ['d'] (by simp) (by decide) 3 (Nat.le_refl 3)

end Abora.Boot
