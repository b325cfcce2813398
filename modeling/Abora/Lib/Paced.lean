import Mathlib.Data.List.Chain

/-!
# Keeping a distance

A loop that does something only every so often remembers when it last started to, and compares the
time since then with a wait. A log of the starts is *paced* by such a memory when the memory is the
start of the newest entry. Then a wait that is over according to the memory separates the next entry
from that one (`Paced.waited`), however late the entry itself is made, and neighbours in the log
stay related as the wait says (`Paced.push`). The memory may be forgotten on purpose, so that the
next entry is made at once; the relation of neighbours is then up to whoever forgot it.

That the loop does it as often as it should is the other side: a log is *prompt* when its newest
entry has not been waited for longer than its wait and a turn of the loop, and no entry was. It
takes turns that are punctual, and nothing else: `Prompt.push` is the turn that makes an entry and
`Prompt.skip` the one that finds the wait not over.
-/

namespace Abora.Lib

variable {α : Type*} {started : α → Nat} {R : α → α → Prop} {last : Option Nat} {clock : Nat}
  {log : List α}

/-- One more entry has one more neighbour: the entry that was the last. -/
theorem isChain_concat {l : List α} {a : α} :
    (l ++ [a]).IsChain R ↔ l.IsChain R ∧ ∀ b ∈ l.getLast?, R b a := by
  rw [List.isChain_append]
  simp

/-- The memory is the start of the newest entry, and neighbours are related. -/
structure Paced (started : α → Nat) (R : α → α → Prop) (last : Option Nat) (clock : Nat)
    (log : List α) : Prop where
  last_eq : last = log.getLast?.map started
  past : ∀ a ∈ log.getLast?, started a ≤ clock
  apart : log.IsChain R

theorem Paced.nil : Paced started R none clock [] :=
  ⟨rfl, fun _ h => (by cases h), .nil⟩

theorem Paced.later (h : Paced started R last clock log) {clock' : Nat} (hle : clock ≤ clock') :
    Paced started R last clock' log :=
  ⟨h.last_eq, fun a ha => (h.past a ha).trans hle, h.apart⟩

/-- An entry is made now, and remembered. The memory may have been cleared before. -/
theorem Paced.push {a : α} {now : Nat} (hnow : started a = now) (happart : log.IsChain R)
    (hnext : ∀ b ∈ log.getLast?, R b a) : Paced started R (some now) now (log ++ [a]) := by
  subst hnow
  exact ⟨by simp, by simp, isChain_concat.mpr ⟨happart, hnext⟩⟩

/-- A wait that is over at one reading of the clock is over at every later one. The entry may be
made a while after the clock was read for it. -/
theorem Paced.waited (h : Paced started R last clock log) {a : α} (ha : a ∈ log.getLast?)
    {wait now : Nat} (hnow : clock ≤ now) (hwait : ∀ t ∈ last, wait ≤ now - t) (later : Nat) :
    started a + wait ≤ now + later := by
  have hlast : started a ∈ last := by
    rw [h.last_eq, Option.mem_def.mp ha]
    rfl
  have hpast := h.past a ha
  have hover := hwait _ hlast
  omega

section Prompt

variable {wait : α → Nat} {turn late : Nat}

/-- The newest entry is no older than its wait and a turn, and every entry comes no later after the
one before than that and what a turn needs to make it. -/
structure Prompt (started wait : α → Nat) (turn late clock : Nat) (log : List α) : Prop where
  fresh : ∀ a ∈ log.getLast?, clock ≤ started a + wait a + turn
  close : log.IsChain fun a b => started b ≤ started a + wait a + turn + late

theorem Prompt.nil : Prompt started wait turn late clock [] :=
  ⟨fun _ h => (by cases h), .nil⟩

/-- A turn that makes an entry: it came no later than `late` after the clock was read, and the turn
was over within `turn` of it. -/
theorem Prompt.push (h : Prompt started wait turn late clock log) {a : α} {clock' : Nat}
    (hlate : started a ≤ clock + late) (hturn : clock' ≤ started a + turn) :
    Prompt started wait turn late clock' (log ++ [a]) := by
  constructor
  · intro b hb
    obtain rfl : a = b := by simpa using hb
    omega
  · refine isChain_concat.mpr ⟨h.close, fun b hb => ?_⟩
    have hfresh := h.fresh b hb
    omega

/-- A turn that makes none: at `now` the wait is not over. -/
theorem Prompt.skip (h : Prompt started wait turn late clock log) (now : Nat) {clock' : Nat}
    (hwait : ∀ a ∈ log.getLast?, now < started a + wait a) (hturn : clock' ≤ now + turn) :
    Prompt started wait turn late clock' log := by
  refine ⟨fun a ha => ?_, h.close⟩
  have hover := hwait a ha
  omega

end Prompt

end Abora.Lib
