import Mathlib.Data.List.Induction

/-!
# Runs of a machine with adversarial events

Every long-lived part of the framework is modelled the same way: a state, a type of events that
carries whatever the environment decides at that moment (a clock reading, what a file held, whether
a save succeeded), and a total step function. A *schedule* is a list of events, and a statement
about "every run" is one about every schedule. Nothing is random and nothing is chosen by the
machine, so a state and a schedule say everything that happens.

Three notions are enough for all of them:

* `run` — the state a schedule ends in;
* `visited` — every state it passes through, the first and the last one included;
* `Guarded G` — every event of the schedule was taken in a state where `G` allowed it.

The last one is how the exact condition of a defect is written: the run never takes the step that
goes wrong. `forall_visited_iff_guarded` is the shape such a result has. It asks for one fact about
a step that the guard allows (it keeps the property) and one about a step that it does not (it
breaks the property there and then), and pays with an equivalence over all runs, so no development
has to repeat the induction.

An invariant that speaks of what has happened, and not of the state alone, is proved with
`run_history`; `Once` is how it says that something is in the past.
-/

namespace Abora.Lib

variable {σ α : Type*} {step : σ → α → σ}

/-- The state a schedule ends in. The events are taken in the order in which they are listed, each
by the state that the ones before it have left. -/
def run (step : σ → α → σ) : σ → List α → σ
  | s, [] => s
  | s, a :: as => run step (step s a) as

/-- Every state on the way, oldest first. A schedule of `n` events passes through `n + 1` states,
and the state the machine was in before the first event is one of them. -/
def visited (step : σ → α → σ) : σ → List α → List σ
  | s, [] => [s]
  | s, a :: as => s :: visited step (step s a) as

/-- Every event was taken in a state that allowed it. The guard sees the state *before* the step, so
it is a condition on what the machine and its environment were, and not on what became of them. -/
def Guarded (step : σ → α → σ) (G : σ → α → Prop) : σ → List α → Prop
  | _, [] => True
  | s, a :: as => G s a ∧ Guarded step G (step s a) as

@[simp] theorem run_nil (s : σ) : run step s [] = s := rfl

@[simp] theorem run_cons (s : σ) (a : α) (as : List α) :
    run step s (a :: as) = run step (step s a) as := rfl

@[simp] theorem visited_nil (s : σ) : visited step s [] = [s] := rfl

@[simp] theorem visited_cons (s : σ) (a : α) (as : List α) :
    visited step s (a :: as) = s :: visited step (step s a) as := rfl

@[simp] theorem guarded_nil {G : σ → α → Prop} (s : σ) : Guarded step G s [] := trivial

@[simp] theorem guarded_cons {G : σ → α → Prop} (s : σ) (a : α) (as : List α) :
    Guarded step G s (a :: as) ↔ G s a ∧ Guarded step G (step s a) as := Iff.rfl

/-! ## Splitting a schedule -/

theorem run_append (s : σ) (as bs : List α) :
    run step s (as ++ bs) = run step (run step s as) bs := by
  induction as generalizing s with
  | nil => rfl
  | cons a as ih => exact ih (step s a)

theorem run_concat (s : σ) (as : List α) (a : α) :
    run step s (as ++ [a]) = step (run step s as) a := by
  rw [run_append]
  rfl

theorem run_mem_visited (s : σ) (as : List α) : run step s as ∈ visited step s as := by
  induction as generalizing s with
  | nil => exact List.mem_singleton.mpr rfl
  | cons a as ih => exact List.mem_cons_of_mem _ (ih (step s a))

theorem self_mem_visited (s : σ) (as : List α) : s ∈ visited step s as := by
  cases as with
  | nil => exact List.mem_singleton.mpr rfl
  | cons a as => exact List.mem_cons_self

/-! ## Invariants -/

/-- **An inductive invariant holds all along a guarded run.** The guard may be needed to take
the step; with `G` trivial this is the plain invariant rule. -/
theorem visited_of_guarded {I : σ → Prop} {G : σ → α → Prop}
    (hstep : ∀ s a, I s → G s a → I (step s a)) {s : σ} (h0 : I s) {as : List α}
    (hg : Guarded step G s as) : ∀ t ∈ visited step s as, I t := by
  induction as generalizing s with
  | nil =>
    intro t ht
    rw [List.mem_singleton.mp ht]
    exact h0
  | cons a as ih =>
    intro t ht
    rcases List.mem_cons.mp ht with rfl | ht
    · exact h0
    · exact ih (hstep s a h0 hg.1) hg.2 t ht

/-- A condition on the events alone joins a guard. -/
theorem Guarded.and_forall {G : σ → α → Prop} {P : α → Prop} {s : σ} {as : List α}
    (hg : Guarded step G s as) (hP : ∀ a ∈ as, P a) :
    Guarded step (fun s a => G s a ∧ P a) s as := by
  induction as generalizing s with
  | nil => trivial
  | cons a as ih =>
    exact ⟨⟨hg.1, hP a List.mem_cons_self⟩, ih hg.2 fun b hb => hP b (List.mem_cons_of_mem a hb)⟩

theorem guarded_true (s : σ) (as : List α) : Guarded step (fun _ _ => True) s as := by
  induction as generalizing s with
  | nil => trivial
  | cons a as ih => exact ⟨trivial, ih _⟩

/-- The unguarded rule, at every state of the run. -/
theorem visited_invariant {I : σ → Prop} (hstep : ∀ s a, I s → I (step s a)) {s : σ} (h0 : I s)
    (as : List α) : ∀ t ∈ visited step s as, I t :=
  visited_of_guarded (G := fun _ _ => True) (fun s a hs _ => hstep s a hs) h0 (guarded_true s as)

/-- The unguarded rule, at the end of the run. -/
theorem run_invariant {I : σ → Prop} (hstep : ∀ s a, I s → I (step s a)) {s : σ} (h0 : I s)
    (as : List α) : I (run step s as) :=
  visited_invariant hstep h0 as _ (run_mem_visited s as)

/-- **The guard is the exact condition.** If a guarded step keeps `P` and an unguarded one
breaks it, then `P` holds in every state of the run exactly when every step met the guard.
`I` is whatever background invariant the two step facts need. -/
theorem forall_visited_iff_guarded {I P : σ → Prop} {G : σ → α → Prop}
    (hI : ∀ s a, I s → I (step s a))
    (hkeep : ∀ s a, I s → P s → G s a → P (step s a))
    (hbreak : ∀ s a, I s → P s → P (step s a) → G s a)
    {s : σ} (h0 : I s) (hP : P s) (as : List α) :
    (∀ t ∈ visited step s as, P t) ↔ Guarded step G s as := by
  constructor
  · intro h
    induction as generalizing s with
    | nil => trivial
    | cons a as ih =>
      have hnext : P (step s a) := h _ (List.mem_cons_of_mem _ (self_mem_visited _ _))
      exact ⟨hbreak s a h0 hP hnext,
        ih (hI s a h0) hnext fun t ht => h t (List.mem_cons_of_mem _ ht)⟩
  · intro hg t ht
    have hboth := visited_of_guarded (I := fun s => I s ∧ P s) (G := G)
      (fun s a hs ha => ⟨hI s a hs.1, hkeep s a hs.1 hs.2 ha⟩) ⟨h0, hP⟩ hg t ht
    exact hboth.2

/-- Two conditions that agree wherever the invariant holds guard the same runs. -/
theorem guarded_congr {I : σ → Prop} {G H : σ → α → Prop} (hI : ∀ s a, I s → I (step s a))
    (hiff : ∀ s a, I s → (G s a ↔ H s a)) {s : σ} (h0 : I s) (as : List α) :
    Guarded step G s as ↔ Guarded step H s as := by
  induction as generalizing s with
  | nil => exact Iff.rfl
  | cons a as ih => exact and_congr (hiff s a h0) (ih (hI s a h0))

theorem guarded_iff_forall {G : σ → α → Prop} {s : σ} {as : List α} :
    Guarded step G s as ↔ ∀ pre a post, as = pre ++ a :: post → G (run step s pre) a := by
  induction as generalizing s with
  | nil =>
    refine ⟨fun _ pre a post h => ?_, fun _ => trivial⟩
    cases pre <;> cases h
  | cons b as ih =>
    rw [guarded_cons, ih]
    constructor
    · rintro ⟨hb, has⟩ pre a post h
      cases pre with
      | nil =>
        cases h
        exact hb
      | cons c pre =>
        cases h
        exact has pre a post rfl
    · intro h
      refine ⟨h [] b as rfl, fun pre a post has => ?_⟩
      exact h (b :: pre) a post (by rw [has]; rfl)

/-! ## What came before -/

/-- Some event of the past was one that `P` allows, after what had come before it. As `P` may itself
speak of what is `Once` in *its* past, such facts chain: each link is at an earlier point. -/
def Once (P : List α → α → Prop) (past : List α) : Prop :=
  ∃ pre a post, past = pre ++ a :: post ∧ P pre a

theorem once_now {P : List α → α → Prop} {past : List α} {a : α} (h : P past a) :
    Once P (past ++ [a]) :=
  ⟨past, a, [], rfl, h⟩

theorem Once.later {P : List α → α → Prop} {past : List α} (h : Once P past) (b : α) :
    Once P (past ++ [b]) := by
  obtain ⟨pre, a, post, rfl, ha⟩ := h
  exact ⟨pre, a, post ++ [b], by simp, ha⟩

/-- The rule for an invariant that speaks of the past as well as of the state: it holds of the empty
past and the first state, and a step takes it to the longer past and the next state. -/
theorem run_history {I : List α → σ → Prop} {s : σ}
    (hstep : ∀ past a, I past (run step s past) → I (past ++ [a]) (step (run step s past) a))
    (h0 : I [] s) (as : List α) : I as (run step s as) := by
  induction as using List.reverseRecOn with
  | nil => exact h0
  | append_singleton as a ih =>
    rw [run_concat]
    exact hstep as a ih

end Abora.Lib
