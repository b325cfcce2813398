import Mathlib.Data.List.Basic

/-!
# Changing a value only once it is saved

A cell holds a value that is kept in some normal form. A change is made on a copy, the copy is
normalised and saved, and only a successful save makes it the cell's value. Whatever sequence of
saves fails, the cell ends up holding the normal form of what the *successful* edits alone would
have made of the first value (`foldl_commit`) — provided normalising before an edit is not visible
after it, which is what `hnorm` says.

The proviso is where such code usually goes wrong: an edit that looks at what normalising has
dropped (a count, a position) would see a difference, and the cell would depend on how often it was
saved. It is the only thing to prove about an edit; the sequence, the failures and their order are
dealt with here.
-/

namespace Abora.Lib

variable {σ α : Type*}

/-- Edit a copy, normalise it, and keep it if it could be saved. A failed save leaves the cell with
the value it had, edits and normal form included. -/
def commit (norm : σ → σ) (edit : σ → σ) (saved : Bool) (s : σ) : σ :=
  if saved then norm (edit s) else s

@[simp] theorem commit_true (norm edit : σ → σ) (s : σ) : commit norm edit true s = norm (edit s) :=
  rfl

@[simp] theorem commit_false (norm edit : σ → σ) (s : σ) : commit norm edit false s = s := rfl

/-- The edits whose save succeeded, in order. -/
def successful (attempts : List (α × Bool)) : List α :=
  (attempts.filter (·.2)).map Prod.fst

@[simp] theorem successful_nil : successful ([] : List (α × Bool)) = [] := rfl

@[simp] theorem successful_cons_true (a : α) (as : List (α × Bool)) :
    successful ((a, true) :: as) = a :: successful as := by simp [successful]

@[simp] theorem successful_cons_false (a : α) (as : List (α × Bool)) :
    successful ((a, false) :: as) = successful as := by simp [successful]

/-- **Failed saves leave no trace**, and normalising at every step is normalising at the end: what a
sequence of attempts makes of a normalised cell is what the successful ones, without any normalising
in between, make of the value. -/
theorem foldl_commit {norm : σ → σ} {edit : α → σ → σ}
    (hnorm : ∀ a s, norm (edit a (norm s)) = norm (edit a s)) (attempts : List (α × Bool))
    (s : σ) :
    attempts.foldl (fun s a => commit norm (edit a.1) a.2 s) (norm s) =
      norm ((successful attempts).foldl (fun s a => edit a s) s) := by
  induction attempts generalizing s with
  | nil => rfl
  | cons a as ih =>
    obtain ⟨a, saved⟩ := a
    cases saved with
    | false => simpa using ih s
    | true =>
      rw [List.foldl_cons, commit_true, hnorm, successful_cons_true, List.foldl_cons]
      exact ih (edit a s)

end Abora.Lib
