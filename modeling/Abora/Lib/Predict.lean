import Mathlib.Data.List.Basic

/-!
# Rows written as what a guess is off by

A row is written entry by entry as the difference to a guess (`residue`), and read back in place:
each entry in turn is joined with the guess again (`restoreStep`). The guess may look at the row
itself, and while a row is read back only its beginning is there yet. `Causal` says that the
beginning is all a guess looks at; it is all `foldl_restore` needs.

The filters of a PNG are guesses of this kind: the entry to the left, the one above, their mean, or
the nearest of three. The row above is known altogether and is a parameter of the guess. What joins
and parts the entries is addition and subtraction of bytes, of which only `hjoin` is used.
-/

namespace Abora.Lib

variable {α : Type*}

/-- The guess at a position depends on what comes before it. -/
def Causal (guess : List α → Nat → α) : Prop :=
  ∀ l m x, l.take x = m.take x → guess l x = guess m x

/-- What is written of a row: at every position what the entry is off by from the guess there. -/
def residue (part : α → α → α) (guess : List α → Nat → α) (row : List α) : List α :=
  row.mapIdx fun x a => part a (guess row x)

/-- One entry is read back, in a line whose entries before it have been read back already. -/
def restoreStep (join : α → α → α) (guess : List α → Nat → α) (line : List α) (x : Nat) : List α :=
  line.modify x fun a => join a (guess line x)

@[simp] theorem length_residue (part : α → α → α) (guess : List α → Nat → α) (row : List α) :
    (residue part guess row).length = row.length := List.length_mapIdx

@[simp] theorem length_restoreStep (join : α → α → α) (guess : List α → Nat → α) (line : List α)
    (x : Nat) : (restoreStep join guess line x).length = line.length := List.length_modify ..

theorem modify_middle (f : α → α) (l : List α) (a : α) (m : List α) :
    (l ++ a :: m).modify l.length f = l ++ f a :: m := by
  induction l with
  | nil => rfl
  | cons b l ih =>
    rw [List.cons_append, List.length_cons, List.modify_succ_cons, ih, List.cons_append]

/-- After `k` entries the row is there up to the `k`-th, and behind it are still residues: the
invariant of the loop that restores a row in place. -/
theorem foldl_restore_take {join part : α → α → α} (hjoin : ∀ a g, join (part a g) g = a)
    {guess : List α → Nat → α} (hcausal : Causal guess) (row : List α) {k : Nat}
    (hk : k ≤ row.length) :
    (List.range k).foldl (restoreStep join guess) (residue part guess row) =
      row.take k ++ (residue part guess row).drop k := by
  induction k with
  | zero => simp
  | succ k ih =>
    have hlt : k < row.length := hk
    have hlen : (row.take k).length = k := List.length_take_of_le (Nat.le_of_lt hlt)
    have hdrop : (residue part guess row).drop k =
        part row[k] (guess row k) :: (residue part guess row).drop (k + 1) := by
      rw [List.drop_eq_getElem_cons (by rwa [length_residue])]
      simp [residue]
    -- what has been read back is all the guess looks at
    have hguess : guess (row.take k ++ (residue part guess row).drop k) k = guess row k :=
      hcausal _ _ _ (List.take_left' hlen)
    have hstep : restoreStep join guess (row.take k ++ (residue part guess row).drop k) k =
        row.take k ++ row[k] :: (residue part guess row).drop (k + 1) := by
      have hmiddle := modify_middle (fun a => join a (guess row k)) (row.take k)
        (part row[k] (guess row k)) ((residue part guess row).drop (k + 1))
      rw [hlen, hjoin] at hmiddle
      rw [restoreStep, hguess, hdrop, hmiddle]
    rw [List.range_succ, List.foldl_append, ih (Nat.le_of_lt hlt), List.foldl_cons, List.foldl_nil,
      hstep, List.take_succ_eq_append_getElem hlt, List.append_assoc, List.singleton_append]

/-- **Reading back in place gives the row**, whatever the guess. -/
theorem foldl_restore {join part : α → α → α} (hjoin : ∀ a g, join (part a g) g = a)
    {guess : List α → Nat → α} (hcausal : Causal guess) (row : List α) :
    (List.range row.length).foldl (restoreStep join guess) (residue part guess row) = row := by
  rw [foldl_restore_take hjoin hcausal row (Nat.le_refl _),
    List.take_length, List.drop_eq_nil_of_le (by simp),
    List.append_nil]

end Abora.Lib
