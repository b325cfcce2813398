import Mathlib.Data.List.Basic
import Mathlib.Data.List.DropRight
import Abora.Lib.Lists

/-!
# Words with space between them

A text is cut into the pieces between separators, and the empty ones do not count. `Spaced` is how
such a text is put together: any amount of space before, behind and between its words, but some
between two of them. `pieces_spaced` reads the words back. Everything about `pieces` comes from one
equation, that a separator cuts (`pieces_append_cons`): what is in front of it and what is behind it
can be read apart from one another.

`cutAt` is the other way to find something in a text: the first occurrence of a marker. If the
marker's first symbol is not in the rest of it, no occurrence can begin before the marker and reach
into it (`cutAt_append`), so it is enough that the text in front of it does not hold the marker.
-/

namespace Abora.Lib

variable {α : Type*} {p : α → Bool}

/-- The pieces between separators, without the empty ones. -/
def pieces (p : α → Bool) (s : List α) : List (List α) := (s.splitOnP p).filter fun w => !w.isEmpty

/-- A text of these words: pads of any length around them, and none of them empty. The words
determine the text but for the space, and the text determines the words. -/
inductive Spaced (p : α → Bool) : List (List α) → List α → Prop
  | blank {s : List α} (h : ∀ c ∈ s, p c = true) : Spaced p [] s
  | word {pad w rest : List α} {ws : List (List α)} (hpad : ∀ c ∈ pad, p c = true) (hne : w ≠ [])
      (hw : ∀ c ∈ w, p c = false) (hcut : ∀ c ∈ rest.head?, p c = true) (h : Spaced p ws rest) :
      Spaced p (w :: ws) (pad ++ w ++ rest)

theorem Spaced.cons {c : α} {ws : List (List α)} {s : List α} (hc : p c = true)
    (h : Spaced p ws s) : Spaced p ws (c :: s) := by
  cases h with
  | blank h => exact .blank (List.forall_mem_cons.mpr ⟨hc, h⟩)
  | @word pad w rest ws hpad hne hw hcut h =>
    exact @Spaced.word α p (c :: pad) w rest ws (List.forall_mem_cons.mpr ⟨hc, hpad⟩) hne hw hcut h

@[simp] theorem pieces_nil : pieces p [] = [] := by
  rw [pieces, List.splitOnP_nil]
  rfl

/-- Everything comes from this one: a separator cuts, and the two sides do not know of each
other. -/
theorem pieces_append_cons {c : α} (hc : p c = true) (a b : List α) :
    pieces p (a ++ c :: b) = pieces p a ++ pieces p b := by
  unfold pieces
  rw [List.splitOnP_append_cons a b hc, List.filter_append]

theorem pieces_cons {c : α} (hc : p c = true) (s : List α) : pieces p (c :: s) = pieces p s := by
  have h := pieces_append_cons hc [] s
  rwa [List.nil_append, pieces_nil, List.nil_append] at h

theorem pieces_blank_append {pad : List α} (h : ∀ c ∈ pad, p c = true) (s : List α) :
    pieces p (pad ++ s) = pieces p s := by
  induction pad with
  | nil => rfl
  | cons c pad ih =>
    obtain ⟨hc, hpad⟩ := List.forall_mem_cons.mp h
    rw [List.cons_append, pieces_cons hc, ih hpad]

theorem pieces_append_blank {pad : List α} (h : ∀ c ∈ pad, p c = true) (s : List α) :
    pieces p (s ++ pad) = pieces p s := by
  cases pad with
  | nil => rw [List.append_nil]
  | cons c pad =>
    obtain ⟨hc, hpad⟩ := List.forall_mem_cons.mp h
    have hblank := pieces_blank_append hpad []
    rw [List.append_nil, pieces_nil] at hblank
    rw [pieces_append_cons hc, hblank, List.append_nil]

theorem pieces_word {w : List α} (hne : w ≠ []) (hw : ∀ c ∈ w, p c = false) : pieces p w = [w] := by
  rw [pieces, List.splitOnP_eq_singleton hw]
  cases w with
  | nil => exact absurd rfl hne
  | cons c w => rfl

theorem pieces_word_append {w rest : List α} (hne : w ≠ []) (hw : ∀ c ∈ w, p c = false)
    (hcut : ∀ c ∈ rest.head?, p c = true) : pieces p (w ++ rest) = w :: pieces p rest := by
  cases rest with
  | nil => rw [List.append_nil, pieces_word hne hw, pieces_nil]
  | cons c rest =>
    have hc : p c = true := hcut c rfl
    rw [pieces_append_cons hc, pieces_word hne hw, pieces_cons hc]
    rfl

/-- **The words of a text are read back**, whatever the space. -/
theorem pieces_spaced {ws : List (List α)} {s : List α} (h : Spaced p ws s) : pieces p s = ws := by
  induction h with
  | blank h =>
    have hblank := pieces_blank_append h []
    rwa [List.append_nil, pieces_nil] at hblank
  | word hpad hne hw hcut _ ih =>
    rw [List.append_assoc, pieces_blank_append hpad, pieces_word_append hne hw hcut, ih]

/-- Space at the ends can be dropped first, so trimming a text before it is cut into words changes
nothing. -/
theorem pieces_strip (s : List α) : pieces p ((s.dropWhile p).rdropWhile p) = pieces p s := by
  have hfront : ∀ c ∈ s.takeWhile p, p c = true := fun c hc => List.mem_takeWhile_imp hc
  have hback : ∀ c ∈ (s.dropWhile p).rtakeWhile p, p c = true := fun c hc =>
    List.mem_rtakeWhile_imp hc
  have hdrop : (s.dropWhile p).rdropWhile p ++ (s.dropWhile p).rtakeWhile p = s.dropWhile p :=
    List.rdropWhile_append_rtakeWhile
  calc pieces p ((s.dropWhile p).rdropWhile p)
      = pieces p (s.dropWhile p) := by rw [← pieces_append_blank hback, hdrop]
    _ = pieces p s := by rw [← pieces_blank_append hfront, List.takeWhile_append_dropWhile]

/-! ## The first occurrence of a marker -/

section CutAt

variable [DecidableEq α]

/-- What is before the first occurrence, and everything from there on. -/
def cutAt (marker : List α) : List α → Option (List α × List α)
  | [] => if marker = [] then some ([], []) else none
  | c :: s =>
    if marker.isPrefixOf (c :: s) then some ([], c :: s)
    else (cutAt marker s).map fun q => (c :: q.1, q.2)

/-- The first occurrence is where it was put, if the text in front of it has none and the marker's
first symbol does not come again in the marker. -/
theorem cutAt_append {c : α} {m s : List α} (hc : c ∉ m) (h : ¬ c :: m <:+: s) (t : List α) :
    cutAt (c :: m) (s ++ (c :: m ++ t)) = some (s, c :: m ++ t) := by
  induction s with
  | nil =>
    have hpre : (c :: m).isPrefixOf (c :: m ++ t) = true :=
      List.isPrefixOf_iff_prefix.mpr (List.prefix_append _ t)
    exact if_pos hpre
  | cons d s ih =>
    -- an occurrence here would lie in front of the marker altogether, as that begins with `c`
    have hno : ¬ (c :: m).isPrefixOf (d :: (s ++ (c :: m ++ t))) = true := by
      intro hpre
      obtain ⟨hcd, htail⟩ := List.cons_prefix_cons.mp (List.isPrefixOf_iff_prefix.mp hpre)
      rw [List.cons_append, prefix_append_cons_iff hc] at htail
      exact h (hcd ▸ (List.cons_prefix_cons.mpr ⟨rfl, htail⟩).isInfix)
    rw [List.cons_append, cutAt, if_neg hno, ih fun hin => h (List.infix_cons hin),
      Option.map_some]

end CutAt

end Abora.Lib
