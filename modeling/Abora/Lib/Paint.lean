import Mathlib.Data.Set.Lattice

/-!
# Painting

A picture gives every point a color. `Painted p q S a` says that `q` is `p` with one color over a
set of points, and nothing else changed. Steps that paint compose: over one another in one color
they paint the union of their sets, in whichever order they came and however they overlap. So a
figure that is drawn pixel by pixel, row by row or letter by letter is described by the set of its
points alone, and two ways of drawing it are equal when their sets are.
-/

namespace Abora.Lib

variable {ι α : Type*}

/-- `q` is `p` with the points of `S` in the color `a`. Both halves are needed: what is inside has
the color, whatever it was before, and what is outside is as it was. -/
structure Painted (p q : ι → α) (S : Set ι) (a : α) : Prop where
  inside : ∀ i ∈ S, q i = a
  outside : ∀ i ∉ S, q i = p i

namespace Painted

theorem nothing (p : ι → α) {S : Set ι} (hS : S = ∅) (a : α) : Painted p p S a :=
  ⟨fun _ h => (hS ▸ h).elim, fun _ _ => rfl⟩

theorem union {p q r : ι → α} {S T : Set ι} {a : α} (hS : Painted p q S a) (hT : Painted q r T a) :
    Painted p r (S ∪ T) a := by
  constructor
  · intro i hi
    by_cases hiT : i ∈ T
    · exact hT.inside i hiT
    · rw [hT.outside i hiT]
      exact hS.inside i (hi.resolve_right hiT)
  · intro i hi
    rw [Set.mem_union, not_or] at hi
    rw [hT.outside i hi.2, hS.outside i hi.1]

end Painted

end Abora.Lib
