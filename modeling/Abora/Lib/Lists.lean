import Mathlib.Data.List.Sort
import Mathlib.Data.List.Destutter
import Mathlib.Data.List.Forall2
import Mathlib.Data.Finset.Card

/-!
# Shapes of list the framework keeps

* `keepLast n l` — the newest `n` entries of a log that is written oldest first. A log that is
  trimmed after every append is the trim of the log that never was: `keepLast_append_left`.
* `sortDedup l` — a list sorted and then stripped of *adjacent* duplicates, which is how the
  set of names behind a list is written down canonically. On sorted input dropping adjacent
  duplicates drops all of them (`List.Pairwise.destutter_eq_dedup`), so the result is the strictly
  increasing enumeration of the set.
* a prefix that cannot reach past a separator: `prefix_append_cons_iff`.
* `lastSome l` — the newest value of a log in which some entries have none.
* a field that some steps overwrite has what the last of them wrote: `foldl_or_getLast?`; and a map
  that steps add to holds the last value of a key: `foldl_update_lookup`.
* a fold of fallible steps fails as one of its steps does (`foldlM_error`), and keeps what every
  step keeps (`foldlM_some`, `foldlM_ok`); with no failing step it is a plain fold (`foldlM_eq_ok`,
  and `mapM_eq_ok` for a map, whose results are those of the entries: `forall₂_of_mapM_ok`).
* pages of one length, one behind the other, are the list: `flatten_pages`; and one of many pieces
  of one length is found by its number: `slice_flatMap`. That no page is short can be told from the
  length of all: `length_flatten_eq_iff`.
* `chunks n l` — the list cut into pieces of `n + 1`.
* two lists related entry by entry are related part by part: `forall₂_append_iff`.
* the first match of a list that may be reordered: `find?_map_perm_iff`.
-/

namespace Abora.Lib

/-! ## The newest entries of a log -/

section KeepLast

variable {α : Type*}

/-- The newest `n` entries of a log that is written oldest first; all of it while it is no longer
than that. -/
def keepLast (n : Nat) (l : List α) : List α := l.drop (l.length - n)

theorem length_keepLast (n : Nat) (l : List α) : (keepLast n l).length = min n l.length := by
  simp only [keepLast, List.length_drop]
  omega

theorem keepLast_eq_self {n : Nat} {l : List α} (h : l.length ≤ n) : keepLast n l = l := by
  rw [keepLast, Nat.sub_eq_zero_of_le h, List.drop_zero]

theorem keepLast_suffix (n : Nat) (l : List α) : keepLast n l <:+ l := List.drop_suffix _ l

theorem keepLast_map {β : Type*} (n : Nat) (f : α → β) (l : List α) :
    keepLast n (l.map f) = (keepLast n l).map f := by
  rw [keepLast, keepLast, List.length_map, List.map_drop]

/-- **Trimming early changes nothing**: whatever a trim drops, the trim after the next append
would have dropped. -/
theorem keepLast_append_left (n : Nat) (l m : List α) :
    keepLast n (keepLast n l ++ m) = keepLast n (l ++ m) := by
  by_cases hle : l.length ≤ n
  · rw [keepLast_eq_self hle]
  · have hk : l.length - n ≤ l.length := Nat.sub_le _ _
    have hcut : (l ++ m).drop (l.length - n) = keepLast n l ++ m :=
      List.drop_append_of_le_length hk
    have hlen : (keepLast n l ++ m).length - n = m.length := by
      rw [List.length_append, length_keepLast]
      omega
    have hsum : (l ++ m).length - n = (l.length - n) + m.length := by
      rw [List.length_append]
      omega
    calc keepLast n (keepLast n l ++ m)
        = (keepLast n l ++ m).drop m.length := by rw [keepLast, hlen]
      _ = ((l ++ m).drop (l.length - n)).drop m.length := by rw [hcut]
      _ = keepLast n (l ++ m) := by rw [List.drop_drop, keepLast, hsum]

theorem keepLast_keepLast (n : Nat) (l : List α) : keepLast n (keepLast n l) = keepLast n l :=
  keepLast_eq_self (by rw [length_keepLast]; exact Nat.min_le_left _ _)

/-- An entry is still kept while fewer than `n` newer ones were written. -/
theorem mem_keepLast {n : Nat} {pre post : List α} {a : α} (h : post.length < n) :
    a ∈ keepLast n (pre ++ a :: post) := by
  have hk : (pre ++ a :: post).length - n ≤ pre.length := by
    rw [List.length_append, List.length_cons]
    omega
  rw [keepLast, List.drop_append_of_le_length hk]
  exact List.mem_append_right _ List.mem_cons_self

end KeepLast

/-! ## Prefixes up to a separator -/

/-- A list without the separator is a prefix of a text exactly when it is one of the text's first
part. -/
theorem prefix_append_cons_iff {α : Type*} {p a rest : List α} {c : α} (hc : c ∉ p) :
    p <+: a ++ c :: rest ↔ p <+: a := by
  constructor
  · intro h
    by_cases hlen : p.length ≤ a.length
    · exact List.prefix_of_prefix_length_le h (List.prefix_append a _) hlen
    · have hcut : a ++ [c] <+: a ++ c :: rest := ⟨rest, by simp⟩
      have hle : (a ++ [c]).length ≤ p.length := by
        rw [List.length_append, List.length_singleton]
        omega
      have hmem : c ∈ p :=
        (List.prefix_of_prefix_length_le hcut h hle).subset (by simp)
      exact absurd hmem hc
  · exact fun h => h.trans (List.prefix_append a _)

/-! ## The newest value of a log -/

section LastSome

variable {α : Type*}

/-- The newest value of a log in which some entries have none: the last `some`, wherever it
stands. -/
def lastSome (l : List (Option α)) : Option α := l.reverse.findSome? id

@[simp] theorem lastSome_nil : lastSome ([] : List (Option α)) = none := rfl

/-- A new entry is the newest value, if it has one. -/
@[simp] theorem lastSome_concat (l : List (Option α)) (x : Option α) :
    lastSome (l ++ [x]) = x.or (lastSome l) := by
  cases x with
  | none => simp [lastSome]
  | some a => simp [lastSome]

end LastSome

/-! ## The set behind a list, written down in order -/

section SortDedup

variable {α : Type*} [LinearOrder α]

/-- Sort, then drop every entry that equals the one kept before it. This is `sort` followed by
`dedup` on a Rust vector, and on sorted input it leaves each value once. -/
def sortDedup (l : List α) : List α := (l.insertionSort (· ≤ ·)).destutter (· ≠ ·)

theorem sortDedup_eq_dedup (l : List α) : sortDedup l = (l.insertionSort (· ≤ ·)).dedup :=
  (List.pairwise_insertionSort (· ≤ ·) l).destutter_eq_dedup

@[simp] theorem mem_sortDedup {l : List α} {a : α} : a ∈ sortDedup l ↔ a ∈ l := by
  rw [sortDedup_eq_dedup, List.mem_dedup, List.mem_insertionSort]

theorem nodup_sortDedup (l : List α) : (sortDedup l).Nodup := by
  rw [sortDedup_eq_dedup]
  exact List.nodup_dedup _

theorem pairwise_sortDedup (l : List α) : (sortDedup l).Pairwise (· < ·) := by
  have hne : (sortDedup l).Pairwise (· ≠ ·) := nodup_sortDedup l
  have hle : (sortDedup l).Pairwise (· ≤ ·) := by
    rw [sortDedup_eq_dedup]
    exact (List.pairwise_insertionSort (· ≤ ·) l).sublist (List.dedup_sublist _)
  exact (hle.and hne).imp fun h => lt_of_le_of_ne h.1 h.2

theorem length_sortDedup (l : List α) : (sortDedup l).length = l.toFinset.card := by
  rw [← List.toFinset_card_of_nodup (nodup_sortDedup l)]
  congr 1
  ext a
  simp only [List.mem_toFinset, mem_sortDedup]

theorem sortDedup_eq_iff {l m : List α} : sortDedup l = sortDedup m ↔ ∀ a, a ∈ l ↔ a ∈ m := by
  constructor
  · intro h a
    rw [← mem_sortDedup (l := l), h, mem_sortDedup]
  · intro h
    refine (pairwise_sortDedup l).eq_of_mem_iff (pairwise_sortDedup m) fun a => ?_
    rw [mem_sortDedup, mem_sortDedup]
    exact h a

end SortDedup

/-! ## Overwritten fields -/

/-- **The last write wins**; a step that writes nothing leaves the field as it was. -/
theorem foldl_or_getLast? {δ γ α : Type*} {step : δ → γ → δ} {f : δ → Option α}
    {write : γ → Option α} (h : ∀ d c, f (step d c) = (write c).or (f d)) (l : List γ) (d : δ) :
    f (l.foldl step d) = (l.filterMap write).getLast?.or (f d) := by
  induction l generalizing d with
  | nil => rfl
  | cons c l ih =>
    rw [List.foldl_cons, ih, h]
    cases hwrite : write c with
    | none => rw [List.filterMap_cons_none hwrite, Option.none_or]
    | some a =>
      rw [List.filterMap_cons_some hwrite, List.getLast?_cons]
      cases (l.filterMap write).getLast? <;> rfl

/-- A map filled one entry after the other holds the last value of a key. -/
theorem foldl_update_lookup {γ κ ν μ : Type*} [DecidableEq κ] [BEq κ] [LawfulBEq κ]
    (entry : γ → Option (κ × ν)) (f : ν → μ) (l : List γ) (key : κ) :
    l.foldl (fun (map : κ → Option μ) c =>
        (entry c).elim map fun p => Function.update map p.1 (some (f p.2))) (fun _ => none) key =
      ((l.filterMap entry).reverse.lookup key).map f := by
  induction l using List.reverseRecOn with
  | nil => rfl
  | append_singleton l c ih =>
    rw [List.foldl_append, List.filterMap_append, List.reverse_append]
    cases hentry : entry c with
    | none => simpa [hentry] using ih
    | some p =>
      obtain ⟨k, value⟩ := p
      by_cases hkey : key = k
      · simp [hentry, hkey]
      · have hne : (key == k) = false := beq_eq_false_iff_ne.mpr hkey
        simpa [hentry, List.lookup_cons, Function.update_of_ne hkey, hne] using ih

/-! ## Fallible folds -/

theorem ok_of_bind {α β ε : Type} {x : Except ε α} {f : α → Except ε β} {b : β}
    (h : x >>= f = .ok b) : ∃ a, x = .ok a ∧ f a = .ok b := by
  cases x with
  | error e => cases h
  | ok a => exact ⟨a, rfl, h⟩

theorem ok_of_map {α β ε : Type} {x : Except ε α} {f : α → β} {b : β}
    (h : x.map f = .ok b) : ∃ a, x = .ok a ∧ f a = b := by
  cases x with
  | error e => cases h
  | ok a => exact ⟨a, rfl, Except.ok.inj h⟩

/-- **A fold fails as the step that fails does.** What is known of the error of every single step is
known of the error of the whole fold, so nothing has to be said about where it stopped. -/
theorem foldlM_error {σ α ε : Type} {f : σ → α → Except ε σ} {Q : ε → Prop}
    (h : ∀ s a e, f s a = .error e → Q e) {s : σ} {l : List α} {e : ε}
    (he : l.foldlM f s = .error e) : Q e := by
  induction l generalizing s with
  | nil => cases he
  | cons a l ih =>
    rw [List.foldlM_cons] at he
    cases ha : f s a with
    | error e' =>
      rw [ha] at he
      cases he
      exact h s a e ha
    | ok s' =>
      rw [ha] at he
      exact ih he

theorem foldlM_some {σ α : Type} {f : σ → α → Option σ} {P : σ → Prop}
    (h : ∀ s a s', P s → f s a = some s' → P s') {s s' : σ} {l : List α} (hs : P s)
    (hl : l.foldlM f s = some s') : P s' := by
  induction l generalizing s with
  | nil =>
    cases hl
    exact hs
  | cons a l ih =>
    rw [List.foldlM_cons] at hl
    obtain ⟨t, ha, hrest⟩ := Option.bind_eq_some_iff.mp hl
    exact ih (h s a t hs ha) hrest

theorem foldlM_ok {σ α ε : Type} {f : σ → α → Except ε σ} {P : σ → Prop}
    (h : ∀ s a s', P s → f s a = .ok s' → P s') {s s' : σ} {l : List α} (hs : P s)
    (hl : l.foldlM f s = .ok s') : P s' := by
  induction l generalizing s with
  | nil =>
    cases hl
    exact hs
  | cons a l ih =>
    rw [List.foldlM_cons] at hl
    cases ha : f s a with
    | error e =>
      rw [ha] at hl
      cases hl
    | ok t =>
      rw [ha] at hl
      exact ih (h s a t hs ha) hl

/-- A fold whose steps all go well is a plain one. The steps need to go well only where the fold
takes them: at members of the list, in states that have the property the fold keeps. -/
theorem foldlM_eq_ok {σ α ε : Type} {f : σ → α → Except ε σ} {g : σ → α → σ} {P : σ → Prop}
    {l : List α} (h : ∀ s a, P s → a ∈ l → f s a = .ok (g s a) ∧ P (g s a)) {s : σ} (hs : P s) :
    l.foldlM f s = .ok (l.foldl g s) := by
  induction l generalizing s with
  | nil => rfl
  | cons a l ih =>
    obtain ⟨ha, hnext⟩ := h s a hs List.mem_cons_self
    rw [List.foldlM_cons, ha, List.foldl_cons]
    exact ih (fun s b hs hb => h s b hs (List.mem_cons_of_mem a hb)) hnext

theorem mapM_eq_ok {α β ε : Type} {f : α → Except ε β} {g : α → β} {l : List α}
    (h : ∀ a ∈ l, f a = .ok (g a)) : l.mapM f = .ok (l.map g) := by
  induction l with
  | nil => rfl
  | cons a l ih =>
    rw [List.mapM_cons, h a List.mem_cons_self, ih fun b hb => h b (List.mem_cons_of_mem a hb)]
    rfl

theorem forall₂_of_mapM_ok {α β ε : Type} {f : α → Except ε β} {l : List α} {m : List β}
    (h : l.mapM f = .ok m) : List.Forall₂ (fun a b => f a = .ok b) l m := by
  induction l generalizing m with
  | nil =>
    cases h
    exact .nil
  | cons a l ih =>
    rw [List.mapM_cons] at h
    obtain ⟨b, hb, h⟩ := ok_of_bind h
    obtain ⟨bs, hbs, h⟩ := ok_of_bind h
    cases h
    exact .cons hb (ih hbs)

/-! ## Pages -/

theorem length_flatten_le {α : Type*} {n : Nat} {ls : List (List α)}
    (h : ∀ l ∈ ls, l.length ≤ n) : ls.flatten.length ≤ ls.length * n := by
  induction ls with
  | nil => simp
  | cons l ls ih =>
    have hl := h l List.mem_cons_self
    have hls := ih fun m hm => h m (List.mem_cons_of_mem l hm)
    rw [List.flatten_cons, List.length_append, List.length_cons, Nat.succ_mul]
    omega

/-- Pages of at most `n` entries are as long as they could be exactly when each of them is. -/
theorem length_flatten_eq_iff {α : Type*} {n : Nat} {ls : List (List α)}
    (h : ∀ l ∈ ls, l.length ≤ n) :
    ls.flatten.length = ls.length * n ↔ ∀ l ∈ ls, l.length = n := by
  induction ls with
  | nil => simp
  | cons l ls ih =>
    have hl := h l List.mem_cons_self
    have htail : ∀ m ∈ ls, m.length ≤ n := fun m hm => h m (List.mem_cons_of_mem l hm)
    have hls := length_flatten_le htail
    rw [List.flatten_cons, List.length_append, List.length_cons, Nat.succ_mul,
      List.forall_mem_cons, ← ih htail]
    omega

theorem slice_flatMap {α β : Type*} {f : α → List β} {n : Nat} {l : List α}
    (hf : ∀ a ∈ l, (f a).length = n) {i : Nat} (hi : i < l.length) :
    ((l.flatMap f).drop (i * n)).take n = f l[i] := by
  induction l generalizing i with
  | nil => cases hi
  | cons a l ih =>
    have ha := hf a List.mem_cons_self
    cases i with
    | zero => simp [List.flatMap_cons, List.take_left' ha]
    | succ i =>
      have hsucc : (i + 1) * n = (f a).length + i * n := by
        rw [ha, Nat.succ_mul, Nat.add_comm]
      rw [List.flatMap_cons, hsucc, ← List.drop_drop, List.drop_left,
        ih (fun b hb => hf b (List.mem_cons_of_mem a hb)) (Nat.lt_of_succ_lt_succ hi),
        List.getElem_cons_succ]

/-- **Pages one behind the other** are what they were cut from, as far as they reach: the first `k`
pages of `n` entries are the first `k * n` entries, whether or not the list has that many. -/
theorem flatten_pages {α : Type*} (l : List α) (n k : Nat) :
    ((List.range k).map fun i => (l.drop (i * n)).take n).flatten = l.take (k * n) := by
  induction k with
  | zero => simp
  | succ k ih =>
    rw [List.range_succ, List.map_append, List.flatten_append, ih, Nat.succ_mul, List.take_add]
    simp

/-! ## Pieces -/

section Chunks

variable {α : Type*}

/-- `slice::chunks`, for pieces of `n + 1`. -/
def chunks (n : Nat) : List α → List (List α)
  | [] => []
  | a :: l => (a :: l.take n) :: chunks n (l.drop n)
termination_by l => l.length

theorem flatten_chunks (n : Nat) (l : List α) : (chunks n l).flatten = l := by
  induction l using chunks.induct n with
  | case1 => rw [chunks, List.flatten_nil]
  | case2 a l ih => rw [chunks, List.flatten_cons, ih, List.cons_append, List.take_append_drop]

theorem chunks_eq {n : Nat} {l : List α} (h : l ≠ []) :
    chunks n l = l.take (n + 1) :: chunks n (l.drop (n + 1)) := by
  cases l with
  | nil => exact absurd rfl h
  | cons a l => rw [chunks, List.take_succ_cons, List.drop_succ_cons]

theorem length_le_of_mem_chunks {n : Nat} {l c : List α} (h : c ∈ chunks n l) :
    c.length ≤ l.length := by
  rw [← flatten_chunks n l]
  exact (List.sublist_flatten_of_mem h).length_le

theorem ne_nil_of_mem_chunks {n : Nat} {l c : List α} (h : c ∈ chunks n l) : c ≠ [] := by
  induction l using chunks.induct n with
  | case1 =>
    rw [chunks] at h
    cases h
  | case2 a l ih =>
    rw [chunks] at h
    rcases List.mem_cons.mp h with rfl | h
    · exact List.cons_ne_nil _ _
    · exact ih h

theorem mem_of_mem_chunks {n : Nat} {l c : List α} (h : c ∈ chunks n l) {a : α} (ha : a ∈ c) :
    a ∈ l := by
  rw [← flatten_chunks n l]
  exact List.mem_flatten.mpr ⟨c, h, ha⟩

end Chunks

/-! ## Lists related entry by entry -/

theorem map_eq_map_of_forall₂ {α β γ : Type*} {R : α → β → Prop} {f : α → γ} {g : β → γ}
    {as : List α} {bs : List β} (h : List.Forall₂ R as bs) (hfg : ∀ a b, R a b → g b = f a) :
    bs.map g = as.map f := by
  induction h with
  | nil => rfl
  | cons hab _ ih => rw [List.map_cons, List.map_cons, hfg _ _ hab, ih]

theorem forall₂_append_iff {α β : Type*} {R : α → β → Prop} {a b : List α} {c d : List β}
    (h : b.length = d.length) :
    List.Forall₂ R (a ++ b) (c ++ d) ↔ List.Forall₂ R a c ∧ List.Forall₂ R b d := by
  constructor
  · intro hall
    have hlen : a.length = c.length := by
      have htotal := hall.length_eq
      rw [List.length_append, List.length_append] at htotal
      omega
    have htake := List.forall₂_take_append _ c d hall
    have hdrop := List.forall₂_drop_append _ c d hall
    rw [← hlen, List.take_left] at htake
    rw [← hlen, List.drop_left] at hdrop
    exact ⟨htake, hdrop⟩
  · rintro ⟨hac, hbd⟩
    exact List.rel_append hac hbd

/-! ## The first match -/

/-- **What can be said of the first match in any order** is what can be said of every match. -/
theorem find?_map_perm_iff {α β : Type*} {p : α → Bool} {f : α → β} {l : List α} :
    (∀ l', l.Perm l' → (l'.find? p).map f = (l.find? p).map f) ↔
      ∀ a ∈ l, ∀ b ∈ l, p a = true → p b = true → f a = f b := by
  constructor
  · intro h a ha b hb hpa hpb
    -- every match can be made the first one
    have hfirst (c : α) (hc : c ∈ l) (hpc : p c = true) : (l.find? p).map f = some (f c) := by
      obtain ⟨s, t, hl⟩ := List.append_of_mem hc
      have hperm : l.Perm (c :: (s ++ t)) := by
        rw [hl]
        exact List.perm_middle
      rw [← h _ hperm, List.find?_cons_of_pos hpc]
      rfl
    have heq := hfirst a ha hpa
    rw [hfirst b hb hpb] at heq
    exact (Option.some.inj heq).symm
  · intro h l' hperm
    cases hfind : l.find? p with
    | none =>
      have hnone : l'.find? p = none := by
        rw [List.find?_eq_none] at hfind ⊢
        intro a ha
        exact hfind a (hperm.mem_iff.mpr ha)
      rw [hnone]
    | some a =>
      have ha := List.mem_of_find?_eq_some hfind
      have hpa := List.find?_some hfind
      obtain ⟨b, hb⟩ : ∃ b, l'.find? p = some b := by
        rw [← Option.isSome_iff_exists, List.find?_isSome]
        exact ⟨a, hperm.mem_iff.mp ha, hpa⟩
      have hbl := hperm.mem_iff.mpr (List.mem_of_find?_eq_some hb)
      rw [hb]
      show some (f b) = some (f a)
      rw [h a ha b hbl hpa (List.find?_some hb)]

end Abora.Lib
