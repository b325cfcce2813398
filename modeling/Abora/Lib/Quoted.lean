import Abora.Lib.Text
import Abora.Lib.Words

/-!
# Finding a member in the text of an object

A reader that does not parse looks for `"name":"` in the text of an object and takes what follows up
to some other marker. Whether it finds what it looks for depends on where the quotes of the text
are: at the ends of keys and of strings, and, behind a backslash, in a string (`Escaped`). In an
object whose keys have no quotes and whose values are strings or have none either (`Flat`), the
first `"name":"` is the member of that name (`cutAt_member`). Inside a string every quote is behind
a backslash, so what looks like a key there has one in front of its closing quote, and no name has.

Where the string ends is the harder question. A reader that takes everything up to `","stem` gets
the whole string, as no string has that in it (`beginsLater_next`), but it gets more than the string
when the next member is another one than it thought (`next_prefix_iff`).

All of it rests on saying where a marker does *not* begin (`BeginsLater`), piece by piece.
-/

namespace Abora.Lib

namespace Text

def quoted (body : Chars) : Chars := '"' :: body ++ ['"']

/-- Every quote in a string is behind a backslash; `before` is the character in front of it. -/
def Escaped (before : Char) : Chars → Prop
  | [] => True
  | c :: body => (c = '"' → before = '\\') ∧ Escaped c body

/-- A member: its key, without the quotes, and the text of its value. -/
abbrev Member := Chars × Chars

def Member.text (m : Member) : Chars := quoted m.1 ++ ':' :: m.2

/-- The members behind another one, and the end of the object. -/
def membersTail (ms : List Member) : Chars := ms.flatMap (fun m => ',' :: m.text) ++ ['\x7d']

def objectText (ms : List Member) : Chars :=
  '\x7b' :: joinAll ',' (ms.map Member.text) ++ ['\x7d']

/-- The quotes of a member are those of its key and of its value: the key has none, and the value is
a string or has none. Numbers, booleans and nested arrays of numbers are fine; nested objects are
not. -/
structure Member.Flat (m : Member) : Prop where
  key : '"' ∉ m.1
  value : '"' ∉ m.2 ∨ ∃ body, m.2 = quoted body ∧ Escaped '"' body

end Text

open Text

/-! ## Where a marker does not begin -/

section

variable {α : Type*} {marker s t : List α}

/-- No occurrence of the marker in `s ++ t` begins in `s`. What begins there may end in `t`, so the
second part counts as well. -/
def BeginsLater (marker : List α) : List α → List α → Prop
  | [], _ => True
  | c :: s, t => ¬ marker <+: c :: (s ++ t) ∧ BeginsLater marker s t

theorem BeginsLater.cons {c : α} (hno : ¬ marker <+: c :: (s ++ t)) (h : BeginsLater marker s t) :
    BeginsLater marker (c :: s) t :=
  ⟨hno, h⟩

theorem BeginsLater.append {s' : List α} (h : BeginsLater marker s (s' ++ t))
    (h' : BeginsLater marker s' t) : BeginsLater marker (s ++ s') t := by
  induction s with
  | nil => exact h'
  | cons c s ih =>
    refine ⟨?_, ih h.2⟩
    have hassoc : s ++ s' ++ t = s ++ (s' ++ t) := List.append_assoc s s' t
    exact hassoc ▸ h.1

theorem BeginsLater.of_not_mem {c : α} {m : List α} (h : c ∉ s) : BeginsLater (c :: m) s t := by
  induction s with
  | nil => trivial
  | cons d s ih =>
    rw [List.mem_cons, not_or] at h
    exact ⟨fun hpre => h.1 (List.cons_prefix_cons.mp hpre).1, ih h.2⟩

variable [DecidableEq α]

theorem cutAt_start (h : marker <+: s) : cutAt marker s = some ([], s) := by
  cases s with
  | nil => exact if_pos (List.prefix_nil.mp h)
  | cons c s => exact if_pos (List.isPrefixOf_iff_prefix.mpr h)

theorem cutAt_later (h : BeginsLater marker s t) :
    cutAt marker (s ++ t) = (cutAt marker t).map fun q => (s ++ q.1, q.2) := by
  induction s with
  | nil => simp
  | cons c s ih =>
    have hno : ¬ marker.isPrefixOf (c :: (s ++ t)) = true := fun hpre =>
      h.1 (List.isPrefixOf_iff_prefix.mp hpre)
    rw [List.cons_append, cutAt, if_neg hno, ih h.2, Option.map_map]
    rfl

end

/-! ## The member of a name -/

/-- A name of letters, to look for. -/
structure IsName (name : Chars) : Prop where
  nonempty : name ≠ []
  letters : ∀ c ∈ name, c.isAlpha = true

theorem isName_of_all {name : Chars} (hne : name.isEmpty = false)
    (hall : name.all Char.isAlpha = true) : IsName name :=
  ⟨List.isEmpty_eq_false_iff.mp hne, List.all_eq_true.mp hall⟩

theorem IsName.not_mem {name : Chars} (h : IsName name) {c : Char} (hc : c.isAlpha = false) :
    c ∉ name := fun hmem => by
  rw [h.letters c hmem] at hc
  cases hc

theorem IsName.not_start {name rest : Chars} (h : IsName name)
    (hrest : ∀ c ∈ rest.head?, c.isAlpha = false) : ¬ name <+: rest := by
  intro hpre
  obtain ⟨c, name, rfl⟩ := List.exists_cons_of_ne_nil h.nonempty
  cases rest with
  | nil => cases List.prefix_nil.mp hpre
  | cons d rest =>
    obtain rfl : c = d := (List.cons_prefix_cons.mp hpre).1
    have hletter := h.letters c List.mem_cons_self
    rw [hrest c rfl] at hletter
    cases hletter

/-- `"name":"`. -/
def nameMarker (name : Chars) : Chars := '"' :: (name ++ '"' :: [':', '"'])

/-- In a string and behind it, a quote comes behind a backslash or before something else than a
colon; so no name ends there. -/
theorem name_not_start {name body rest : Chars} {before : Char} (hbody : Escaped before body)
    (hbefore : before ≠ '\\') (hquote : '"' ∉ name) (hslash : '\\' ∉ name)
    (hrest : ∀ c ∈ rest.head?, c ≠ ':') : ¬ name ++ '"' :: [':', '"'] <+: body ++ '"' :: rest := by
  induction name generalizing before body with
  | nil =>
    intro hpre
    cases body with
    | nil =>
      obtain ⟨-, hpre⟩ := List.cons_prefix_cons.mp hpre
      cases rest with
      | nil => cases List.prefix_nil.mp hpre
      | cons c rest => exact hrest c rfl (List.cons_prefix_cons.mp hpre).1.symm
    | cons c body => exact hbefore (hbody.1 (List.cons_prefix_cons.mp hpre).1.symm)
  | cons n name ih =>
    intro hpre
    rw [List.mem_cons, not_or] at hquote hslash
    cases body with
    | nil => exact hquote.1 (List.cons_prefix_cons.mp hpre).1.symm
    | cons c body =>
      obtain ⟨hn, htail⟩ := List.cons_prefix_cons.mp hpre
      exact ih hbody.2 (hn ▸ Ne.symm hslash.1) hquote.2 hslash.2 htail

theorem eq_of_prefix_quote {a b more rest : Chars} (ha : '"' ∉ a) (hb : '"' ∉ b)
    (h : a ++ '"' :: more <+: b ++ '"' :: rest) : a = b := by
  induction a generalizing b with
  | nil =>
    cases b with
    | nil => rfl
    | cons d b => exact absurd (List.cons_prefix_cons.mp h).1 (List.ne_of_not_mem_cons hb)
  | cons c a ih =>
    cases b with
    | nil => exact absurd (List.cons_prefix_cons.mp h).1.symm (List.ne_of_not_mem_cons ha)
    | cons d b =>
      obtain ⟨hc, htail⟩ := List.cons_prefix_cons.mp h
      rw [hc, ih (List.not_mem_of_not_mem_cons ha) (List.not_mem_of_not_mem_cons hb) htail]

/-- What may stand behind a value. -/
def EndsValue (rest : Chars) : Prop := ∀ c ∈ rest.head?, c = ',' ∨ c = '\x7d'

theorem EndsValue.ne_colon {rest : Chars} (h : EndsValue rest) : ∀ c ∈ rest.head?, c ≠ ':' := by
  intro c hc
  rcases h c hc with rfl | rfl <;> decide

theorem EndsValue.not_letter {rest : Chars} (h : EndsValue rest) :
    ∀ c ∈ rest.head?, c.isAlpha = false := by
  intro c hc
  rcases h c hc with rfl | rfl <;> rfl

theorem membersTail_ends (ms : List Member) : EndsValue (membersTail ms) := by
  cases ms with
  | nil =>
    rintro c ⟨⟩
    exact .inr rfl
  | cons m ms =>
    rintro c ⟨⟩
    exact .inl rfl

section

variable {name : Chars} (hname : IsName name)

include hname

/-- No name is in a string, or begins where the string ends. -/
theorem beginsLater_body {body rest : Chars} {before : Char} (hbody : Escaped before body)
    (hrest : EndsValue rest) : BeginsLater (nameMarker name) (body ++ ['"']) rest := by
  induction body generalizing before with
  | nil =>
    exact .cons (fun hpre => hname.not_start hrest.not_letter
      ((List.prefix_append _ _).trans (List.cons_prefix_cons.mp hpre).2)) trivial
  | cons c body ih =>
    refine .cons (s := body ++ ['"']) (fun hpre => ?_) (ih hbody.2)
    obtain ⟨hc, htail⟩ := List.cons_prefix_cons.mp hpre
    rw [List.append_assoc] at htail
    exact name_not_start hbody.2 (hc ▸ by decide) (hname.not_mem rfl) (hname.not_mem rfl)
      hrest.ne_colon htail

theorem beginsLater_value {m : Member} (hm : m.Flat) {rest : Chars} (hrest : EndsValue rest) :
    BeginsLater (nameMarker name) m.2 rest := by
  rcases hm.value with hnone | ⟨body, hvalue, hbody⟩
  · exact .of_not_mem hnone
  · rw [hvalue]
    refine .cons (s := body ++ ['"']) (fun hpre => ?_) (beginsLater_body hname hbody hrest)
    obtain ⟨-, htail⟩ := List.cons_prefix_cons.mp hpre
    rw [List.append_assoc] at htail
    exact name_not_start hbody (by decide) (hname.not_mem rfl) (hname.not_mem rfl)
      hrest.ne_colon htail

theorem beginsLater_member {m : Member} (hm : m.Flat) (hne : m.1 ≠ name) {rest : Chars}
    (hrest : EndsValue rest) : BeginsLater (nameMarker name) m.text rest := by
  refine .append (s := quoted m.1) ?_
    (.cons (s := m.2) (fun hpre => ?_) (beginsLater_value hname hm hrest))
  · refine .cons (s := m.1 ++ ['"']) (fun hpre => ?_)
      (.append (.of_not_mem hm.key) (.cons (fun hpre => ?_) trivial))
    · obtain ⟨-, htail⟩ := List.cons_prefix_cons.mp hpre
      rw [List.append_assoc] at htail
      exact hne (eq_of_prefix_quote (hname.not_mem rfl) hm.key htail).symm
    · obtain ⟨-, htail⟩ := List.cons_prefix_cons.mp hpre
      exact hname.not_start (fun c hc => by cases hc; rfl) ((List.prefix_append _ _).trans htail)
  · exact absurd (List.cons_prefix_cons.mp hpre).1 (by decide)

theorem beginsLater_front {pre : List Member} (hpre : ∀ m ∈ pre, m.Flat ∧ m.1 ≠ name)
    (rest : Chars) :
    BeginsLater (nameMarker name) (pre.flatMap fun m => m.text ++ [',']) rest := by
  induction pre with
  | nil => trivial
  | cons m pre ih =>
    obtain ⟨⟨hflat, hne⟩, hmore⟩ := List.forall_mem_cons.mp hpre
    rw [List.flatMap_cons]
    refine .append (.append (beginsLater_member hname hflat hne ?_) (.of_not_mem (by decide)))
      (ih hmore)
    rintro c ⟨⟩
    exact .inl rfl

end

theorem joinAll_text (pre : List Member) (m : Member) (post : List Member) :
    joinAll ',' ((pre ++ m :: post).map Member.text) =
      (pre.flatMap fun m => m.text ++ [',']) ++
        (m.text ++ post.flatMap fun m => ',' :: m.text) := by
  induction pre with
  | nil =>
    induction post generalizing m with
    | nil => simp [joinAll]
    | cons m' post ih =>
      have hjoin := ih m'
      simp only [List.nil_append, List.flatMap_nil, List.map_cons] at hjoin ⊢
      rw [joinAll_cons (List.cons_ne_nil _ _), hjoin, List.flatMap_cons]
      rfl
  | cons p pre ih =>
    have hne : (pre ++ m :: post).map Member.text ≠ [] := by simp
    rw [List.cons_append, List.map_cons, joinAll_cons hne, ih, List.flatMap_cons]
    simp

/-- **The first `"name":"` of an object is its member of that name**; what follows is that string,
its quote, and the members behind. -/
theorem cutAt_member {name : Chars} (hname : IsName name) {pre : List Member}
    (hpre : ∀ m ∈ pre, m.Flat ∧ m.1 ≠ name) (body : Chars) (post : List Member) :
    ∃ front, cutAt (nameMarker name) (objectText (pre ++ (name, quoted body) :: post)) =
      some (front, nameMarker name ++ (body ++ '"' :: membersTail post)) := by
  have htext : objectText (pre ++ (name, quoted body) :: post) =
      ('\x7b' :: pre.flatMap fun m => m.text ++ [',']) ++
        (nameMarker name ++ (body ++ '"' :: membersTail post)) := by
    unfold objectText
    rw [joinAll_text]
    simp [nameMarker, Member.text, quoted, membersTail]
  have hfront : BeginsLater (nameMarker name) ('\x7b' :: pre.flatMap fun m => m.text ++ [','])
      (nameMarker name ++ (body ++ '"' :: membersTail post)) :=
    .cons (fun h => absurd (List.cons_prefix_cons.mp h).1 (by decide))
      (beginsLater_front hname hpre _)
  exact ⟨_, by rw [htext, cutAt_later hfront, cutAt_start (List.prefix_append _ _),
    Option.map_some, List.append_nil]⟩

/-! ## The end of a string -/

/-- A string's end and the beginning of the next key: `","stem`. -/
def nextMarker (stem : Chars) : Chars := '"' :: ',' :: '"' :: stem

theorem beginsLater_next {stem : Chars} (hstem : IsName stem) {body rest : Chars} {before : Char}
    (hbody : Escaped before body) (hrest : EndsValue rest) :
    BeginsLater (nextMarker stem) body ('"' :: rest) := by
  induction body generalizing before with
  | nil => trivial
  | cons c body ih =>
    refine .cons (s := body) (fun hpre => ?_) (ih hbody.2)
    obtain ⟨rfl, hcomma⟩ := List.cons_prefix_cons.mp hpre
    -- a comma and a quote: the quote has no backslash before it, so it is where the string ends
    cases body with
    | nil => exact absurd (List.cons_prefix_cons.mp hcomma).1 (by decide)
    | cons d body =>
      obtain ⟨rfl, hquote⟩ := List.cons_prefix_cons.mp hcomma
      cases body with
      | nil =>
        exact hstem.not_start hrest.not_letter (List.cons_prefix_cons.mp hquote).2
      | cons e body =>
        have hslash := hbody.2.2.1 (List.cons_prefix_cons.mp hquote).1.symm
        exact absurd hslash (by decide)

theorem next_prefix_iff {stem : Chars} (hstem : IsName stem) (post : List Member) :
    nextMarker stem <+: '"' :: membersTail post ↔ ∃ m ∈ post.head?, stem <+: m.1 := by
  cases post with
  | nil =>
    simp [nextMarker, membersTail, List.cons_prefix_cons]
  | cons m post =>
    have htext : membersTail (m :: post) = ',' :: '"' :: (m.1 ++ '"' :: (':' :: m.2 ++
        membersTail post)) := by
      simp [membersTail, Member.text, quoted]
    have hquote : '"' ∉ stem := hstem.not_mem rfl
    rw [htext, nextMarker, List.cons_prefix_cons, List.cons_prefix_cons, List.cons_prefix_cons,
      prefix_append_cons_iff hquote]
    simp

section

variable {α : Type*} [DecidableEq α]

/-- What is behind the first occurrence of the marker; everything, if there is none. -/
def behindFirst (marker s : List α) : List α :=
  (cutAt marker s).elim s fun q => q.2.drop marker.length

/-- What is before the first occurrence of the marker; everything, if there is none. -/
def beforeFirst (marker s : List α) : List α := (cutAt marker s).elim s Prod.fst

theorem behindFirst_of_cutAt {marker s front t : List α}
    (h : cutAt marker s = some (front, marker ++ t)) : behindFirst marker s = t := by
  simp [behindFirst, h]

/-- A text ends where the marker comes, exactly when it comes there. -/
theorem beforeFirst_eq_iff {c : α} {marker s t : List α}
    (h : BeginsLater marker s (c :: t)) :
    beforeFirst marker (s ++ c :: t) = s ↔ marker <+: c :: t := by
  unfold beforeFirst
  rw [cutAt_later h]
  constructor
  · intro heq
    by_contra hno
    have hcut : cutAt marker (c :: t) = (cutAt marker t).map fun q => (c :: q.1, q.2) :=
      if_neg fun hpre => hno (List.isPrefixOf_iff_prefix.mp hpre)
    rw [hcut] at heq
    cases hq : cutAt marker t with
    | none => simp [hq] at heq
    | some q => simp [hq] at heq
  · intro hpre
    simp [cutAt_start hpre]

end

end Abora.Lib
