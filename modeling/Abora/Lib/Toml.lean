import Abora.Lib.Numerals

/-!
# Strings and arrays of strings in TOML

How a value is spelled, as far as the grammar of TOML says so: a basic string is pieces between
quotes, each a character that stands for itself or an escape; a multi-line one may hold quotes and
newlines too; an array has its elements behind commas, with blanks and comments in between.
`StringAt` and `Elements` are relations: what a text *may* be read as. A reader is held to them by
an assumption, so nothing said here depends on how it works.

They are here for one question: when does a text that was put between quotes as it is come back?
Never, unless it is `Verbatim`, however the reader goes on behind it (`StringAt.verbatim`,
`Elements.verbatim`). A text with a quote in it ends its string early, and what is read behind that
must not make up for it. Counting shows that it does not: an escape is longer than what it stands
for, and of what does not belong to the grammar, such as a comma, none gets lost.
-/

namespace Abora.Lib.Toml

open Text

/-- `basic-unescaped`. -/
def unescaped (c : Char) : Bool :=
  c != '"' && c != '\\' && (c == '\t' || (0x20 ≤ c.toNat && c.toNat != 0x7F))

/-- A text that a basic string holds as it is. -/
def Verbatim (s : Chars) : Prop := ∀ c ∈ s, unescaped c = true

theorem verbatim_iff_all {s : Chars} : Verbatim s ↔ s.all unescaped = true :=
  List.all_eq_true.symm

instance (s : Chars) : Decidable (Verbatim s) := decidable_of_iff _ verbatim_iff_all.symm

/-- The escapes of one character. -/
def escapes : List (Char × Char) :=
  [('b', Char.ofNat 0x08), ('t', '\t'), ('n', '\n'), ('f', Char.ofNat 0x0C), ('r', '\r'),
    ('"', '"'), ('\\', '\\')]

def isBlank (c : Char) : Bool := c == ' ' || c == '\t' || c == '\n' || c == '\r'

/-- How one step of a string is spelled, and what it stands for. Only the `multi` strings between
three quotes have the steps behind `scalar`. -/
inductive Piece (multi : Bool) : Chars → Chars → Prop where
  | char {c : Char} (h : unescaped c = true) : Piece multi [c] [c]
  | escape {c d : Char} (h : (c, d) ∈ escapes) : Piece multi ['\\', c] [d]
  | scalar {u : Char} {digits : Chars}
      (hu : u = 'u' ∧ digits.length = 4 ∨ u = 'U' ∧ digits.length = 8)
      (hdigits : ∀ d ∈ digits, isDigitIn 16 d = true) :
      Piece multi ('\\' :: u :: digits) [Char.ofNat (numeral 16 digits)]
  | quote (h : multi = true) : Piece multi ['"'] ['"']
  | newline (h : multi = true) {nl : Chars} (hnl : nl = ['\n'] ∨ nl = ['\r', '\n']) :
      Piece multi nl ['\n']
  /-- A backslash at the end of a line takes the blanks behind it along. -/
  | continued (h : multi = true) {blanks : Chars} (hblanks : ∀ c ∈ blanks, isBlank c = true)
      (hnl : '\n' ∈ blanks) : Piece multi ('\\' :: blanks) []

inductive Body (multi : Bool) : Chars → Chars → Prop where
  | nil : Body multi [] []
  | cons {raw value raws values : Chars} (hpiece : Piece multi raw value)
      (hrest : Body multi raws values) : Body multi (raw ++ raws) (value ++ values)

/-- A string at the start of a text, what it stands for, and the text behind it. -/
inductive StringAt : Chars → Chars → Chars → Prop where
  | basic {raw value rest : Chars} (h : Body false raw value) :
      StringAt ('"' :: (raw ++ '"' :: rest)) value rest
  | multi {nl raw value rest : Chars} (hnl : nl = [] ∨ nl = ['\n'] ∨ nl = ['\r', '\n'])
      (h : Body true raw value) :
      StringAt ('"' :: '"' :: '"' :: (nl ++ raw ++ '"' :: '"' :: '"' :: rest)) value rest

/-- Blanks, newlines and comments. -/
inductive Gap : Chars → Prop where
  | nil : Gap []
  | blank {c : Char} {g : Chars} (hc : isBlank c = true) (hg : Gap g) : Gap (c :: g)
  | comment {body g : Chars} (hbody : '\n' ∉ body) (hg : Gap g) : Gap ('#' :: (body ++ '\n' :: g))

/-- An array of strings, behind its bracket. Of literal strings, between single quotes, nothing is
said: none is ever written here. -/
inductive Elements : Chars → List String → Prop where
  | close {g rest : Chars} (hg : Gap g) : Elements (g ++ ']' :: rest) []
  | last {g s v g' rest : Chars} (hg : Gap g) (h : StringAt s v (g' ++ ']' :: rest))
      (hg' : Gap g') : Elements (g ++ s) [String.ofList v]
  | more {g s v g' rest : Chars} {l : List String} (hg : Gap g)
      (h : StringAt s v (g' ++ ',' :: rest)) (hg' : Gap g') (hl : Elements rest l) :
      Elements (g ++ s) (String.ofList v :: l)
  | literal {g rest : Chars} {l : List String} (hg : Gap g) : Elements (g ++ '\'' :: rest) l

/-- The values that are told apart. -/
inductive Value where
  | str (s : String)
  | strings (l : List String)
  | other
  deriving DecidableEq, Repr

/-- A value at the start of a text. -/
inductive ValueAt : Chars → Value → Prop where
  | blank {c : Char} {s : Chars} {v : Value} (hc : isBlank c = true) (h : ValueAt s v) :
      ValueAt (c :: s) v
  | string {s v rest : Chars} (h : StringAt s v rest) : ValueAt s (.str (String.ofList v))
  | literal {rest : Chars} {s : String} : ValueAt ('\'' :: rest) (.str s)
  | array {s : Chars} {l : List String} (h : Elements s l) : ValueAt ('[' :: s) (.strings l)
  | other {s : Chars} (h : s.head? ≠ some '"') : ValueAt s .other

/-! ## Pieces -/

/-- A character with no part in the grammar of strings: it stands for itself or is not in a string
at all. A comma is one. -/
structure Marker (m : Char) : Prop where
  digit : isDigitIn 16 m = false
  blank : isBlank m = false
  delimiter : m ≠ '\\' ∧ m ≠ '"'
  escape : m ≠ 'u' ∧ m ≠ 'U' ∧ ∀ e ∈ escapes, e.1 ≠ m

/-- An escape is longer than what it stands for; so a spelling of the length of its value has
none. -/
theorem Piece.length_le {multi : Bool} {raw value : Chars} (h : Piece multi raw value) :
    value.length ≤ raw.length ∧
      (multi = false → value.length = raw.length → Verbatim raw) := by
  cases h with
  | char hc => exact ⟨Nat.le_refl _, fun _ _ => by simpa [Verbatim] using hc⟩
  | escape hc => exact ⟨by simp, fun _ h => by simp at h⟩
  | scalar hu hdigits => exact ⟨by simp, fun _ h => by simp at h⟩
  | quote hmulti => exact ⟨Nat.le_refl _, fun h => by simp [hmulti] at h⟩
  | newline hmulti hnl =>
    refine ⟨?_, fun h => by simp [hmulti] at h⟩
    rcases hnl with rfl | rfl <;> simp
  | continued hmulti hblanks => exact ⟨by simp, fun h => by simp [hmulti] at h⟩

theorem Piece.count_le {multi : Bool} {raw value : Chars} {m : Char} (hm : Marker m)
    (h : Piece multi raw value) : raw.count m ≤ value.count m := by
  have hnone {raw : Chars} (hraw : m ∉ raw) : raw.count m ≤ value.count m := by
    rw [List.count_eq_zero.mpr hraw]
    exact Nat.zero_le _
  obtain ⟨hslash, hquote⟩ := hm.delimiter
  obtain ⟨hu, hU, hescape⟩ := hm.escape
  cases h with
  | char => exact Nat.le_refl _
  | escape hc =>
    have hne := hescape _ hc
    refine hnone ?_
    simp [hslash, hne.symm]
  | @scalar u digits hlead hdigits =>
    have hlead : m ≠ u := by
      rcases hlead with ⟨rfl, -⟩ | ⟨rfl, -⟩
      · exact hu
      · exact hU
    have hdigit : m ∉ digits := by
      intro hmem
      have hbad := hdigits m hmem
      rw [hm.digit] at hbad
      cases hbad
    refine hnone ?_
    simp [hslash, hlead, hdigit]
  | quote => exact hnone (by simp [hquote])
  | newline hmulti hnl =>
    have hcr : m ≠ '\r' := fun h => by simpa [h, isBlank] using hm.blank
    have hlf : m ≠ '\n' := fun h => by simpa [h, isBlank] using hm.blank
    refine hnone ?_
    rcases hnl with rfl | rfl <;> simp [hcr, hlf]
  | @continued hmulti blanks hblanks =>
    have hblank : m ∉ blanks := by
      intro hmem
      have hbad := hblanks m hmem
      rw [hm.blank] at hbad
      cases hbad
    exact hnone (by simp [hslash, hblank])

theorem Body.length_le {multi : Bool} {raw value : Chars} (h : Body multi raw value) :
    value.length ≤ raw.length := by
  induction h with
  | nil => exact Nat.le_refl _
  | cons hpiece _ ih =>
    have hle := hpiece.length_le.1
    simp only [List.length_append]
    omega

/-- What comes back as long as it was, is what was written. -/
theorem Body.verbatim {raw value : Chars} (h : Body false raw value)
    (hlen : value.length = raw.length) : Verbatim raw := by
  induction h with
  | nil => exact fun c hc => absurd hc List.not_mem_nil
  | @cons raw value raws values hpiece hrest ih =>
    obtain ⟨hle, hverbatim⟩ := hpiece.length_le
    have hrestle := hrest.length_le
    simp only [List.length_append] at hlen
    intro c hc
    rcases List.mem_append.mp hc with hc | hc
    · exact hverbatim rfl (by omega) c hc
    · exact ih (by omega) c hc

theorem Body.count_le {multi : Bool} {raw value : Chars} {m : Char} (hm : Marker m)
    (h : Body multi raw value) : raw.count m ≤ value.count m := by
  induction h with
  | nil => exact Nat.le_refl _
  | cons hpiece _ ih =>
    have hle := hpiece.count_le hm
    simp only [List.count_append]
    omega

theorem Verbatim.body {s : Chars} (h : Verbatim s) (multi : Bool) : Body multi s s := by
  induction s with
  | nil => exact .nil
  | cons c s ih =>
    obtain ⟨hc, hs⟩ := List.forall_mem_cons.mp h
    have hcons : Body multi ([c] ++ s) ([c] ++ s) := .cons (.char hc) (ih hs)
    exact hcons

/-! ## What was put between quotes -/

/-- A reading that goes on behind the second quote takes in what stands there, up to the next. -/
theorem count_lt_of_beyond {text rest s sep after : Chars} {m : Char} (hm : m ∈ sep)
    (hsep : '"' ∉ sep) (hlast : text.getLast? = some '"')
    (h : text ++ rest = s ++ '"' :: (sep ++ after)) (hlen : s.length + 1 < text.length) :
    s.count m < text.count m := by
  have hcut : text ++ rest = (s ++ ['"']) ++ (sep ++ after) := by rw [h, List.append_assoc]; rfl
  rcases List.append_eq_append_iff.mp hcut with ⟨more, hshort, -⟩ | ⟨beyond, htext, hbeyond⟩
  · have hle := congrArg List.length hshort
    simp only [List.length_append, List.length_singleton] at hle
    omega
  · have hne : beyond ≠ [] := by
      intro hnil
      rw [htext, hnil] at hlen
      simp at hlen
    have hquote : '"' ∈ beyond := by
      rw [htext, List.getLast?_append_of_ne_nil _ hne] at hlast
      exact List.mem_of_getLast? hlast
    have hmem : m ∈ beyond := by
      rcases List.append_eq_append_iff.mp hbeyond with ⟨more, hall, -⟩ | ⟨more, hsome, -⟩
      · rw [hall]
        exact List.mem_append_left _ hm
      · refine absurd ?_ hsep
        rw [hsome]
        exact List.mem_append_left _ hquote
    have hpos := List.count_pos_iff.mpr hmem
    rw [htext, List.count_append, List.count_append]
    omega

/-- **A string that stands for what is between two quotes** is spelled by it, and by it alone. -/
theorem StringAt.verbatim {s sep after rest : Chars} {m : Char} (hmark : Marker m) (hm : m ∈ sep)
    (hsep : '"' ∉ sep) (h : StringAt ('"' :: (s ++ '"' :: (sep ++ after))) s rest) :
    Verbatim s ∧ rest = sep ++ after := by
  generalize htext : '"' :: (s ++ '"' :: (sep ++ after)) = text at h
  cases h with
  | @basic raw _ _ hbody =>
    have hsame : (raw ++ ['"']) ++ rest = s ++ '"' :: (sep ++ after) := by
      simpa using (List.cons.inj htext).2.symm
    have hle := hbody.length_le
    have hcount := hbody.count_le hmark
    by_cases hlen : s.length + 1 < (raw ++ ['"']).length
    · have hlt := count_lt_of_beyond hm hsep (by simp) hsame hlen
      have hquote : ['"'].count m = 0 := List.count_eq_zero.mpr (by simpa using hmark.delimiter.2)
      rw [List.count_append, hquote] at hlt
      omega
    · have hraw : raw.length = s.length := by
        rw [List.length_append, List.length_singleton] at hlen
        omega
      rw [List.append_assoc] at hsame
      obtain ⟨heq, hrest⟩ := List.append_inj hsame hraw
      refine ⟨?_, (List.cons.inj hrest).2⟩
      rw [← heq]
      exact hbody.verbatim hraw.symm
  | @multi nl raw _ _ hnl hbody =>
    -- the five quotes alone make the reading longer than what it stands for
    let text := '"' :: '"' :: (nl ++ raw) ++ ['"', '"'] ++ ['"']
    have hsame : text ++ rest = s ++ '"' :: (sep ++ after) := by
      simpa [text] using (List.cons.inj htext).2.symm
    have hle := hbody.length_le
    have hcount := hbody.count_le hmark
    have hlen : s.length + 1 < text.length := by
      simp only [text, List.length_cons, List.length_append]
      omega
    have hlt : s.count m < text.count m :=
      count_lt_of_beyond hm hsep List.getLast?_concat hsame hlen
    have hnone : nl.count m = 0 := by
      have hcr : m ≠ '\r' := fun h => by simpa [h, isBlank] using hmark.blank
      have hlf : m ≠ '\n' := fun h => by simpa [h, isBlank] using hmark.blank
      refine List.count_eq_zero.mpr ?_
      rcases hnl with rfl | rfl | rfl <;> simp [hcr, hlf]
    have htotal : text.count m = raw.count m := by
      simp [text, hnone, hmark.delimiter.2.symm]
    omega

/-! ## Arrays of what was put between quotes -/

def quoted (s : Chars) : Chars := '"' :: (s ++ ['"'])

/-- The strings between quotes, with commas, up to the bracket. -/
def listed : List String → Chars
  | [] => [']']
  | [s] => quoted s.toList ++ [']']
  | s :: l => quoted s.toList ++ ',' :: ' ' :: listed l

theorem Gap.head {g x y : Chars} {a b : Char} (hg : Gap g) (h : g ++ a :: x = b :: y)
    (hb : isBlank b = false) (hhash : b ≠ '#') : g = [] ∧ a = b ∧ x = y := by
  cases hg with
  | nil =>
    obtain ⟨ha, hx⟩ := List.cons.inj h
    exact ⟨rfl, ha, hx⟩
  | blank hc hg =>
    rw [List.cons_append] at h
    rw [(List.cons.inj h).1, hb] at hc
    cases hc
  | comment hbody hg =>
    rw [List.cons_append] at h
    exact absurd (List.cons.inj h).1.symm hhash

theorem StringAt.head {s v rest : Chars} (h : StringAt s v rest) : ∃ t, s = '"' :: t := by
  cases h with
  | basic h => exact ⟨_, rfl⟩
  | multi hnl h => exact ⟨_, rfl⟩

theorem Elements.blank {s : Chars} {l : List String} (h : Elements s l) :
    Elements (' ' :: s) l := by
  have hblank {g : Chars} (hg : Gap g) : Gap (' ' :: g) := .blank rfl hg
  cases h with
  | close hg => exact .close (hblank hg)
  | last hg hstring hg' => exact .last (hblank hg) hstring hg'
  | more hg hstring hg' hl => exact .more (hblank hg) hstring hg' hl
  | literal hg => exact .literal (hblank hg)

theorem Elements.of_blank {s : Chars} {l : List String} (h : Elements (' ' :: s) l) :
    Elements s l := by
  have hpeel {g t : Chars} (hg : Gap g) (hne : t.head? ≠ some ' ') (heq : g ++ t = ' ' :: s) :
      ∃ g', Gap g' ∧ g' ++ t = s := by
    cases hg with
    | nil =>
      rw [List.nil_append] at heq
      rw [heq] at hne
      exact absurd rfl hne
    | @blank c g' hc hg' => exact ⟨g', hg', (List.cons.inj heq).2⟩
    | comment hbody hg =>
      rw [List.cons_append] at heq
      cases (List.cons.inj heq).1
  generalize htext : ' ' :: s = text at h
  cases h with
  | close hg =>
    obtain ⟨g', hg', rfl⟩ := hpeel hg (by simp) htext.symm
    exact .close hg'
  | last hg hstring hg' =>
    obtain ⟨t, ht⟩ := hstring.head
    obtain ⟨g₁, hg₁, rfl⟩ := hpeel hg (by simp [ht]) htext.symm
    exact .last hg₁ hstring hg'
  | more hg hstring hg' hl =>
    obtain ⟨t, ht⟩ := hstring.head
    obtain ⟨g₁, hg₁, rfl⟩ := hpeel hg (by simp [ht]) htext.symm
    exact .more hg₁ hstring hg' hl
  | literal hg =>
    obtain ⟨g', hg', rfl⟩ := hpeel hg (by simp) htext.symm
    exact .literal hg'

theorem StringAt.of_gap {g t v rest y : Chars} (hg : Gap g) (h : StringAt t v rest)
    (heq : g ++ t = '"' :: y) : StringAt ('"' :: y) v rest := by
  obtain ⟨t', rfl⟩ := h.head
  obtain ⟨rfl, -, rfl⟩ := hg.head heq (by decide) (by decide)
  exact h

/-- **An array that stands for the strings put between its quotes** has nothing else in them. -/
theorem Elements.verbatim {l : List String} {after : Chars} (hne : l ≠ [])
    (h : Elements (listed l ++ after) l) : ∀ s ∈ l, Verbatim s.toList := by
  induction l with
  | nil => exact absurd rfl hne
  | cons s l ih =>
    -- what stands behind the first string, up to the next quote
    obtain ⟨m, after', hmark, hlisted, hrest⟩ : ∃ m after', Marker m ∧
        listed (s :: l) ++ after = '"' :: (s.toList ++ '"' :: ([m] ++ after')) ∧
        (l ≠ [] → m = ',' ∧ after' = ' ' :: (listed l ++ after)) := by
      cases l with
      | nil => exact ⟨']', after, by constructor <;> decide, by simp [listed, quoted], by simp⟩
      | cons q l =>
        refine ⟨',', ' ' :: (listed (q :: l) ++ after), by constructor <;> decide, ?_, by simp⟩
        simp [listed, quoted]
    have hquote : '"' ∉ [m] := by simpa using hmark.delimiter.2.symm
    have hfirst {g t v rest : Chars} (hg : Gap g) (h : StringAt t v rest)
        (heq : g ++ t = '"' :: (s.toList ++ '"' :: ([m] ++ after'))) (hv : s = String.ofList v) :
        Verbatim s.toList ∧ rest = [m] ++ after' := by
      have hstring := h.of_gap hg heq
      have hchars : v = s.toList := by rw [hv, String.toList_ofList]
      rw [hchars] at hstring
      exact hstring.verbatim hmark (List.mem_singleton.mpr rfl) hquote
    rw [hlisted] at h
    generalize htext : '"' :: (s.toList ++ '"' :: ([m] ++ after')) = text at h
    generalize hlist : s :: l = list at h
    cases h with
    | close hg => cases hlist
    | last hg hstring hg' =>
      obtain ⟨hs, rfl⟩ := List.cons.inj hlist
      rw [← hs]
      simpa using (hfirst hg hstring htext.symm hs).1
    | more hg hstring hg' hl =>
      obtain ⟨hs, rfl⟩ := List.cons.inj hlist
      obtain ⟨hverbatim, htail⟩ := hfirst hg hstring htext.symm hs
      rw [← hs]
      refine List.forall_mem_cons.mpr ⟨hverbatim, ?_⟩
      cases l with
      | nil => exact fun q hq => absurd hq List.not_mem_nil
      | cons q l =>
        obtain ⟨rfl, rfl⟩ := hrest (List.cons_ne_nil q l)
        obtain ⟨-, -, rfl⟩ := hg'.head htail (by decide) (by decide)
        exact ih (List.cons_ne_nil q l) hl.of_blank
    | literal hg =>
      obtain ⟨-, hbad, -⟩ := hg.head htext.symm (by decide) (by decide)
      cases hbad

/-! ## Values by their first character -/

theorem ValueAt.of_quote {s : Chars} {v : Value} (h : ValueAt ('"' :: s) v) :
    ∃ value rest, v = .str (String.ofList value) ∧ StringAt ('"' :: s) value rest := by
  cases h with
  | blank hc _ => cases hc
  | string h => exact ⟨_, _, rfl, h⟩
  | other h => exact absurd rfl h

theorem ValueAt.of_bracket {s : Chars} {l : List String} (h : ValueAt ('[' :: s) (.strings l)) :
    Elements s l := by
  cases h with
  | blank hc _ => cases hc
  | array h => exact h

end Abora.Lib.Toml
