import Abora.Lib.Text

/-!
# Nix source

How Nix reads a file as far as quotes and comments go: code, strings in double quotes with their
escapes, and comments to the end of the line. What this fragment leaves out it refuses: an
interpolation, a string in two single quotes, a comment between slashes and stars. So a file that is
read here is read by Nix in the same way, and a file that is not may still mean something to Nix,
only not what was meant to be written.

A file is put together from `Piece`s. `lex_render_iff` says when it reads as what was put into it:
exactly when every text put between quotes is `Inert`. The one direction is a matter of following
the reader through an inert text. For the other, a text that breaks out of its quotes might be made
up for by what follows, so that the file reads as intended by accident; no token is longer than the
text it was read from (`size_le_of_lexFrom`), and with that the lengths do not add up.
-/

namespace Abora.Lib.Nix

open Lib.Text

inductive Token where
  | code (c : Char)
  | str (value : Chars)
  | comment (text : Chars)
  deriving DecidableEq, Repr

/-- What the last character of a string means for the next one. -/
inductive After where
  | plain
  /-- A dollar sign that begins a pair: with a brace behind it, it is an interpolation. -/
  | dollar
  | escape
  /-- A carriage return, which has been read as a line feed. -/
  | cr
  deriving DecidableEq, Repr

inductive Mode where
  | code
  | str (value : Chars) (after : After)
  | comment (text : Chars)
  deriving DecidableEq, Repr

def unescape (c : Char) : Char :=
  if c = 'n' then '\n' else if c = 'r' then '\r' else if c = 't' then '\t' else c

/-- Two dollar signs are a pair as well, so that the second begins none. -/
def afterChar (after : After) (c : Char) : After :=
  if c = '$' ∧ after ≠ .dollar then .dollar else .plain

/-- The tokens of the rest of a file, read on in a mode. `none` stands for a file outside the
fragment, and for one that ends within a string. -/
def lexFrom : Mode → Chars → Option (List Token)
  | .code, [] => some []
  | .str _ _, [] => none
  | .comment text, [] => some [.comment text]
  | .code, c :: s =>
    if c = '"' then lexFrom (.str [] .plain) s
    else if c = '#' then lexFrom (.comment []) s
    else if c = '\'' ∨ c = '*' then none
    else (lexFrom .code s).map (.code c :: ·)
  | .str value after, c :: s =>
    if after = .escape then lexFrom (.str (value ++ [unescape c]) .plain) s
    else if c = '"' then (lexFrom .code s).map (.str value :: ·)
    else if c = '\\' then lexFrom (.str value .escape) s
    else if c = '\x7b' ∧ after = .dollar then none
    else if c = '\r' then lexFrom (.str (value ++ ['\n']) .cr) s
    else if c = '\n' ∧ after = .cr then lexFrom (.str value .plain) s
    else lexFrom (.str (value ++ [c]) (afterChar after c)) s
  | .comment text, c :: s =>
    if c = '\n' ∨ c = '\r' then (lexFrom .code s).map (.comment text :: .code c :: ·)
    else lexFrom (.comment (text ++ [c])) s

def lex (s : Chars) : Option (List Token) := lexFrom .code s

/-- A text that reads as itself between quotes: no quote, no backslash, no carriage return, and no
opening brace directly behind an odd number of dollar signs. -/
def inertFrom : After → Chars → Bool
  | _, [] => true
  | after, c :: s =>
    c != '"' && c != '\\' && c != '\r' && !(c == '\x7b' && after == .dollar) &&
      inertFrom (afterChar after c) s

/-- A text that reads as itself between quotes, from the opening one on. -/
def Inert (s : Chars) : Prop := inertFrom .plain s = true

instance (s : Chars) : Decidable (Inert s) := inferInstanceAs (Decidable (_ = true))

/-! ## Files in pieces -/

inductive Piece where
  | code (text : String)
  /-- A text in double quotes. -/
  | str (value : Chars)
  /-- A comment with the end of its line. -/
  | comment (text : Chars)

def Piece.render : Piece → Chars
  | .code text => text.toList
  | .str value => '"' :: (value ++ ['"'])
  | .comment text => '#' :: (text ++ ['\n'])

def Piece.tokens : Piece → List Token
  | .code text => text.toList.map .code
  | .str value => [.str value]
  | .comment text => [.comment text, .code '\n']

def render (pieces : List Piece) : Chars := pieces.flatMap Piece.render

def tokens (pieces : List Piece) : List Token := pieces.flatMap Piece.tokens

def isCode (c : Char) : Bool := c != '"' && c != '#' && c != '\'' && c != '*'

/-- What is wanted of the pieces that are not strings. -/
def Piece.Fixed : Piece → Prop
  | .code text => text.toList.all isCode = true
  | .str _ => True
  | .comment text => '\n' ∉ text ∧ '\r' ∉ text

/-- What a string needs on top. -/
def Piece.Reads : Piece → Prop
  | .str value => Inert value
  | _ => True

/-! ## The length of what was read -/

/-- The least text a token is read from. -/
def Token.size : Token → Nat
  | .code _ => 1
  | .str value => value.length + 2
  | .comment text => text.length + 1

def size (toks : List Token) : Nat := (toks.map Token.size).sum

@[simp] theorem size_cons (t : Token) (ts : List Token) : size (t :: ts) = t.size + size ts :=
  List.sum_cons

/-- What has been read of the next token. -/
def Mode.pending : Mode → Nat
  | .code => 0
  | .str value _ => value.length + 1
  | .comment text => text.length + 1

/-- **No token is longer than the text it was read from.** -/
theorem size_le_of_lexFrom {mode : Mode} {s : Chars} {toks : List Token}
    (h : lexFrom mode s = some toks) : size toks ≤ mode.pending + s.length := by
  fun_induction lexFrom mode s generalizing toks with
  | case1 =>
    cases h
    exact Nat.le_refl 0
  | case2 => cases h
  | case3 text =>
    cases h
    exact Nat.le_refl _
  | case6 | case11 => cases h
  | case7 | case9 | case15 =>
    rename_i ih
    obtain ⟨toks, htoks, rfl⟩ := Option.map_eq_some_iff.mp h
    have hle := ih htoks
    simp [Mode.pending, Token.size] at hle ⊢
    omega
  | _ =>
    rename_i ih
    have hle := ih h
    simp [Mode.pending] at hle ⊢
    omega

/-! ## Code and comments -/

theorem lexFrom_code_append {text : Chars} (h : text.all isCode = true) (rest : Chars) :
    lexFrom .code (text ++ rest) = (lexFrom .code rest).map (text.map .code ++ ·) := by
  induction text with
  | nil => exact Option.map_id'.symm
  | cons c text ih =>
    rw [List.all_cons, Bool.and_eq_true] at h
    have hc := h.1
    simp only [isCode, Bool.and_eq_true, bne_iff_ne] at hc
    rw [List.cons_append, lexFrom, if_neg hc.1.1.1, if_neg hc.1.1.2,
      if_neg (not_or.mpr ⟨hc.1.2, hc.2⟩), ih h.2, Option.map_map]
    rfl

theorem lexFrom_comment_append {text : Chars} (h : '\n' ∉ text ∧ '\r' ∉ text)
    (acc rest : Chars) :
    lexFrom (.comment acc) (text ++ '\n' :: rest) =
      (lexFrom .code rest).map (.comment (acc ++ text) :: .code '\n' :: ·) := by
  induction text generalizing acc with
  | nil =>
    rw [List.nil_append, lexFrom, if_pos (.inl rfl), List.append_nil]
  | cons c text ih =>
    simp only [List.mem_cons, not_or] at h
    rw [List.cons_append, lexFrom, if_neg (not_or.mpr ⟨Ne.symm h.1.1, Ne.symm h.2.1⟩),
      ih ⟨h.1.2, h.2.2⟩, List.append_assoc]
    rfl

/-! ## Strings -/

/-- Whether an inert text may go on here. -/
def After.Open (after : After) : Prop := after = .plain ∨ after = .dollar

theorem After.Open.ne_escape {after : After} (h : after.Open) : after ≠ .escape := by
  rintro rfl
  rcases h with h | h <;> cases h

theorem After.Open.ne_cr {after : After} (h : after.Open) : after ≠ .cr := by
  rintro rfl
  rcases h with h | h <;> cases h

theorem afterChar_open (after : After) (c : Char) : (afterChar after c).Open := by
  unfold afterChar
  split
  · exact .inr rfl
  · exact .inl rfl

theorem inertFrom_cons {after : After} {c : Char} {s : Chars} :
    inertFrom after (c :: s) = true ↔ (c ≠ '"' ∧ c ≠ '\\' ∧ c ≠ '\r' ∧
      ¬ (c = '\x7b' ∧ after = .dollar)) ∧ inertFrom (afterChar after c) s = true := by
  simp only [inertFrom, Bool.and_eq_true, bne_iff_ne, Bool.not_eq_true', Bool.and_eq_false_iff,
    beq_eq_false_iff_ne, and_assoc, not_and_or]

theorem lexFrom_str_cons {after : After} (hopen : after.Open) {c : Char} (value s : Chars)
    (h : c ≠ '"' ∧ c ≠ '\\' ∧ c ≠ '\r' ∧ ¬ (c = '\x7b' ∧ after = .dollar)) :
    lexFrom (.str value after) (c :: s) = lexFrom (.str (value ++ [c]) (afterChar after c)) s := by
  rw [lexFrom, if_neg hopen.ne_escape, if_neg h.1, if_neg h.2.1, if_neg h.2.2.2, if_neg h.2.2.1,
    if_neg fun hcr => hopen.ne_cr hcr.2]

/-- An inert text reads as itself, and its string ends at the quote behind it. -/
theorem lexFrom_str_append {after : After} (hopen : after.Open) {s : Chars}
    (h : inertFrom after s = true) (value rest : Chars) :
    lexFrom (.str value after) (s ++ '"' :: rest) =
      (lexFrom .code rest).map (.str (value ++ s) :: ·) := by
  induction s generalizing after value with
  | nil =>
    rw [List.nil_append, lexFrom, if_neg hopen.ne_escape, if_pos rfl, List.append_nil]
  | cons c s ih =>
    obtain ⟨hc, hs⟩ := inertFrom_cons.mp h
    rw [List.cons_append, lexFrom_str_cons hopen value _ hc, ih (afterChar_open after c) hs,
      List.append_assoc]
    rfl

theorem exists_str_of_lexFrom {value : Chars} {after : After} {s : Chars} {toks : List Token}
    (h : lexFrom (.str value after) s = some toks) :
    ∃ more rest, toks = .str (value ++ more) :: rest := by
  induction s generalizing value after with
  | nil => cases h
  | cons c s ih =>
    have hgrow {d : Char} {next : After} (h : lexFrom (.str (value ++ [d]) next) s = some toks) :
        ∃ more rest, toks = .str (value ++ more) :: rest := by
      obtain ⟨more, rest, heq⟩ := ih h
      exact ⟨d :: more, rest, by rw [heq, List.append_assoc]; rfl⟩
    rw [lexFrom] at h
    split at h
    · exact hgrow h
    split at h
    · obtain ⟨rest, -, heq⟩ := Option.map_eq_some_iff.mp h
      exact ⟨[], rest, by rw [← heq, List.append_nil]⟩
    split at h
    · exact ih h
    split at h
    · cases h
    split at h
    · exact hgrow h
    split at h
    · exact ih h
    · exact hgrow h

/-- **A text that reads as itself is inert**, if what follows it is not more than what follows it
reads as. -/
theorem inert_of_lexFrom {after : After} (hopen : after.Open) {s value rest : Chars}
    {toks : List Token} (h : lexFrom (.str value after) (s ++ '"' :: rest) =
      some (.str (value ++ s) :: toks)) (hsize : rest.length ≤ size toks) :
    inertFrom after s = true ∧ lexFrom .code rest = some toks := by
  induction s generalizing after value with
  | nil =>
    rw [List.nil_append, lexFrom, if_neg hopen.ne_escape, if_pos rfl, List.append_nil] at h
    obtain ⟨toks', htoks, heq⟩ := Option.map_eq_some_iff.mp h
    exact ⟨rfl, htoks.trans (congrArg some (List.cons.inj heq).2)⟩
  | cons c s ih =>
    by_cases hc : c ≠ '"' ∧ c ≠ '\\' ∧ c ≠ '\r' ∧ ¬ (c = '\x7b' ∧ after = .dollar)
    · rw [List.cons_append, lexFrom_str_cons hopen value _ hc] at h
      obtain ⟨hs, hrest⟩ := ih (afterChar_open after c) (by rw [h, List.append_assoc]; rfl)
      exact ⟨inertFrom_cons.mpr ⟨hc, hs⟩, hrest⟩
    · exfalso
      rw [List.cons_append, lexFrom, if_neg hopen.ne_escape] at h
      split at h
      · -- the string ends before its text does
        obtain ⟨toks', -, heq⟩ := Option.map_eq_some_iff.mp h
        have hvalue : value = value ++ c :: s := Token.str.inj (List.cons.inj heq).1
        have hlen := congrArg List.length hvalue
        simp at hlen
      split at h
      · -- the backslash is read and adds nothing
        have hle := size_le_of_lexFrom h
        simp [Mode.pending, Token.size] at hle
        omega
      split at h
      · cases h
      split at h
      · rename_i hcr
        obtain ⟨more, toks', heq⟩ := exists_str_of_lexFrom h
        have hvalue : value ++ c :: s = value ++ ['\n'] ++ more :=
          Token.str.inj (List.cons.inj heq).1
        rw [List.append_assoc, hcr] at hvalue
        cases List.append_cancel_left hvalue
      · rename_i hquote hbackslash hbrace hcr
        exact hc ⟨hquote, hbackslash, hcr, hbrace⟩

/-! ## Files -/

theorem size_append (a b : List Token) : size (a ++ b) = size a + size b := by
  simp [size]

theorem size_tokens (pieces : List Piece) : size (tokens pieces) = (render pieces).length := by
  induction pieces with
  | nil => rfl
  | cons p pieces ih =>
    have hpiece : size p.tokens = p.render.length := by
      cases p with
      | code text => simp [Piece.tokens, Piece.render, size, Function.comp_def, Token.size]
      | str value => simp [Piece.tokens, Piece.render, size, Token.size]
      | comment text => simp [Piece.tokens, Piece.render, size, Token.size]
    show size (p.tokens ++ tokens pieces) = (p.render ++ render pieces).length
    rw [size_append, List.length_append, hpiece, ih]

/-- A piece apart from the rest. The rest is of no more characters than its tokens have, which is
all that is known of it, and all that is needed. -/
theorem lex_piece_iff {p : Piece} (hfixed : p.Fixed) {rest : Chars} {toks : List Token}
    (hsize : rest.length ≤ size toks) :
    lex (p.render ++ rest) = some (p.tokens ++ toks) ↔
      p.Reads ∧ lex rest = some toks := by
  unfold lex
  -- code and comments read whatever they are; a string reads only if nothing in it is special
  cases p with
  | code text =>
    show lexFrom .code (text.toList ++ rest) = some (text.toList.map .code ++ toks) ↔ _
    rw [lexFrom_code_append hfixed]
    constructor
    · intro h
      obtain ⟨toks', htoks, heq⟩ := Option.map_eq_some_iff.mp h
      rw [List.append_cancel_left heq] at htoks
      exact ⟨trivial, htoks⟩
    · intro h
      rw [h.2]
      rfl
  | comment text =>
    show lexFrom .code ('#' :: (text ++ ['\n']) ++ rest) =
      some (.comment text :: .code '\n' :: toks) ↔ _
    rw [List.cons_append, lexFrom, if_neg (by decide), if_pos rfl, List.append_assoc,
      List.singleton_append, lexFrom_comment_append hfixed, List.nil_append]
    constructor
    · intro h
      obtain ⟨toks', htoks, heq⟩ := Option.map_eq_some_iff.mp h
      rw [(List.cons.inj (List.cons.inj heq).2).2] at htoks
      exact ⟨trivial, htoks⟩
    · intro h
      rw [h.2]
      rfl
  | str value =>
    show lexFrom .code ('"' :: (value ++ ['"']) ++ rest) = some (.str value :: toks) ↔ _
    rw [List.cons_append, lexFrom, if_pos rfl, List.append_assoc, List.singleton_append]
    constructor
    · intro h
      obtain ⟨hinert, hrest⟩ := inert_of_lexFrom (.inl rfl) h hsize
      exact ⟨hinert, hrest⟩
    · intro h
      rw [lexFrom_str_append (.inl rfl) h.1, h.2]
      rfl

/-- **A file reads as what was put into it** exactly when every text between quotes is inert. -/
theorem lex_render_iff {pieces : List Piece} (hfixed : ∀ p ∈ pieces, p.Fixed) :
    lex (render pieces) = some (tokens pieces) ↔ ∀ p ∈ pieces, p.Reads := by
  induction pieces with
  | nil => exact iff_of_true rfl (List.forall_mem_nil _)
  | cons p pieces ih =>
    obtain ⟨hp, hpieces⟩ := List.forall_mem_cons.mp hfixed
    show lex (p.render ++ render pieces) = some (p.tokens ++ tokens pieces) ↔ _
    rw [lex_piece_iff hp (size_tokens pieces).ge, ih hpieces, List.forall_mem_cons]

/-- Most texts: nothing in them is special. (A dollar sign without a brace anywhere is not.) -/
theorem inert_of_forall {s : Chars} (h : ∀ c ∈ s, c ≠ '"' ∧ c ≠ '\\' ∧ c ≠ '\r' ∧ c ≠ '\x7b') :
    Inert s := by
  have hfrom (after : After) : inertFrom after s = true := by
    induction s generalizing after with
    | nil => rfl
    | cons c s ih =>
      obtain ⟨⟨hquote, hbackslash, hcr, hbrace⟩, hs⟩ := List.forall_mem_cons.mp h
      exact inertFrom_cons.mpr ⟨⟨hquote, hbackslash, hcr, fun hc => hbrace hc.1⟩, ih hs _⟩
  exact hfrom .plain

end Abora.Lib.Nix
