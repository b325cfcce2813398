import Abora.Lib.Toml

/-!
# Documents in TOML

A document is lines, and what they say is a list of items: a key with its value, or the header of a
table. `Reads` is what the grammar promises of a reader that turns the one into the other: lines
that hold verbatim strings are read as they are written, the items of two documents are the items of
the one that is written behind the other, and a value is read as one of its spellings. That is
little of what TOML says, and all that a program relies on which appends a block of plain lines to a
file somebody else has written.

`plainItems` is a reader of the lines it takes to see that the promises can be kept. It is no reader
of TOML: it refuses whatever is spelled in another way.
-/

namespace Abora.Lib.Toml

open Text

inductive Item where
  | keyval (path : List String) (value : Value)
  | table (path : List String)
  | arrayTable (path : List String)
  deriving DecidableEq, Repr

def Item.isKeyval : Item → Bool
  | .keyval _ _ => true
  | _ => false

def bareChar (c : Char) : Bool := c.isAlphanum || c == '_' || c == '-'

/-- A key that needs no quotes. -/
def Bare (key : Chars) : Prop := key ≠ [] ∧ ∀ c ∈ key, bareChar c = true

def headerLine (key : Chars) : Chars := ' ' :: ' ' :: '[' :: '[' :: (key ++ [']', ']'])

def keyLine (key text : Chars) : Chars := ' ' :: ' ' :: (key ++ ' ' :: '=' :: ' ' :: text)

theorem keyLine_append (key text more : Chars) :
    keyLine key text ++ more = keyLine key (text ++ more) := by
  simp [keyLine]

/-- A text that ends where a line does, so that what is appended begins a line of its own. -/
def Ended (text : Chars) : Prop := text = [] ∨ text.getLast? = some '\n'

instance (text : Chars) : Decidable (Ended text) := inferInstanceAs (Decidable (_ ∨ _))

/-- The promises. The first three are about lines that are written here, `ended` and `append` are
about documents as a whole, and the last one ties what is read to the spellings it may have. -/
structure Reads (items : Chars → Except String (List Item)) : Prop where
  header {key : Chars} (hkey : Bare key) :
    items (headerLine key ++ ['\n']) = .ok [.arrayTable [String.ofList key]]
  string {key s : Chars} (hkey : Bare key) (hs : Verbatim s) :
    items (keyLine key (quoted s) ++ ['\n']) =
      .ok [.keyval [String.ofList key] (.str (String.ofList s))]
  strings {key : Chars} {l : List String} (hkey : Bare key) (hl : ∀ s ∈ l, Verbatim s.toList) :
    items (keyLine key ('[' :: listed l) ++ ['\n']) = .ok [.keyval [String.ofList key] (.strings l)]
  ended {text : Chars} {its : List Item} (h : items text = .ok its) :
    items (text ++ ['\n']) = .ok its
  /-- A byte order mark is only one at the start. -/
  append {text more : Chars} {its all : List Item} (h : items text = .ok its)
    (hended : Ended text) (hmark : more.head? ≠ some (Char.ofNat 0xFEFF)) :
    items (text ++ more) = .ok all ↔ ∃ its', items more = .ok its' ∧ all = its ++ its'
  value {key text : Chars} {its : List Item} (hkey : Bare key)
    (h : items (keyLine key text) = .ok its) :
    ∃ v rest, its = .keyval [String.ofList key] v :: rest ∧ ValueAt text v

/-! ## A reader of plain lines -/

def readQuoted : Chars → Option (Chars × Chars)
  | '"' :: s =>
    match s.dropWhile unescaped with
    | '"' :: rest => some (s.takeWhile unescaped, rest)
    | _ => none
  | _ => none

/-- The elements of an array on one line; `n` bounds how many are tried. -/
def readElements : Nat → Chars → Option (List String)
  | 0, _ => none
  | n + 1, s =>
    if s = [']'] then some []
    else match readQuoted s with
      | some (v, [']']) => some [String.ofList v]
      | some (v, ',' :: ' ' :: rest) => (readElements n rest).map (String.ofList v :: ·)
      | _ => none

def readValue (s : Chars) : Option Value :=
  match s with
  | '[' :: elements => (readElements elements.length elements).map .strings
  | _ =>
    match readQuoted s with
    | some (v, []) => some (.str (String.ofList v))
    | _ => none

def readHeader : Chars → Option (List Item)
  | '[' :: '[' :: s =>
    if s.takeWhile bareChar ≠ [] ∧ s.dropWhile bareChar = [']', ']'] then
      some [.arrayTable [String.ofList (s.takeWhile bareChar)]]
    else none
  | _ => none

def readKeyval (key : Chars) : Chars → Option (List Item)
  | ' ' :: '=' :: ' ' :: text =>
    (readValue text).map fun v => [.keyval [String.ofList key] v]
  | _ => none

def readLine : Chars → Option (List Item)
  | [] => some []
  | ' ' :: ' ' :: s =>
    if s.takeWhile bareChar = [] then readHeader s
    else readKeyval (s.takeWhile bareChar) (s.dropWhile bareChar)
  | _ => none

def readLines : List Chars → Except String (List Item)
  | [] => .ok []
  | line :: rest =>
    match readLine line with
    | none => .error "not a plain line"
    | some its => (readLines rest).map (its ++ ·)

def plainItems (text : Chars) : Except String (List Item) := readLines (splitAll '\n' text)

/-! ## It keeps the promises -/

theorem takeWhile_dropWhile_append {p : Char → Bool} {s : Chars} {c : Char}
    (hs : ∀ d ∈ s, p d = true) (hc : p c = false) (rest : Chars) :
    (s ++ c :: rest).takeWhile p = s ∧ (s ++ c :: rest).dropWhile p = c :: rest := by
  rw [List.takeWhile_append_of_pos hs, List.dropWhile_append_of_pos hs,
    List.takeWhile_cons_of_neg (by simp [hc]), List.dropWhile_cons_of_neg (by simp [hc])]
  simp

theorem readQuoted_eq_some {s v rest : Chars} :
    readQuoted s = some (v, rest) ↔ Verbatim v ∧ s = '"' :: (v ++ '"' :: rest) := by
  constructor
  · intro h
    unfold readQuoted at h
    split at h
    · split at h
      · next t rest' hdrop =>
        cases h
        refine ⟨fun c hc => List.mem_takeWhile_imp hc, ?_⟩
        rw [← hdrop, List.takeWhile_append_dropWhile]
      · cases h
    · cases h
  · rintro ⟨hv, rfl⟩
    have hquote : unescaped '"' = false := by decide
    obtain ⟨htake, hdrop⟩ := takeWhile_dropWhile_append hv hquote rest
    simp only [readQuoted, htake, hdrop]

theorem readQuoted_quoted {v : Chars} (hv : Verbatim v) (rest : Chars) :
    readQuoted (quoted v ++ rest) = some (v, rest) := by
  refine readQuoted_eq_some.mpr ⟨hv, ?_⟩
  simp [quoted]

theorem stringAt_of_readQuoted {s v rest : Chars} (h : readQuoted s = some (v, rest))
    (more : Chars) : StringAt (s ++ more) v (rest ++ more) := by
  obtain ⟨hv, rfl⟩ := readQuoted_eq_some.mp h
  have hstring : StringAt ('"' :: (v ++ '"' :: (rest ++ more))) v (rest ++ more) :=
    .basic (hv.body false)
  simpa using hstring

theorem readElements_listed {l : List String} (hl : ∀ s ∈ l, Verbatim s.toList) {n : Nat}
    (hn : l.length < n) : readElements n (listed l) = some l := by
  induction l generalizing n with
  | nil =>
    obtain ⟨n, rfl⟩ := Nat.exists_eq_succ_of_ne_zero (Nat.ne_of_gt hn)
    rfl
  | cons s l ih =>
    obtain ⟨n, rfl⟩ := Nat.exists_eq_succ_of_ne_zero (Nat.ne_of_gt (Nat.zero_lt_of_lt hn))
    obtain ⟨hs, hrest⟩ := List.forall_mem_cons.mp hl
    have hne (rest : Chars) : quoted s.toList ++ rest ≠ [']'] := by simp [quoted]
    cases l with
    | nil =>
      simp only [readElements, listed, if_neg (hne _), readQuoted_quoted hs, String.ofList_toList]
    | cons q l =>
      have hlen : (q :: l).length < n := by
        rw [List.length_cons] at hn
        omega
      simp only [readElements, listed, if_neg (hne _), readQuoted_quoted hs, ih hrest hlen,
        Option.map_some, String.ofList_toList]

theorem elements_of_readElements {n : Nat} {s : Chars} {l : List String}
    (h : readElements n s = some l) (more : Chars) : Elements (s ++ more) l := by
  induction n generalizing s l with
  | zero => cases h
  | succ n ih =>
    unfold readElements at h
    split at h
    · next hs =>
      cases h
      rw [hs]
      exact .close .nil
    · split at h
      · next v hquoted =>
        cases h
        have hstring : StringAt (s ++ more) v ([] ++ ']' :: more) :=
          stringAt_of_readQuoted hquoted more
        have hlast : Elements ([] ++ (s ++ more)) [String.ofList v] := .last .nil hstring .nil
        exact hlast
      · next v rest hquoted =>
        obtain ⟨l', hl', rfl⟩ := Option.map_eq_some_iff.mp h
        have hstring : StringAt (s ++ more) v ([] ++ ',' :: ' ' :: (rest ++ more)) :=
          stringAt_of_readQuoted hquoted more
        have hmore : Elements ([] ++ (s ++ more)) (String.ofList v :: l') :=
          .more .nil hstring .nil (ih hl').blank
        exact hmore
      · cases h

theorem readValue_quoted {s : Chars} (hs : Verbatim s) :
    readValue (quoted s) = some (.str (String.ofList s)) := by
  have hread := readQuoted_quoted hs []
  rw [List.append_nil] at hread
  show (match readQuoted (quoted s) with
    | some (v, []) => some (Value.str (String.ofList v))
    | _ => none) = _
  rw [hread]

theorem readValue_listed {l : List String} (hl : ∀ s ∈ l, Verbatim s.toList) :
    readValue ('[' :: listed l) = some (.strings l) := by
  have hlen : ∀ l : List String, l.length < (listed l).length := by
    intro l
    induction l with
    | nil => decide
    | cons s l ih =>
      cases l with
      | nil => simp [listed, quoted]
      | cons q l =>
        simp only [listed, List.length_append, List.length_cons] at ih ⊢
        omega
  show (readElements (listed l).length (listed l)).map Value.strings = _
  rw [readElements_listed hl (hlen l), Option.map_some]

theorem valueAt_of_readValue {s : Chars} {v : Value} (h : readValue s = some v) (more : Chars) :
    ValueAt (s ++ more) v := by
  unfold readValue at h
  split at h
  · obtain ⟨l, hl, rfl⟩ := Option.map_eq_some_iff.mp h
    exact .array (elements_of_readElements hl more)
  · split at h
    · next v hquoted =>
      cases h
      exact .string (stringAt_of_readQuoted hquoted more)
    · cases h

theorem Bare.ne_newline {key : Chars} (hkey : Bare key) : '\n' ∉ key := by
  intro hmem
  have hbad := hkey.2 _ hmem
  have hnot : bareChar '\n' = false := by decide
  rw [hnot] at hbad
  cases hbad

theorem readLine_keyLine {key : Chars} (hkey : Bare key) (text : Chars) :
    readLine (keyLine key text) =
      (readValue text).map fun v => [.keyval [String.ofList key] v] := by
  have hblank : bareChar ' ' = false := by decide
  obtain ⟨htake, hdrop⟩ := takeWhile_dropWhile_append hkey.2 hblank ('=' :: ' ' :: text)
  simp only [readLine, keyLine, htake, hdrop, if_neg hkey.1, readKeyval]

theorem readLine_headerLine {key : Chars} (hkey : Bare key) :
    readLine (headerLine key) = some [.arrayTable [String.ofList key]] := by
  have hopen : bareChar '[' = false := by decide
  have hclose : bareChar ']' = false := by decide
  obtain ⟨htake, hdrop⟩ := takeWhile_dropWhile_append hkey.2 hclose [']']
  simp only [readLine, headerLine, List.takeWhile_cons, hopen, readHeader, htake, hdrop]
  simp [hkey.1]

theorem readLines_append {a b : List Chars} {all : List Item} :
    readLines (a ++ b) = .ok all ↔
      ∃ its its', readLines a = .ok its ∧ readLines b = .ok its' ∧ all = its ++ its' := by
  induction a generalizing all with
  | nil =>
    constructor
    · intro h
      exact ⟨[], all, rfl, h, rfl⟩
    · rintro ⟨its, its', ha, hb, rfl⟩
      cases ha
      exact hb
  | cons line a ih =>
    rw [List.cons_append, readLines, readLines]
    cases readLine line with
    -- a line that does not read is the end of it, wherever the text is cut
    | none =>
      refine iff_of_false (by simp) ?_
      rintro ⟨its, its', ha, -⟩
      cases ha
    | some first =>
      constructor
      · intro h
        cases hab : readLines (a ++ b) with
        | error e =>
          rw [hab] at h
          cases h
        | ok rest =>
          rw [hab] at h
          cases h
          obtain ⟨its, its', ha, hb, rfl⟩ := ih.mp hab
          exact ⟨first ++ its, its', by rw [ha]; rfl, hb, by rw [List.append_assoc]⟩
      · rintro ⟨its, its', ha, hb, rfl⟩
        cases hrest : readLines a with
        | error e =>
          rw [hrest] at ha
          cases ha
        | ok rest =>
          rw [hrest] at ha
          cases ha
          rw [ih.mpr ⟨rest, its', hrest, hb, rfl⟩, List.append_assoc]
          rfl

theorem plainItems_newline {text more : Chars} {all : List Item} :
    plainItems (text ++ '\n' :: more) = .ok all ↔
      ∃ its its', plainItems text = .ok its ∧ plainItems more = .ok its' ∧ all = its ++ its' := by
  unfold plainItems
  rw [splitAll_append, readLines_append]

theorem plainItems_line {line : Chars} {its : List Item} (hline : '\n' ∉ line)
    (h : readLine line = some its) : plainItems (line ++ ['\n']) = .ok its := by
  refine plainItems_newline.mpr ⟨its, [], ?_, rfl, (List.append_nil its).symm⟩
  unfold plainItems
  rw [splitAll_of_not_mem hline]
  simp [readLines, h, Except.map]

theorem Verbatim.ne_newline {s : Chars} (hs : Verbatim s) : '\n' ∉ s := by
  intro hmem
  have hbad := hs _ hmem
  have hnot : unescaped '\n' = false := by decide
  rw [hnot] at hbad
  cases hbad

theorem listed_ne_newline {l : List String} (hl : ∀ s ∈ l, Verbatim s.toList) :
    '\n' ∉ listed l := by
  induction l with
  | nil => decide
  | cons s l ih =>
    obtain ⟨hs, hrest⟩ := List.forall_mem_cons.mp hl
    have hstring := hs.ne_newline
    cases l with
    | nil => simp [listed, quoted, hstring]
    | cons q l => simp [listed, quoted, hstring, ih hrest]

/-- **The promises can be kept**, by a reader of a few lines. -/
theorem plainItems_reads : Reads plainItems where
  header hkey := by
    refine plainItems_line ?_ (readLine_headerLine hkey)
    simp [headerLine, hkey.ne_newline]
  string hkey hs := by
    refine plainItems_line ?_ ?_
    · simp [keyLine, quoted, hkey.ne_newline, hs.ne_newline]
    · rw [readLine_keyLine hkey, readValue_quoted hs, Option.map_some]
  strings hkey hl := by
    refine plainItems_line ?_ ?_
    · simp [keyLine, hkey.ne_newline, listed_ne_newline hl]
    · rw [readLine_keyLine hkey, readValue_listed hl, Option.map_some]
  ended {text its} h :=
    plainItems_newline.mpr ⟨its, [], h, rfl, (List.append_nil its).symm⟩
  append {text more its all} h hended _ := by
    rcases hended with rfl | hlast
    · cases h
      simp
    · obtain ⟨text, rfl⟩ := List.getLast?_eq_some_iff.mp hlast
      obtain ⟨its', last, htext, hnil, rfl⟩ := plainItems_newline.mp h
      cases hnil
      rw [List.append_assoc, List.singleton_append, plainItems_newline]
      simp [htext]
  -- the value may be cut by newlines of its own; what reads is then the first piece of it
  value {key text its} hkey h := by
    obtain ⟨first, more, hsplit⟩ := List.exists_cons_of_ne_nil (splitAll_ne_nil '\n' text)
    have htext : ∃ rest, text = first ++ rest := by
      rw [← joinAll_splitAll '\n' text, hsplit]
      cases more with
      | nil => exact ⟨[], (List.append_nil first).symm⟩
      | cons second more => exact ⟨_, rfl⟩
    obtain ⟨rest, rfl⟩ := htext
    have hlines : splitAll '\n' (keyLine key (first ++ rest)) = keyLine key first :: more := by
      have hprefix : '\n' ∉ ' ' :: ' ' :: (key ++ [' ', '=', ' ']) := by simp [hkey.ne_newline]
      have hcut := splitAll_append_of_not_mem hprefix hsplit
      simpa [keyLine] using hcut
    unfold plainItems at h
    rw [hlines, readLines, readLine_keyLine hkey] at h
    cases hvalue : readValue first with
    | none =>
      rw [hvalue] at h
      cases h
    | some v =>
      rw [hvalue] at h
      cases hmore : readLines more with
      | error e =>
        simp [hmore, Except.map] at h
      | ok its' =>
        simp only [hmore, Except.map, Option.map_some, Except.ok.injEq] at h
        refine ⟨v, its', h.symm, valueAt_of_readValue hvalue rest⟩

end Abora.Lib.Toml
