import Mathlib.Algebra.GroupWithZero.Nat
import Mathlib.Data.List.Basic
import Mathlib.Data.List.DropRight

/-!
# Text, as the standard library cuts it

The framework reads foreign text — `apt` output, clock strings, header values — with a handful of
`str` methods. They are written here once, on lists of characters: a Rust `str` is a sequence of
Unicode scalar values, and so is a `List Char`. Only its length in bytes (`byteLen`) depends on how
it is encoded.

Each method comes with the facts a proof spends: what it answers on a text built the expected way,
and what an answer says about the text. The two are not the same thing. `splitOnce` on `a ++ sep ::
b` is a computation; that an answer `(a, b)` means the separator is not in `a` is what a parser of
foreign text needs. Cutting everywhere and joining are each other's inverses (`splitAll_joinAll`,
`joinAll_splitAll`), with one proviso on one side only.

Lines are the one place where text is lost: `lines` drops a carriage return in front of a newline,
but none at the end of a text without one, and an empty last line goes with the newline before it.
`lines_rows` is the form in which that is used: what is printed row by row is read row by row.
-/

namespace Abora.Lib.Text

/-- A text as its scalar values. -/
abbrev Chars := List Char

/-- `char::is_whitespace`: the Unicode `White_Space` property, which has more members than ASCII: a
no-break space or a line separator is trimmed as well. -/
def isWhitespace (c : Char) : Bool :=
  let n := c.toNat
  (9 ≤ n && n ≤ 13) || n == 0x20 || n == 0x85 || n == 0xA0 || n == 0x1680 ||
    (0x2000 ≤ n && n ≤ 0x200A) || n == 0x2028 || n == 0x2029 || n == 0x202F ||
    n == 0x205F || n == 0x3000

def trimStart (s : Chars) : Chars := s.dropWhile isWhitespace

def trimEnd (s : Chars) : Chars := (s.reverse.dropWhile isWhitespace).reverse

def trim (s : Chars) : Chars := trimEnd (trimStart s)

/-- `str::len`: the length in UTF-8 bytes. -/
def byteLen (s : Chars) : Nat := (s.map Char.utf8Size).sum

/-- `str::split_once` at a single character: cut at its first occurrence, which is dropped. -/
def splitOnce (sep : Char) : Chars → Option (Chars × Chars)
  | [] => none
  | c :: cs =>
    if c = sep then some ([], cs)
    else (splitOnce sep cs).map fun p => (c :: p.1, p.2)

/-- `str::split` at a single character: cut at every occurrence. There is always at least one piece,
and an empty one at an end where the separator is. -/
def splitAll (sep : Char) : Chars → List Chars
  | [] => [[]]
  | c :: cs =>
    if c = sep then [] :: splitAll sep cs
    else
      match splitAll sep cs with
      | [] => [[c]]
      | w :: ws => (c :: w) :: ws

/-- The pieces with the separator between them. -/
def joinAll (sep : Char) : List Chars → Chars
  | [] => []
  | [w] => w
  | w :: ws => w ++ sep :: joinAll sep ws

/-- The carriage return that `lines` drops together with the newline after it. -/
def dropCr (line : Chars) : Chars :=
  if line.getLast? = some '\r' then line.dropLast else line

/-- `lines` with the characters of the current line read so far. -/
def linesFrom (line : Chars) : Chars → List Chars
  | [] => if line = [] then [] else [line]
  | c :: cs => if c = '\n' then dropCr line :: linesFrom [] cs else linesFrom (line ++ [c]) cs

/-- `str::lines`. The piece after the last newline is a line only when it is not empty, and it
keeps a final carriage return: only `\r\n` is a line ending. -/
def lines (s : Chars) : List Chars := linesFrom [] s

def unlines (ls : List Chars) : Chars := ls.flatMap fun l => l ++ ['\n']

/-- The value of a non-empty run of ASCII digits. -/
def parseDigits (s : Chars) : Option Nat :=
  if s ≠ [] ∧ s.all Char.isDigit then
    some (s.foldl (fun n c => 10 * n + (c.toNat - '0'.toNat)) 0)
  else none

/-- `str::parse` at an unsigned type of `bits` bits: digits, optionally after a `+`, in range. There
is no room for whitespace, so what is read from a file is trimmed first. -/
def parseUnsigned (bits : Nat) (s : Chars) : Option Nat :=
  (parseDigits (if s.head? = some '+' then s.tail else s)).filter (· < 2 ^ bits)

def hexDigit (n : Nat) : Char := if n < 10 then Char.ofNat (48 + n) else Char.ofNat (87 + n)

/-- `format!("{:0w$x}")`: the last `w` hexadecimal digits, most significant first. -/
def hexPadded : Nat → Nat → Chars
  | 0, _ => []
  | w + 1, n => hexPadded w (n / 16) ++ [hexDigit (n % 16)]

/-! ## Lengths -/

@[simp] theorem byteLen_nil : byteLen [] = 0 := rfl

@[simp] theorem byteLen_cons (c : Char) (s : Chars) :
    byteLen (c :: s) = c.utf8Size + byteLen s := by
  simp [byteLen]

theorem byteLen_eq_length {s : Chars} (h : ∀ c ∈ s, c.utf8Size = 1) : byteLen s = s.length := by
  induction s with
  | nil => rfl
  | cons c s ih =>
    rw [byteLen_cons, h c List.mem_cons_self, ih fun d hd => h d (List.mem_cons_of_mem _ hd),
      List.length_cons, Nat.add_comm]

theorem isAlphanum_of_lower {c : Char} (h : c.isLower = true) : c.isAlphanum = true := by
  show ((c.isUpper || c.isLower) || c.isDigit) = true
  rw [h, Bool.or_true, Bool.true_or]

theorem utf8Size_of_alphanum {c : Char} (h : c.isAlphanum = true) : c.utf8Size = 1 := by
  have hranges : ((decide (c.val ≥ 'A'.val ∧ c.val ≤ 'Z'.val) ||
      (decide (c.val ≥ 'a'.val) && decide (c.val ≤ 'z'.val))) ||
      (decide (c.val ≥ '0'.val) && decide (c.val ≤ '9'.val))) = true := h
  simp only [Bool.or_eq_true, Bool.and_eq_true, decide_eq_true_eq] at hranges
  refine Char.utf8Size_eq_one_iff.mpr ?_
  rcases hranges with (h | h) | h
  · exact UInt32.le_trans h.2 (by decide)
  · exact UInt32.le_trans h.2 (by decide)
  · exact UInt32.le_trans h.2 (by decide)

/-! ## Cutting once -/

/-- The cut is where the separator was put, if it does not occur earlier. -/
theorem splitOnce_append {sep : Char} {a : Chars} (b : Chars) (h : sep ∉ a) :
    splitOnce sep (a ++ sep :: b) = some (a, b) := by
  induction a with
  | nil => simp [splitOnce]
  | cons c a ih =>
    rw [List.mem_cons, not_or] at h
    obtain ⟨hc, ha⟩ := h
    simp [splitOnce, Ne.symm hc, ih ha]

/-- An answer says where the separator was: it does not occur before the cut. -/
theorem splitOnce_eq_some {sep : Char} {s a b : Chars} (h : splitOnce sep s = some (a, b)) :
    s = a ++ sep :: b ∧ sep ∉ a := by
  induction s generalizing a with
  | nil => cases h
  | cons c s ih =>
    unfold splitOnce at h
    by_cases hc : c = sep
    · rw [if_pos hc] at h
      cases h
      exact ⟨by rw [hc]; rfl, List.not_mem_nil⟩
    · rw [if_neg hc] at h
      obtain ⟨⟨a', b'⟩, hcut, hp⟩ := Option.map_eq_some_iff.mp h
      cases hp
      obtain ⟨hs, hnot⟩ := ih hcut
      refine ⟨by rw [hs]; rfl, fun hmem => ?_⟩
      rcases List.mem_cons.mp hmem with he | hmem
      · exact hc he.symm
      · exact hnot hmem

theorem splitOnce_eq_none_iff {sep : Char} {s : Chars} : splitOnce sep s = none ↔ sep ∉ s := by
  constructor
  · intro h hmem
    obtain ⟨a, b, rfl, hnot⟩ := List.eq_append_cons_of_mem hmem
    rw [splitOnce_append b hnot] at h
    cases h
  · intro h
    rw [Option.eq_none_iff_forall_ne_some]
    intro ⟨a, b⟩ hcut
    rw [(splitOnce_eq_some hcut).1] at h
    exact h (List.mem_append_right _ List.mem_cons_self)

/-! ## Cutting everywhere -/

theorem splitAll_ne_nil (sep : Char) (s : Chars) : splitAll sep s ≠ [] := by
  cases s with
  | nil => exact List.cons_ne_nil _ _
  | cons c cs =>
    unfold splitAll
    split
    · exact List.cons_ne_nil _ _
    · split <;> exact List.cons_ne_nil _ _

theorem splitAll_append (sep : Char) (a b : Chars) :
    splitAll sep (a ++ sep :: b) = splitAll sep a ++ splitAll sep b := by
  induction a with
  | nil => simp [splitAll]
  | cons c a ih =>
    rw [List.cons_append, splitAll, splitAll, ih]
    split
    · rfl
    · cases ha : splitAll sep a with
      | nil => exact absurd ha (splitAll_ne_nil sep a)
      | cons w ws => rfl

theorem splitAll_of_not_mem {sep : Char} {s : Chars} (h : sep ∉ s) : splitAll sep s = [s] := by
  induction s with
  | nil => rfl
  | cons c s ih =>
    rw [List.mem_cons, not_or] at h
    rw [splitAll, if_neg (Ne.symm h.1), ih h.2]

theorem splitAll_append_of_not_mem {sep : Char} {a b w : Chars} {ws : List Chars} (h : sep ∉ a)
    (hb : splitAll sep b = w :: ws) : splitAll sep (a ++ b) = (a ++ w) :: ws := by
  induction a with
  | nil => exact hb
  | cons c a ih =>
    rw [List.mem_cons, not_or] at h
    rw [List.cons_append, splitAll, if_neg (Ne.symm h.1), ih h.2]
    rfl

theorem joinAll_cons {sep : Char} {w : Chars} {ws : List Chars} (h : ws ≠ []) :
    joinAll sep (w :: ws) = w ++ sep :: joinAll sep ws := by
  cases ws with
  | nil => exact absurd rfl h
  | cons v vs => rfl

theorem splitAll_joinAll {sep : Char} {ws : List Chars} (hne : ws ≠ []) (h : ∀ w ∈ ws, sep ∉ w) :
    splitAll sep (joinAll sep ws) = ws := by
  induction ws with
  | nil => exact absurd rfl hne
  | cons w ws ih =>
    obtain ⟨hw, hws⟩ := List.forall_mem_cons.mp h
    cases ws with
    | nil => exact splitAll_of_not_mem hw
    | cons v vs =>
      rw [joinAll_cons (List.cons_ne_nil _ _), splitAll_append, splitAll_of_not_mem hw,
        ih (List.cons_ne_nil _ _) hws]
      rfl

theorem joinAll_splitAll (sep : Char) (s : Chars) : joinAll sep (splitAll sep s) = s := by
  induction s with
  | nil => rfl
  | cons c s ih =>
    rw [splitAll]
    split
    · rename_i hc
      rw [joinAll_cons (splitAll_ne_nil sep s), ih, hc]
      rfl
    · cases hs : splitAll sep s with
      | nil => exact absurd hs (splitAll_ne_nil sep s)
      | cons w ws =>
        rw [hs] at ih
        cases ws with
        | nil => exact congrArg (c :: ·) ih
        | cons v vs =>
          rw [joinAll_cons (List.cons_ne_nil _ _)] at ih
          rw [joinAll_cons (List.cons_ne_nil _ _), List.cons_append, ih]

theorem mem_of_mem_splitAll {sep : Char} {s w : Chars} (h : w ∈ splitAll sep s) {c : Char}
    (hc : c ∈ w) : c ∈ s := by
  have hjoin {ws : List Chars} (hw : w ∈ ws) : c ∈ joinAll sep ws := by
    induction ws with
    | nil => cases hw
    | cons v vs ih =>
      cases vs with
      | nil => exact List.mem_singleton.mp hw ▸ hc
      | cons v' vs' =>
        rw [joinAll_cons (List.cons_ne_nil _ _)]
        rcases List.mem_cons.mp hw with rfl | hw
        · exact List.mem_append_left _ hc
        · exact List.mem_append_right _ (List.mem_cons_of_mem _ (ih hw))
  rw [← joinAll_splitAll sep s]
  exact hjoin h

theorem not_mem_of_mem_splitAll {sep : Char} {s w : Chars} (h : w ∈ splitAll sep s) : sep ∉ w := by
  induction s generalizing w with
  | nil =>
    rw [List.mem_singleton.mp h]
    exact List.not_mem_nil
  | cons c s ih =>
    rw [splitAll] at h
    split at h
    · rcases List.mem_cons.mp h with rfl | h
      · exact List.not_mem_nil
      · exact ih h
    · rename_i hc
      cases hs : splitAll sep s with
      | nil => exact absurd hs (splitAll_ne_nil sep s)
      | cons v vs =>
        rw [hs] at h ih
        rcases List.mem_cons.mp h with rfl | h
        · rw [List.mem_cons, not_or]
          exact ⟨Ne.symm hc, ih List.mem_cons_self⟩
        · exact ih (List.mem_cons_of_mem _ h)

theorem splitAll_inj {sep : Char} {s t : Chars} (h : splitAll sep s = splitAll sep t) : s = t := by
  rw [← joinAll_splitAll sep s, h, joinAll_splitAll]

/-! ## Lines -/

theorem dropCr_eq {line : Chars} (h : '\r' ∉ line) : dropCr line = line := by
  unfold dropCr
  rw [if_neg]
  intro hlast
  exact h (List.mem_of_getLast? hlast)

theorem dropCr_prefix (line : Chars) : dropCr line <+: line := by
  unfold dropCr
  split
  · exact List.dropLast_prefix line
  · exact List.prefix_refl line

theorem dropCr_behind {c : Char} (hc : c ≠ '\r') (pre post : Chars) :
    dropCr (pre ++ c :: post) = pre ++ c :: dropCr post := by
  unfold dropCr
  cases post with
  | nil => simp [hc]
  | cons d post =>
    rw [List.getLast?_append_of_ne_nil _ (List.cons_ne_nil _ _), List.getLast?_cons_cons]
    split
    · rw [List.dropLast_append_of_ne_nil (List.cons_ne_nil _ _)]
      rfl
    · rfl

theorem dropCr_append_cons {c : Char} (hc : c ≠ '\r') (pre post : Chars) :
    ∃ t, dropCr (pre ++ c :: post) = pre ++ c :: t :=
  ⟨dropCr post, dropCr_behind hc pre post⟩

theorem splitOnce_dropCr {sep : Char} (hsep : sep ≠ '\r') (s : Chars) :
    splitOnce sep (dropCr s) = (splitOnce sep s).map fun p => (p.1, dropCr p.2) := by
  cases hcut : splitOnce sep s with
  | none =>
    have hstart := dropCr_prefix s
    exact splitOnce_eq_none_iff.mpr fun hmem =>
      splitOnce_eq_none_iff.mp hcut (hstart.subset hmem)
  | some p =>
    obtain ⟨hs, hnot⟩ := splitOnce_eq_some hcut
    rw [hs, dropCr_behind hsep, splitOnce_append _ hnot]
    rfl

/-- A line is put together up to its newline, whatever has been read of it before. -/
theorem linesFrom_collect {l : Chars} (acc rest : Chars) (h : '\n' ∉ l) :
    linesFrom acc (l ++ rest) = linesFrom (acc ++ l) rest := by
  induction l generalizing acc with
  | nil => rw [List.nil_append, List.append_nil]
  | cons c l ih =>
    rw [List.mem_cons, not_or] at h
    obtain ⟨hc, hl⟩ := h
    rw [List.cons_append, linesFrom, if_neg (Ne.symm hc), ih (acc ++ [c]) hl, List.append_assoc,
      List.singleton_append]

theorem linesFrom_append {l : Chars} (acc rest : Chars) (h : '\n' ∉ l) :
    linesFrom acc (l ++ '\n' :: rest) = dropCr (acc ++ l) :: linesFrom [] rest := by
  rw [linesFrom_collect acc _ h, linesFrom, if_pos rfl]

theorem unlines_cons (l : Chars) (ls : List Chars) :
    unlines (l :: ls) = l ++ '\n' :: unlines ls := by
  simp [unlines]

/-- **Lines are found again at their newlines** exactly when none has one inside. -/
theorem splitAll_unlines_iff {ls : List Chars} :
    splitAll '\n' (unlines ls) = ls ++ [[]] ↔ ∀ l ∈ ls, '\n' ∉ l := by
  constructor
  · intro h l hl
    exact not_mem_of_mem_splitAll (h ▸ List.mem_append_left _ hl)
  · intro h
    induction ls with
    | nil => rfl
    | cons l ls ih =>
      obtain ⟨hl, hls⟩ := List.forall_mem_cons.mp h
      rw [unlines_cons, splitAll_append, splitAll_of_not_mem hl, ih hls]
      rfl

theorem linesFrom_of_not_mem {l : Chars} (acc : Chars) (h : '\n' ∉ l) :
    linesFrom acc l = if acc ++ l = [] then [] else [acc ++ l] := by
  have hcollect := linesFrom_collect acc [] h
  rw [List.append_nil] at hcollect
  rw [hcollect, linesFrom]

/-- Lines written one after the other come back without the carriage returns that closed them;
what follows the last newline is read on its own. -/
theorem lines_unlines_append {ls : List Chars} (h : ∀ l ∈ ls, '\n' ∉ l) (rest : Chars) :
    lines (unlines ls ++ rest) = ls.map dropCr ++ lines rest := by
  induction ls with
  | nil => rfl
  | cons l ls ih =>
    have hrest := ih fun m hm => h m (List.mem_cons_of_mem _ hm)
    rw [unlines_cons, List.append_assoc, List.cons_append, lines,
      linesFrom_append [] _ (h l List.mem_cons_self), List.nil_append, List.map_cons,
      List.cons_append]
    exact congrArg (dropCr l :: ·) hrest

/-- What is printed a row at a time is read a row at a time. -/
theorem lines_rows {β : Type} {text : β → Chars} (h : ∀ row, '\n' ∉ text row) {shown : Chars}
    {rows : List β} (hshown : shown = unlines (rows.map text)) :
    lines shown = rows.map fun row => dropCr (text row) := by
  have hlines : ∀ l ∈ rows.map text, '\n' ∉ l := by
    intro l hl
    obtain ⟨row, -, rfl⟩ := List.mem_map.mp hl
    exact h row
  have hcut := lines_unlines_append hlines []
  rwa [List.append_nil, ← hshown, show lines [] = [] from rfl, List.append_nil,
    List.map_map] at hcut

/-- Reading back what was written a line at a time. -/
theorem lines_unlines {ls : List Chars} (h : ∀ l ∈ ls, '\n' ∉ l ∧ '\r' ∉ l) :
    lines (unlines ls) = ls := by
  have hcut := lines_unlines_append (fun l hl => (h l hl).1) []
  have hkeep : ls.map dropCr = ls.map id := List.map_congr_left fun l hl => dropCr_eq (h l hl).2
  rw [List.append_nil, hkeep, List.map_id] at hcut
  rw [hcut]
  exact List.append_nil ls

/-- The same text without its last newline: only an empty last line is lost with it. -/
theorem lines_of_unterminated {ls : List Chars} {s : Chars} (h : ∀ l ∈ ls, '\n' ∉ l)
    (hs : s ++ ['\n'] = unlines ls) :
    ∃ init last, ls = init ++ [last] ∧
      lines s = init.map dropCr ++ if last = [] then [] else [last] := by
  rcases List.eq_nil_or_concat' ls with rfl | ⟨init, last, rfl⟩
  · exact absurd hs (by simp [unlines])
  · have hcut : unlines (init ++ [last]) = (unlines init ++ last) ++ ['\n'] := by simp [unlines]
    have heq : s = unlines init ++ last := List.append_cancel_right (hs.trans hcut)
    refine ⟨init, last, rfl, ?_⟩
    rw [heq, lines_unlines_append fun l hl => h l (List.mem_append_left _ hl), lines,
      linesFrom_of_not_mem [] (h last (List.mem_append_right _ (List.mem_singleton.mpr rfl))),
      List.nil_append]

/-! ## Trimming -/

theorem trimStart_eq_self_iff {s : Chars} :
    trimStart s = s ↔ ∀ c ∈ s.head?, isWhitespace c = false := by
  unfold trimStart
  rw [List.dropWhile_eq_self_iff]
  cases s with
  | nil => simp
  | cons c s => simp

theorem trimEnd_eq_self_iff {s : Chars} :
    trimEnd s = s ↔ ∀ c ∈ s.getLast?, isWhitespace c = false := by
  have hrdrop : trimEnd s = s.rdropWhile isWhitespace := rfl
  rw [hrdrop, List.rdropWhile_eq_self_iff]
  constructor
  · intro h c hc
    have hne : s ≠ [] := List.ne_nil_of_mem (List.mem_of_getLast? hc)
    rw [List.getLast?_eq_some_getLast hne, Option.mem_some_iff] at hc
    rw [← hc]
    simpa using h hne
  · intro h hne
    simpa using h (s.getLast hne) (List.getLast?_eq_some_getLast hne)

/-- **Trimming changes nothing** unless there is whitespace at an end. -/
theorem trim_eq_self_iff {s : Chars} :
    trim s = s ↔ (∀ c ∈ s.head?, isWhitespace c = false) ∧
      ∀ c ∈ s.getLast?, isWhitespace c = false := by
  rw [← trimStart_eq_self_iff, ← trimEnd_eq_self_iff]
  constructor
  · intro h
    have hstart : trimStart s = s := by
      have hsuffix : trimStart s <:+ s := List.dropWhile_suffix isWhitespace
      have hprefix : trimEnd (trimStart s) <+: trimStart s := List.rdropWhile_prefix _ _
      have hle := hprefix.length_le
      rw [show trimEnd (trimStart s) = s from h] at hle
      exact hsuffix.eq_of_length (Nat.le_antisymm hsuffix.length_le hle)
    refine ⟨hstart, ?_⟩
    unfold trim at h
    rwa [hstart] at h
  · intro ⟨hstart, hend⟩
    rw [trim, hstart, hend]

theorem trim_concat {c : Char} (h : isWhitespace c = true) (s : Chars) :
    trim (s ++ [c]) = trim s := by
  have hend (s : Chars) : trimEnd (s ++ [c]) = trimEnd s :=
    List.rdropWhile_concat_pos isWhitespace s c h
  unfold trim trimStart
  rw [List.dropWhile_append]
  split
  · rename_i hempty
    rw [List.isEmpty_iff.mp hempty, List.dropWhile_cons_of_pos h]
    rfl
  · exact hend _

/-- So the carriage return that `lines` drops is none that a trimmed line would have kept. -/
theorem trim_dropCr (line : Chars) : trim (dropCr line) = trim line := by
  unfold dropCr
  split
  · rename_i hlast
    obtain ⟨init, rfl⟩ := List.getLast?_eq_some_iff.mp hlast
    rw [List.dropLast_concat, trim_concat (by decide)]
  · rfl

/-! ## Hexadecimal -/

@[simp] theorem length_hexPadded (w n : Nat) : (hexPadded w n).length = w := by
  induction w generalizing n with
  | zero => rfl
  | succ w ih => simp [hexPadded, ih]

theorem mem_hexPadded {w n : Nat} {c : Char} (h : c ∈ hexPadded w n) :
    ∃ d < 16, c = hexDigit d := by
  induction w generalizing n with
  | zero => simp [hexPadded] at h
  | succ w ih =>
    rcases List.mem_append.mp h with h | h
    · exact ih h
    · exact ⟨n % 16, Nat.mod_lt _ (by decide), List.mem_singleton.mp h⟩

end Abora.Lib.Text
