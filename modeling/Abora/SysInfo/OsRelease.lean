import Abora.Lib.Lists
import Abora.Lib.Slice
import Abora.Lib.Words

/-!
# `os-release` (`abora-sysinfo/src/linux.rs`)

Lines of `KEY=value` with shell quoting. The source unquotes by slicing bytes off both ends and then
dropping the backslash of every escape, so a value survives if the quoting escaped what it had to
and nothing trims it. `addLine_written` is one line written by the rules; `os_release_exact` is a
whole file of them, in any order, with comments and blank lines between.

The slices are checked ones, and `none` is the panic: a quote has one byte, so cutting one byte off
either end of a quoted value is never inside a character (`slice_between`), and a value that is a
single quote is not quoted. What a file says is compared as a map, so that its order does not matter
(`Says`): the parser's map is filled line by line and a key that comes twice would have its last
value, which a file that says one thing only does not do.
-/

namespace Abora.SysInfo

open Lib.Text

/-- `OsInfo`: what the file says about the system. Only the id has a fallback of its own. -/
structure OsInfo where
  id : String
  name : Option String
  prettyName : Option String
  version : Option String
  versionId : Option String
  idLike : List String
  homeUrl : Option String
  deriving DecidableEq, Repr

/-- The escape loop of `unquote`: the character behind a backslash stands for itself. -/
def unescape : Chars → Chars
  | [] => []
  | ['\\'] => ['\\']
  | '\\' :: escaped :: rest => escaped :: unescape rest
  | c :: rest => c :: unescape rest

/-- At least two bytes, the first and the last of them this quote. -/
def quotedBy (quote : Char) (value : Chars) : Prop :=
  2 ≤ byteLen value ∧ value.head? = some quote ∧ value.getLast? = some quote

instance (quote : Char) (value : Chars) : Decidable (quotedBy quote value) :=
  inferInstanceAs (Decidable (_ ∧ _ ∧ _))

/-- `unquote`; `none` is a slice that panics. -/
def unquote (value : Chars) : Option Chars :=
  if quotedBy '"' value then (slice value 1 (byteLen value - 1)).map unescape
  else if quotedBy '\'' value then slice value 1 (byteLen value - 1)
  else some value

/-- The map `parse_os_release` fills, as what it holds under a key. -/
abbrev Fields := Chars → Option Chars

def Fields.insert (fields : Fields) (key value : Chars) : Fields :=
  Function.update fields key (some value)

/-- One line. A line without an equals sign is skipped. -/
def addLine (fields : Fields) (line : Chars) : Option Fields :=
  let line := trim line
  if line = [] ∨ line.head? = some '#' then some fields
  else
    match splitOnce '=' line with
    | some (key, value) => (unquote (trim value)).map (fields.insert (trim key))
    | none => some fields

/-- `str::split_whitespace`. -/
def splitWhitespace (s : Chars) : List Chars := (s.splitOnP isWhitespace).filter (· ≠ [])

/-- `parse_os_release`; `none` is a panic. `ID_LIKE` is a list of words. -/
def parseOsRelease (text : String) : Option OsInfo := do
  let map ← (lines text.toList).foldlM addLine fun _ => none
  let get (key : String) : Option String := (map key.toList).map String.ofList
  some
    { id := (get "ID").getD "unknown"
      name := get "NAME"
      prettyName := get "PRETTY_NAME"
      version := get "VERSION"
      versionId := get "VERSION_ID"
      idLike := ((get "ID_LIKE").map fun v =>
        (splitWhitespace v.toList).map String.ofList).getD []
      homeUrl := get "HOME_URL" }

/-! ## How a file is written -/

/-- A backslash in front of what a double quote would not keep. -/
def escape (value : Chars) : Chars :=
  value.flatMap fun c => if c ∈ ['\\', '"', '$', '`'] then ['\\', c] else [c]

/-- A key of its own line. -/
structure Key where
  text : Chars
  no_equals : '=' ∉ text
  no_comment : text.head? ≠ some '#'
  no_whitespace : ∀ c ∈ text, isWhitespace c = false

/-- A value on one line. -/
structure Value where
  text : Chars
  no_newline : '\n' ∉ text

/-- A line of the file. An unquoted value is not among them: the rules quote everything. -/
inductive OsLine where
  /-- `KEY="value"`, escaped. -/
  | double (key : Key) (value : Value)
  /-- `KEY='value'`, as it is. -/
  | single (key : Key) (value : Value) (no_quote : '\'' ∉ value.text)
  | comment (text : Chars) (is_comment : (trim text).head? = some '#') (no_newline : '\n' ∉ text)
  | blank (text : Chars) (is_blank : trim text = []) (no_newline : '\n' ∉ text)

namespace OsLine

def text : OsLine → Chars
  | .double key value => key.text ++ '=' :: ('"' :: (escape value.text ++ ['"']))
  | .single key value _ => key.text ++ '=' :: ('\'' :: (value.text ++ ['\'']))
  | .comment text _ _ => text
  | .blank text _ _ => text

def entry : OsLine → Option (Chars × Chars)
  | .double key value => some (key.text, value.text)
  | .single key value _ => some (key.text, value.text)
  | .comment _ _ _ => none
  | .blank _ _ _ => none

end OsLine

/-! ## Words -/

theorem splitWhitespace_eq (s : Chars) : splitWhitespace s = Lib.pieces isWhitespace s := by
  refine List.filter_congr fun w _ => ?_
  cases w with
  | nil => rfl
  | cons c w => rfl

theorem splitWhitespace_trim (s : Chars) : splitWhitespace (trim s) = splitWhitespace s := by
  rw [splitWhitespace_eq, splitWhitespace_eq]
  exact Lib.pieces_strip s

theorem splitWhitespace_dropCr (row : Chars) :
    splitWhitespace (dropCr row) = splitWhitespace row := by
  rw [← splitWhitespace_trim (dropCr row), trim_dropCr, splitWhitespace_trim]

theorem ne_nil_of_mem_splitWhitespace {s w : Chars} (h : w ∈ splitWhitespace s) : w ≠ [] :=
  of_decide_eq_true (List.mem_filter.mp h).2

theorem spaced_joinAll {ws : List Chars}
    (h : ∀ w ∈ ws, w ≠ [] ∧ ∀ c ∈ w, isWhitespace c = false) :
    Lib.Spaced isWhitespace ws (joinAll ' ' ws) := by
  have hspace : isWhitespace ' ' = true := by decide
  induction ws with
  | nil => exact .blank nofun
  | cons w ws ih =>
    obtain ⟨⟨hne, hw⟩, hws⟩ := List.forall_mem_cons.mp h
    have hpad : ∀ c ∈ ([] : Chars), isWhitespace c = true := fun c hc => by cases hc
    cases ws with
    | nil =>
      have hlast : Lib.Spaced isWhitespace [w] ([] ++ w ++ []) :=
        .word hpad hne hw (fun c hc => by cases hc) (.blank hpad)
      rwa [List.nil_append, List.append_nil] at hlast
    | cons v vs =>
      exact .word hpad hne hw (fun c hc => by cases hc; exact hspace) ((ih hws).cons hspace)

/-- Words of a row, tested. -/
def areWords (ws : List Chars) : Bool := ws.all fun w => !w.isEmpty && w.all (!isWhitespace ·)

theorem spaced_of_areWords {ws : List Chars} (h : areWords ws = true) :
    Lib.Spaced isWhitespace ws (joinAll ' ' ws) := by
  refine spaced_joinAll fun w hw => ?_
  have hclean := List.all_eq_true.mp h w hw
  rw [Bool.and_eq_true, List.all_eq_true] at hclean
  exact ⟨by simpa using hclean.1, fun c hc => by simpa using hclean.2 c hc⟩

/-! ## Unquoting -/

theorem unescape_cons {c : Char} (hc : c ≠ '\\') (rest : Chars) :
    unescape (c :: rest) = c :: unescape rest := by
  cases rest with
  | nil => simp [unescape, hc]
  | cons d rest => simp [unescape, hc]

/-- **Escaping is undone**, whatever the value. -/
theorem unescape_escape (value : Chars) : unescape (escape value) = value := by
  induction value with
  | nil => rfl
  | cons c value ih =>
    have hcons : escape (c :: value) =
        (if c ∈ ['\\', '"', '$', '`'] then ['\\', c] else [c]) ++ escape value := rfl
    rw [hcons]
    split
    · show c :: unescape (escape value) = _
      rw [ih]
    · rename_i hplain
      have hc : c ≠ '\\' := fun h => hplain (by rw [h]; decide)
      rw [List.singleton_append, unescape_cons hc, ih]

/-- What is between two quotes, sliced off by bytes: a quote has one. -/
theorem slice_between {quote : Char} (hquote : quote.utf8Size = 1) (body : Chars) :
    slice (quote :: (body ++ [quote])) 1 (byteLen (quote :: (body ++ [quote])) - 1) =
      some body := by
  have hlen : byteLen (quote :: (body ++ [quote])) - 1 = 1 + byteLen body := by
    rw [byteLen_cons, byteLen_append, byteLen_cons, byteLen_nil]
    omega
  have hcut := splitAtByte_append body [quote] 0
  rw [Nat.add_zero, splitAtByte_zero, Option.map_some, List.append_nil] at hcut
  have hone : byteLen [quote] = 1 := by
    rw [byteLen_cons, byteLen_nil, hquote]
  rw [hlen]
  show slice ([quote] ++ (body ++ [quote])) 1 (1 + byteLen body) = _
  rw [slice_append hone, hcut]
  rfl

theorem quotedBy_between {quote : Char} (hquote : quote.utf8Size = 1) (body : Chars) :
    quotedBy quote (quote :: (body ++ [quote])) := by
  refine ⟨?_, rfl, ?_⟩
  · rw [byteLen_cons, byteLen_append, byteLen_cons, byteLen_nil]
    omega
  · rw [← List.cons_append, List.getLast?_concat]

theorem unquote_double (value : Chars) :
    unquote ('"' :: (escape value ++ ['"'])) = some value := by
  have hsize : '"'.utf8Size = 1 := by decide
  unfold unquote
  rw [if_pos (quotedBy_between hsize _), slice_between hsize, Option.map_some, unescape_escape]

theorem unquote_single (value : Chars) : unquote ('\'' :: (value ++ ['\''])) = some value := by
  have hsize : '\''.utf8Size = 1 := by decide
  have hnot : ¬ quotedBy '"' ('\'' :: (value ++ ['\''])) := by
    intro ⟨_, hhead, _⟩
    cases hhead
  unfold unquote
  rw [if_neg hnot, if_pos (quotedBy_between hsize _), slice_between hsize]

/-! ## One line -/

/-- Nothing of a written line is trimmed away: it begins with the key and ends with the quote. -/
theorem trim_written (key : Key) {quote : Char} (hquote : isWhitespace quote = false)
    (body : Chars) :
    trim (key.text ++ '=' :: (quote :: (body ++ [quote]))) =
      key.text ++ '=' :: (quote :: (body ++ [quote])) := by
  refine trim_eq_self_iff.mpr ⟨fun c hc => ?_, fun c hc => ?_⟩
  · cases hkey : key.text with
    | nil =>
      rw [hkey] at hc
      cases hc
      decide
    | cons d ds =>
      rw [hkey] at hc
      cases hc
      exact key.no_whitespace c (by rw [hkey]; exact List.mem_cons_self)
  · have hlast : (key.text ++ '=' :: (quote :: (body ++ [quote]))).getLast? = some quote := by
      have hcut : key.text ++ '=' :: (quote :: (body ++ [quote])) =
          (key.text ++ '=' :: quote :: body) ++ [quote] := by simp
      rw [hcut, List.getLast?_concat]
    rw [hlast] at hc
    cases hc
    exact hquote

/-- **A written line adds what it says**, whichever of the quotes it is written with. -/
theorem addLine_written (fields : Fields) (key : Key) {quote : Char}
    (hquote : isWhitespace quote = false) {body value : Chars}
    (hunquote : unquote (quote :: (body ++ [quote])) = some value) :
    addLine fields (key.text ++ '=' :: (quote :: (body ++ [quote]))) =
      some (fields.insert key.text value) := by
  have hkey : trim key.text = key.text := trim_eq_self_iff.mpr
    ⟨fun c hc => key.no_whitespace c (List.mem_of_mem_head? hc),
      fun c hc => key.no_whitespace c (List.mem_of_getLast? hc)⟩
  have hvalue : trim (quote :: (body ++ [quote])) = quote :: (body ++ [quote]) := by
    refine trim_eq_self_iff.mpr ⟨fun c hc => ?_, fun c hc => ?_⟩
    · cases hc
      exact hquote
    · rw [← List.cons_append, List.getLast?_concat] at hc
      cases hc
      exact hquote
  have hline : ¬ (key.text ++ '=' :: (quote :: (body ++ [quote])) = [] ∨
      (key.text ++ '=' :: (quote :: (body ++ [quote]))).head? = some '#') := by
    rw [not_or]
    refine ⟨by simp, fun hhead => ?_⟩
    cases htext : key.text with
    | nil =>
      rw [htext] at hhead
      cases hhead
    | cons c cs =>
      refine key.no_comment ?_
      rw [htext] at hhead ⊢
      exact hhead
  unfold addLine
  rw [trim_written key hquote]
  dsimp only
  rw [if_neg hline, splitOnce_append _ key.no_equals]
  dsimp only
  rw [hvalue, hunquote, hkey]
  rfl

def OsLine.add (fields : Fields) (line : OsLine) : Fields :=
  line.entry.elim fields fun p => fields.insert p.1 p.2

theorem addLine_text (fields : Fields) (line : OsLine) :
    addLine fields line.text = some (line.add fields) := by
  cases line with
  | double key value => exact addLine_written fields key (by decide) (unquote_double value.text)
  | single key value _ => exact addLine_written fields key (by decide) (unquote_single value.text)
  | comment text hcomment _ => exact if_pos (.inr hcomment)
  | blank text hblank _ => exact if_pos (.inl hblank)

/-- The carriage return a line may have lost was trimmed anyway. -/
theorem addLine_dropCr (fields : Fields) (line : Chars) :
    addLine fields (dropCr line) = addLine fields line := by
  unfold addLine
  rw [trim_dropCr]

theorem Key.no_newline (key : Key) : '\n' ∉ key.text := by
  intro hmem
  cases key.no_whitespace '\n' hmem

theorem no_newline_escape {value : Chars} (h : '\n' ∉ value) : '\n' ∉ escape value := by
  intro hmem
  obtain ⟨c, hc, hesc⟩ := List.mem_flatMap.mp hmem
  split at hesc
  · rcases List.mem_cons.mp hesc with hback | hback
    · cases hback
    · exact h (List.mem_singleton.mp hback ▸ hc)
  · exact h (List.mem_singleton.mp hesc ▸ hc)

theorem OsLine.newline_not_mem (line : OsLine) : '\n' ∉ line.text := by
  cases line with
  | double key value =>
    simp [OsLine.text, key.no_newline, no_newline_escape value.no_newline]
  | single key value _ => simp [OsLine.text, key.no_newline, value.no_newline]
  | comment text _ hno => exact hno
  | blank text _ hno => exact hno

/-! ## A whole file -/

theorem foldlM_lines (items : List OsLine) (fields : Fields) :
    (items.map OsLine.text).foldlM addLine fields = some (items.foldl OsLine.add fields) := by
  induction items generalizing fields with
  | nil => rfl
  | cons line items ih =>
    rw [List.map_cons, List.foldlM_cons, addLine_text]
    exact ih (line.add fields)

theorem foldlM_dropCr (ls : List Chars) (fields : Fields) :
    (ls.map dropCr).foldlM addLine fields = ls.foldlM addLine fields := by
  induction ls generalizing fields with
  | nil => rfl
  | cons l ls ih =>
    rw [List.map_cons, List.foldlM_cons, List.foldlM_cons, addLine_dropCr]
    cases addLine fields l with
    | none => rfl
    | some fields' => exact ih fields'

/-- The lines of the file, with or without a newline after the last one. -/
def Written (text : String) (items : List OsLine) : Prop :=
  text.toList = unlines (items.map OsLine.text) ∨
    text.toList ++ ['\n'] = unlines (items.map OsLine.text)

theorem Written.foldlM_eq {text : String} {items : List OsLine} (h : Written text items)
    (fields : Fields) :
    (lines text.toList).foldlM addLine fields = some (items.foldl OsLine.add fields) := by
  have hno : ∀ l ∈ items.map OsLine.text, '\n' ∉ l := by
    intro l hl
    obtain ⟨line, -, rfl⟩ := List.mem_map.mp hl
    exact line.newline_not_mem
  rw [← foldlM_lines]
  rcases h with heq | heq
  · have hlines := lines_unlines_append hno []
    rw [List.append_nil] at hlines
    have hnil : lines [] = [] := rfl
    rw [heq, hlines, hnil, List.append_nil, foldlM_dropCr]
  · obtain ⟨init, last, hls, hlines⟩ := lines_of_unterminated hno heq
    rw [hls, hlines, List.foldlM_append, List.foldlM_append, foldlM_dropCr]
    by_cases hlast : last = []
    · -- an empty last line is not there, and would add nothing
      have hempty (fields : Fields) : addLine fields [] = some fields := rfl
      rw [if_pos hlast, hlast]
      cases init.foldlM addLine fields with
      | none => rfl
      | some fields' => exact (hempty fields').symm
    · rw [if_neg hlast]

/-- A file says what a map says: the same values under the same keys, wherever they are. -/
def Says (items : List OsLine) (map : Fields) : Prop :=
  ∀ key value, map key = some value ↔ ∃ line ∈ items, line.entry = some (key, value)

/-- **What is read is what is said**, in whatever order: a key that is said twice is said the
same. -/
theorem foldl_add {items : List OsLine} {map : Fields} (h : Says items map) :
    items.foldl OsLine.add (fun _ => none) = map := by
  funext key
  let write (line : OsLine) : Option Chars :=
    line.entry.bind fun p => if p.1 = key then some p.2 else none
  have hwrite {line : OsLine} {value : Chars} :
      write line = some value ↔ line.entry = some (key, value) := by
    show line.entry.bind _ = some value ↔ _
    cases line.entry with
    | none => simp
    | some p =>
      obtain ⟨k, v⟩ := p
      by_cases hk : k = key
      · simp [hk]
      · simp [hk]
  have hstep (fields : Fields) (line : OsLine) :
      (line.add fields) key = (write line).or (fields key) := by
    show (line.entry.elim fields _) key = (line.entry.bind _).or _
    cases line.entry with
    | none => rfl
    | some p =>
      by_cases hk : p.1 = key
      · simp [Fields.insert, hk]
      · simp [Fields.insert, hk, Function.update_of_ne (Ne.symm hk)]
  -- what is under a key is what the last line says that writes it
  rw [Lib.foldl_or_getLast? (f := fun fields : Fields => fields key) hstep, Option.or_none]
  cases hmap : map key with
  | some value =>
    obtain ⟨line, hline, hentry⟩ := (h key value).mp hmap
    -- some line writes this value, so some line is the last that writes one, and it says the same
    have hmem : value ∈ items.filterMap write :=
      List.mem_filterMap.mpr ⟨line, hline, hwrite.mpr hentry⟩
    obtain ⟨last, hlast⟩ := Option.isSome_iff_exists.mp
      (List.getLast?_isSome.mpr (List.ne_nil_of_mem hmem))
    obtain ⟨line', hline', hlast'⟩ := List.mem_filterMap.mp (List.mem_of_getLast? hlast)
    rw [hlast, ← hmap, (h key last).mpr ⟨line', hline', hwrite.mp hlast'⟩]
  | none =>
    rw [List.getLast?_eq_none_iff, List.filterMap_eq_nil_iff]
    intro line hline
    rw [Option.eq_none_iff_forall_ne_some]
    intro value hvalue
    rw [(h key value).mpr ⟨line, hline, hwrite.mp hvalue⟩] at hmap
    cases hmap

/-- **Values survive quoting**: of a file written by the rules, in any order and with comments and
blank lines anywhere, every field is read as what was written for it, and a field nobody wrote as
its fallback. -/
theorem os_release_exact {text : String} {items : List OsLine} {map : Fields}
    (hwritten : Written text items) (hmap : Says items map) :
    parseOsRelease text = some
      { id := ((map "ID".toList).map String.ofList).getD "unknown"
        name := (map "NAME".toList).map String.ofList
        prettyName := (map "PRETTY_NAME".toList).map String.ofList
        version := (map "VERSION".toList).map String.ofList
        versionId := (map "VERSION_ID".toList).map String.ofList
        idLike := ((map "ID_LIKE".toList).map fun v =>
          (splitWhitespace v).map String.ofList).getD []
        homeUrl := (map "HOME_URL".toList).map String.ofList } := by
  have hread := hwritten.foldlM_eq fun _ => none
  rw [foldl_add hmap] at hread
  unfold parseOsRelease
  rw [hread]
  simp only [Option.bind_eq_bind, Option.bind_some, Option.map_map, Function.comp_def,
    String.toList_ofList]

/-- A name with quotes and a dollar sign in it, and an id that is quoted the other way. -/
theorem os_release_exact_quoted :
    let name : Key := ⟨['N', 'A', 'M', 'E'], by decide, by decide, by simp [isWhitespace]⟩
    let id : Key := ⟨['I', 'D'], by decide, by decide, by simp [isWhitespace]⟩
    let items : List OsLine :=
      [.comment ['#', 'x'] (by decide) (by decide),
        .double name ⟨['"', '$', 'x', '\\'], by decide⟩, .blank [] (by decide) (by decide),
        .single id ⟨['a', ' ', '"'], by decide⟩ (by decide)]
    let map : Fields := fun key =>
      if key = ['N', 'A', 'M', 'E'] then some ['"', '$', 'x', '\\']
      else if key = ['I', 'D'] then some ['a', ' ', '"'] else none
    let text := "#x\nNAME=\"\\\"\\$x\\\\\"\n\nID='a \"'"
    Written text items ∧ Says items map ∧ parseOsRelease text = some
      { id := "a \"", name := some "\"$x\\", prettyName := none, version := none
        versionId := none, idLike := [], homeUrl := none } := by
  intro name id items map text
  have hwritten : Written text items := .inr (by decide)
  have hmap : Says items map := by
    intro key value
    simp only [map, items, List.mem_cons, List.not_mem_nil, or_false, exists_eq_or_imp,
      exists_eq_left, OsLine.entry, reduceCtorEq, false_or, Option.some.injEq, Prod.mk.injEq]
    by_cases hname : key = ['N', 'A', 'M', 'E']
    · simp [hname, name, id]
    by_cases hid : key = ['I', 'D']
    · simp [hid, name, id]
    · simp [hname, hid, name, id, Ne.symm hname, Ne.symm hid]
  refine ⟨hwritten, hmap, ?_⟩
  rw [os_release_exact hwritten hmap]
  decide

end Abora.SysInfo
