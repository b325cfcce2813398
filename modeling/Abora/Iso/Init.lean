import Mathlib.Data.String.Basic
import Abora.Lib.Quoted
import Abora.Log.Lines

/-!
# The daemon's log on the boot screen (`iso/init`)

The live system shows what the daemon logs on the boot screen. The daemon writes JSON, and the shell
that stands in between has no parser for it: `aborad_log` looks for `"message":"` in a line and
takes what follows up to `","timestamp`, since the members of a record stand in the order of their
names (`SerdeJson.Compact`). `boot_log_exact` is when that gives the message: exactly when the
record has no field whose name comes between the two. A record of a panic has one, its thread.

What `boot_log_exact` needs of the JSON library is its layout, and nothing about which characters it
escapes: a quotation mark inside a string is behind a backslash, so that the text looked for can
only be found where a member begins.
-/

namespace Abora

open Lib Lib.Text

variable {Value : Type}

namespace Log

/-- A text that is written as it is: no quotation mark, no backslash and no control character. -/
def Unescaped (s : String) : Prop := ∀ c ∈ s.toList, c ≠ '"' ∧ c ≠ '\\' ∧ 32 ≤ c.toNat

def isPlainChar (c : Char) : Bool := c != '"' && c != '\\' && decide (32 ≤ c.toNat)

theorem isPlainChar_iff {c : Char} : isPlainChar c = true ↔ c ≠ '"' ∧ c ≠ '\\' ∧ 32 ≤ c.toNat := by
  simp [isPlainChar, and_assoc]

theorem unescaped_of_all {s : String} (h : s.toList.all isPlainChar = true) : Unescaped s :=
  fun c hc => isPlainChar_iff.mp (List.all_eq_true.mp h c hc)

/-- Compact output: the members one behind the other, with their names and all strings escaped. -/
structure SerdeJson.Compact (serde : SerdeJson Value) (escape : String → Chars)
    (text : Value → Chars) : Prop where
  object : ∀ obj, serde.toString obj = some (String.ofList
    (objectText (obj.toList.map fun p => (escape p.1, text p.2))))
  string : ∀ s, text (serde.string s) = quoted (escape s)
  escaped : ∀ s, Escaped '"' (escape s)
  unescaped : ∀ s, Unescaped s → escape s = s.toList

/-- What a record says about itself. A field of one of these names would take its place. -/
def ownMembers : List String := ["timestamp", "level", "component", "message"]

/-- A field with a plain name of its own, whose value is a string or has none in it. Numbers and
truth values are such values; an object with strings in it is not. -/
structure PlainField (serde : SerdeJson Value) (text : Value → Chars) (p : String × Value) :
    Prop where
  own : p.1 ∉ ownMembers
  name : Unescaped p.1
  value : '"' ∉ text p.2 ∨ ∃ s, p.2 = serde.string s

end Log

namespace Iso

open Log

/-- A blank in `IFS`, apart from the newline. -/
def isBlank (c : Char) : Bool := c == ' ' || c == '\t'

/-- What `while read -r l` reads: the lines that end, without the space around them. A last line
without its line break is read, but `read` fails on it, and the loop is over. -/
def readLines (text : Chars) : List Chars :=
  (splitAll '\n' text).dropLast.map fun l => (l.dropWhile isBlank).rdropWhile isBlank

/-- `aborad_log`, one line: the level and the message. A line without `"message":"` is shown as it
is; what was cut from it before that is not used. -/
def levelAndMessage (l : Chars) : Chars × Chars :=
  let message := "\"message\":\"".toList
  let msg := behindFirst message l
  let msg := beforeFirst "\",\"timestamp".toList msg
  let lvl := behindFirst "\"level\":\"".toList l
  let lvl := beforeFirst ['"'] lvl
  if (cutAt message l).isSome then (lvl, msg) else ("info".toList, l)

/-- What is said of a message. Only two levels are marked; a debug message looks like any other. -/
def sayMessage (lvl msg : Chars) : Chars :=
  if lvl = "warn".toList then "[WARN] aborad: ".toList ++ msg
  else if lvl = "error".toList then "[FAIL] aborad: ".toList ++ msg
  else "       aborad: ".toList ++ msg

def aboradLog (text : Chars) : List Chars :=
  (readLines text).map fun l => sayMessage (levelAndMessage l).1 (levelAndMessage l).2

/-- What should be said of a record: its level and its message, the latter as JSON writes it. -/
def saying (escape : String → Chars) (e : Emission Value) : Chars :=
  sayMessage e.record.level.display.toList (escape e.msg)

/-! ## The members of a record -/

theorem sayMessage_inj {lvl msg msg' : Chars} (h : sayMessage lvl msg = sayMessage lvl msg') :
    msg = msg' := by
  unfold sayMessage at h
  split at h
  · exact List.append_cancel_left h
  · split at h
    · exact List.append_cancel_left h
    · exact List.append_cancel_left h

def member (escape : String → Chars) (text : Value → Chars) (p : String × Value) : Member :=
  (escape p.1, text p.2)

/-- The object a record is written as: the fields come later and would overwrite its own members, if
they had their names. -/
def recordObject (serde : SerdeJson Value) (ts : String) (e : Emission Value) : Fields Value :=
  e.record.fields.foldl (fun obj k v => obj.insert k v)
    (metadata serde ts e.record.level e.record.componentOrDefault e.msg)

def own (serde : SerdeJson Value) (ts : String) (e : Emission Value) : List (String × Value) :=
  [("timestamp", serde.string ts), ("level", serde.string e.record.level.display),
    ("component", serde.string e.record.componentOrDefault), ("message", serde.string e.msg)]

section

variable {serde : SerdeJson Value} {escape : String → Chars} {text : Value → Chars}
  {ts : String} {e : Emission Value}

/-- A member of the object is a field of the record, or one of its own. -/
theorem mem_recordObject {p : String × Value} (hp : p ∈ (recordObject serde ts e).toList) :
    p ∈ e.record.fields.toList ∨ p ∈ own serde ts e := by
  obtain ⟨k, v⟩ := p
  have hget := Std.ExtTreeMap.mem_toList_iff_getElem?_eq_some.mp hp
  rw [recordObject, getElem?_foldl_insert] at hget
  cases hfield : e.record.fields[k]? with
  | some w =>
    rw [hfield] at hget
    cases hget
    exact .inl (Std.ExtTreeMap.mem_toList_iff_getElem?_eq_some.mpr hfield)
  | none =>
    rw [hfield, Option.none_or] at hget
    have hcontains : ((own serde ts e).map Prod.fst).contains k = true := by
      by_contra hno
      rw [Bool.not_eq_true] at hno
      have hnone : (metadata serde ts e.record.level e.record.componentOrDefault e.msg)[k]? =
          none := Std.ExtTreeMap.getElem?_ofList_of_contains_eq_false hno
      rw [hnone] at hget
      cases hget
    obtain ⟨⟨k', v'⟩, hmem, hk⟩ := List.mem_map.mp (List.contains_iff_mem.mp hcontains)
    obtain rfl : k' = k := hk
    have hown : (metadata serde ts e.record.level e.record.componentOrDefault e.msg)[k']? =
        some v' :=
      Std.ExtTreeMap.getElem?_ofList_of_mem Std.ReflCmp.compare_self (by simp) hmem
    rw [hown] at hget
    cases hget
    exact .inr hmem

/-- Fields of other names leave a record what it says about itself. -/
theorem own_mem_recordObject (hfields : ∀ p ∈ e.record.fields.toList, p.1 ∉ ownMembers)
    {p : String × Value} (hp : p ∈ own serde ts e) : p ∈ (recordObject serde ts e).toList := by
  obtain ⟨k, v⟩ := p
  have hname : k ∈ ownMembers := List.mem_map_of_mem (f := Prod.fst) hp
  have hnone : e.record.fields[k]? = none := by
    cases hfield : e.record.fields[k]? with
    | none => rfl
    | some w =>
      exact absurd hname (hfields _ (Std.ExtTreeMap.mem_toList_iff_getElem?_eq_some.mpr hfield))
  rw [Std.ExtTreeMap.mem_toList_iff_getElem?_eq_some, recordObject, getElem?_foldl_insert, hnone,
    Option.none_or]
  exact Std.ExtTreeMap.getElem?_ofList_of_mem Std.ReflCmp.compare_self (by simp) hp

/-- The record's own names are plain, so they stand in the text as they are. -/
theorem unescaped_own {k : String} (hk : k ∈ ownMembers) : Unescaped k := by
  simp only [ownMembers, List.mem_cons, List.not_mem_nil, or_false] at hk
  rcases hk with rfl | rfl | rfl | rfl <;> exact unescaped_of_all rfl

theorem field_mem_recordObject {p : String × Value} (hp : p ∈ e.record.fields.toList) :
    p ∈ (recordObject serde ts e).toList := by
  obtain ⟨k, v⟩ := p
  rw [Std.ExtTreeMap.mem_toList_iff_getElem?_eq_some] at hp ⊢
  rw [recordObject, getElem?_foldl_insert, hp, Option.some_or]

/-- An object, cut at a member: the members stand in the order of their names. -/
structure CutAt (obj : Fields Value) (p : String × Value) (pre post : List (String × Value)) :
    Prop where
  members : obj.toList = pre ++ p :: post
  pre_lt : ∀ q ∈ pre, q.1 < p.1
  lt_post : ∀ q ∈ post, p.1 < q.1
  post_sorted : post.Pairwise fun a b => a.1 < b.1

theorem exists_cutAt {obj : Fields Value} {p : String × Value} (hp : p ∈ obj.toList) :
    ∃ pre post, CutAt obj p pre post := by
  obtain ⟨pre, post, hsplit⟩ := List.append_of_mem hp
  have hordered : obj.toList.Pairwise fun a b => a.1 < b.1 :=
    obj.ordered_keys_toList.imp compareOfLessAndEq_eq_lt.mp
  rw [hsplit, List.pairwise_append, List.pairwise_cons] at hordered
  obtain ⟨-, ⟨hpost, hsorted⟩, hpre⟩ := hordered
  exact ⟨pre, post, hsplit, fun q hq => hpre q hq p List.mem_cons_self, hpost, hsorted⟩

/-- A member of a greater name comes behind. This is all that the order of the names is needed
for. -/
theorem CutAt.mem_post {obj : Fields Value} {p q : String × Value}
    {pre post : List (String × Value)} (hcut : CutAt obj p pre post) (hq : q ∈ obj.toList)
    (hlt : p.1 < q.1) : q ∈ post := by
  rw [hcut.members, List.mem_append, List.mem_cons] at hq
  rcases hq with hq | rfl | hq
  · exact absurd (hlt.trans (hcut.pre_lt q hq)) (lt_irrefl _)
  · exact absurd hlt (lt_irrefl _)
  · exact hq

/-- What stands next behind the message: a field that comes between, or the timestamp. -/
theorem next_timestamp_iff {v w : Value} {pre post : List (String × Value)}
    (hcut : CutAt (recordObject serde ts e) ("message", v) pre post)
    (htimestamp : ("timestamp", w) ∈ (recordObject serde ts e).toList) :
    (∃ q ∈ post.head?, "timestamp".toList <+: q.1.toList) ↔
      ∀ p ∈ e.record.fields.toList, ¬ ("message" < p.1 ∧ p.1 < "timestamp") := by
  have hlater : "message" < "timestamp" := by decide
  have hbehind := hcut.mem_post htimestamp hlater
  obtain ⟨q, post, rfl⟩ := List.exists_cons_of_ne_nil (List.ne_nil_of_mem hbehind)
  have hfirst {p : String × Value} (hp : p ∈ q :: post) : q.1 ≤ p.1 := by
    rcases List.mem_cons.mp hp with rfl | hp
    · exact le_rfl
    · exact (List.rel_of_pairwise_cons hcut.post_sorted hp).le
  simp only [List.head?_cons, Option.mem_def, Option.some.injEq, exists_eq_left']
  constructor
  · rintro hstart p hp ⟨hmessage, hbefore⟩
    have hle : ¬ q.1 < "timestamp" := fun hlt => hstart.le (String.lt_iff.mp hlt)
    exact hle ((hfirst (hcut.mem_post (field_mem_recordObject hp) hmessage)).trans_lt hbefore)
  · intro hbetween
    have hmem : q ∈ (recordObject serde ts e).toList := by
      rw [hcut.members]
      simp
    have hlt := hcut.lt_post q List.mem_cons_self
    suffices heq : q.1 = "timestamp" by rw [heq]
    rcases mem_recordObject hmem with hfield | hown
    · exact le_antisymm (hfirst hbehind) (not_lt.mp fun hbefore => hbetween q hfield ⟨hlt, hbefore⟩)
    · have hall : ∀ k ∈ ownMembers, "message" < k → k = "timestamp" := by decide
      exact hall q.1 (List.mem_map_of_mem (f := Prod.fst) hown) hlt

end

section

variable {serde : SerdeJson Value} {escape : String → Chars} {text : Value → Chars}
  {ts : String} {e : Emission Value} (h : serde.Compact escape text)

include h

theorem member_flat {p : String × Value} (hname : Unescaped p.1)
    (hvalue : '"' ∉ text p.2 ∨ ∃ s, p.2 = serde.string s) : (member escape text p).Flat := by
  constructor
  · intro hmem
    rw [member, h.unescaped _ hname] at hmem
    exact (hname _ hmem).1 rfl
  · refine hvalue.imp id ?_
    rintro ⟨s, hs⟩
    refine ⟨escape s, ?_, h.escaped s⟩
    rw [member, hs]
    exact h.string s

/-- No member of such a record can be confused with the beginning of another one. -/
theorem record_flat (he : ∀ p ∈ e.record.fields.toList, PlainField serde text p)
    {p : String × Value} (hp : p ∈ (recordObject serde ts e).toList) :
    (member escape text p).Flat ∧ Unescaped p.1 := by
  rcases mem_recordObject hp with hfield | hown
  · exact ⟨member_flat h (he p hfield).name (he p hfield).value, (he p hfield).name⟩
  · have hname := unescaped_own (List.mem_map_of_mem (f := Prod.fst) hown)
    refine ⟨member_flat h hname (.inr ?_), hname⟩
    simp only [own, List.mem_cons, List.not_mem_nil, or_false] at hown
    rcases hown with rfl | rfl | rfl | rfl <;> exact ⟨_, rfl⟩

/-- Looking for one of a record's own members finds it. -/
theorem cutAt_own (he : ∀ p ∈ e.record.fields.toList, PlainField serde text p) {name s : String}
    (hname : IsName name.toList) (hown : (name, serde.string s) ∈ own serde ts e) :
    ∃ pre post front, CutAt (recordObject serde ts e) (name, serde.string s) pre post ∧
      cutAt (nameMarker name.toList)
          (objectText ((recordObject serde ts e).toList.map (member escape text))) =
        some (front, nameMarker name.toList ++
          (escape s ++ '"' :: membersTail (post.map (member escape text)))) := by
  obtain ⟨pre, post, hcut⟩ := exists_cutAt (own_mem_recordObject (fun p hp => (he p hp).own) hown)
  have hpre : ∀ m ∈ pre.map (member escape text), m.Flat ∧ m.1 ≠ name.toList := by
    intro m hm
    obtain ⟨q, hq, rfl⟩ := List.mem_map.mp hm
    have hmem : q ∈ (recordObject serde ts e).toList := by
      rw [hcut.members]
      exact List.mem_append_left _ hq
    obtain ⟨hflat, hplain⟩ := record_flat h he hmem
    refine ⟨hflat, fun heq => ?_⟩
    rw [member, h.unescaped _ hplain] at heq
    have hlt := hcut.pre_lt q hq
    rw [String.toList_injective heq] at hlt
    exact lt_irrefl _ hlt
  have hkey : escape name = name.toList :=
    h.unescaped name (unescaped_own (List.mem_map_of_mem (f := Prod.fst) hown))
  obtain ⟨front, hfound⟩ := cutAt_member hname hpre (escape s) (post.map (member escape text))
  refine ⟨pre, post, front, hcut, ?_⟩
  rw [hcut.members, List.map_append, List.map_cons, member, hkey, h.string]
  exact hfound

/-- The level is found, and the message is if it ends before the timestamp. Otherwise what is taken
for the message goes on with the field in between. -/
theorem levelAndMessage_record (ts : String)
    (he : ∀ p ∈ e.record.fields.toList, PlainField serde text p) :
    let l := objectText ((recordObject serde ts e).toList.map (member escape text))
    (levelAndMessage l).1 = e.record.level.display.toList ∧
      ((levelAndMessage l).2 = escape e.msg ↔
        ∀ p ∈ e.record.fields.toList, ¬ ("message" < p.1 ∧ p.1 < "timestamp")) := by
  intro l
  have hmessage : "\"message\":\"".toList = nameMarker "message".toList := by decide
  have hlevel : "\"level\":\"".toList = nameMarker "level".toList := by decide
  have hnext : "\",\"timestamp".toList = nextMarker "timestamp".toList := by decide
  have hmsg : ("message", serde.string e.msg) ∈ own serde ts e := by simp [own]
  have hlvl : ("level", serde.string e.record.level.display) ∈ own serde ts e := by simp [own]
  have hts : ("timestamp", serde.string ts) ∈ own serde ts e := by simp [own]
  have htimestamp : IsName "timestamp".toList := isName_of_all rfl rfl
  obtain ⟨pre, post, front, hcut, hfound⟩ := cutAt_own h he (isName_of_all rfl rfl) hmsg
  obtain ⟨-, post', front', -, hfound'⟩ := cutAt_own h he (isName_of_all rfl rfl) hlvl
  have hplain : Unescaped e.record.level.display := by
    cases e.record.level <;> exact unescaped_of_all rfl
  unfold levelAndMessage
  dsimp only
  rw [hmessage, hlevel, hnext, hfound, Option.isSome_some, if_pos rfl, behindFirst_of_cutAt hfound,
    behindFirst_of_cutAt hfound']
  constructor
  · rw [h.unescaped _ hplain]
    have hnone : '"' ∉ e.record.level.display.toList := fun hmem => (hplain _ hmem).1 rfl
    exact (beforeFirst_eq_iff (.of_not_mem hnone)).mpr (List.prefix_append ['"'] _)
  · have hends := membersTail_ends (post.map (member escape text))
    rw [beforeFirst_eq_iff (beginsLater_next htimestamp (h.escaped _) hends),
      next_prefix_iff htimestamp,
      ← next_timestamp_iff hcut (own_mem_recordObject (fun p hp => (he p hp).own) hts),
      List.head?_map]
    -- the next member's name is written as it is
    cases post with
    | nil => simp
    | cons q post =>
      have hmem : q ∈ (recordObject serde ts e).toList := by
        rw [hcut.members]
        simp
      simp [member, h.unescaped _ (record_flat h he hmem).2]

theorem line_eq {body : Chars} (hline : Logger.line serde .json e = some (body ++ ['\n'])) :
    ∃ ts, body = objectText ((recordObject serde ts e).toList.map (member escape text)) := by
  obtain ⟨ts, hts, -⟩ := exists_utcRfc3339Millis e.epoch
  refine ⟨ts, ?_⟩
  have hwrite : writeJson serde ts e.record.level e.record.componentOrDefault e.record.fields
      e.msg = body ++ ['\n'] := by
    unfold Logger.line Logger.writeRecord at hline
    rw [hts] at hline
    exact Option.some.inj hline
  have hobject : serde.toString (recordObject serde ts e) = some (String.ofList
      (objectText ((recordObject serde ts e).toList.map (member escape text)))) := h.object _
  unfold writeJson at hwrite
  dsimp only at hwrite
  rw [← recordObject, hobject, Option.getD_some, String.toList_ofList] at hwrite
  exact (List.append_cancel_right hwrite).symm

theorem saying_iff (he : ∀ p ∈ e.record.fields.toList, PlainField serde text p) {body : Chars}
    (hline : Logger.line serde .json e = some (body ++ ['\n'])) :
    sayMessage (levelAndMessage body).1 (levelAndMessage body).2 = saying escape e ↔
      ∀ p ∈ e.record.fields.toList, ¬ ("message" < p.1 ∧ p.1 < "timestamp") := by
  obtain ⟨ts, rfl⟩ := line_eq h hline
  obtain ⟨hlevel, hmessage⟩ := levelAndMessage_record h ts he
  rw [saying, hlevel, ← hmessage]
  exact ⟨sayMessage_inj, congrArg _⟩

theorem objects_of_lines {es : List (Emission Value)} {bodies : List Chars}
    (hlines : List.Forall₂ (fun e body => Logger.line serde .json e = some (body ++ ['\n']))
      es bodies) : ∀ body ∈ bodies, ∃ ms, body = objectText ms := by
  induction hlines with
  | nil => exact fun body hb => (by cases hb)
  | cons hline _ ih =>
    obtain ⟨ts, hbody⟩ := line_eq h hline
    exact List.forall_mem_cons.mpr ⟨⟨_, hbody⟩, ih⟩

/-- All the records of a run, one line for each. -/
theorem sayings_iff {es : List (Emission Value)} {bodies : List Chars}
    (hplain : ∀ e ∈ es, ∀ p ∈ e.record.fields.toList, PlainField serde text p)
    (hlines : List.Forall₂ (fun e body => Logger.line serde .json e = some (body ++ ['\n']))
      es bodies) :
    bodies.map (fun l => sayMessage (levelAndMessage l).1 (levelAndMessage l).2) =
        es.map (saying escape) ↔
      ∀ e ∈ es, ∀ p ∈ e.record.fields.toList, ¬ ("message" < p.1 ∧ p.1 < "timestamp") := by
  induction hlines with
  | nil => simp
  | cons hline _ ih =>
    obtain ⟨he, hes⟩ := List.forall_mem_cons.mp hplain
    rw [List.map_cons, List.map_cons, List.cons.injEq, List.forall_mem_cons, ih hes,
      saying_iff h he hline]

end

theorem readLines_unlines {bodies : List Chars}
    (hbodies : ∀ body ∈ bodies, (∃ ms, body = objectText ms) ∧ '\n' ∉ body) :
    readLines (unlines bodies) = bodies := by
  unfold readLines
  rw [splitAll_unlines_iff.mpr fun body hb => (hbodies body hb).2, List.dropLast_concat]
  conv_rhs => rw [← List.map_id bodies]
  refine List.map_congr_left fun body hb => ?_
  obtain ⟨⟨ms, rfl⟩, -⟩ := hbodies body hb
  have hfront : (objectText ms).dropWhile isBlank = objectText ms :=
    List.dropWhile_cons_of_neg (by decide)
  rw [hfront]
  exact List.rdropWhile_concat_neg isBlank (_ :: _) _ (by decide)

/-- **The boot screen shows the daemon's log**, one line for each record and nothing but its level
and its message, exactly when no record that is written has a field between the two. -/
theorem boot_log_exact {serde : SerdeJson Value} {escape : String → Chars} {text : Value → Chars}
    (hlawful : serde.Lawful) (h : serde.Compact escape text) (level : Log.Level)
    (events : List (Log.Event Value))
    (hplain : ∀ e ∈ emitted level.asRank events,
      ∀ p ∈ e.record.fields.toList, PlainField serde text p) :
    ∃ logger, (Logger.build level .json).run serde events = some logger ∧
      (aboradLog logger.written = (emitted level.asRank events).map (saying escape) ↔
        ∀ e ∈ emitted level.asRank events, ∀ p ∈ e.record.fields.toList,
          ¬ ("message" < p.1 ∧ p.1 < "timestamp")) := by
  obtain ⟨logger, bodies, hrun, hwritten, hlines⟩ :=
    exists_run hlawful events (Logger.build level .json)
  have hwritten : logger.written = unlines bodies := hwritten
  have hlines : List.Forall₂ (fun e body => Logger.line serde .json e = some (body ++ ['\n']))
    (emitted level.asRank events) bodies := hlines
  refine ⟨logger, hrun, ?_⟩
  have hsingle := (forall_bodies_iff hlawful hlines).mpr fun _ _ => .inl rfl
  have hobjects := objects_of_lines h hlines
  unfold aboradLog
  rw [hwritten, readLines_unlines fun body hb => ⟨hobjects body hb, hsingle body hb⟩]
  exact sayings_iff h hplain hlines

/-! ## A panic -/

/-- What is in an object after an insertion is the new member or was there before. -/
theorem eq_or_mem_of_mem_insert {obj : Fields Value} {k : String} {v : Value} {p : String × Value}
    (hp : p ∈ (obj.insert k v).toList) : p = (k, v) ∨ p ∈ obj.toList := by
  obtain ⟨k', v'⟩ := p
  rw [Std.ExtTreeMap.mem_toList_iff_getElem?_eq_some, Std.ExtTreeMap.getElem?_insert] at hp
  split at hp
  · next heq =>
    obtain rfl := Std.LawfulEqCmp.eq_of_compare heq
    cases hp
    exact .inl rfl
  · exact .inr (Std.ExtTreeMap.mem_toList_iff_getElem?_eq_some.mpr hp)

theorem mem_insert_self (obj : Fields Value) (k : String) (v : Value) :
    (k, v) ∈ (obj.insert k v).toList := by
  rw [Std.ExtTreeMap.mem_toList_iff_getElem?_eq_some, Std.ExtTreeMap.getElem?_insert_self]

theorem mem_insert_of_ne {obj : Fields Value} {k : String} {v : Value} {p : String × Value}
    (hp : p ∈ obj.toList) (hne : k ≠ p.1) : p ∈ (obj.insert k v).toList := by
  obtain ⟨k', v'⟩ := p
  rw [Std.ExtTreeMap.mem_toList_iff_getElem?_eq_some] at hp ⊢
  rw [Std.ExtTreeMap.getElem?_insert,
    if_neg fun heq => hne (Std.LawfulEqCmp.eq_of_compare heq), hp]

section

variable {serde : SerdeJson Value} {escape : String → Chars} {text : Value → Chars}
  {epoch : Duration} {thread : String} {location : Value} {backtrace : Option String}
  {payload : String}

/-- The fields of a panic: its thread, its location and, where one is taken, a backtrace. -/
theorem mem_panicRecord {p : String × Value}
    (hp : p ∈ (panicRecord serde epoch thread location backtrace payload).record.fields.toList) :
    p = ("thread", serde.string thread) ∨ p = ("location", location) ∨
      ∃ b, p = ("backtrace", serde.string b) := by
  have hfirst {p : String × Value}
      (hp : p ∈ (((∅ : Fields Value).insert "thread" (serde.string thread)).insert "location"
        location).toList) : p = ("thread", serde.string thread) ∨ p = ("location", location) := by
    rcases eq_or_mem_of_mem_insert hp with h | hp
    · exact .inr h
    · rcases eq_or_mem_of_mem_insert hp with h | hp
      · exact .inl h
      · cases hp
  cases backtrace with
  | none => exact (hfirst hp).imp_right .inl
  | some b =>
    rcases eq_or_mem_of_mem_insert hp with h | hp
    · exact .inr (.inr ⟨b, h⟩)
    · exact (hfirst hp).imp_right .inl

theorem thread_mem_panicRecord : ("thread", serde.string thread) ∈
    (panicRecord serde epoch thread location backtrace payload).record.fields.toList := by
  have hfirst : ("thread", serde.string thread) ∈ (((∅ : Fields Value).insert "thread"
      (serde.string thread)).insert "location" location).toList :=
    mem_insert_of_ne (mem_insert_self _ _ _) (by decide : "location" ≠ "thread")
  cases backtrace with
  | none => exact hfirst
  | some b => exact mem_insert_of_ne hfirst (by decide : "backtrace" ≠ "thread")

theorem plainField_of_all {v : Value} (k : String) (hown : k ∉ ownMembers)
    (hname : k.toList.all isPlainChar = true)
    (hvalue : '"' ∉ text v ∨ ∃ s, v = serde.string s) : PlainField serde text (k, v) :=
  ⟨hown, unescaped_of_all hname, hvalue⟩

/-- **No panic is shown as it was logged**: its thread stands between its message and its time. -/
theorem panic_not_shown (h : serde.Compact escape text)
    (hlocation : '"' ∉ text location ∨ ∃ s, location = serde.string s) {body : Chars}
    (hline : Logger.line serde .json (panicRecord serde epoch thread location backtrace payload) =
      some (body ++ ['\n'])) :
    sayMessage (levelAndMessage body).1 (levelAndMessage body).2 ≠
      saying escape (panicRecord serde epoch thread location backtrace payload) := by
  have hplain : ∀ p ∈ (panicRecord serde epoch thread location backtrace
      payload).record.fields.toList, PlainField serde text p := by
    intro p hp
    rcases mem_panicRecord hp with rfl | rfl | ⟨b, rfl⟩
    · exact plainField_of_all "thread" (by decide) rfl (.inr ⟨_, rfl⟩)
    · exact plainField_of_all "location" (by decide) rfl hlocation
    · exact plainField_of_all "backtrace" (by decide) rfl (.inr ⟨b, rfl⟩)
  have hbetween : "message" < "thread" ∧ "thread" < "timestamp" := by decide
  exact fun hsaid => (saying_iff h hplain hline).mp hsaid _ thread_mem_panicRecord hbetween

end

/-! ## Objects of strings -/

/-- What is to be escaped is written as a number in unary, behind a backslash. -/
def plainEscape (s : String) : Chars :=
  if s.toList.all isPlainChar then s.toList
  else '\\' :: List.replicate (Encodable.encode s) 'u'

def plainUnescape : Chars → Option String
  | '\\' :: body => Encodable.decode body.length
  | body => some (String.ofList body)

def plainMember : String × String → Member := member plainEscape fun v => quoted (plainEscape v)

/-- Reading the members back: between the quotation marks stand, in turn, punctuation, a name,
punctuation and a value. -/
def readPairs : List Chars → Option (List (String × String))
  | _ :: k :: _ :: v :: rest => do
    return (← plainUnescape k, ← plainUnescape v) :: (← readPairs rest)
  | _ => some []

/-- A serializer for objects of strings that writes them compactly. It shows that what is asked of
the JSON library can be had. -/
def plainSerde : SerdeJson String where
  string := id
  display v := String.ofList (quoted (plainEscape v))
  toString obj := some (String.ofList (objectText (obj.toList.map plainMember)))
  fromStr t := (readPairs (splitAll '"' t.toList)).map fun l => .ofList l

theorem plainUnescape_plainEscape (s : String) : plainUnescape (plainEscape s) = some s := by
  unfold plainEscape
  split
  · next h =>
    have hslash : ∀ body, s.toList ≠ '\\' :: body := by
      intro body heq
      rw [heq, List.all_cons, Bool.and_eq_true] at h
      exact (isPlainChar_iff.mp h.1).2.1 rfl
    unfold plainUnescape
    split
    · next body heq => exact absurd heq (hslash body)
    · rw [String.ofList_toList]
  · rw [plainUnescape, List.length_replicate, Encodable.encodek]

theorem quote_not_mem_plainEscape (s : String) : '"' ∉ plainEscape s := by
  unfold plainEscape
  split
  · next h => exact fun hmem => (isPlainChar_iff.mp (List.all_eq_true.mp h _ hmem)).1 rfl
  · intro hmem
    rcases List.mem_cons.mp hmem with heq | hmem
    · exact absurd heq (by decide)
    · exact absurd (List.eq_of_mem_replicate hmem) (by decide)

theorem plainEscape_printable (s : String) : ∀ c ∈ plainEscape s, 32 ≤ c.toNat := by
  unfold plainEscape
  split
  · next h => exact fun c hc => (isPlainChar_iff.mp (List.all_eq_true.mp h c hc)).2.2
  · intro c hc
    rcases List.mem_cons.mp hc with rfl | hc
    · decide
    · rw [List.eq_of_mem_replicate hc]
      decide

theorem readPairs_member {c : Char} (hc : c ≠ '"') (p : String × String) (rest : Chars) :
    readPairs (splitAll '"' (c :: ((plainMember p).text ++ rest))) =
      (readPairs (splitAll '"' rest)).map (p :: ·) := by
  have htext : c :: ((plainMember p).text ++ rest) = [c] ++ '"' :: (plainEscape p.1 ++
      '"' :: ([':'] ++ '"' :: (plainEscape p.2 ++ '"' :: rest))) := by
    simp [plainMember, member, Member.text, quoted]
  have hfront : '"' ∉ [c] := fun hmem => hc (List.mem_singleton.mp hmem).symm
  have hcolon : '"' ∉ [':'] := by decide
  rw [htext, splitAll_append, splitAll_append, splitAll_append, splitAll_append,
    splitAll_of_not_mem hfront, splitAll_of_not_mem hcolon,
    splitAll_of_not_mem (quote_not_mem_plainEscape _),
    splitAll_of_not_mem (quote_not_mem_plainEscape _)]
  simp only [List.cons_append, List.nil_append, readPairs, plainUnescape_plainEscape]
  cases readPairs (splitAll '"' rest) <;> rfl

theorem readPairs_tail (ps : List (String × String)) :
    readPairs (splitAll '"' (membersTail (ps.map plainMember))) = some ps := by
  induction ps with
  | nil => rfl
  | cons p ps ih =>
    have htail : membersTail ((p :: ps).map plainMember) =
        ',' :: ((plainMember p).text ++ membersTail (ps.map plainMember)) := by
      simp [membersTail]
    rw [htail, readPairs_member (by decide), ih]
    rfl

theorem objectText_cons (m : Member) (ms : List Member) :
    objectText (m :: ms) = '\x7b' :: (m.text ++ membersTail ms) := by
  have hjoin := joinAll_text [] m ms
  rw [List.nil_append, List.flatMap_nil, List.nil_append] at hjoin
  rw [objectText, hjoin]
  simp [membersTail]

theorem readPairs_object (ps : List (String × String)) :
    readPairs (splitAll '"' (objectText (ps.map plainMember))) = some ps := by
  cases ps with
  | nil => rfl
  | cons p ps =>
    rw [List.map_cons, objectText_cons, readPairs_member (by decide), readPairs_tail]
    rfl

theorem printable_quoted (s : String) : ∀ c ∈ quoted (plainEscape s), 32 ≤ c.toNat := by
  intro c hc
  have hcases : c = '"' ∨ c ∈ plainEscape s := by simpa [quoted, or_comm, or_assoc] using hc
  rcases hcases with rfl | hc
  · decide
  · exact plainEscape_printable s c hc

theorem printable_objectText (ps : List (String × String)) :
    ∀ c ∈ objectText (ps.map plainMember), 32 ≤ c.toNat := by
  have hmember (p : String × String) : ∀ c ∈ (plainMember p).text, 32 ≤ c.toNat := by
    intro c hc
    rcases List.mem_append.mp hc with hc | hc
    · exact printable_quoted p.1 c hc
    · rcases List.mem_cons.mp hc with rfl | hc
      · decide
      · exact printable_quoted p.2 c hc
  intro c hc
  cases ps with
  | nil =>
    have hcases : c = '\x7b' ∨ c = '\x7d' := by simpa [objectText, joinAll] using hc
    rcases hcases with rfl | rfl <;> decide
  | cons p ps =>
    rw [List.map_cons, objectText_cons, List.mem_cons, List.mem_append, membersTail,
      List.mem_append, List.mem_flatMap, List.mem_singleton] at hc
    rcases hc with rfl | hc | ⟨m, hm, hc⟩ | rfl
    · decide
    · exact hmember p c hc
    · obtain ⟨q, -, rfl⟩ := List.mem_map.mp hm
      rcases List.mem_cons.mp hc with rfl | hc
      · decide
      · exact hmember q c hc
    · decide

theorem plainSerde_lawful : plainSerde.Lawful where
  display_escapes v c hc := by
    rw [plainSerde, String.toList_ofList] at hc
    exact printable_quoted v c hc
  toString_escapes obj t ht c hc := by
    obtain rfl := Option.some.inj ht
    rw [String.toList_ofList] at hc
    exact printable_objectText _ c hc
  reads_back obj := by
    refine ⟨_, rfl, ?_⟩
    unfold plainSerde
    dsimp only
    rw [String.toList_ofList, readPairs_object, Option.map_some, ofList_toList]
  string_inj := Function.injective_id

theorem escaped_of_not_mem {before : Char} {body : Chars} (h : '"' ∉ body) :
    Escaped before body := by
  induction body generalizing before with
  | nil => trivial
  | cons c body ih =>
    rw [List.mem_cons, not_or] at h
    exact ⟨fun hc => absurd hc.symm h.1, ih h.2⟩

theorem plainSerde_compact :
    plainSerde.Compact plainEscape fun v => quoted (plainEscape v) where
  object _ := rfl
  string _ := rfl
  escaped s := escaped_of_not_mem (quote_not_mem_plainEscape s)
  unescaped _ hs := if_pos (List.all_eq_true.mpr fun c hc => isPlainChar_iff.mpr (hs c hc))

/-- A record that the daemon writes when it is up, with a field whose name comes before the
message. -/
def listening : Emission String where
  epoch := Duration.fromSecs 1700000000
  record := (RecordBuilder.new .info).field "event" (some "started")
  msg := "listening on 127.0.0.1:7360"

def checkFailed : Emission String where
  epoch := Duration.fromSecs 1700000000
  record := .new .warn
  msg := "update check failed"

/-- Two records of the daemon, from the logger to the screen. -/
theorem boot_log_exact_two : ∃ logger,
    (Logger.build .info .json).run plainSerde [.emit listening, .emit checkFailed] = some logger ∧
      aboradLog logger.written =
        ["       aborad: listening on 127.0.0.1:7360".toList,
          "[WARN] aborad: update check failed".toList] := by
  have hfields : ∀ e ∈ emitted Log.Level.info.asRank [.emit listening, .emit checkFailed],
      ∀ p ∈ e.record.fields.toList, p = ("event", "started") := by
    intro e he p hp
    have htwo : e ∈ [listening, checkFailed] := he
    simp only [List.mem_cons, List.not_mem_nil, or_false] at htwo
    rcases htwo with rfl | rfl
    · rcases eq_or_mem_of_mem_insert hp with h | hp
      · exact h
      · cases hp
    · cases hp
  obtain ⟨logger, hrun, hiff⟩ := boot_log_exact plainSerde_lawful plainSerde_compact .info
    [.emit listening, .emit checkFailed] fun e he p hp => by
      rw [hfields e he p hp]
      exact plainField_of_all "event" (by decide) rfl (.inr ⟨_, rfl⟩)
  refine ⟨logger, hrun, (hiff.mpr fun e he p hp => ?_).trans ?_⟩
  · rw [hfields e he p hp]
    have hbefore : ¬ ("message" < "event" ∧ "event" < "timestamp") := by decide
    exact hbefore
  · decide

end Iso

end Abora
