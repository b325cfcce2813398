import Abora.Log.Logger

/-!
# What a JSON record keeps

A record's own members and its fields are members of one object, and a field goes before them. So a
field that is called `timestamp`, `level`, `component` or `message` replaces what the record says
about itself (`json_record_keeps_iff`), which is what readers of a log select by.

The object is read back from its line and compared member by member (`Keeps`). The fields are always
there, as they are put in last; a member of the record's own is there unless a field has its name
and another value, and the four of them are all there is to compare.
-/

namespace Abora.Log

variable {Value : Type}

/-- What a reader makes of a line of the log. -/
def decodeLine (serde : SerdeJson Value) (line : Lib.Text.Chars) : Option (Fields Value) :=
  serde.fromStr (String.ofList line.dropLast)

/-- An object says what the record says: its four members and all its fields. -/
structure Keeps (serde : SerdeJson Value) (ts : String) (level : Level) (component : String)
    (fields : Fields Value) (msg : String) (obj : Fields Value) : Prop where
  timestamp : obj["timestamp"]? = some (serde.string ts)
  level : obj["level"]? = some (serde.string level.display)
  component : obj["component"]? = some (serde.string component)
  message : obj["message"]? = some (serde.string msg)
  fields : ∀ (k : String) (v : Value), fields[k]? = some v → obj[k]? = some v

/-- No field says otherwise than the record about the record's own members. One that says the same
does no harm. -/
structure Agrees (serde : SerdeJson Value) (ts : String) (level : Level) (component : String)
    (fields : Fields Value) (msg : String) : Prop where
  timestamp : ∀ v ∈ fields["timestamp"]?, v = serde.string ts
  level : ∀ v ∈ fields["level"]?, v = serde.string level.display
  component : ∀ v ∈ fields["component"]?, v = serde.string component
  message : ∀ v ∈ fields["message"]?, v = serde.string msg

/-- The object of a record reads back from its line. -/
theorem decodeLine_writeJson {serde : SerdeJson Value} (h : serde.Lawful) (ts : String)
    (level : Level) (component : String) (fields : Fields Value) (msg : String) :
    decodeLine serde (writeJson serde ts level component fields msg) = some
      (fields.foldl (fun obj k v => obj.insert k v) (metadata serde ts level component msg)) := by
  obtain ⟨text, htext, hread⟩ := h.reads_back
    (fields.foldl (fun obj k v => obj.insert k v) (metadata serde ts level component msg))
  unfold decodeLine writeJson
  dsimp only
  rw [htext, List.dropLast_concat, Option.getD_some, String.ofList_toList, hread]

/-- A member of the record survives unless a field of that name says otherwise. -/
theorem survives_iff {field own : Option Value} {v : Value} (h : own = some v) :
    field.or own = some v ↔ ∀ w ∈ field, w = v := by
  subst h
  cases field with
  | none => simp
  | some w => simp

/-- **A JSON record keeps what was logged** exactly when no field says otherwise than the record
about its timestamp, level, component or message. -/
theorem json_record_keeps_iff {serde : SerdeJson Value} (h : serde.Lawful) (ts : String)
    (level : Level) (component : String) (fields : Fields Value) (msg : String) :
    (∃ obj, decodeLine serde (writeJson serde ts level component fields msg) = some obj ∧
      Keeps serde ts level component fields msg obj) ↔
      Agrees serde ts level component fields msg := by
  -- a member of its own survives exactly when no field is inserted over it with another value
  have hown {k : String} {v : Value} (hmem : (k, v) ∈ [("timestamp", serde.string ts),
      ("level", serde.string level.display), ("component", serde.string component),
      ("message", serde.string msg)]) : (metadata serde ts level component msg)[k]? = some v :=
    Std.ExtTreeMap.getElem?_ofList_of_mem Std.ReflCmp.compare_self (by simp) hmem
  have htimestamp := hown (k := "timestamp") (v := serde.string ts) (by simp)
  have hlevel := hown (k := "level") (v := serde.string level.display) (by simp)
  have hcomponent := hown (k := "component") (v := serde.string component) (by simp)
  have hmessage := hown (k := "message") (v := serde.string msg) (by simp)
  rw [decodeLine_writeJson h]
  constructor
  · rintro ⟨_, ⟨⟩, hkeeps⟩
    constructor
    · rw [← survives_iff htimestamp, ← getElem?_foldl_insert]
      exact hkeeps.timestamp
    · rw [← survives_iff hlevel, ← getElem?_foldl_insert]
      exact hkeeps.level
    · rw [← survives_iff hcomponent, ← getElem?_foldl_insert]
      exact hkeeps.component
    · rw [← survives_iff hmessage, ← getElem?_foldl_insert]
      exact hkeeps.message
  · intro hagrees
    refine ⟨_, rfl, ?_⟩
    constructor
    · rw [getElem?_foldl_insert, survives_iff htimestamp]
      exact hagrees.timestamp
    · rw [getElem?_foldl_insert, survives_iff hlevel]
      exact hagrees.level
    · rw [getElem?_foldl_insert, survives_iff hcomponent]
      exact hagrees.component
    · rw [getElem?_foldl_insert, survives_iff hmessage]
      exact hagrees.message
    · intro k v hk
      rw [getElem?_foldl_insert, hk, Option.some_or]

/-- What a service says when it has started. -/
def startedFields : Fields String := .ofList [("event", "started")]

def startedText : String :=
  "\x7b\"component\":\"aborad\",\"event\":\"started\",\"level\":\"info\"," ++
    "\"message\":\"listening\",\"timestamp\":\"2026-09-16T22:00:00.123Z\"\x7d"

def startedSerde : SerdeJson String :=
  .pinned (.ofList [("component", "aborad"), ("event", "started"), ("level", "info"),
    ("message", "listening"), ("timestamp", "2026-09-16T22:00:00.123Z")]) startedText

theorem startedSerde_lawful : startedSerde.Lawful := by
  have hall : startedText.toList.all (32 ≤ ·.toNat) = true ∧ '\x7b' ∈ startedText.toList := by
    unfold startedText
    rw [String.toList_append, String.toList_ofList, String.toList_ofList]
    exact ⟨rfl, List.mem_cons_self⟩
  exact SerdeJson.pinned_lawful hall.2 hall.1

example : writeJson startedSerde "2026-09-16T22:00:00.123Z" .info "aborad" startedFields
    "listening" = startedText.toList ++ ['\n'] :=
  congrArg (fun text => (Option.getD (some text) "\x7b\x7d").toList ++ ['\n'])
    (if_pos (by decide))

theorem json_record_keeps_iff_started :
    ∃ obj, decodeLine startedSerde (writeJson startedSerde "2026-09-16T22:00:00.123Z" .info
      "aborad" startedFields "listening") = some obj ∧
      Keeps startedSerde "2026-09-16T22:00:00.123Z" .info "aborad" startedFields "listening" obj :=
  (json_record_keeps_iff startedSerde_lawful "2026-09-16T22:00:00.123Z" .info "aborad"
    startedFields "listening").mpr
    ⟨by decide, by decide, by decide, by decide⟩

/-- A field called `component`. -/
theorem component_field_replaces : ¬ ∃ obj, decodeLine startedSerde (writeJson startedSerde
      "2026-09-16T22:00:00.123Z" .info "update::provider" (.ofList [("component", "aborad"),
        ("event", "started")]) "listening") = some obj ∧
      Keeps startedSerde "2026-09-16T22:00:00.123Z" .info "update::provider"
        (.ofList [("component", "aborad"), ("event", "started")]) "listening" obj := by
  rintro ⟨obj, hobj, hkeeps⟩
  rw [decodeLine_writeJson startedSerde_lawful] at hobj
  obtain rfl := Option.some.inj hobj
  have hcomponent := hkeeps.component
  rw [getElem?_foldl_insert] at hcomponent
  revert hcomponent
  decide

end Abora.Log
