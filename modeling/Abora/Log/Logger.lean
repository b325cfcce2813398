import Abora.Lib.Codec
import Abora.Log.Timestamp

/-!
# The logger (`abora-log/src/lib.rs`)

A record has a level, a component, fields and a message, and is written as one JSON object or as
readable text. The threshold may change while the logger is in use. Its sink takes every byte: what
becomes of a log that cannot be written is not part of this.

`SerdeJson` is what the logger needs of `serde_json`; `SerdeJson.Lawful` is what is relied on.
Values are left abstract: a field is whatever its value serializes to, and all that matters of that
is that it is printed without control characters and reads back. `SerdeJson.pinned` is one that is
lawful and writes a given object as a given text, so that a record can be compared with the line it
really is.

The panic hook logs through the same record (`panicRecord`); a payload of several lines is therefore
several lines of a text log.
-/

namespace Abora.Log

open Lib.Text

inductive Level where
  | off
  | error
  | warn
  | info
  | debug
  | trace
  deriving DecidableEq, Repr

namespace Level

/-- `Display`; also how a level is serialized. -/
def display : Level → String
  | .off => "off"
  | .error => "error"
  | .warn => "warn"
  | .info => "info"
  | .debug => "debug"
  | .trace => "trace"

/-- `as_rank`. A record passes if its rank is not above the threshold's. -/
def asRank : Level → Nat
  | .off => 0
  | .error => 1
  | .warn => 2
  | .info => 3
  | .debug => 4
  | .trace => 5

end Level

inductive Format where
  | json
  | text
  deriving DecidableEq, Repr

/-- Members by name, in the order of the names: a `BTreeMap`, and a JSON object. -/
abbrev Fields (Value : Type) := Std.ExtTreeMap String Value

variable {Value : Type}

/-- Members put into an object one after the other go before those it had. -/
theorem getElem?_foldl_insert (obj fields : Fields Value) (k : String) :
    (fields.foldl (fun obj k v => obj.insert k v) obj)[k]? = fields[k]?.or obj[k]? := by
  rw [Std.ExtTreeMap.foldl_eq_foldl_toList, ← Std.ExtTreeMap.insertMany_list_eq_foldl]
  cases hk : fields[k]? with
  | some v =>
    have hmem := Std.ExtTreeMap.mem_toList_iff_getElem?_eq_some.mpr hk
    exact Std.ExtTreeMap.getElem?_insertMany_list_of_mem Std.ReflCmp.compare_self
      Std.ExtTreeMap.distinct_keys_toList hmem
  | none =>
    have hkey : (fields.toList.map Prod.fst).contains k = false := by
      have hmem : k ∉ fields := by
        rw [Std.ExtTreeMap.mem_iff_isSome_getElem?, hk]
        simp
      simpa [Std.ExtTreeMap.map_fst_toList_eq_keys] using hmem
    exact Std.ExtTreeMap.getElem?_insertMany_list_of_contains_eq_false hkey

theorem ofList_toList (fields : Fields Value) : Std.ExtTreeMap.ofList fields.toList = fields := by
  apply Std.ExtTreeMap.ext_getElem?
  intro k
  have h := getElem?_foldl_insert ∅ fields k
  rw [Std.ExtTreeMap.foldl_eq_foldl_toList, ← Std.ExtTreeMap.insertMany_list_eq_foldl,
    Std.ExtTreeMap.getElem?_empty, Option.or_none] at h
  rw [Std.ExtTreeMap.ofList_eq_insertMany_empty, h]

/-- What the logger needs of `serde_json`, and what reads its output. -/
structure SerdeJson (Value : Type) where
  string : String → Value
  /-- `Display` of a value. -/
  display : Value → String
  /-- `to_string` of an object. -/
  toString : Fields Value → Option String
  /-- A reader of objects. -/
  fromStr : String → Option (Fields Value)

/-- Compact output has control characters in strings escaped and none outside; every object can be
written and reads back; two strings are two values. -/
structure SerdeJson.Lawful {Value : Type} (serde : SerdeJson Value) : Prop where
  display_escapes : ∀ v, ∀ c ∈ (serde.display v).toList, 32 ≤ c.toNat
  toString_escapes : ∀ obj text, serde.toString obj = some text → ∀ c ∈ text.toList, 32 ≤ c.toNat
  reads_back : ∀ obj, ∃ text, serde.toString obj = some text ∧ serde.fromStr text = some obj
  string_inj : Function.Injective serde.string

/-- For values that are strings with nothing to escape. It writes `obj` as `text`, and any other
object as a number in unary. -/
def SerdeJson.pinned (obj : Fields String) (text : String) : SerdeJson String where
  string := id
  display v := String.ofList ('"' :: v.toList.filter (32 ≤ ·.toNat) ++ ['"'])
  toString o := some <|
    if o = obj then text else String.ofList (List.replicate (Encodable.encode o.toList) ' ')
  fromStr t := if t = text then some obj
    else (Encodable.decode (α := List (String × String)) t.length).map fun l => .ofList l

theorem SerdeJson.pinned_lawful {obj : Fields String} {text : String}
    (hbrace : '\x7b' ∈ text.toList)
    (hescapes : text.toList.all (32 ≤ ·.toNat) = true) : (SerdeJson.pinned obj text).Lawful where
  display_escapes v c hc := by
    have hc : c ∈ '"' :: v.toList.filter (32 ≤ ·.toNat) ++ ['"'] := by
      simpa only [SerdeJson.pinned, String.toList_ofList] using hc
    simp only [List.cons_append, List.mem_cons, List.mem_append, List.mem_filter,
      decide_eq_true_eq, List.not_mem_nil, or_false] at hc
    rcases hc with rfl | ⟨-, hc⟩ | rfl
    · decide
    · exact hc
    · decide
  toString_escapes o t ht c hc := by
    obtain rfl := Option.some.inj ht
    split at hc
    · exact of_decide_eq_true (List.all_eq_true.mp hescapes c hc)
    · rw [String.toList_ofList] at hc
      rw [List.eq_of_mem_replicate hc]
      decide
  reads_back o := by
    refine ⟨_, rfl, ?_⟩
    unfold SerdeJson.pinned
    by_cases ho : o = obj
    · simp [ho]
    · have hne : String.ofList (List.replicate (Encodable.encode o.toList) ' ') ≠ text := by
        rintro rfl
        rw [String.toList_ofList] at hbrace
        cases List.eq_of_mem_replicate hbrace
      simp [ho, hne, ofList_toList]
  string_inj := Function.injective_id

/-- The object of a record before its fields: the `json!` of `write_json`. -/
def metadata (serde : SerdeJson Value) (ts : String) (level : Level) (component msg : String) :
    Fields Value :=
  Std.ExtTreeMap.ofList [
    ("timestamp", serde.string ts),
    ("level", serde.string level.display),
    ("component", serde.string component),
    ("message", serde.string msg)]

/-- `write_json`: what is written. The fields are put into the object last. -/
def writeJson (serde : SerdeJson Value) (ts : String) (level : Level) (component : String)
    (fields : Fields Value) (msg : String) : Chars :=
  let obj := fields.foldl (fun obj k v => obj.insert k v) (metadata serde ts level component msg)
  ((serde.toString obj).getD "\x7b\x7d").toList ++ ['\n']

/-- `write_text`. The width in `{level:<5}` has no effect: `Display` of a level writes its name and
does not pad it. -/
def writeText (serde : SerdeJson Value) (ts : String) (level : Level) (component : String)
    (fields : Fields Value) (msg : String) : Chars :=
  let line := ts.toList ++ ' ' :: level.display.toList ++ " [".toList ++ component.toList ++
    "] ".toList ++ msg.toList
  let line := fields.foldl
    (fun line k v => line ++ ' ' :: k.toList ++ '=' :: (serde.display v).toList) line
  line ++ ['\n']

structure RecordBuilder (Value : Type) where
  level : Level
  component : Option String
  fields : Fields Value

namespace RecordBuilder

def new (level : Level) : RecordBuilder Value := ⟨level, none, ∅⟩

def setComponent (r : RecordBuilder Value) (component : String) : RecordBuilder Value :=
  { r with component := some component }

/-- `field`; a value that does not serialize is left out. -/
def field (r : RecordBuilder Value) (key : String) (value : Option Value) : RecordBuilder Value :=
  match value with
  | some v => { r with fields := r.fields.insert key v }
  | none => r

def componentOrDefault (r : RecordBuilder Value) : String := r.component.getD "framework"

end RecordBuilder

/-- A logger with what it has written so far. -/
structure Logger where
  /-- The rank of a level. -/
  threshold : Nat
  format : Format
  written : Chars

/-- A record to be emitted: the clock, the builder and the message. -/
structure Emission (Value : Type) where
  epoch : Duration
  record : RecordBuilder Value
  msg : String

namespace Logger

/-- `LoggerBuilder::build`. -/
def build (level : Level) (format : Format) : Logger := ⟨level.asRank, format, []⟩

def setLevel (logger : Logger) (level : Level) : Logger := { logger with threshold := level.asRank }

/-- `enabled`. A logger that is off writes nothing, and a record of the level `off` is never
written. -/
def enabled (threshold : Nat) (level : Level) : Bool :=
  threshold != Level.off.asRank && level != .off && level.asRank ≤ threshold

/-- `write_record`: what is written; `none` is a panic. -/
def writeRecord (serde : SerdeJson Value) (format : Format) (epoch : Duration) (level : Level)
    (component : String) (fields : Fields Value) (msg : String) : Option Chars := do
  let ts ← utcRfc3339Millis epoch
  match format with
  | .json => some (writeJson serde ts level component fields msg)
  | .text => some (writeText serde ts level component fields msg)

def line (serde : SerdeJson Value) (format : Format) (e : Emission Value) : Option Chars :=
  writeRecord serde format e.epoch e.record.level e.record.componentOrDefault e.record.fields e.msg

/-- `emit`: below the threshold it does nothing, not even look at the clock. -/
def emit (serde : SerdeJson Value) (logger : Logger) (e : Emission Value) : Option Logger :=
  if !enabled logger.threshold e.record.level then some logger
  else (line serde logger.format e).map fun l => { logger with written := logger.written ++ l }

end Logger

/-- `install_panic_hook`: the record of a panic, with what a location or none serializes to. -/
def panicRecord (serde : SerdeJson Value) (epoch : Duration) (thread : String) (location : Value)
    (backtrace : Option String) (payload : String) : Emission Value :=
  let record := (RecordBuilder.new .error).setComponent "panic"
  let record := record.field "thread" (some (serde.string thread))
  let record := record.field "location" (some location)
  let record :=
    match backtrace with
    | some backtrace => record.field "backtrace" (some (serde.string backtrace))
    | none => record
  ⟨epoch, record, "panic: " ++ payload⟩

/-! ## The threshold -/

/-- The rank a level was set to gives that level back: a record passes from `error` down to the
level that was set. -/
theorem Logger.enabled_asRank (threshold level : Level) :
    Logger.enabled threshold.asRank level = true ↔
      level ≠ .off ∧ level.asRank ≤ threshold.asRank := by
  cases threshold <;> cases level <;> decide

end Abora.Log
