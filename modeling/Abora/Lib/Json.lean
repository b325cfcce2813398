import Mathlib.Algebra.GroupWithZero.Nat
import Mathlib.Data.List.Basic

/-!
# Reading a record from a JSON value

What a derived deserializer makes of a value that has been parsed. A record is read from an object
by the names of its fields, or from an array by their positions. Members nobody asked for are
skipped without a look; a member that occurs twice is an error, like one that does not read. What a
missing member means is up to the field: an error, `none`, or the default.

So a record that reads says something about *every* member it has a field for:
`RecordField.get_obj_isSome_iff` is that, for one field. A reader that only wants to know one thing
of an object looks at one member (`Json.key`) and learns less.

The other half is what a derived serializer writes, as an object whose members may have been put in
another order and joined by others since (`Json.Written`). A field of such an object is read back if
its own value is (`RecordField.get_written`); where a type is written member by member, its round
trip is one such line for every field.
-/

namespace Abora.Lib

/-- A JSON value. The members of an object are in the order of the text, repeated names included,
since it is for the reader to say what a repetition means. -/
inductive Json where
  | null
  | bool (b : Bool)
  /-- A number without a fraction and without an exponent, other than `-0`. -/
  | int (n : Int)
  | float (text : String)
  | str (s : String)
  | arr (items : List Json)
  | obj (members : List (String × Json))

namespace Json

variable {α : Type}

def asBool : Json → Option Bool
  | .bool b => some b
  | _ => none

def asStr : Json → Option String
  | .str s => some s
  | _ => none

/-- An unsigned integer of `bits` bits. -/
def asUnsigned (bits : Nat) : Json → Option Nat
  | .int (.ofNat n) => if n < 2 ^ bits then some n else none
  | _ => none

/-- `null`, or a value that reads. -/
def asOption (read : Json → Option α) : Json → Option (Option α)
  | .null => some none
  | j => (read j).map some

def readAll (read : Json → Option α) : List Json → Option (List α)
  | [] => some []
  | j :: js => (read j).bind fun a => (readAll read js).map fun as => a :: as

def asList (read : Json → Option α) : Json → Option (List α)
  | .arr items => readAll read items
  | _ => none

def values (name : String) (members : List (String × Json)) : List Json :=
  (members.filter fun m => m.1 == name).map Prod.snd

/-- A look at one member, without reading the record: of several the last, of none `null`. This is
what indexing a `serde_json::Value` does, and it never fails. -/
def key (name : String) : Json → Json
  | .obj members => (values name members).getLast?.getD .null
  | _ => .null

def asArray : Json → Option (List Json)
  | .arr items => some items
  | _ => none

/-- Whether a record of `n` fields may be read from this value. -/
def isRecord (n : Nat) : Json → Bool
  | .obj _ => true
  | .arr items => items.length ≤ n
  | _ => false

end Json

/-- A field of a record: its name, how its value reads, and what it is when an object lacks it or an
array is too short for it. The two need not agree: an `Option` may be missing from an object, but
its place in an array may not. -/
structure RecordField (α : Type) where
  name : String
  read : Json → Option α
  absent : Option α
  short : Option α

namespace RecordField

variable {α : Type}

def required (name : String) (read : Json → Option α) : RecordField α := ⟨name, read, none, none⟩

/-- An `Option` without a default: an object may lack it. -/
def optional (name : String) (read : Json → Option α) : RecordField (Option α) :=
  ⟨name, Json.asOption read, some none, none⟩

def withDefault (name : String) (read : Json → Option α) (value : α) : RecordField α :=
  ⟨name, read, some value, some value⟩

def ofValues (f : RecordField α) : List Json → Option α
  | [] => f.absent
  | [v] => f.read v
  | _ => none

def ofItem (f : RecordField α) : Option Json → Option α
  | some v => f.read v
  | none => f.short

/-- The field of a record, the `i`-th one. -/
def get (f : RecordField α) (i : Nat) : Json → Option α
  | .obj members => f.ofValues (Json.values f.name members)
  | .arr items => f.ofItem items[i]?
  | _ => none

end RecordField

/-! ## What reads -/

section Reads

variable {α : Type} {read : Json → Option α}

theorem asStr_isSome_iff {j : Json} : j.asStr.isSome ↔ ∃ s, j = .str s := by
  cases j <;> simp [Json.asStr]

theorem asUnsigned_eq_some_iff {bits n : Nat} {j : Json} :
    j.asUnsigned bits = some n ↔ j = .int n ∧ n < 2 ^ bits := by
  constructor
  · intro h
    unfold Json.asUnsigned at h
    split at h
    · split at h
      · cases h
        exact ⟨rfl, ‹_›⟩
      · cases h
    · cases h
  · rintro ⟨rfl, hn⟩
    exact if_pos hn

theorem asOption_isSome_iff {j : Json} :
    (j.asOption read).isSome ↔ j = .null ∨ (read j).isSome := by
  cases j <;> simp [Json.asOption]

theorem readAll_isSome_iff {items : List Json} :
    (Json.readAll read items).isSome ↔ ∀ j ∈ items, (read j).isSome := by
  induction items with
  | nil => simp [Json.readAll]
  | cons j js ih =>
    rw [List.forall_mem_cons, ← ih]
    cases hj : read j with
    | none => simp [Json.readAll, hj]
    | some a => simp [Json.readAll, hj]

theorem asList_isSome_iff {j : Json} :
    (j.asList read).isSome ↔ ∃ items, j = .arr items ∧ ∀ i ∈ items, (read i).isSome := by
  constructor
  · intro h
    cases j with
    | arr items => exact ⟨items, rfl, readAll_isSome_iff.mp h⟩
    | null | bool b | int n | float t | str s | obj ms => cases h
  · rintro ⟨items, rfl, h⟩
    exact readAll_isSome_iff.mpr h

theorem mem_values {name : String} {members : List (String × Json)} {v : Json} :
    v ∈ Json.values name members ↔ (name, v) ∈ members := by
  simp only [Json.values, List.mem_map, List.mem_filter, beq_iff_eq]
  constructor
  · rintro ⟨⟨_, _⟩, ⟨hm, rfl⟩, rfl⟩
    exact hm
  · intro h
    exact ⟨(name, v), ⟨h, rfl⟩, rfl⟩

/-- What an object must say about a field for it to read: nothing twice, nothing that does not read,
and something if the field cannot do without. -/
structure RecordField.Reads (f : RecordField α) (vs : List Json) : Prop where
  once : vs.length ≤ 1
  reads : ∀ v ∈ vs, (f.read v).isSome
  there : vs = [] → f.absent.isSome

/-- **A field reads from an object** exactly when the object says something good about it. -/
theorem RecordField.get_obj_isSome_iff {f : RecordField α} {i : Nat}
    {members : List (String × Json)} :
    (f.get i (.obj members)).isSome ↔ f.Reads (Json.values f.name members) := by
  show (f.ofValues (Json.values f.name members)).isSome ↔ _
  match Json.values f.name members with
  | [] => exact ⟨fun h => ⟨by simp, by simp, fun _ => h⟩, fun h => h.there rfl⟩
  | [v] =>
    refine ⟨fun h => ⟨by simp, fun w hw => ?_, by simp⟩, fun h => h.reads v List.mem_cons_self⟩
    rw [List.mem_singleton.mp hw]
    exact h
  | v :: w :: vs => exact ⟨fun h => (by cases h), fun h => absurd h.once (by simp)⟩

/-- What is read is what a member of that name reads as. -/
theorem RecordField.read_of_get {f : RecordField α} {i : Nat} {members : List (String × Json)}
    {a : α} (h : f.get i (.obj members) = some a) {v : Json} (hv : (f.name, v) ∈ members) :
    f.read v = some a := by
  have hmem := mem_values.mpr hv
  have h : f.ofValues (Json.values f.name members) = some a := h
  match hvals : Json.values f.name members with
  | [] =>
    rw [hvals] at hmem
    cases hmem
  | [w] =>
    rw [hvals] at hmem h
    rw [List.mem_singleton.mp hmem]
    exact h
  | w :: w' :: ws =>
    rw [hvals] at h
    cases h

/-- A field with a default reads unless some member of its name does not. -/
theorem RecordField.withDefault_isSome_iff {name : String} {value : α} {i : Nat}
    {members : List (String × Json)} :
    ((RecordField.withDefault name read value).get i (.obj members)).isSome ↔
      (Json.values name members).length ≤ 1 ∧ ∀ v, (name, v) ∈ members → (read v).isSome := by
  rw [RecordField.get_obj_isSome_iff]
  constructor
  · intro h
    exact ⟨h.once, fun v hv => h.reads v (mem_values.mpr hv)⟩
  · rintro ⟨honce, hreads⟩
    exact ⟨honce, fun v hv => hreads v (mem_values.mp hv), fun _ => rfl⟩

theorem eq_of_mem_of_length_le_one {xs : List Json} (h : xs.length ≤ 1) {v w : Json} (hv : v ∈ xs)
    (hw : w ∈ xs) : w = v := by
  match xs with
  | [] => cases hv
  | [x] => rw [List.mem_singleton.mp hv, List.mem_singleton.mp hw]
  | x :: y :: rest => exact absurd h (by simp)

/-- A required field needs a member of its name, and only one. -/
theorem RecordField.required_isSome_iff {name : String} {i : Nat} {members : List (String × Json)} :
    ((RecordField.required name read).get i (.obj members)).isSome ↔
      (Json.values name members).length ≤ 1 ∧ ∃ v, (name, v) ∈ members ∧ (read v).isSome := by
  rw [RecordField.get_obj_isSome_iff]
  constructor
  · intro h
    cases hvals : Json.values name members with
    | nil => cases h.there hvals
    | cons v vs =>
      have hv : v ∈ Json.values name members := by simp [hvals]
      exact ⟨hvals ▸ h.once, v, mem_values.mp hv, h.reads v hv⟩
  · rintro ⟨honce, v, hv, hread⟩
    have hmem := mem_values.mpr hv
    refine ⟨honce, fun w hw => ?_, fun hnil => ?_⟩
    · rw [eq_of_mem_of_length_le_one honce hmem hw]
      exact hread
    · have hnil : Json.values name members = [] := hnil
      rw [hnil] at hmem
      cases hmem

end Reads

/-! ## Writing a record -/

namespace Json

/-- The members a derived serializer writes, in the order of the fields; some fields are skipped. -/
def members (fields : List (String × Option Json)) : List (String × Json) :=
  fields.filterMap fun f => f.2.map fun v => (f.1, v)

/-- An object with these members in any order, and with others that nobody asks for. What a program
has written is one (`written_members`), and so is what is left of it after another program, or a
later version, has written it anew. -/
def Written (fields : List (String × Option Json)) (j : Json) : Prop :=
  ∃ all others, j = .obj all ∧ all.Perm (members fields ++ others) ∧
    ∀ m ∈ others, m.1 ∉ fields.map Prod.fst

theorem written_members (fields : List (String × Option Json)) :
    Written fields (.obj (members fields)) :=
  ⟨_, [], rfl, by rw [List.append_nil], fun _ hm => by cases hm⟩

theorem written_reversed {fields : List (String × Option Json)} {others : List (String × Json)}
    (h : ∀ m ∈ others, m.1 ∉ fields.map Prod.fst) :
    Written fields (.obj (members fields ++ others).reverse) :=
  ⟨_, others, rfl, List.reverse_perm _, h⟩

theorem values_append (name : String) (a b : List (String × Json)) :
    values name (a ++ b) = values name a ++ values name b := by
  simp [values]

theorem values_eq_nil {name : String} {members : List (String × Json)}
    (h : ∀ m ∈ members, m.1 ≠ name) : values name members = [] := by
  rw [List.eq_nil_iff_forall_not_mem]
  exact fun v hv => h _ (mem_values.mp hv) rfl

theorem values_members {fields : List (String × Option Json)}
    (hnodup : (fields.map Prod.fst).Nodup) {name : String} {v : Option Json}
    (hv : (name, v) ∈ fields) : values name (members fields) = v.toList := by
  have hother {fields : List (String × Option Json)} (h : name ∉ fields.map Prod.fst) :
      values name (members fields) = [] := by
    refine values_eq_nil fun m hm heq => h ?_
    obtain ⟨f, hf, hfm⟩ := List.mem_filterMap.mp hm
    obtain ⟨w, -, rfl⟩ := Option.map_eq_some_iff.mp hfm
    exact List.mem_map.mpr ⟨f, hf, heq⟩
  induction fields with
  | nil => cases hv
  | cons f fields ih =>
    obtain ⟨hhead, htail⟩ := List.nodup_cons.mp hnodup
    have hcut : members (f :: fields) = members [f] ++ members fields := by
      rw [members, members, members, ← List.filterMap_append, List.singleton_append]
    rw [hcut, values_append]
    rcases List.mem_cons.mp hv with rfl | hv
    · rw [hother hhead, List.append_nil]
      cases v <;> simp [members, values]
    · have hne : name ∉ [f].map Prod.fst := by
        intro hmem
        obtain rfl : name = f.1 := by simpa using hmem
        exact hhead (List.mem_map.mpr ⟨_, hv, rfl⟩)
      rw [hother hne, List.nil_append, ih htail hv]

/-- **A field of a written record has its value**, wherever the members went. -/
theorem Written.values {fields : List (String × Option Json)} {j : Json} (h : Written fields j)
    (hnodup : (fields.map Prod.fst).Nodup) {name : String} {v : Option Json}
    (hv : (name, v) ∈ fields) : ∃ all, j = .obj all ∧ Json.values name all = v.toList := by
  obtain ⟨all, others, rfl, hperm, hothers⟩ := h
  refine ⟨all, rfl, ?_⟩
  have hmem : name ∈ fields.map Prod.fst := List.mem_map.mpr ⟨_, hv, rfl⟩
  have hnone : Json.values name others = [] :=
    values_eq_nil fun m hm heq => hothers m hm (heq ▸ hmem)
  have hvalues : (Json.values name all).Perm v.toList := by
    rw [← values_members hnodup hv, ← List.append_nil (Json.values name (members fields)), ← hnone,
      ← values_append]
    exact (hperm.filter _).map _
  cases v with
  | none => exact List.perm_nil.mp hvalues
  | some v => exact List.perm_singleton.mp hvalues

/-- A look at a field of a written record finds its value. -/
theorem Written.key {fields : List (String × Option Json)} {j : Json} (h : Written fields j)
    (hnodup : (fields.map Prod.fst).Nodup) {name : String} {v : Option Json}
    (hv : (name, v) ∈ fields) : j.key name = v.getD .null := by
  obtain ⟨all, rfl, hvalues⟩ := h.values hnodup hv
  rw [Json.key, hvalues]
  cases v <;> rfl

end Json

section Written

variable {α : Type} {f : RecordField α} {fields : List (String × Option Json)} {j : Json} {a : α}

/-- **A field is read back** if what was written of it reads. -/
theorem RecordField.get_written (h : Json.Written fields j) (hnodup : (fields.map Prod.fst).Nodup)
    {i : Nat} {v : Option Json} (hv : fields[i]? = some (f.name, v))
    (hread : f.ofValues v.toList = some a) : f.get i j = some a := by
  obtain ⟨all, rfl, hvalues⟩ := h.values hnodup (List.mem_of_getElem? hv)
  show f.ofValues (Json.values f.name all) = some a
  rw [hvalues, hread]

theorem RecordField.get_member {name : String} {read : Json → Option α} {absent short : Option α}
    (h : Json.Written fields j) (hnodup : (fields.map Prod.fst).Nodup) (i : Nat) {v : Json}
    (hv : fields[i]? = some (name, some v)) (hread : read v = some a) :
    RecordField.get ⟨name, read, absent, short⟩ i j = some a :=
  RecordField.get_written (f := ⟨name, read, absent, short⟩) h hnodup hv hread

/-- A text that is left out when there is none: an `Option` with `skip_serializing_if` and a
default. -/
theorem RecordField.get_skipped {name : String} {s : Option String} (h : Json.Written fields j)
    (hnodup : (fields.map Prod.fst).Nodup) (i : Nat) (hv : fields[i]? = some (name, s.map Json.str)) :
    (RecordField.withDefault name (Json.asOption Json.asStr) none).get i j = some s := by
  refine RecordField.get_written h hnodup hv ?_
  cases s <;> rfl

theorem Json.Written.isRecord (h : Json.Written fields j) (n : Nat) : j.isRecord n = true := by
  obtain ⟨all, others, rfl, -, -⟩ := h
  rfl

theorem readAll_written {read : Json → Option α} {items : List Json} {as : List α}
    (h : List.Forall₂ (fun a j => read j = some a) as items) :
    Json.readAll read items = some as := by
  induction h with
  | nil => rfl
  | cons ha _ ih => rw [Json.readAll, ha, ih]; rfl

end Written

end Abora.Lib
