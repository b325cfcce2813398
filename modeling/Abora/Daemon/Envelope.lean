import Abora.Daemon.Auth
import Abora.Lib.Json

/-!
# Errors and correlation ids (`abora-api/src/lib.rs`, `aborad/src/errors.rs` and the outermost layer
of `aborad/src/server.rs`)

An error is a code and a message; the outermost layer picks an id for every request, answers it in a
header, and puts it into any error envelope on the way out. It recognizes an envelope by what the
body *is*: JSON, an object under `error`, no id in it yet. `correlate_body` says what that does to
an envelope, and `requestId_right` whose id it is: the caller's own, if it sent a well-formed one,
and a fresh one otherwise.

The layer is the last to see a response, so what it does applies to those of the framework as well,
which are no envelopes and go out as they are (`correlate_body_of_ne`). Which responses are
envelopes at all is the question of `Abora.Daemon.Server`.
-/

namespace Abora.Daemon

open Abora.Lib Abora.Lib.Text

/-- The error codes of the API. Each has one status and one name, and no two share a name. -/
inductive ErrorCode where
  | invalidRequest | unauthorized | forbidden | notFound | conflict | notImplemented
  | serviceUnavailable | internal
  deriving DecidableEq, Repr

def ErrorCode.httpStatus : ErrorCode → Nat
  | .invalidRequest => 400
  | .unauthorized => 401
  | .forbidden => 403
  | .notFound => 404
  | .conflict => 409
  | .notImplemented => 501
  | .serviceUnavailable => 503
  | .internal => 500

def ErrorCode.name : ErrorCode → String
  | .invalidRequest => "invalid_request"
  | .unauthorized => "unauthorized"
  | .forbidden => "forbidden"
  | .notFound => "not_found"
  | .conflict => "conflict"
  | .notImplemented => "not_implemented"
  | .serviceUnavailable => "service_unavailable"
  | .internal => "internal"

structure ApiErrorDetail where
  code : ErrorCode
  message : String
  requestId : Option String
  deriving DecidableEq, Repr

structure ApiErrorBody where
  error : ApiErrorDetail
  deriving DecidableEq, Repr

def ApiErrorBody.new (code : ErrorCode) (message : String) : ApiErrorBody :=
  ⟨⟨code, message, none⟩⟩

/-- An id that is not there is not written: that is how the outermost layer knows to add one. -/
def ApiErrorDetail.toJson (e : ApiErrorDetail) : Json :=
  .obj ([("code", .str e.code.name), ("message", .str e.message)] ++
    e.requestId.toList.map fun id => ("request_id", .str id))

def ApiErrorBody.toJson (b : ApiErrorBody) : Json := .obj [("error", b.error.toJson)]

/-! ## Responses -/

/-- What a response carries; `json` and `value` go out as `application/json`. `value` is a
serialized answer of type `P`, which is no envelope. -/
inductive Body (P : Type) where
  | empty
  | text (s : String)
  | json (j : Json)
  | value (p : P)

/-- A response. The content type is its body's. -/
structure Response (P : Type) where
  status : Nat
  headers : List (String × String)
  body : Body P

variable {P : Type}

def Response.header (r : Response P) (name : String) : Option String := r.headers.lookup name

/-- `HeaderMap::insert`: the only value under the name. -/
def Response.insertHeader (r : Response P) (name value : String) : Response P :=
  { r with headers := (name, value) :: r.headers.filter fun h => h.1 != name }

def ApiErrorBody.intoResponse (b : ApiErrorBody) : Response P :=
  ⟨b.error.code.httpStatus, [], .json b.toJson⟩

/-! ## The outermost layer -/

/-- `incoming_request_id`: what a caller may choose as an id. -/
def incomingRequestId (value : Chars) : Bool :=
  !value.isEmpty && decide (byteLen value ≤ 128) &&
    value.all fun c => c.isAlphanum || ['-', '_', '.', ':'].contains c

/-- `generate_request_id`, from its eight bytes. -/
def generateRequestId (bytes : UInt64) : String := String.ofList (hexPadded 16 bytes.toNat)

/-- The id of a request: the caller's, if it is one. A header that is no visible ASCII is not looked
at any further. -/
def requestId (header : Option Bytes) (fresh : UInt64) : String :=
  match (header.bind headerToStr).filter incomingRequestId with
  | some id => String.ofList id
  | none => generateRequestId fresh

/-- `HeaderValue::from_str`, or `unknown`. No id that `requestId` picks is ever unknown. -/
def headerValue (id : String) : String :=
  if id.toList.all fun c => (32 ≤ c.toNat && c.toNat < 127) || c == '\t' then id else "unknown"

def withRequestId (id : String) : Json → Json
  | .obj members =>
    if members.any fun m => m.1 == "request_id" then .obj members
    else .obj (members ++ [("request_id", .str id)])
  | j => j

/-- `inject_request_id`, on the body: an object under `error` that has no id yet gets one. Anything
else is left alone, an array or a text under `error` included. -/
def injectRequestId (id : String) : Json → Json
  | .obj members =>
    .obj (members.map fun m => if m.1 = "error" then (m.1, withRequestId id m.2) else m)
  | j => j

def Body.inject (id : String) : Body P → Body P
  | .json j => .json (injectRequestId id j)
  -- no answer has a member `error`
  | b => b

/-- `request_id_layer`, around the response of everything inside it. A success is not looked
into. -/
def correlate (id : String) (inner : Response P) : Response P :=
  { inner.insertHeader "x-request-id" (headerValue id) with
    body :=
      if 400 ≤ inner.status ∧ inner.status < 600 then inner.body.inject id else inner.body }

/-! ## Whose id -/

/-- One to 128 characters of `[A-Za-z0-9._:-]`: the ids a caller may choose, said without the
code. -/
structure WellFormedId (id : String) : Prop where
  nonempty : id.toList ≠ []
  short : id.toList.length ≤ 128
  chars : ∀ c ∈ id.toList, c.isAlphanum = true ∨ c ∈ ['-', '_', '.', ':']

def Sends (header : Option Bytes) (id : String) : Prop :=
  header = some (id.toList.map fun c => UInt8.ofNat c.toNat)

/-- Sixteen lowercase hexadecimal digits. -/
def Fresh (id : String) : Prop :=
  id.toList.length = 16 ∧ ∀ c ∈ id.toList, ∃ d < 16, c = hexDigit d

/-- The caller's own id if there is a well-formed one, and a fresh one otherwise. A fresh one is
only said to have the right form; that it is new is up to the machine's random bytes. -/
structure RightId (header : Option Bytes) (id : String) : Prop where
  own : ∀ s, WellFormedId s → Sends header s → id = s
  fresh : (∀ s, WellFormedId s → ¬ Sends header s) → Fresh id

theorem id_char_range {c : Char} (h : c.isAlphanum = true ∨ c ∈ ['-', '_', '.', ':']) :
    32 ≤ c.toNat ∧ c.toNat < 127 := by
  rcases h with h | h
  · have hranges : ((decide (c.val ≥ 'A'.val ∧ c.val ≤ 'Z'.val) ||
        (decide (c.val ≥ 'a'.val) && decide (c.val ≤ 'z'.val))) ||
        (decide (c.val ≥ '0'.val) && decide (c.val ≤ '9'.val))) = true := h
    simp only [Bool.or_eq_true, Bool.and_eq_true, decide_eq_true_eq, ge_iff_le,
      UInt32.le_iff_toNat_le] at hranges
    have hval : c.val.toNat = c.toNat := rfl
    have hends : 'A'.val.toNat = 65 ∧ 'Z'.val.toNat = 90 ∧ 'a'.val.toNat = 97 ∧
        'z'.val.toNat = 122 ∧ '0'.val.toNat = 48 ∧ '9'.val.toNat = 57 := by decide
    omega
  · simp only [List.mem_cons, List.not_mem_nil, or_false] at h
    rcases h with rfl | rfl | rfl | rfl <;> decide

/-- Texts in that range are read from a header as they were written, byte by byte. -/
theorem headerToStr_ascii {s : Chars} (h : ∀ c ∈ s, 32 ≤ c.toNat ∧ c.toNat < 127) :
    headerToStr (s.map fun c => UInt8.ofNat c.toNat) = some s := by
  have hbyte (c : Char) (hc : c ∈ s) : (UInt8.ofNat c.toNat).toNat = c.toNat := by
    have hrange := h c hc
    have hsize : c.toNat < 2 ^ 8 := by omega
    rw [UInt8.toNat_ofNat', Nat.mod_eq_of_lt hsize]
  have hall : (s.map fun c => UInt8.ofNat c.toNat).all
      (fun b => (32 ≤ b && b < 127) || b == 9) = true := by
    rw [List.all_map, List.all_eq_true]
    intro c hc
    have hrange := h c hc
    have hlow : (32 : UInt8) ≤ UInt8.ofNat c.toNat := by
      rw [UInt8.le_iff_toNat_le, hbyte c hc]
      exact hrange.1
    have hhigh : UInt8.ofNat c.toNat < 127 := by
      rw [UInt8.lt_iff_toNat_lt, hbyte c hc]
      exact hrange.2
    simp [hlow, hhigh]
  have hback : (s.map fun c => UInt8.ofNat c.toNat).map (fun b => Char.ofNat b.toNat) = s := by
    rw [List.map_map]
    conv_rhs => rw [← List.map_id s]
    refine List.map_congr_left fun c hc => ?_
    show Char.ofNat (UInt8.ofNat c.toNat).toNat = c
    rw [hbyte c hc, Char.ofNat_toNat]
  unfold headerToStr
  rw [if_pos hall, hback]

/-- And what is read is what was written, since no two characters of the range share a byte. -/
theorem eq_of_headerToStr {value : Bytes} {s : Chars} (h : headerToStr value = some s) :
    value = s.map fun c => UInt8.ofNat c.toNat := by
  unfold headerToStr at h
  split at h
  · rename_i hall
    cases h
    rw [List.map_map]
    conv_lhs => rw [← List.map_id value]
    refine List.map_congr_left fun b hb => ?_
    have hrange := List.all_eq_true.mp hall b hb
    have hlt : b.toNat < 127 := by
      simp only [Bool.or_eq_true, Bool.and_eq_true, decide_eq_true_eq, beq_iff_eq,
        UInt8.lt_iff_toNat_lt] at hrange
      rcases hrange with ⟨-, hlt⟩ | rfl
      · exact hlt
      · decide
    have hvalid : b.toNat.isValidChar := Or.inl (by omega)
    have hchar : (Char.ofNat b.toNat).toNat = b.toNat := by
      rw [Char.ofNat, dif_pos hvalid]
      rfl
    show b = UInt8.ofNat (Char.ofNat b.toNat).toNat
    rw [hchar, UInt8.ofNat_toNat]
  · cases h

theorem incomingRequestId_iff {s : Chars} :
    incomingRequestId s = true ↔ WellFormedId (String.ofList s) := by
  have hlen (h : ∀ c ∈ s, c.isAlphanum = true ∨ c ∈ ['-', '_', '.', ':']) :
      byteLen s = s.length := by
    refine byteLen_eq_length fun c hc => Char.utf8Size_eq_one_iff.mpr ?_
    have hrange := (id_char_range (h c hc)).2
    show c.val.toNat ≤ 127
    have hval : c.val.toNat = c.toNat := rfl
    omega
  unfold incomingRequestId
  simp only [Bool.and_eq_true, Bool.not_eq_true', List.isEmpty_eq_false_iff, decide_eq_true_eq,
    List.all_eq_true, Bool.or_eq_true, List.contains_iff_mem]
  constructor
  · rintro ⟨⟨hne, hle⟩, hall⟩
    rw [hlen hall] at hle
    exact ⟨by simpa using hne, by simpa using hle, by simpa using hall⟩
  · rintro ⟨hne, hle, hall⟩
    rw [String.toList_ofList] at hne hle hall
    refine ⟨⟨hne, ?_⟩, hall⟩
    rw [hlen hall]
    exact hle

theorem generateRequestId_fresh (bytes : UInt64) : Fresh (generateRequestId bytes) := by
  unfold Fresh generateRequestId
  rw [String.toList_ofList]
  exact ⟨length_hexPadded _ _, fun c hc => mem_hexPadded hc⟩

/-- **The id of a request is the right one**: what is read from the header is what the caller wrote,
and is kept exactly when it is well formed. -/
theorem requestId_right (header : Option Bytes) (fresh : UInt64) :
    RightId header (requestId header fresh) := by
  constructor
  · intro s hs hsends
    have hread : headerToStr (s.toList.map fun c => UInt8.ofNat c.toNat) = some s.toList :=
      headerToStr_ascii fun c hc => id_char_range (hs.chars c hc)
    have hid : incomingRequestId s.toList = true := by
      rw [incomingRequestId_iff, String.ofList_toList]
      exact hs
    rw [hsends, requestId, Option.bind_some, hread, Option.filter_some, if_pos hid]
    exact String.ofList_toList
  · intro hnone
    have hfilter : (header.bind headerToStr).filter incomingRequestId = none := by
      rw [Option.filter_eq_none_iff]
      intro s hs hid
      obtain ⟨value, rfl, hvalue⟩ := Option.bind_eq_some_iff.mp hs
      refine hnone (String.ofList s) (incomingRequestId_iff.mp hid) ?_
      rw [Sends, String.toList_ofList, ← eq_of_headerToStr hvalue]
    rw [requestId, hfilter]
    exact generateRequestId_fresh fresh

theorem requestId_visible (header : Option Bytes) (fresh : UInt64) :
    ∀ c ∈ (requestId header fresh).toList, 32 ≤ c.toNat ∧ c.toNat < 127 := by
  have hdigits : ∀ d < 16, 32 ≤ (hexDigit d).toNat ∧ (hexDigit d).toNat < 127 := by decide
  unfold requestId
  cases hown : (header.bind headerToStr).filter incomingRequestId with
  | some s =>
    have hid := incomingRequestId_iff.mp (Option.filter_eq_some_iff.mp hown).2
    exact fun c hc => id_char_range (hid.chars c hc)
  | none =>
    intro c hc
    obtain ⟨d, hd, rfl⟩ := (generateRequestId_fresh fresh).2 c hc
    exact hdigits d hd

/-- The id can be answered in a header, whoever chose it. -/
theorem headerValue_requestId (header : Option Bytes) (fresh : UInt64) :
    headerValue (requestId header fresh) = requestId header fresh := by
  refine if_pos (List.all_eq_true.mpr fun c hc => ?_)
  have hvisible := requestId_visible header fresh c hc
  simp [hvisible]

/-! ## What the layer does to an envelope -/

/-- The envelope under an id, its own if it has one. No handler gives one, but the type allows
it. -/
def ApiErrorBody.identified (b : ApiErrorBody) (id : String) : ApiErrorBody :=
  ⟨{ b.error with requestId := b.error.requestId.or (some id) }⟩

theorem injectRequestId_toJson (id : String) (b : ApiErrorBody) :
    injectRequestId id b.toJson = (b.identified id).toJson := by
  obtain ⟨⟨code, message, rid⟩⟩ := b
  cases rid with
  | none =>
    simp [ApiErrorBody.toJson, ApiErrorDetail.toJson, injectRequestId, withRequestId,
      ApiErrorBody.identified]
  | some rid =>
    simp [ApiErrorBody.toJson, ApiErrorDetail.toJson, injectRequestId, withRequestId,
      ApiErrorBody.identified]

theorem header_insertHeader (r : Response P) (name value : String) :
    (r.insertHeader name value).header name = some value := by
  simp [Response.insertHeader, Response.header]

theorem header_insertHeader_ne (r : Response P) {name other : String} (value : String)
    (h : other ≠ name) : (r.insertHeader name value).header other = r.header other := by
  have hrest (l : List (String × String)) :
      (l.filter fun h => h.1 != name).lookup other = l.lookup other := by
    induction l with
    | nil => rfl
    | cons p l ih =>
      obtain ⟨k, v⟩ := p
      by_cases hk : k = name
      · subst hk
        have hother : (other == k) = false := beq_eq_false_iff_ne.mpr h
        simp [List.lookup_cons, hother, ih]
      · simp [List.lookup_cons, hk, ih]
  have hother : (other == name) = false := beq_eq_false_iff_ne.mpr h
  simp [Response.insertHeader, Response.header, List.lookup_cons, hother, hrest]

/-- Every response answers the id of its request. -/
theorem correlate_header (header : Option Bytes) (fresh : UInt64) (r : Response P) :
    (correlate (requestId header fresh) r).header "x-request-id" =
      some (requestId header fresh) := by
  show (r.insertHeader "x-request-id" (headerValue (requestId header fresh))).header _ = _
  rw [header_insertHeader, headerValue_requestId]

theorem correlate_header_ne (id : String) (r : Response P) {other : String}
    (h : other ≠ "x-request-id") : (correlate id r).header other = r.header other :=
  header_insertHeader_ne r _ h

/-- **An error envelope goes out as the same envelope under the id**: no code and no message is
lost. -/
theorem correlate_body {r : Response P} {b : ApiErrorBody} (h : r.body = .json b.toJson)
    (herror : 400 ≤ r.status ∧ r.status < 600) (id : String) :
    (correlate id r).body = .json (b.identified id).toJson := by
  show (if 400 ≤ r.status ∧ r.status < 600 then r.body.inject id else r.body) = _
  rw [if_pos herror, h, Body.inject, injectRequestId_toJson]

/-- A body that is no JSON goes out as it is. -/
theorem correlate_body_of_ne {r : Response P} (h : ∀ j, r.body ≠ .json j) (id : String) :
    (correlate id r).body = r.body := by
  have hinject : r.body.inject id = r.body := by
    cases hbody : r.body with
    | json j => exact absurd hbody (h j)
    | _ => rfl
  show (if 400 ≤ r.status ∧ r.status < 600 then r.body.inject id else r.body) = _
  rw [hinject, ite_self]

end Abora.Daemon
