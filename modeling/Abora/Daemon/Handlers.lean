import Abora.Daemon.Envelope
import Abora.Daemon.State
import Abora.Services.Query

/-!
# The handlers (`aborad/src/handlers.rs`)

Each answers a value or an `ApiErrorBody`; nothing here answers an error in any other form
(`Ordinary`). Query parameters arrive as the pairs of a hash map, in no particular order, and the
first one that does not parse is the answer.

A handler's values come from the machine: what the collectors, `systemctl` and the reboot marker
answer is a `Machine`, one for each request, and the handler is a function of it. What the values
look like in JSON is `Abora.Daemon.Wire`; here a response carries the value itself, so that the
statements about requests need not go through a text.
-/

namespace Abora.Daemon

open Abora.Lib Abora.Lib.Text Abora.Services Abora.Update

/-- What the handlers answer with when they do not answer an error, one constructor a route. -/
inductive Payload where
  | health (status : HealthStatus) (components : List ComponentHealth)
  | version
  | system
  | services (page : List ServiceStatus)
  | service (detail : ServiceDetail)
  | updates (response : UpdatesResponse)
  | apply (response : ApplyResponse)

/-- What the machine answers to the handlers of one request. A handler looks at the part it
needs. -/
structure Machine where
  system : Except String Unit
  collect : Except ServicesError (List ServiceStatus)
  unit : String → Except ServicesError ServiceDetail
  /-- The reboot marker, the packages file beside it, the clock and the save of `response`. -/
  marker : Bool
  pkgs : Option String
  saved : Except StoreError Unit
  /-- What `request_apply` finds; its `pending` and `now` are those of `response` too. -/
  apply : ApplyEnv

/-- What the handlers work on: the live configuration and the update state. -/
structure HandlerState where
  config : Config
  updates : UpdatesState

abbrev Answer := Except ApiErrorBody (Response Payload)

def badRequest (message : String) : ApiErrorBody := .new .invalidRequest message

/-- `ApiError::internal`. The version in the text is the framework's own. -/
def internalError (message : String) : ApiErrorBody :=
  .new .internal s!"{message} (framework 0.1.0)"

def okResponse (payload : Payload) : Response Payload := ⟨200, [], .value payload⟩

/-- The worst of the components, of which there is one. -/
def healthHandler (s : HandlerState) : Answer :=
  let components := [s.updates.health]
  let status :=
    if components.any fun c => c.status == .degraded then HealthStatus.degraded else .ok
  .ok (okResponse (.health status components))

def versionHandler : Answer := .ok (okResponse .version)

def systemHandler (m : Machine) : Answer :=
  match m.system with
  | .error e => .error (internalError s!"could not collect system information: {e}")
  | .ok () => .ok (okResponse .system)

/-- Largest page a client may request from the service list. -/
def maxServicePage : Nat := 1000

def serviceStateOf (value : String) : Option ServiceState :=
  match value with
  | "running" => some .running
  | "stopped" => some .stopped
  | "failed" => some .failed
  | "activating" => some .activating
  | "deactivating" => some .deactivating
  | "unknown" => some .unknown
  | _ => none

/-- One parameter of `parse_service_query`. An unknown one is an error, like a value out of
range. -/
def serviceParam (query : ServiceQuery) (key value : String) : Except ApiErrorBody ServiceQuery :=
  match key with
  | "state" =>
    match serviceStateOf value with
    | some state => .ok { query with state := some state }
    | none => .error (badRequest
        s!"`state` must be one of running, stopped, failed, activating, deactivating, unknown (got `{value}`)")
  | "enabled" =>
    match value with
    | "true" => .ok { query with enabled := some true }
    | "false" => .ok { query with enabled := some false }
    | other => .error (badRequest s!"`enabled` must be true or false (got `{other}`)")
  | "q" => .ok (if value = "" then query else { query with text := some value })
  | "limit" =>
    match (parseUnsigned 64 value.toList).filter fun n => 1 ≤ n && n ≤ maxServicePage with
    | some n => .ok { query with limit := some n }
    | none => .error (badRequest s!"`limit` must be a number from 1 to {maxServicePage}")
  | "offset" =>
    match parseUnsigned 64 value.toList with
    | some n => .ok { query with offset := n }
    | none => .error (badRequest "`offset` must be a non-negative number")
  | other => .error (badRequest s!"unknown query parameter `{other}`")

/-- `parse_service_query`, over the pairs in whatever order the map has them. -/
def parseServiceQuery (params : List (String × String)) : Except ApiErrorBody ServiceQuery :=
  params.foldlM (fun query p => serviceParam query p.1 p.2) {}

def servicesUnavailable (e : ServicesError) : ApiErrorBody :=
  .new .serviceUnavailable s!"could not query the service registry: {e.text}"

/-- The page goes in the body and the number of all matching units in a header, both from one
listing. -/
def servicesHandler (m : Machine) (params : List (String × String)) : Answer :=
  match parseServiceQuery params with
  | .error e => .error e
  | .ok query =>
    match m.collect with
    | .error e => .error (servicesUnavailable e)
    | .ok units =>
      .ok ((okResponse (.services (query.apply units))).insertHeader "x-total-count"
        (toString (query.totalMatching units)))

/-- The name is validated before anything is run with it. -/
def serviceDetailHandler (m : Machine) (name : String) : Answer :=
  if validateUnitName name = false then
    .error (badRequest "the service name must be a unit name ending in `.service`")
  else
    match detail m.unit name with
    | .ok detail => .ok (okResponse (.service detail))
    | .error (.notFound n) => .error (.new .notFound s!"no such service: {n}")
    | .error e => .error (servicesUnavailable e)

def updatesHandler (s : HandlerState) (m : Machine) : Answer :=
  .ok (okResponse (.updates
    (s.updates.response m.apply.pending m.marker m.pkgs m.apply.now m.saved).2))

/-- One parameter of `apply_updates`: the `dry_run` it asks for. Nothing but the two words is a
value. -/
def applyParam (key value : String) : Except ApiErrorBody Bool :=
  match key, value with
  | "dry_run", "true" => .ok true
  | "dry_run", "false" => .ok false
  | "dry_run", other => .error (badRequest s!"`dry_run` must be true or false (got `{other}`)")
  | other, _ => .error (badRequest s!"unknown query parameter `{other}`")

/-- A refusal as the API reports it. Why a request could not be written is not told to the
client. -/
def refusalBody : ApplyRefusal → ApiErrorBody
  | .conflict reason => .new .conflict reason
  | .internal _ => .new .internal "could not hand the request to the update helper"

/-- `apply_updates`: 202 for a request that was written, 200 for a plan. -/
def applyUpdatesHandler (s : HandlerState) (m : Machine) (caller : String)
    (params : List (String × String)) : Answer :=
  match params.foldlM (fun _ p => applyParam p.1 p.2) false with
  | .error e => .error e
  | .ok dryRun =>
    match (s.updates.requestApply s.config caller dryRun m.apply).1 with
    | .ok response => .ok ⟨if dryRun then 200 else 202, [], .value (.apply response)⟩
    | .error refusal => .error (refusalBody refusal)

/-! ## What an answer is -/

/-- A value under a status that is no error, or an error that has no id yet. Everything the layers
outside need to know about the handlers is in this. -/
def Ordinary (a : Answer) : Prop :=
  match a with
  | .ok r => r.status < 400 ∧ ∃ p, r.body = .value p
  | .error e => e.error.requestId = none

theorem ordinary_okResponse (payload : Payload) : Ordinary (.ok (okResponse payload)) :=
  ⟨by show 200 < 400; decide, payload, rfl⟩

theorem ordinary_error (code : ErrorCode) (message : String) :
    Ordinary (.error (.new code message)) := rfl

theorem serviceParam_error (query : ServiceQuery) (p : String × String) (e : ApiErrorBody)
    (h : serviceParam query p.1 p.2 = .error e) : e.error.requestId = none := by
  unfold serviceParam at h
  split at h
  · cases hstate : serviceStateOf p.2 with
    | some state => rw [hstate] at h; cases h
    | none => rw [hstate] at h; cases h; rfl
  · split at h
    · cases h
    · cases h
    · cases h; rfl
  · cases h
  · split at h
    · cases h
    · cases h; rfl
  · split at h
    · cases h
    · cases h; rfl
  · cases h; rfl

theorem applyParam_error (p : String × String) (e : ApiErrorBody)
    (h : applyParam p.1 p.2 = .error e) : e.error.requestId = none := by
  unfold applyParam at h
  split at h
  · cases h
  · cases h
  · cases h; rfl
  · cases h; rfl

theorem ordinary_system (m : Machine) : Ordinary (systemHandler m) := by
  unfold systemHandler
  cases m.system with
  | error e => exact ordinary_error _ _
  | ok u => exact ordinary_okResponse _

theorem ordinary_services (m : Machine) (params : List (String × String)) :
    Ordinary (servicesHandler m params) := by
  unfold servicesHandler
  cases hquery : parseServiceQuery params with
  | error e => exact foldlM_error serviceParam_error hquery
  | ok query =>
    cases m.collect with
    | error e => exact ordinary_error _ _
    | ok units => exact ordinary_okResponse (.services (query.apply units))

theorem ordinary_serviceDetail (m : Machine) (name : String) :
    Ordinary (serviceDetailHandler m name) := by
  unfold serviceDetailHandler
  split
  · exact ordinary_error _ _
  · cases detail m.unit name with
    | ok detail => exact ordinary_okResponse _
    | error e => cases e <;> exact ordinary_error _ _

theorem ordinary_applyUpdates (s : HandlerState) (m : Machine) (caller : String)
    (params : List (String × String)) : Ordinary (applyUpdatesHandler s m caller params) := by
  unfold applyUpdatesHandler
  cases hdry : params.foldlM (fun _ p => applyParam p.1 p.2) false with
  | error e => exact foldlM_error (fun _ => applyParam_error) hdry
  | ok dryRun =>
    dsimp only
    cases (s.updates.requestApply s.config caller dryRun m.apply).1 with
    | ok response =>
      refine ⟨?_, _, rfl⟩
      show (if dryRun = true then 200 else 202) < 400
      split <;> decide
    | error refusal => cases refusal <;> exact ordinary_error _ _

end Abora.Daemon
