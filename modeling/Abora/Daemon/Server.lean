import Abora.Daemon.Access
import Abora.Daemon.Handlers

/-!
# The router (`aborad/src/server.rs`)

Seven routes, each behind the authorization layer of its permission, a fallback for every other
path, and the correlation layer around all of it. What the web framework does is a parameter,
`Axum`: which route a path matches, and what its extractors make of a path and a query. Two of its
answers are not this program's: `405` without a body for a method a route does not have, which the
authorization layer nevertheless stands in front of, and `400` in plain text for an extraction that
fails.

`Contract` is what the documentation says about a response: an error is the documented envelope
under the id of its request, and the id is the right one. `contract_iff` says that a request gets it
unless it reaches one of those two answers (`Bare`). There are three kinds of response inside the
outermost layer, a value, an envelope without an id, and the framework's (`answer_kind`), and what
the layer does to each of them is `Abora.Daemon.Envelope`.
-/

namespace Abora.Daemon

open Abora.Lib Abora.Lib.Text Abora.Update

/-- `HEAD` is a method of its own; what makes it one is that a route for `GET` takes it. -/
inductive Method where
  | get | head | post
  | other (name : String)
  deriving DecidableEq, Repr

inductive Handler where
  | health | version | system | services | serviceDetail | applyUpdates | updates
  deriving DecidableEq, Repr

/-- One `.route(..)` of the router. -/
structure Route where
  path : String
  method : Method
  permission : Permission
  handler : Handler
  deriving DecidableEq, Repr

/-- `get(..)` takes `HEAD` as well; the framework leaves the body of the answer out. -/
def Route.takes (r : Route) (method : Method) : Bool :=
  match r.method with
  | .get => method == .get || method == .head
  | m => method == m

/-- `trim_end_matches('/')`. -/
def trimEndSlash (s : Chars) : Chars := (s.reverse.dropWhile (· == '/')).reverse

/-- `endpoint`: a base path and a resource name. -/
def endpoint (basePath resource : String) : String :=
  String.ofList (trimEndSlash basePath.toList ++
    '/' :: resource.toList.dropWhile (· == '/'))

/-- The routes of `build`, in the order they are added. -/
def routes (basePath : String) : List Route :=
  [⟨endpoint basePath "health", .get, .readHealth, .health⟩,
    ⟨endpoint basePath "version", .get, .readVersion, .version⟩,
    ⟨endpoint basePath "system", .get, .readSystem, .system⟩,
    ⟨endpoint basePath "services", .get, .readServices, .services⟩,
    ⟨endpoint basePath "services/{name}", .get, .readServices, .serviceDetail⟩,
    ⟨endpoint basePath "updates/apply", .post, .manageUpdates, .applyUpdates⟩,
    ⟨endpoint basePath "updates", .get, .readUpdates, .updates⟩]

/-- The framework: the parts of its behaviour that the routes depend on. -/
structure Axum where
  /-- Whether the framework takes a route of this path; it panics otherwise. -/
  admits : String → Bool
  /-- Whether a route of this path matches a request for that one. -/
  serves : String → String → Bool
  /-- `Path<String>` on a matched route; the error is the text of the rejection. -/
  pathArg : String → String → Except String String
  /-- `Query<HashMap<String, String>>`. -/
  queryArgs : Option String → Except String (List (String × String))

/-- `build`; `none` is a panic. -/
def build (ax : Axum) (basePath : String) : Option (List Route) :=
  if (routes basePath).all fun r => ax.admits r.path then some (routes basePath) else none

/-- A daemon that serves: its routes are those of the configuration it started with, everything else
is what is live. -/
structure Server where
  routes : List Route
  config : Config
  tokens : Option TokenStore
  updates : UpdatesState

/-- A request, as far as the program looks at it. -/
structure HttpRequest where
  method : Method
  path : String
  query : Option String
  /-- The first `X-Request-ID`. -/
  requestId : Option Bytes
  auth : Request

def HttpRequest.uri (req : HttpRequest) : String :=
  match req.query with
  | none => req.path
  | some query => s!"{req.path}?{query}"

/-- `Decision::into_denial`: what a denied request is told, which names the permission it lacks. -/
def Decision.intoDenial (decision : Decision) (permission : Permission) : Option ApiErrorBody :=
  match decision with
  | .allowed => none
  | .remoteNotAllowed => some (.new .forbidden
      s!"operation `{permission.permissionId}` is not allowed for remote clients; remote management is not enabled")
  | .authenticationRequired => some (.new .unauthorized
      s!"operation `{permission.permissionId}` requires a valid bearer token")
  | .tokensRequired => some (.new .forbidden
      s!"operation `{permission.permissionId}` changes the system and requires token authentication; configure [security] token_file and use a token that grants it")
  | .insufficientPermission => some (.new .forbidden
      s!"token is authenticated but not authorized for `{permission.permissionId}`")

/-- `with_auth`: the name a request goes on under, or the denial. -/
def withAuth (digest : String → Hash) (srv : Server) (req : Request) (permission : Permission) :
    Except ApiErrorBody String :=
  match middleware digest srv.config srv.tokens req permission with
  | (.allowed, caller) => .ok (caller.getD "loopback (no token)")
  | (denied, _) =>
    .error ((denied.intoDenial permission).getD (internalError "unexpected authorization failure"))

/-- An answer, or the text of a failed extraction. Three of the handlers take something from the
request. -/
def callHandler (ax : Axum) (srv : Server) (m : Machine) (req : HttpRequest) (route : Route)
    (caller : String) : Except String Answer :=
  let s : HandlerState := ⟨srv.config, srv.updates⟩
  match route.handler with
  | .health => .ok (healthHandler s)
  | .version => .ok versionHandler
  | .system => .ok (systemHandler m)
  | .services => (ax.queryArgs req.query).map (servicesHandler m)
  | .serviceDetail => (ax.pathArg route.path req.path).map (serviceDetailHandler m)
  | .applyUpdates => (ax.queryArgs req.query).map (applyUpdatesHandler s m caller)
  | .updates => .ok (updatesHandler s m)

def intoResponse : Answer → Response Payload
  | .ok r => r
  | .error e => e.intoResponse

def Server.route (srv : Server) (ax : Axum) (req : HttpRequest) : Option Route :=
  srv.routes.find? fun r => ax.serves r.path req.path

/-- `fallback`. -/
def notFound (req : HttpRequest) : ApiErrorBody :=
  .new .notFound s!"no API route matches `{req.uri}`"

/-- Everything inside the correlation layer. The authorization is a layer around the routes of each
path, so it comes before the method is looked at. A request with a wrong method gets the answer of
the framework when it is let in; when it is denied, the framework adds its `allow` header to the
denial too, which is left out here: it is a header more and changes no status and no body. -/
def answer (ax : Axum) (digest : String → Hash) (srv : Server) (m : Machine) (req : HttpRequest) :
    Response Payload :=
  match srv.route ax req with
  | none => (notFound req).intoResponse
  | some route =>
    match withAuth digest srv req.auth route.permission with
    | .error denial => denial.intoResponse
    | .ok caller =>
      if route.takes req.method then
        match callHandler ax srv m req route caller with
        | .ok a => intoResponse a
        | .error text => ⟨400, [], .text text⟩
      else ⟨405, [("allow", if route.method = .post then "POST" else "GET,HEAD")], .empty⟩

/-- The response to a request; `fresh` are the bytes a new id is made of. -/
def respond (ax : Axum) (digest : String → Hash) (srv : Server) (m : Machine) (fresh : UInt64)
    (req : HttpRequest) : Response Payload :=
  correlate (requestId req.requestId fresh) (answer ax digest srv m req)

/-! ## What is promised -/

/-- The documented form of an error, under the id of its request; and what was an error when it was
made goes out as it was made, but for the id. -/
structure Contract (req : HttpRequest) (inner r : Response Payload) : Prop where
  envelope : 400 ≤ r.status → ∃ id code message,
    r.body = .json (ApiErrorBody.toJson ⟨⟨code, message, some id⟩⟩) ∧
    r.header "x-request-id" = some id ∧ RightId req.requestId id
  otherwise : ∀ b : ApiErrorBody, inner.body = .json b.toJson →
    r.status = inner.status ∧ (∃ id, r.body = .json (b.identified id).toJson) ∧
    ∀ name, name ≠ "x-request-id" → r.header name = inner.header name

/-- The extractors of the route's handler reject the request. -/
def Rejects (ax : Axum) (req : HttpRequest) (route : Route) : Prop :=
  match route.handler with
  | .services => ∃ text, ax.queryArgs req.query = .error text
  | .applyUpdates => ∃ text, ax.queryArgs req.query = .error text
  | .serviceDetail => ∃ text, ax.pathArg route.path req.path = .error text
  | _ => False

/-- The request is let in, and the framework answers it. A request that is denied gets the program's
own answer before the framework has looked at anything but the path. -/
inductive Bare (ax : Axum) (digest : String → Hash) (srv : Server) (req : HttpRequest) : Prop where
  | method {route : Route} {caller : String} (hroute : srv.route ax req = some route)
      (hauth : withAuth digest srv req.auth route.permission = .ok caller)
      (hnot : route.takes req.method = false)
  | extraction {route : Route} {caller : String} (hroute : srv.route ax req = some route)
      (hauth : withAuth digest srv req.auth route.permission = .ok caller)
      (htakes : route.takes req.method = true) (hrejects : Rejects ax req route)

/-! ## The parts -/

/-- Being let in here is being let in by the middleware. -/
theorem withAuth_ok_iff {digest : String → Hash} {srv : Server} {req : Request}
    {permission : Permission} {caller : String} :
    withAuth digest srv req permission = .ok caller ↔
      handlerCaller digest srv.config srv.tokens req permission = some caller := by
  unfold withAuth handlerCaller
  rcases middleware digest srv.config srv.tokens req permission with ⟨decision, name⟩
  cases decision <;> simp

theorem httpStatus_error (code : ErrorCode) : 400 ≤ code.httpStatus ∧ code.httpStatus < 600 := by
  cases code <;> decide

/-- An extraction fails, or what is done with its result is an ordinary answer. -/
theorem extracted_cases {β : Type} (args : Except String β) {f : β → Answer}
    (hf : ∀ b, Ordinary (f b)) :
    ((∃ text, args = .error text) ∧ ∃ text, args.map f = .error text) ∨
      (¬ ∃ text, args = .error text) ∧ ∃ a, args.map f = .ok a ∧ Ordinary a := by
  cases args with
  | error text => exact .inl ⟨⟨text, rfl⟩, text, rfl⟩
  | ok b => exact .inr ⟨fun ⟨text, h⟩ => (by cases h), f b, rfl, hf b⟩

theorem callHandler_cases (ax : Axum) (srv : Server) (m : Machine) (req : HttpRequest)
    (route : Route) (caller : String) :
    (Rejects ax req route ∧ ∃ text, callHandler ax srv m req route caller = .error text) ∨
      ¬ Rejects ax req route ∧
        ∃ a, callHandler ax srv m req route caller = .ok a ∧ Ordinary a := by
  obtain ⟨path, method, permission, handler⟩ := route
  cases handler with
  | health => exact .inr ⟨id, _, rfl, ordinary_okResponse _⟩
  | version => exact .inr ⟨id, _, rfl, ordinary_okResponse _⟩
  | system => exact .inr ⟨id, _, rfl, ordinary_system m⟩
  | updates => exact .inr ⟨id, _, rfl, ordinary_okResponse _⟩
  | services => exact extracted_cases _ (ordinary_services m)
  | serviceDetail => exact extracted_cases _ (ordinary_serviceDetail m)
  | applyUpdates =>
    exact extracted_cases _ (ordinary_applyUpdates ⟨srv.config, srv.updates⟩ m caller)

theorem withAuth_error {digest : String → Hash} {srv : Server} {req : Request}
    {permission : Permission} {denial : ApiErrorBody}
    (h : withAuth digest srv req permission = .error denial) :
    denial.error.requestId = none := by
  unfold withAuth at h
  rcases hmiddleware : middleware digest srv.config srv.tokens req permission with ⟨decision, name⟩
  rw [hmiddleware] at h
  cases decision <;> cases h <;> rfl

/-- **The three kinds of response**: a value, an error made by this program, or the framework's. -/
inductive Kind (ax : Axum) (digest : String → Hash) (srv : Server) (req : HttpRequest)
    (r : Response Payload) : Prop where
  | value (hbare : ¬ Bare ax digest srv req) (hstatus : r.status < 400)
      (hbody : ∃ p, r.body = .value p)
  | error {b : ApiErrorBody} (hbare : ¬ Bare ax digest srv req) (hb : b.error.requestId = none)
      (hr : r = b.intoResponse)
  | bare (hbare : Bare ax digest srv req) (hstatus : 400 ≤ r.status)
      (hbody : ∀ j, r.body ≠ .json j)

theorem Bare.route {ax : Axum} {digest : String → Hash} {srv : Server} {req : HttpRequest}
    (h : Bare ax digest srv req) : ∃ route caller, srv.route ax req = some route ∧
      withAuth digest srv req.auth route.permission = .ok caller ∧
      (route.takes req.method = true → Rejects ax req route) := by
  cases h with
  | method hroute hauth hnot =>
    refine ⟨_, _, hroute, hauth, fun htakes => ?_⟩
    rw [hnot] at htakes
    cases htakes
  | extraction hroute hauth htakes hrejects => exact ⟨_, _, hroute, hauth, fun _ => hrejects⟩

theorem answer_kind (ax : Axum) (digest : String → Hash) (srv : Server) (m : Machine)
    (req : HttpRequest) : Kind ax digest srv req (answer ax digest srv m req) := by
  unfold answer
  cases hroute : srv.route ax req with
  -- the fallback, for a path that is no route
  | none =>
    refine .error (fun h => ?_) rfl rfl
    obtain ⟨route, caller, hsome, -⟩ := h.route
    rw [hroute] at hsome
    cases hsome
  | some route =>
    cases hauth : withAuth digest srv req.auth route.permission with
    | error denial =>
      simp only [hauth]
      refine .error (fun h => ?_) (withAuth_error hauth) rfl
      obtain ⟨route', caller, hsome, hok, -⟩ := h.route
      rw [hroute] at hsome
      cases hsome
      rw [hauth] at hok
      cases hok
    | ok caller =>
      cases htakes : route.takes req.method with
      -- the framework's own 405, without a body
      | false =>
        simp only [hauth, htakes, Bool.false_eq_true, if_false]
        exact .bare (.method hroute hauth htakes) (by show 400 ≤ 405; decide)
          fun j h => (by cases h)
      | true =>
        simp only [hauth, htakes, if_true]
        rcases callHandler_cases ax srv m req route caller with
          ⟨hrejects, text, hcall⟩ | ⟨haccepts, a, hcall, ha⟩
        · simp only [hcall]
          exact .bare (.extraction hroute hauth htakes hrejects) (Nat.le_refl 400)
            fun j h => (by cases h)
        -- the handler answers, and what it says has an envelope
        · have hbare : ¬ Bare ax digest srv req := by
            intro h
            obtain ⟨route', caller', hsome, -, hrejects⟩ := h.route
            rw [hroute] at hsome
            cases hsome
            exact haccepts (hrejects htakes)
          simp only [hcall]
          cases a with
          | ok r => exact .value hbare ha.1 ha.2
          | error e => exact .error hbare ha rfl

/-- **Every error response is the documented envelope** unless the framework answers for the
program: with `405` to a request that is let in, or with `400` to one whose parameters it cannot
read. -/
theorem contract_iff (ax : Axum) (digest : String → Hash) (srv : Server) (m : Machine)
    (fresh : UInt64) (req : HttpRequest) :
    Contract req (answer ax digest srv m req) (respond ax digest srv m fresh req) ↔
      ¬ Bare ax digest srv req := by
  have hright := requestId_right req.requestId fresh
  have hheader := correlate_header req.requestId fresh (answer ax digest srv m req)
  have hother (name : String) (h : name ≠ "x-request-id") :
      (respond ax digest srv m fresh req).header name =
        (answer ax digest srv m req).header name :=
    correlate_header_ne _ _ h
  cases answer_kind ax digest srv m req with
  | value hbare hstatus hbody =>
    obtain ⟨p, hp⟩ := hbody
    refine iff_of_true ⟨fun hle => ?_, fun b hb => ?_⟩ hbare
    · exact absurd hstatus (Nat.not_lt.mpr hle)
    · rw [hp] at hb
      cases hb
  | @error b hbare hb hr =>
    have hbody : (answer ax digest srv m req).body = .json b.toJson := by rw [hr]; rfl
    have herror : 400 ≤ (answer ax digest srv m req).status ∧
        (answer ax digest srv m req).status < 600 := by
      rw [hr]
      exact httpStatus_error b.error.code
    have hfinal := correlate_body hbody herror (requestId req.requestId fresh)
    refine iff_of_true ⟨fun _ => ?_, fun b' hb' => ?_⟩ hbare
    · refine ⟨_, b.error.code, b.error.message, ?_, hheader, hright⟩
      rw [respond, hfinal, ApiErrorBody.identified, hb]
      rfl
    · exact ⟨rfl, ⟨_, correlate_body hb' herror _⟩, hother⟩
  | bare hbare hstatus hbody =>
    refine iff_of_false (fun h => ?_) (not_not_intro hbare)
    obtain ⟨id, code, message, hjson, -⟩ := h.envelope hstatus
    rw [respond, correlate_body_of_ne hbody] at hjson
    exact hbody _ hjson

/-- A segment in braces takes any other; the rest are compared. -/
def segmentTakes (s t : Chars) : Bool :=
  (s.head? == some '{' && s.getLast? == some '}' && t != []) || s == t

/-- Routing by segments, for paths without escapes and requests without a query. -/
def segmentAxum : Axum where
  admits _ := true
  serves route path :=
    List.all₂ segmentTakes (splitAll '/' route.toList) (splitAll '/' path.toList)
  pathArg _ path := .ok (String.ofList ((splitAll '/' path.toList).getLast?.getD []))
  queryArgs _ := .ok []

/-- **A wrong method gets no envelope**: `PUT /api/v1/health` from loopback, as the daemon is set up
out of the box. -/
theorem wrong_method_bare :
    ¬ ∀ (ax : Axum) (digest : String → Hash) (srv : Server) (m : Machine) (fresh : UInt64)
        (req : HttpRequest), build ax srv.config.api.basePath = some srv.routes →
        Contract req (answer ax digest srv m req) (respond ax digest srv m fresh req) := by
  intro h
  let updates := UpdatesState.host UpdateStore.inMemory
    (PathBuf.ofString "/var/lib/abora/apply-request.json") defaultResultFile
  let srv : Server := ⟨routes "/api/v1", {}, none, updates⟩
  let m : Machine := ⟨.ok (), .ok [], fun name => .error (.notFound name), false, none, .ok (),
    ⟨false, none, 0xa1, "2026-09-21T04:00:00Z", .ok ()⟩⟩
  let req : HttpRequest :=
    ⟨.other "PUT", "/api/v1/health", none, none, ⟨some (.v4 127 0 0 1), none⟩⟩
  let route : Route := ⟨"/api/v1/health", .get, .readHealth, .health⟩
  have hroute : srv.route segmentAxum req = some route := by decide +kernel
  have hauth : withAuth (fun _ => Vector.replicate 32 0) srv req.auth route.permission =
      .ok "loopback (no token)" := rfl
  exact (contract_iff segmentAxum _ srv m 0xb2 req).mp (h _ _ _ _ _ _ rfl)
    (.method hroute hauth rfl)

end Abora.Daemon
