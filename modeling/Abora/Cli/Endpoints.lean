import Abora.Config.Validate
import Abora.Daemon.Server

/-!
# Where the client calls (`resolve_daemon_url` and the commands in `cli/abora/src/main.rs`)

The client takes the address of the daemon from the configuration and the paths from its own text:
`/api/v1/` and a resource, whatever `[api] base_path` says. The daemon registers its routes under
that base path. `endpoints_agree_iff` says when the two meet.

What the framework makes of a route is assumed only segment by segment (`SegmentRouting`): a segment
without braces matches itself, and a base path may hold braces. So a base path that is no plain text
may serve `/api/v1` as well, and the condition is that it does.

Both sides put their URLs together from texts, and both are taken apart again here: the client's
into address, path and query (`parseHttpUrl_append`), which works because an accepted address has
none of the characters a path begins with, and the daemon's route into segments
(`splitAll_endpoint`). What is left is a comparison of segments in front of the resource
(`serves_resource`).
-/

namespace Abora.Cli

open Lib Lib.Text Daemon

/-- `resolve_daemon_url`: an argument, a variable, or what `load_config` returned. A configuration
that does not load leaves the default address. -/
def resolveDaemonUrl (explicit env : Option String) (loaded : Except String Config) : String :=
  match explicit, env with
  | some u, _ => String.ofList (trimEndSlash u.toList)
  | none, some u => String.ofList (trimEndSlash u.toList)
  | none, none =>
    let addr :=
      match loaded with
      | .ok config => config.remote.listenAddr
      | .error _ => "127.0.0.1:7360"
    if "http://".toList.isPrefixOf addr.toList || "https://".toList.isPrefixOf addr.toList then
      String.ofList (trimEndSlash addr.toList)
    else "http://" ++ addr

structure Call where
  method : Method
  url : String
  deriving DecidableEq, Repr

/-- Every call the client makes: `status`, `updates`, and the two of `updates apply`. -/
def cliCalls (base : String) : List Call :=
  [⟨.get, base ++ "/api/v1/health"⟩,
    ⟨.get, base ++ "/api/v1/version"⟩,
    ⟨.get, base ++ "/api/v1/system"⟩,
    ⟨.get, base ++ "/api/v1/updates"⟩,
    ⟨.post, base ++ "/api/v1/updates/apply?dry_run=true"⟩,
    ⟨.post, base ++ "/api/v1/updates/apply"⟩]

/-- A URL cut where the syntax of URLs cuts it. -/
structure Url where
  authority : Chars
  path : Chars
  query : Option Chars
  deriving DecidableEq, Repr

def endsAuthority (c : Char) : Bool := ['/', '?', '#'].contains c

def endsPath (c : Char) : Bool := ['?', '#'].contains c

/-- Where the client's library cuts an `http` URL: before the first slash, question mark or hash. -/
def parseHttpUrl (url : Chars) : Option Url :=
  ("http://".toList.isPrefixOf? url).map fun rest =>
    let tail := rest.dropWhile (!endsAuthority ·)
    let query := tail.dropWhile (!endsPath ·)
    { authority := rest.takeWhile (!endsAuthority ·)
      path := tail.takeWhile (!endsPath ·)
      query := (['?'].isPrefixOf? query).map fun q => q.takeWhile (· != '#') }

/-- The call reaches the address the daemon listens on, and a route it registered. -/
def Served (ax : Axum) (config : Config) (rs : List Route) (call : Call) : Prop :=
  ∃ url, parseHttpUrl call.url.toList = some url ∧
    (∃ addr, parseSocketAddr (String.ofList url.authority) = some addr ∧
      parseSocketAddr config.remote.listenAddr = some addr) ∧
    ∃ r ∈ rs, r.method = call.method ∧ ax.serves r.path (String.ofList url.path) = true

/-- How the framework matches the routes it took: segment by segment. What a segment with braces
matches is left open. -/
structure SegmentRouting (ax : Axum) where
  segment : Chars → Chars → Prop
  /-- A segment without braces matches itself. -/
  plain : ∀ {s t : Chars}, '{' ∉ s → '}' ∉ s → (segment s t ↔ s = t)
  serves_iff : ∀ {basePath : String} {rs : List Route} {r : Route} {path : String},
    build ax basePath = some rs → r ∈ rs →
      (ax.serves r.path path = true ↔
        List.Forall₂ segment (splitAll '/' r.path.toList) (splitAll '/' path.toList))

/-- One text as a route, the other as a path. -/
def SegmentRouting.Serves {ax : Axum} (rt : SegmentRouting ax) (route path : Chars) : Prop :=
  List.Forall₂ rt.segment (splitAll '/' route) (splitAll '/' path)

/-! ## The address -/

theorem not_addressChar {c : Char} (h : c ∈ ['/', '?', '#', 'h']) : ¬ AddressChar c := by
  intro hc
  simp only [List.mem_cons, List.not_mem_nil, or_false] at h
  rcases h with rfl | rfl | rfl | rfl <;> cases hc with
  | inl hdigit => exact absurd hdigit (by decide)
  | inr hmark => exact absurd hmark (by decide)

/-- The client's base is the listen address, with a scheme: an address has no slash at its end. -/
theorem resolveDaemonUrl_config {config : Config} {addr : SocketAddr}
    (h : parseSocketAddr config.remote.listenAddr = some addr) :
    resolveDaemonUrl none none (.ok config) = "http://" ++ config.remote.listenAddr := by
  have hnot {scheme : Chars} (hscheme : scheme.head? = some 'h') :
      scheme.isPrefixOf config.remote.listenAddr.toList = false := by
    cases hp : scheme.isPrefixOf config.remote.listenAddr.toList with
    | false => rfl
    | true =>
      have hmem : 'h' ∈ config.remote.listenAddr.toList :=
        (List.isPrefixOf_iff_prefix.mp hp).subset (List.mem_of_mem_head? hscheme)
      exact absurd (mem_addressText h 'h' hmem) (not_addressChar (by simp))
  simp only [resolveDaemonUrl, hnot (show "http://".toList.head? = some 'h' from rfl),
    hnot (show "https://".toList.head? = some 'h' from rfl), Bool.or_self, Bool.false_eq_true,
    if_false]

/-- A URL that was put together from an address, a path and perhaps a query comes apart so. -/
theorem parseHttpUrl_append {addr path query : Chars} (haddr : ∀ c ∈ addr, endsAuthority c = false)
    (hpath : ∀ c ∈ path, endsPath c = false) (hquery : query = [] ∨ query.head? = some '?') :
    ∃ q, parseHttpUrl ("http://".toList ++ (addr ++ ('/' :: path ++ query))) =
      some ⟨addr, '/' :: path, q⟩ := by
  have hscheme (rest : Chars) : "http://".toList.isPrefixOf? ("http://".toList ++ rest) =
      some rest := rfl
  have haddr' : ∀ c ∈ addr, (!endsAuthority c) = true := fun c hc => by rw [haddr c hc]; rfl
  have hpath' : ∀ c ∈ '/' :: path, (!endsPath c) = true := by
    rw [List.forall_mem_cons]
    exact ⟨rfl, fun c hc => by rw [hpath c hc]; rfl⟩
  have hslash : (!endsAuthority '/') = false := rfl
  have hstop : query.takeWhile (!endsPath ·) = [] := by
    rcases hquery with rfl | hhead
    · rfl
    · cases query with
      | nil => rfl
      | cons c cs =>
        cases hhead
        rfl
  have htail : (addr ++ ('/' :: path ++ query)).dropWhile (!endsAuthority ·) =
      '/' :: path ++ query := by
    rw [List.dropWhile_append_of_pos haddr', List.cons_append, List.dropWhile_cons, hslash]
    rfl
  have hauthority : (addr ++ ('/' :: path ++ query)).takeWhile (!endsAuthority ·) = addr := by
    rw [List.takeWhile_append_of_pos haddr', List.cons_append, List.takeWhile_cons, hslash]
    simp
  have hpathname : ('/' :: path ++ query).takeWhile (!endsPath ·) = '/' :: path := by
    rw [List.takeWhile_append_of_pos hpath', hstop, List.append_nil]
  unfold parseHttpUrl
  rw [hscheme, Option.map_some]
  simp only [htail, hauthority, hpathname]
  exact ⟨_, rfl⟩

/-! ## The routes -/

theorem splitAll_endpoint {basePath resource : String} (h : resource.toList.head? ≠ some '/') :
    splitAll '/' (endpoint basePath resource).toList =
      splitAll '/' (trimEndSlash basePath.toList) ++ splitAll '/' resource.toList := by
  have hdrop : resource.toList.dropWhile (· == '/') = resource.toList := by
    cases hr : resource.toList with
    | nil => rfl
    | cons c cs =>
      rw [hr] at h
      have hc : (c == '/') = false := by simpa using h
      rw [List.dropWhile_cons, hc]
      rfl
  rw [endpoint, String.toList_ofList, hdrop, splitAll_append]

/-- **One resource**: its route serves the client's path exactly when the base path, as a route,
serves `/api/v1`. The segments behind that are the resource's on both sides. -/
theorem serves_resource {ax : Axum} (rt : SegmentRouting ax) {basePath resource path : String}
    {rs : List Route} {r : Route} (hbuild : build ax basePath = some rs) (hr : r ∈ rs)
    (hroute : r.path = endpoint basePath resource) (hhead : resource.toList.head? ≠ some '/')
    (hplain : ∀ s ∈ splitAll '/' resource.toList, '{' ∉ s ∧ '}' ∉ s)
    (hpath : path.toList = "/api/v1".toList ++ '/' :: resource.toList) :
    ax.serves r.path path = true ↔
      rt.Serves (trimEndSlash basePath.toList) "/api/v1".toList := by
  rw [rt.serves_iff hbuild hr, hroute, splitAll_endpoint hhead, hpath, splitAll_append,
    forall₂_append_iff rfl]
  refine and_iff_left (List.forall₂_same.mpr fun s hs => ?_)
  exact (rt.plain (hplain s hs).1 (hplain s hs).2).mpr rfl

theorem build_eq_some {ax : Axum} {basePath : String} {rs : List Route}
    (h : build ax basePath = some rs) : rs = routes basePath := by
  unfold build at h
  split at h
  · exact (Option.some.inj h).symm
  · cases h

/-- What a route serves, its resource serves the end of, so a route of another resource does not
serve the path. -/
theorem serves_end {ax : Axum} (rt : SegmentRouting ax) {basePath resource path : String}
    {rs : List Route} {r : Route} (hbuild : build ax basePath = some rs) (hr : r ∈ rs)
    (hpath : r.path = endpoint basePath resource) (hhead : resource.toList.head? ≠ some '/')
    (hserves : ax.serves r.path path = true) {start stop : List Chars}
    (hsplit : splitAll '/' path.toList = start ++ stop)
    (hlen : (splitAll '/' resource.toList).length = stop.length) :
    List.Forall₂ rt.segment (splitAll '/' resource.toList) stop := by
  rw [rt.serves_iff hbuild hr, hpath, splitAll_endpoint hhead, hsplit, forall₂_append_iff hlen]
    at hserves
  exact hserves.2

/-- No other route for `GET` serves the client's path to `health`. -/
theorem health_route {ax : Axum} (rt : SegmentRouting ax) {basePath : String} {rs : List Route}
    {r : Route} (hbuild : build ax basePath = some rs) (hr : r ∈ rs) (hget : r.method = .get)
    (hserves : ax.serves r.path "/api/v1/health" = true) :
    r.path = endpoint basePath "health" := by
  have hone : splitAll '/' "/api/v1/health".toList =
      [[], "api".toList, "v1".toList] ++ ["health".toList] := rfl
  have htwo : splitAll '/' "/api/v1/health".toList =
      [[], "api".toList] ++ ["v1".toList, "health".toList] := rfl
  -- a route of one plain segment serves a path that ends in it
  have hlast {resource : String} (hpath : r.path = endpoint basePath resource)
      (hhead : resource.toList.head? ≠ some '/')
      (hsegment : splitAll '/' resource.toList = [resource.toList])
      (hplain : '{' ∉ resource.toList ∧ '}' ∉ resource.toList) : resource = "health" := by
    have hend := serves_end rt hbuild hr hpath hhead hserves hone (by rw [hsegment]; rfl)
    rw [hsegment] at hend
    exact String.toList_inj.mp ((rt.plain hplain.1 hplain.2).mp (List.forall₂_cons.mp hend).1)
  have hmem := hr
  rw [build_eq_some hbuild] at hmem
  simp only [routes, List.mem_cons, List.not_mem_nil, or_false] at hmem
  rcases hmem with rfl | rfl | rfl | rfl | rfl | rfl | rfl
  · rfl
  · exact absurd (hlast rfl (by decide) rfl (by decide)) (by decide)
  · exact absurd (hlast rfl (by decide) rfl (by decide)) (by decide)
  · exact absurd (hlast rfl (by decide) rfl (by decide)) (by decide)
  · have hend := serves_end rt hbuild hr rfl (by decide) hserves htwo rfl
    have hservices := (List.forall₂_cons.mp hend).1
    exact absurd ((rt.plain (by decide) (by decide)).mp hservices) (by decide)
  · cases hget
  · exact absurd (hlast rfl (by decide) rfl (by decide)) (by decide)

/-- A call is served when the path it names is. -/
theorem served_iff {ax : Axum} {config : Config} {addr : SocketAddr}
    (haddr : parseSocketAddr config.remote.listenAddr = some addr) {rs : List Route} {call : Call}
    {path : String} {query : Chars}
    (hurl : call.url.toList = "http://".toList ++
      (config.remote.listenAddr.toList ++ (path.toList ++ query)))
    (hslash : path.toList.head? = some '/') (hpath : ∀ c ∈ path.toList, endsPath c = false)
    (hquery : query = [] ∨ query.head? = some '?') :
    Served ax config rs call ↔ ∃ r ∈ rs, r.method = call.method ∧ ax.serves r.path path = true := by
  -- an address that parses has no character that would end it inside a URL
  have hauthority : ∀ c ∈ config.remote.listenAddr.toList, endsAuthority c = false := by
    intro c hc
    have hchar := mem_addressText haddr c hc
    cases hends : endsAuthority c with
    | false => rfl
    | true =>
      have hmem : c ∈ ['/', '?', '#'] := List.contains_iff_mem.mp hends
      exact absurd hchar (not_addressChar (List.mem_append_left ['h'] hmem))
  obtain ⟨p, hp⟩ : ∃ p, path.toList = '/' :: p := by
    cases hlist : path.toList with
    | nil =>
      rw [hlist] at hslash
      cases hslash
    | cons c p =>
      rw [hlist] at hslash
      cases hslash
      exact ⟨p, rfl⟩
  rw [hp] at hurl hpath
  obtain ⟨q, hparse⟩ := parseHttpUrl_append hauthority (List.forall_mem_cons.mp hpath).2 hquery
  rw [← hurl] at hparse
  have hname : String.ofList ('/' :: p) = path := by rw [← hp, String.ofList_toList]
  have hsame : String.ofList config.remote.listenAddr.toList = config.remote.listenAddr :=
    String.ofList_toList
  constructor
  · intro ⟨url, hurl', _, r, hr, hmethod, hserves⟩
    rw [hparse] at hurl'
    cases hurl'
    rw [hname] at hserves
    exact ⟨r, hr, hmethod, hserves⟩
  · intro ⟨r, hr, hmethod, hserves⟩
    refine ⟨_, hparse, ⟨addr, by rw [hsame, haddr], haddr⟩, r, hr, hmethod, ?_⟩
    rw [hname]
    exact hserves

theorem SegmentRouting.serves_plain {ax : Axum} (rt : SegmentRouting ax) {route path : Chars}
    (hopen : '{' ∉ route) (hclose : '}' ∉ route) : rt.Serves route path ↔ route = path := by
  have hall {l m : List Chars} (h : ∀ s ∈ l, '{' ∉ s ∧ '}' ∉ s) :
      List.Forall₂ rt.segment l m ↔ l = m := by
    induction l generalizing m with
    | nil => rw [List.forall₂_nil_left_iff, eq_comm]
    | cons s l ih =>
      obtain ⟨hs, hl⟩ := List.forall_mem_cons.mp h
      cases m with
      | nil => simp
      | cons t m => rw [List.forall₂_cons, rt.plain hs.1 hs.2, ih hl, List.cons_eq_cons]
  unfold SegmentRouting.Serves
  rw [hall fun s hs => ⟨fun hc => hopen (mem_of_mem_splitAll hs hc),
    fun hc => hclose (mem_of_mem_splitAll hs hc)⟩]
  exact ⟨splitAll_inj, fun he => by rw [he]⟩

theorem mem_of_mem_trimEndSlash {s : Chars} {c : Char} (h : c ∈ trimEndSlash s) : c ∈ s := by
  have hdrop := List.mem_reverse.mp h
  exact List.mem_reverse.mp ((List.dropWhile_sublist _).subset hdrop)

theorem endsPath_free {s : Chars} (h : s.all (fun c => !endsPath c) = true) :
    ∀ c ∈ s, endsPath c = false := by
  intro c hc
  simpa using List.all_eq_true.mp h c hc

/-- A call to one resource of the API, with perhaps a query behind it. -/
structure CallsResource (basePath base : String) (call : Call) (resource path : String)
    (query : Chars) : Prop where
  route : ∃ r ∈ routes basePath, r.path = endpoint basePath resource ∧ r.method = call.method
  head : resource.toList.head? ≠ some '/'
  plain : ∀ s ∈ splitAll '/' resource.toList, '{' ∉ s ∧ '}' ∉ s
  under : path.toList = "/api/v1".toList ++ '/' :: resource.toList
  ends : ∀ c ∈ path.toList, endsPath c = false
  url : call.url.toList = base.toList ++ (path.toList ++ query)
  tail : query = [] ∨ query.head? = some '?'

/-- The client only ever calls resources the daemon has, each with the daemon's method. -/
theorem cliCalls_resource (basePath base : String) {call : Call} (h : call ∈ cliCalls base) :
    ∃ resource path query, CallsResource basePath base call resource path query := by
  have hroute {r : Route} (hr : r ∈ routes basePath) {resource : String} {m : Method}
      (hpath : r.path = endpoint basePath resource) (hm : r.method = m) :
      ∃ r ∈ routes basePath, r.path = endpoint basePath resource ∧ r.method = m :=
    ⟨r, hr, hpath, hm⟩
  simp only [cliCalls, List.mem_cons, List.not_mem_nil, or_false] at h
  rcases h with rfl | rfl | rfl | rfl | rfl | rfl
  · exact ⟨"health", "/api/v1/health", [], hroute (.head _) rfl rfl, by decide, by decide, rfl,
      endsPath_free rfl, by simp, .inl rfl⟩
  · exact ⟨"version", "/api/v1/version", [], hroute (.tail _ (.head _)) rfl rfl, by decide,
      by decide, rfl, endsPath_free rfl, by simp, .inl rfl⟩
  · exact ⟨"system", "/api/v1/system", [], hroute (.tail _ (.tail _ (.head _))) rfl rfl,
      by decide, by decide, rfl, endsPath_free rfl, by simp, .inl rfl⟩
  · have hmem : ⟨endpoint basePath "updates", .get, .readUpdates, .updates⟩ ∈ routes basePath := by
      simp [routes]
    exact ⟨"updates", "/api/v1/updates", [], hroute hmem rfl rfl, by decide, by decide, rfl,
      endsPath_free rfl, by simp, .inl rfl⟩
  · have hmem : ⟨endpoint basePath "updates/apply", .post, .manageUpdates, .applyUpdates⟩ ∈
        routes basePath := by simp [routes]
    exact ⟨"updates/apply", "/api/v1/updates/apply", "?dry_run=true".toList,
      hroute hmem rfl rfl, by decide, by decide, rfl, endsPath_free rfl, by simp, .inr rfl⟩
  · have hmem : ⟨endpoint basePath "updates/apply", .post, .manageUpdates, .applyUpdates⟩ ∈
        routes basePath := by simp [routes]
    exact ⟨"updates/apply", "/api/v1/updates/apply", [], hroute hmem rfl rfl, by decide,
      by decide, rfl, endsPath_free rfl, by simp, .inl rfl⟩

/-- All calls are served when the base path serves `/api/v1`, and `health` is not when it does
not. -/
theorem all_served_iff {ax : Axum} (rt : SegmentRouting ax) {config : Config} {addr : SocketAddr}
    (haddr : parseSocketAddr config.remote.listenAddr = some addr) {rs : List Route}
    (hbuild : build ax config.api.basePath = some rs) :
    (∀ call ∈ cliCalls (resolveDaemonUrl none none (.ok config)), Served ax config rs call) ↔
      rt.Serves (trimEndSlash config.api.basePath.toList) "/api/v1".toList := by
  rw [resolveDaemonUrl_config haddr]
  constructor
  · intro hall
    have hhealth := hall _ List.mem_cons_self
    have hpath : ∀ c ∈ "/api/v1/health".toList, endsPath c = false := endsPath_free rfl
    rw [served_iff haddr (by simp) rfl hpath (.inl rfl)] at hhealth
    obtain ⟨r, hr, hget, hserves⟩ := hhealth
    have hroute := health_route rt hbuild hr hget hserves
    exact (serves_resource rt hbuild hr hroute (by decide) (by decide) rfl).mp hserves
  · intro hbase call hcall
    obtain ⟨resource, path, query, hres⟩ := cliCalls_resource config.api.basePath _ hcall
    obtain ⟨r, hr, hroute, hmethod⟩ := hres.route
    rw [← build_eq_some hbuild] at hr
    have hurl := hres.url
    rw [String.toList_append, List.append_assoc] at hurl
    have hslash : path.toList.head? = some '/' := by rw [hres.under]; rfl
    refine (served_iff haddr hurl hslash hres.ends hres.tail).mpr ⟨r, hr, hmethod, ?_⟩
    exact (serves_resource rt hbuild hr hroute hres.head hres.plain hres.under).mpr hbase

/-- **The client and the daemon agree on every endpoint** exactly when the base path without its
trailing slashes serves `/api/v1`: for a base path without braces, when it is `/api/v1`. A daemon
that does not come up has nothing to agree on. -/
theorem endpoints_agree_iff {ax : Axum} (rt : SegmentRouting ax) {config : Config}
    (h : config.validate = .ok ()) :
    ((∀ rs, build ax config.api.basePath = some rs →
        ∀ call ∈ cliCalls (resolveDaemonUrl none none (.ok config)), Served ax config rs call) ↔
      build ax config.api.basePath = none ∨
        rt.Serves (trimEndSlash config.api.basePath.toList) "/api/v1".toList) ∧
      ('{' ∉ config.api.basePath.toList → '}' ∉ config.api.basePath.toList →
        (rt.Serves (trimEndSlash config.api.basePath.toList) "/api/v1".toList ↔
          trimEndSlash config.api.basePath.toList = "/api/v1".toList)) := by
  obtain ⟨addr, haddr⟩ := (validate_ok_iff.mp h).listenAddr
  constructor
  · cases hbuild : build ax config.api.basePath with
    | none => exact iff_of_true (fun rs hrs => (by cases hrs)) (.inl rfl)
    | some rs =>
      rw [← all_served_iff rt haddr hbuild]
      constructor
      · exact fun hall => .inr (hall rs rfl)
      · rintro (hnone | hall) rs' hrs'
        · cases hnone
        · cases hrs'
          exact hall
  · intro hopen hclose
    exact rt.serves_plain (fun hc => hopen (mem_of_mem_trimEndSlash hc))
      fun hc => hclose (mem_of_mem_trimEndSlash hc)

def segmentRouting : SegmentRouting segmentAxum where
  segment s t := segmentTakes s t = true
  plain := by
    intro s t hopen hclose
    have hhead : (s.head? == some '{') = false := by
      rw [beq_eq_false_iff_ne]
      exact fun h => hopen (List.mem_of_mem_head? h)
    simp [segmentTakes, hhead]
  serves_iff := fun _ _ => List.all₂_eq_true _ _

/-- Out of the box they agree. -/
theorem endpoints_agree_default :
    ∃ rs, build segmentAxum ({} : Config).api.basePath = some rs ∧
      ∀ call ∈ cliCalls (resolveDaemonUrl none none (.ok {})), Served segmentAxum {} rs call := by
  have hbuild : build segmentAxum ({} : Config).api.basePath = some (routes "/api/v1") := rfl
  obtain ⟨hagree, hplain⟩ := endpoints_agree_iff segmentRouting validate_default
  have hserves := (hplain (by decide) (by decide)).mpr (by decide)
  exact ⟨_, hbuild, hagree.mpr (.inr hserves) _ hbuild⟩

/-- **Under another base path they do not.** -/
theorem endpoints_differ :
    ¬ ∀ (ax : Axum) (_ : SegmentRouting ax) (config : Config), config.validate = .ok () →
        ∀ rs, build ax config.api.basePath = some rs →
          ∀ call ∈ cliCalls (resolveDaemonUrl none none (.ok config)),
            Served ax config rs call := by
  intro h
  let config : Config := { api := { basePath := "/abora" } }
  have hvalid : config.validate = .ok () := by decide +kernel
  have hbuild : build segmentAxum config.api.basePath = some (routes "/abora") := rfl
  obtain ⟨addr, haddr⟩ := (validate_ok_iff.mp hvalid).listenAddr
  have hserves := (all_served_iff segmentRouting haddr hbuild).mp
    (h segmentAxum segmentRouting config hvalid _ hbuild)
  have hsame := (segmentRouting.serves_plain (by decide) (by decide)).mp hserves
  exact absurd hsame (by decide)

end Abora.Cli
