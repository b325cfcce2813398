import Abora.Daemon.Auth

/-!
# Who is let in, and under which name

`middleware` looks a secret up twice: `authorize` to decide, and the closure beside it for the audit
trail. `handlerCaller` is what a handler sees of both — it runs or it does not, and if it does,
under some name.

`Entitled` is the rule those two lookups are there to implement, said about the *entries* of the
store: the first entry with the secret's hash decides, and what it lists is what it grants. A later
entry with the same hash is never looked at, whatever it lists.

`handlerCaller_eq_some_iff` is the whole connection. The two lookups search the same list for the
same hash, so they find the same entry; what could go wrong is that one of them searches when the
other does not, and the store that both are given is the one that is enforced. The results after it
read the connection at one permission.
-/

namespace Abora.Daemon

open Abora.Lib

/-- The `Caller` a handler runs with, if it runs. A request that no token was asked of runs under a
fixed name. -/
def handlerCaller (digest : String → Hash) (config : Config) (tokens : Option TokenStore)
    (req : Request) (permission : Permission) : Option String :=
  match middleware digest config tokens req permission with
  | (.allowed, caller) => some (caller.getD "loopback (no token)")
  | _ => none

/-- The store requests are checked against: none at all while authentication is not required. -/
def enforced (config : Config) (tokens : Option TokenStore) : Option TokenStore :=
  if config.security.requireAuthentication then tokens else none

/-- `entry` is the first of the store with the hash of `secret`. -/
def FirstMatch (digest : String → Hash) (store : TokenStore) (secret : String) (entry : Entry) :
    Prop :=
  entry.hash = digest secret ∧ ∃ before after, store.entries = before ++ entry :: after ∧
    ∀ e ∈ before, e.hash ≠ digest secret

/-- The entry names the permission, or names `read_all` and the permission is one to read. Whether
it is one is a matter of how its name begins. -/
def Entry.Lists (entry : Entry) (permission : Permission) : Prop :=
  permission.permissionId ∈ entry.token.permissions ∨
    "read_all" ∈ entry.token.permissions ∧
      "read:".toList <+: permission.permissionId.toList

/-- What lets a request from loopback in, and the name it is let in under. `preview` is the case
without a store, in which reads are open and nothing else is. -/
inductive Entitled (digest : String → Hash) (config : Config) (tokens : Option TokenStore)
    (req : Request) (permission : Permission) : String → Prop where
  | preview (hstore : tokens = none ∨ config.security.requireAuthentication = false)
      (hread : permission.isMutating = false) :
      Entitled digest config tokens req permission "loopback (no token)"
  | token {store : TokenStore} {secret : String} {entry : Entry}
      (hstore : tokens = some store) (hrequire : config.security.requireAuthentication = true)
      (hsecret : presented req.authorization = some secret)
      (hentry : FirstMatch digest store secret entry) (hlists : entry.Lists permission) :
      Entitled digest config tokens req permission (entry.token.name.getD "unnamed token")

def FromLoopback (req : Request) : Prop := ∃ peer, req.peer = some peer ∧ peer.isLoopback = true

/-! ## The parts of the decision -/

/-- There is nothing to check against without a store, or without the setting. -/
theorem enforced_eq_none_iff {config : Config} {tokens : Option TokenStore} :
    enforced config tokens = none ↔
      tokens = none ∨ config.security.requireAuthentication = false := by
  unfold enforced
  cases config.security.requireAuthentication with
  | true => simp
  | false => simp

theorem enforced_eq_some_iff {config : Config} {tokens : Option TokenStore} {store : TokenStore} :
    enforced config tokens = some store ↔
      tokens = some store ∧ config.security.requireAuthentication = true := by
  unfold enforced
  cases config.security.requireAuthentication with
  | true => simp
  | false => simp

/-- An unknown peer counts as `0.0.0.0`, which is not loopback. -/
theorem fromLoopback_iff {req : Request} :
    (req.peer.getD (.v4 0 0 0 0)).isLoopback = true ↔ FromLoopback req := by
  unfold FromLoopback
  cases req.peer with
  | none =>
    refine ⟨fun h => ?_, fun ⟨_, h, _⟩ => by cases h⟩
    exact absurd h (by decide)
  | some peer => simp

theorem find_eq_some_iff {digest : String → Hash} {store : TokenStore} {secret : String}
    {token : StoredToken} :
    store.find digest secret = some token ↔
      ∃ entry, FirstMatch digest store secret entry ∧ entry.token = token := by
  unfold TokenStore.find FirstMatch
  simp only [Option.map_eq_some_iff, List.find?_eq_some_iff_append, ctEq_iff]
  refine exists_congr fun entry => and_congr_left fun _ => and_congr_right fun _ => ?_
  refine exists_congr fun before => exists_congr fun after => and_congr_right fun _ => ?_
  refine forall₂_congr fun e _ => ?_
  simp [← ctEq_iff]

theorem grants_iff {entry : Entry} {permission : Permission} :
    entry.token.grants permission.permissionId = true ↔ entry.Lists permission := by
  simp only [StoredToken.grants, Entry.Lists, List.any_eq_true, Bool.or_eq_true,
    Bool.and_eq_true, beq_iff_eq, List.isPrefixOf_iff_prefix]
  constructor
  · rintro ⟨p, hp, rfl | ⟨rfl, hread⟩⟩
    · exact .inl hp
    · exact .inr ⟨hp, hread⟩
  · rintro (hp | ⟨hp, hread⟩)
    · exact ⟨_, hp, .inl rfl⟩
    · exact ⟨_, hp, .inr ⟨rfl, hread⟩⟩

/-- `read_all` is no help with a permission that is not one to read. -/
theorem lists_manageUpdates_iff {entry : Entry} :
    entry.Lists .manageUpdates ↔ "manage:updates" ∈ entry.token.permissions := by
  refine or_iff_left fun h => ?_
  have hnot : ¬ "read:".toList <+: "manage:updates".toList := by decide
  exact hnot h.2

theorem FirstMatch.token_eq {digest : String → Hash} {store : TokenStore} {secret : String}
    {a b : Entry} (ha : FirstMatch digest store secret a) (hb : FirstMatch digest store secret b) :
    a.token = b.token := by
  have hfa := find_eq_some_iff.mpr ⟨a, ha, rfl⟩
  have hfb := find_eq_some_iff.mpr ⟨b, hb, rfl⟩
  rw [hfa] at hfb
  exact Option.some.inj hfb

/-! ## The decision and the name together -/

/-- **The decision**: loopback, and a read without a store or a listed permission with one. A remote
peer is refused before anything else is looked at. -/
theorem authorize_eq_allowed_iff {digest : String → Hash} {peer : IpAddr}
    {permission : Permission} {bearer : Option String} {store : Option TokenStore} :
    authorize digest peer permission bearer store = .allowed ↔
      peer.isLoopback = true ∧
        (store = none ∧ permission.isMutating = false ∨
          ∃ st secret entry, store = some st ∧ bearer = some secret ∧
            FirstMatch digest st secret entry ∧ entry.Lists permission) := by
  unfold authorize
  cases hloop : peer.isLoopback with
  | false => simp
  | true =>
    cases store with
    | none => cases hmut : permission.isMutating <;> simp
    | some st =>
      cases bearer with
      | none => simp
      | some secret =>
        cases hfind : st.find digest secret with
        | none =>
          have hnone : ∀ entry, ¬ FirstMatch digest st secret entry := by
            intro entry hfirst
            rw [find_eq_some_iff.mpr ⟨entry, hfirst, rfl⟩] at hfind
            cases hfind
          simp [hfind, hnone]
        | some token =>
          obtain ⟨entry, hfirst, rfl⟩ := find_eq_some_iff.mp hfind
          have hlists : (∃ e, FirstMatch digest st secret e ∧ e.Lists permission) ↔
              entry.token.grants permission.permissionId = true := by
            constructor
            · rintro ⟨e, he, hl⟩
              rw [hfirst.token_eq he]
              exact grants_iff.mpr hl
            · exact fun h => ⟨entry, hfirst, grants_iff.mp h⟩
          simp [hfind, hlists]

/-- The decision is about the enforced store. The name does not enter into it. -/
theorem middleware_decision (digest : String → Hash) (config : Config)
    (tokens : Option TokenStore) (req : Request) (permission : Permission) :
    (middleware digest config tokens req permission).1 =
      authorize digest (req.peer.getD (.v4 0 0 0 0)) permission (presented req.authorization)
        (enforced config tokens) := rfl

theorem middleware_name_none {digest : String → Hash} {config : Config}
    {tokens : Option TokenStore} {req : Request} {permission : Permission}
    (hstore : enforced config tokens = none) :
    (middleware digest config tokens req permission).2 = none := by
  show (do
    let store ← enforced config tokens
    let secret ← presented req.authorization
    let token ← store.find digest secret
    some (token.name.getD "unnamed token")) = none
  rw [hstore]
  rfl

/-- The name is that of the entry the decision was about. -/
theorem middleware_name_some {digest : String → Hash} {config : Config}
    {tokens : Option TokenStore} {req : Request} {permission : Permission} {store : TokenStore}
    {secret : String} {entry : Entry} (hstore : enforced config tokens = some store)
    (hsecret : presented req.authorization = some secret)
    (hentry : FirstMatch digest store secret entry) :
    (middleware digest config tokens req permission).2 =
      some (entry.token.name.getD "unnamed token") := by
  show (do
    let store ← enforced config tokens
    let secret ← presented req.authorization
    let token ← store.find digest secret
    some (token.name.getD "unnamed token")) = some (entry.token.name.getD "unnamed token")
  have hfind := find_eq_some_iff.mpr ⟨entry, hentry, rfl⟩
  simp [hstore, hsecret, hfind]

theorem handlerCaller_eq {digest : String → Hash} {config : Config} {tokens : Option TokenStore}
    {req : Request} {permission : Permission} {caller : String} :
    handlerCaller digest config tokens req permission = some caller ↔
      (middleware digest config tokens req permission).1 = .allowed ∧
        ((middleware digest config tokens req permission).2).getD "loopback (no token)" =
          caller := by
  unfold handlerCaller
  obtain ⟨decision, name⟩ := middleware digest config tokens req permission
  cases decision <;> simp

/-- **Both lookups find the same entry**: a handler runs exactly for a loopback request that is
entitled to it, and under the name it is entitled to. -/
theorem handlerCaller_eq_some_iff {digest : String → Hash} {config : Config}
    {tokens : Option TokenStore} {req : Request} {permission : Permission} {caller : String} :
    handlerCaller digest config tokens req permission = some caller ↔
      FromLoopback req ∧ Entitled digest config tokens req permission caller := by
  rw [handlerCaller_eq, middleware_decision, authorize_eq_allowed_iff, fromLoopback_iff, and_assoc]
  refine and_congr_right fun _ => ?_
  constructor
  · rintro ⟨⟨hno, hread⟩ | ⟨store, secret, entry, hstore, hsecret, hfirst, hlists⟩, rfl⟩
    · rw [middleware_name_none hno]
      exact .preview (enforced_eq_none_iff.mp hno) hread
    · obtain ⟨htokens, hrequire⟩ := enforced_eq_some_iff.mp hstore
      rw [middleware_name_some hstore hsecret hfirst]
      exact .token htokens hrequire hsecret hfirst hlists
  · intro h
    cases h with
    | preview hstore hread =>
      have hno := enforced_eq_none_iff.mpr hstore
      refine ⟨.inl ⟨hno, hread⟩, ?_⟩
      rw [middleware_name_none hno]
      rfl
    | token hstore hrequire hsecret hfirst hlists =>
      have henf := enforced_eq_some_iff.mpr ⟨hstore, hrequire⟩
      refine ⟨.inr ⟨_, _, _, henf, hsecret, hfirst, hlists⟩, ?_⟩
      rw [middleware_name_some henf hsecret hfirst]
      rfl

/-! ## What it means for a route -/

/-- What runs, and what runs the one mutating route. The second half is the first at that
permission, where neither the open reads nor `read_all` are of any help. -/
theorem handler_runs_iff (digest : String → Hash) (config : Config) (tokens : Option TokenStore)
    (req : Request) (permission : Permission) :
    ((handlerCaller digest config tokens req permission).isSome = true ↔
      FromLoopback req ∧
        ((tokens = none ∨ config.security.requireAuthentication = false) ∧
            permission.isMutating = false ∨
          ∃ store secret entry, tokens = some store ∧
            config.security.requireAuthentication = true ∧
            presented req.authorization = some secret ∧ FirstMatch digest store secret entry ∧
            entry.Lists permission)) ∧
      ∀ caller, handlerCaller digest config tokens req .manageUpdates = some caller →
        ∃ store secret entry, tokens = some store ∧
          config.security.requireAuthentication = true ∧
          presented req.authorization = some secret ∧ FirstMatch digest store secret entry ∧
          "manage:updates" ∈ entry.token.permissions ∧
          caller = entry.token.name.getD "unnamed token" := by
  constructor
  · rw [Option.isSome_iff_exists]
    constructor
    · rintro ⟨caller, h⟩
      obtain ⟨hloop, hentitled⟩ := handlerCaller_eq_some_iff.mp h
      cases hentitled with
      | preview hstore hread => exact ⟨hloop, .inl ⟨hstore, hread⟩⟩
      | token hstore hrequire hsecret hfirst hlists =>
        exact ⟨hloop, .inr ⟨_, _, _, hstore, hrequire, hsecret, hfirst, hlists⟩⟩
    · rintro ⟨hloop, ⟨hstore, hread⟩ |
        ⟨store, secret, entry, hstore, hrequire, hsecret, hfirst, hlists⟩⟩
      · exact ⟨_, handlerCaller_eq_some_iff.mpr ⟨hloop, .preview hstore hread⟩⟩
      · exact ⟨_, handlerCaller_eq_some_iff.mpr
          ⟨hloop, .token hstore hrequire hsecret hfirst hlists⟩⟩
  · intro caller h
    obtain ⟨-, hentitled⟩ := handlerCaller_eq_some_iff.mp h
    cases hentitled with
    | preview _ hread => cases hread
    | token hstore hrequire hsecret hfirst hlists =>
      exact ⟨_, _, _, hstore, hrequire, hsecret, hfirst, lists_manageUpdates_iff.mp hlists, rfl⟩

/-- One entry that may apply updates, and a request with its secret. -/
def applyToken (name : Option String) : Entry :=
  ⟨⟨name, ["read_all", "manage:updates"]⟩, Vector.replicate 32 7⟩

def applyCall : Request := ⟨some (.v4 127 0 0 1), some (asciiBytes "Bearer s3cret")⟩

theorem handler_runs_ops :
    let digest : String → Hash := fun _ => Vector.replicate 32 7
    let tokens : Option TokenStore := some ⟨[applyToken (some "ops")]⟩
    handlerCaller digest {} tokens applyCall .manageUpdates = some "ops" ∧
      ∃ store secret entry, tokens = some store ∧
        presented applyCall.authorization = some secret ∧
        FirstMatch digest store secret entry ∧ "manage:updates" ∈ entry.token.permissions ∧
        "ops" = entry.token.name.getD "unnamed token" := by
  intro digest tokens
  have hcall : handlerCaller digest {} tokens applyCall .manageUpdates = some "ops" := by decide
  obtain ⟨store, secret, entry, hstore, -, hsecret, hfirst, hlists, hname⟩ :=
    (handler_runs_iff digest {} tokens applyCall .manageUpdates).2 "ops" hcall
  exact ⟨hcall, store, secret, entry, hstore, hsecret, hfirst, hlists, hname⟩

/-- **The name of an entry is optional**: the handler of a request with the secret of an unnamed
entry runs under a name that is not the entry's. -/
theorem caller_of_unnamed_entry :
    ¬ ∀ (digest : String → Hash) (config : Config) (tokens : Option TokenStore) (req : Request)
        (caller : String), handlerCaller digest config tokens req .manageUpdates = some caller →
        ∃ store secret entry, tokens = some store ∧ presented req.authorization = some secret ∧
          FirstMatch digest store secret entry ∧ entry.token.name = some caller := by
  intro h
  have hcall : handlerCaller (fun _ => Vector.replicate 32 7) {} (some ⟨[applyToken none]⟩)
      applyCall .manageUpdates = some "unnamed token" := by decide
  obtain ⟨store, secret, entry, hstore, -, ⟨-, before, after, hentries, -⟩, hname⟩ :=
    h _ _ _ _ _ hcall
  cases hstore
  have hmem : entry ∈ (TokenStore.mk [applyToken none]).entries := by
    rw [hentries]
    exact List.mem_append_right _ List.mem_cons_self
  rw [List.mem_singleton.mp hmem] at hname
  cases hname

end Abora.Daemon
