import Abora.Config.Config
import Abora.Daemon.Tokens

/-!
# Who may do what (`aborad/src/auth.rs` and the middleware in `aborad/src/server.rs`)

`authorize` is the single decision point: remote peers never, without a store loopback reads only,
with a store a matching secret and a grant. The middleware around it decides what `authorize` gets
to see: the peer, the bearer secret cut out of the header, and the store — which it passes only
while the live configuration requires authentication.

Secrets are compared by their SHA-256 hashes, and `digest` stands for the hash function throughout:
nothing here depends on what it is, except that one secret has one hash. What this means for a whole
request is `Abora.Daemon.Access`.
-/

namespace Abora.Daemon

open Abora.Lib Abora.Lib.Text

/-- `std::net::IpAddr`; an IPv6 address is its 128-bit value. -/
inductive IpAddr where
  | v4 (a b c d : UInt8)
  | v6 (value : BitVec 128)
  deriving DecidableEq, Repr

/-- `127.0.0.0/8`, and `::1`. An IPv4 address written in IPv6 is not one. -/
def IpAddr.isLoopback : IpAddr → Bool
  | .v4 a _ _ _ => a == 127
  | .v6 value => value == 1

/-- A single privileged capability a handler requires. -/
inductive Permission where
  | readHealth | readVersion | readSystem | readServices | readUpdates
  /-- Mutating: needs a token that names it. -/
  | manageUpdates
  deriving DecidableEq, Repr

/-- The names under which a token file lists the permissions. -/
def Permission.permissionId : Permission → String
  | .readHealth => "read:health"
  | .readVersion => "read:version"
  | .readSystem => "read:system"
  | .readServices => "read:services"
  | .readUpdates => "read:updates"
  | .manageUpdates => "manage:updates"

def Permission.isMutating (permission : Permission) : Bool := permission == .manageUpdates

/-- Why a request was (or was not) admitted. -/
inductive Decision where
  | allowed
  | remoteNotAllowed
  | authenticationRequired
  | insufficientPermission
  | tokensRequired
  deriving DecidableEq, Repr

/-- `authorize`. The order of the tests is the order of the answers: a remote peer learns nothing
about whether its secret was right. -/
def authorize (digest : String → Hash) (peer : IpAddr) (permission : Permission)
    (bearer : Option String) (store : Option TokenStore) : Decision :=
  if peer.isLoopback = false then .remoteNotAllowed
  else match store with
    -- no token file in force: reads are open on loopback, nothing else is
    | none => if permission.isMutating then .tokensRequired else .allowed
    | some store =>
      match bearer with
      | none => .authenticationRequired
      | some bearer =>
        match store.find digest bearer with
        | none => .authenticationRequired
        | some token =>
          if token.grants permission.permissionId then .allowed else .insufficientPermission

/-- `HeaderValue::to_str`: visible ASCII and tabs only. A header with any other byte counts as
absent. -/
def headerToStr (value : Bytes) : Option Chars :=
  if value.all fun b => (32 ≤ b && b < 127) || b == 9 then
    some (value.map fun b => Char.ofNat b.toNat)
  else none

def eqIgnoreAsciiCase (a b : Chars) : Bool := a.map Char.toLower == b.map Char.toLower

/-- `bearer_value`: the secret after `Bearer `, trimmed. A scheme of another case is the same
scheme. -/
def bearerValue (header : Chars) : Option String :=
  match splitOnce ' ' header with
  | none => none
  | some (scheme, rest) =>
    if eqIgnoreAsciiCase scheme "Bearer".toList = false then none
    else if trim rest = [] then none
    else some (String.ofList (trim rest))

/-- The secret of a request, if its header has one. -/
def presented (header : Option Bytes) : Option String :=
  (header.bind headerToStr).bind bearerValue

/-- A request, as far as the middleware looks at it. -/
structure Request where
  /-- `ConnectInfo`, if the listener recorded it. -/
  peer : Option IpAddr
  authorization : Option Bytes
  deriving DecidableEq, Repr

/-- The authorization middleware: the decision, and who is asking for the audit trail. -/
def middleware (digest : String → Hash) (config : Config) (tokens : Option TokenStore)
    (req : Request) (permission : Permission) : Decision × Option String :=
  -- an unknown peer counts as remote
  let peer := req.peer.getD (.v4 0 0 0 0)
  let bearer := presented req.authorization
  let store := if config.security.requireAuthentication then tokens else none
  let caller := do
    let store ← store
    let secret ← bearer
    let token ← store.find digest secret
    some (token.name.getD "unnamed token")
  (authorize digest peer permission bearer store, caller)

/-! ## What is enough, and what is needed, to be let in -/

/-- The request presents the secret of some entry of the store. -/
def Authenticates (digest : String → Hash) (tokens : Option TokenStore) (req : Request) : Prop :=
  ∃ store secret, tokens = some store ∧ presented req.authorization = some secret ∧
    ∃ e ∈ store.entries, e.hash = digest secret

/-- With a store in force only its secrets open anything, whichever permission is asked for. -/
theorem authenticates_of_allowed {digest : String → Hash} {config : Config} {store : TokenStore}
    {req : Request} {permission : Permission}
    (hrequire : config.security.requireAuthentication = true)
    (h : (middleware digest config (some store) req permission).1 = .allowed) :
    Authenticates digest (some store) req := by
  simp only [middleware, hrequire, if_true, authorize] at h
  split at h
  · cases h
  cases hbearer : presented req.authorization with
  | none =>
    rw [hbearer] at h
    cases h
  | some secret =>
    simp only [hbearer] at h
    cases hfind : store.find digest secret with
    | none =>
      rw [hfind] at h
      cases h
    | some token =>
      have hmem := find_isSome_iff.mp (Option.isSome_of_eq_some hfind)
      exact ⟨store, secret, rfl, hbearer, hmem⟩

/-- Without a store a loopback read is let in, whatever it presents. -/
theorem allowed_of_no_store (digest : String → Hash) (config : Config) {req : Request}
    {peer : IpAddr} (hpeer : req.peer = some peer) (hloop : peer.isLoopback = true)
    {permission : Permission} (hread : permission.isMutating = false) :
    (middleware digest config none req permission).1 = .allowed := by
  simp [middleware, authorize, hpeer, hloop, hread]

end Abora.Daemon
