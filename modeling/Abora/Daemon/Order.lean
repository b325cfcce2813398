import Abora.Lib.Lists
import Abora.Daemon.Access
import Abora.Daemon.TokenFile

/-!
# The order of a token file (`from_str`, `find` and `grants` in `tokens.rs`, `authorize`)

Whether a file loads does not depend on the order of its tables. What a secret opens does: `find`
stops at the first entry with the secret's hash, which is the first table that spells it
(`find_eq_find?`), and the tables behind that one are never looked at. `order_free_iff` says for
which files this shows.

What shows is compared from outside (`SameAnswers`): the decisions about requests, by a daemon that
starts with the file and by one that reloads it, for every request there could be. Secrets that no
header can carry make no difference there, so the condition is about those that some request
presents. That a difference really shows is half of the result: a request with the secret, from
loopback, is told all that the secret opens (`told_inj`).
-/

namespace Abora.Daemon

open Abora.Lib Abora.Lib.Text

/-! ## Tables and the secrets they are for -/

def RawToken.stored (t : RawToken) : StoredToken := ⟨t.name, t.permissions⟩

/-- The table is one for `secret`: its hash reads, and is the secret's. -/
def RawToken.IsFor (digest : String → Hash) (secret : String) (t : RawToken) : Prop :=
  decodeSha256Hex t.secretHash = some (.ok (digest secret))

instance (digest : String → Hash) (secret : String) (t : RawToken) :
    Decidable (t.IsFor digest secret) :=
  inferInstanceAs (Decidable (_ = _))

/-- **A secret is found at the first table that is for it.** Loading keeps the tables in their
order, so the first entry with the hash comes from the first table that spells it. -/
theorem find_eq_find? {raw : List RawToken} {entries : List Entry}
    (h : entriesOf raw = some (.ok entries)) (digest : String → Hash) (secret : String) :
    TokenStore.find digest ⟨entries⟩ secret =
      (raw.find? fun t => t.IsFor digest secret).map RawToken.stored := by
  rw [entriesOf_ok_iff] at h
  show (entries.find? fun e => ctEq e.hash (digest secret)).map Entry.token = _
  induction h with
  | nil => rfl
  | @cons t e ts es hrel _ ih =>
    obtain ⟨htoken, hdecode⟩ := hrel
    have hsame : ctEq e.hash (digest secret) = true ↔ t.IsFor digest secret := by
      rw [ctEq_iff, RawToken.IsFor, hdecode, Option.some_inj, Except.ok.injEq]
    by_cases hfor : t.IsFor digest secret
    · have hct : ctEq e.hash (digest secret) = true := hsame.mpr hfor
      simp only [List.find?_cons, hct, hfor, decide_true, Option.map_some]
      exact congrArg some htoken
    · have hct : ctEq e.hash (digest secret) = false := by simpa using mt hsame.mp hfor
      simp only [List.find?_cons, hct, hfor, decide_false]
      exact ih

/-- A file that loads does so in every order: each table is read for itself. -/
theorem entriesOf_perm {raw raw' : List RawToken} {entries : List Entry} (hperm : raw.Perm raw')
    (h : entriesOf raw = some (.ok entries)) :
    ∃ entries', entriesOf raw' = some (.ok entries') := by
  have hreads := reads_iff.mpr ⟨entries, h⟩
  exact reads_iff.mp fun t ht => hreads t (hperm.mem_iff.mpr ht)

/-! ## What is compared -/

/-- What the middleware decides about a request in this state. -/
def AuthState.decision (digest : String → Hash) (s : AuthState) (req : Request)
    (permission : Permission) : Decision :=
  (middleware digest s.config s.tokens req permission).1

/-- Loading the token file, whose text is `text`. -/
def loading (toml : String → Except String (List RawToken)) (text : String) (path : PathBuf) :
    Loaded :=
  TokenStore.load toml (fun _ => .ok text) path

/-- Every request gets the same decision from daemons that start with either file, and from daemons
that reload either. A file that does not load is compared by that, too. -/
structure SameAnswers (digest : String → Hash) (load load' : PathBuf → Loaded) : Prop where
  started (config : Config) (source : ReloadSource) (req : Request) (permission : Permission) :
    (start config source load).toOption.map (fun s => s.decision digest req permission) =
      (start config source load').toOption.map fun s => s.decision digest req permission
  reloaded (s : AuthState) (fresh : Except String Config) (req : Request)
    (permission : Permission) :
    (reload s ⟨fresh, load⟩).decision digest req permission =
      (reload s ⟨fresh, load'⟩).decision digest req permission

/-- No reordering of the tables changes an answer, whatever the file looks like around them. -/
def OrderFree (digest : String → Hash) (raw : List RawToken) : Prop :=
  ∀ raw', raw.Perm raw' → ∀ toml text text', toml text = .ok raw → toml text' = .ok raw' →
    SameAnswers digest (loading toml text) (loading toml text')

/-- A secret that some request presents. -/
def Presentable (secret : String) : Prop := ∃ header, presented (some header) = some secret

/-- Tables for one secret grant the same. Two tables with different names are fine. -/
def Agree (digest : String → Hash) (raw : List RawToken) : Prop :=
  ∀ secret, Presentable secret → ∀ t ∈ raw, ∀ u ∈ raw, t.IsFor digest secret →
    u.IsFor digest secret → ∀ permission : Permission,
      t.stored.grants permission.permissionId = u.stored.grants permission.permissionId

/-! ## What the decision looks at -/

/-- What the secret opens in the store, if it is one of the store's. -/
def TokenStore.opens (digest : String → Hash) (store : TokenStore) (secret : String) :
    Option (Permission → Bool) :=
  (store.find digest secret).map fun token permission => token.grants permission.permissionId

/-- What a request from loopback that presents a secret is told. -/
def told (permission : Permission) : Option (Permission → Bool) → Decision
  | none => .authenticationRequired
  | some grants => if grants permission then .allowed else .insufficientPermission

/-- It is told all that the secret opens: asking for every permission gives them all away. -/
theorem told_inj {opens opens' : Option (Permission → Bool)}
    (h : ∀ permission, told permission opens = told permission opens') : opens = opens' := by
  have hnone (grants : Permission → Bool) (permission : Permission) :
      told permission (some grants) ≠ told permission none := by
    simp only [told]
    split <;> simp
  cases opens with
  | none =>
    cases opens' with
    | none => rfl
    | some grants' => exact absurd (h .readHealth).symm (hnone grants' .readHealth)
  | some grants =>
    cases opens' with
    | none => exact absurd (h .readHealth) (hnone grants .readHealth)
    | some grants' =>
      congr 1
      funext permission
      have htold := h permission
      simp only [told] at htold
      cases hg : grants permission <;> cases hg' : grants' permission <;> simp_all

theorem authorize_some (digest : String → Hash) (peer : IpAddr) (permission : Permission)
    (secret : String) (store : TokenStore) :
    authorize digest peer permission (some secret) (some store) =
      if peer.isLoopback = false then .remoteNotAllowed
      else told permission (store.opens digest secret) := by
  unfold authorize TokenStore.opens told
  by_cases hloop : peer.isLoopback = false
  · rw [if_pos hloop, if_pos hloop]
  · rw [if_neg hloop, if_neg hloop]
    cases hfind : store.find digest secret <;> simp [hfind]

/-- Stores in which presentable secrets open the same decide alike, about requests with and without
one. -/
theorem middleware_congr {digest : String → Hash} {store store' : TokenStore}
    (h : ∀ secret, Presentable secret → store.opens digest secret = store'.opens digest secret)
    (config : Config) (req : Request) (permission : Permission) :
    (middleware digest config (some store) req permission).1 =
      (middleware digest config (some store') req permission).1 := by
  rw [middleware_decision, middleware_decision]
  unfold enforced
  cases config.security.requireAuthentication with
  | false => rfl
  | true =>
    cases hsecret : presented req.authorization with
    | none => rfl
    | some secret =>
      have hpresentable : Presentable secret := by
        cases hheader : req.authorization with
        | none =>
          rw [hheader] at hsecret
          cases hsecret
        | some header =>
          rw [hheader] at hsecret
          exact ⟨header, hsecret⟩
      show authorize digest _ permission (some secret) (some store) =
        authorize digest _ permission (some secret) (some store')
      rw [authorize_some, authorize_some, h secret hpresentable]

/-! ## What loading leaves -/

/-- The store, if loading left one. An error and a panic leave none, and a reload keeps the old
one. -/
def Loaded.store : Loaded → Option TokenStore
  | .ok store => some store
  | _ => none

theorem refreshTokens_tokens (s : AuthState) (load : PathBuf → Loaded) :
    (refreshTokens s load).tokens =
      s.config.security.tokenFile.bind fun path => (load path).store.or s.tokens := by
  unfold refreshTokens
  cases s.config.security.tokenFile with
  | none => rfl
  | some path => cases hload : load path <;> simp [hload, Loaded.store]

theorem start_toOption (config : Config) (source : ReloadSource) (load : PathBuf → Loaded) :
    (start config source load).toOption =
      config.security.tokenFile.elim (some ⟨config, none, source, true⟩) fun path =>
        (load path).store.map fun store => ⟨config, some store, source, true⟩ := by
  unfold start loadTokenStore
  cases config.security.tokenFile with
  | none => rfl
  | some path =>
    cases hload : load path <;> simp [hload, Loaded.store, Except.map, Except.toOption]

theorem loading_store {toml : String → Except String (List RawToken)} {text : String}
    {raw : List RawToken} (h : toml text = .ok raw) (path : PathBuf) :
    (loading toml text path).store = match entriesOf raw with
      | some (.ok entries) => some ⟨entries⟩
      | _ => none := by
  unfold loading TokenStore.load TokenStore.fromStr
  simp only [h]
  cases hraw : entriesOf raw with
  | none => rfl
  | some r => cases r <;> rfl

/-- Two ways of loading that leave no store, or stores that decide alike. -/
theorem sameAnswers_of {digest : String → Hash} {load load' : PathBuf → Loaded}
    (h : ∀ path, (load path).store = none ∧ (load' path).store = none ∨
      ∃ store store', (load path).store = some store ∧ (load' path).store = some store' ∧
        ∀ secret, Presentable secret →
          store.opens digest secret = store'.opens digest secret) :
    SameAnswers digest load load' := by
  constructor
  -- at the start
  · intro config source req permission
    rw [start_toOption, start_toOption]
    cases config.security.tokenFile with
    | none => rfl
    | some path =>
      rcases h path with ⟨hnone, hnone'⟩ | ⟨store, store', hstore, hstore', hopens⟩
      · simp only [Option.elim_some, hnone, hnone', Option.map_none]
      · simp only [Option.elim_some, hstore, hstore', Option.map_some, AuthState.decision]
        rw [middleware_congr hopens]
  -- and after a reload, where the store that is there may be kept
  · intro s fresh req permission
    cases fresh with
    | error e => rfl
    | ok config =>
      have happlied : (applyReload s config load).decision digest req permission =
          (applyReload s config load').decision digest req permission := by
        unfold applyReload AuthState.decision
        rw [refreshTokens_config, refreshTokens_config, refreshTokens_tokens,
          refreshTokens_tokens]
        show (middleware digest config (config.security.tokenFile.bind fun path =>
            (load path).store.or s.tokens) req permission).1 =
          (middleware digest config (config.security.tokenFile.bind fun path =>
            (load' path).store.or s.tokens) req permission).1
        cases config.security.tokenFile with
        | none => rfl
        | some path =>
          rcases h path with ⟨hnone, hnone'⟩ | ⟨store, store', hstore, hstore', hopens⟩
          · simp only [Option.bind_some, hnone, hnone']
          · simp only [Option.bind_some, hstore, hstore', Option.some_or]
            exact middleware_congr hopens config req permission
      unfold reload
      by_cases hwatch : s.watching = false
      · rw [if_pos hwatch, if_pos hwatch]
      · rw [if_neg hwatch, if_neg hwatch]
        cases s.source with
        | builtin => rfl
        | file path => exact happlied

/-! ## Reordering the tables -/

theorem opens_eq {digest : String → Hash} {raw : List RawToken} {entries : List Entry}
    (h : entriesOf raw = some (.ok entries)) (secret : String) :
    TokenStore.opens digest ⟨entries⟩ secret = (raw.find? fun t => t.IsFor digest secret).map
      fun t permission => t.stored.grants permission.permissionId := by
  unfold TokenStore.opens
  rw [find_eq_find? h, Option.map_map]
  rfl

/-- Looking for the first table gives the same in every order exactly when all tables that could be
found grant the same. For the one direction every table is put in front once. -/
theorem opens_perm_iff {digest : String → Hash} {secret : String} {raw : List RawToken} :
    (∀ raw', raw.Perm raw' →
        (raw'.find? fun t => t.IsFor digest secret).map
            (fun t (permission : Permission) => t.stored.grants permission.permissionId) =
          (raw.find? fun t => t.IsFor digest secret).map
            fun t permission => t.stored.grants permission.permissionId) ↔
      ∀ t ∈ raw, ∀ u ∈ raw, t.IsFor digest secret → u.IsFor digest secret →
        ∀ permission : Permission,
          t.stored.grants permission.permissionId = u.stored.grants permission.permissionId := by
  rw [find?_map_perm_iff]
  simp only [decide_eq_true_eq, funext_iff]

/-- A daemon that starts with the one file and a daemon that starts with the other show the
difference, to a request with the secret. -/
theorem opens_of_sameAnswers {digest : String → Hash} {load load' : PathBuf → Loaded}
    {store store' : TokenStore} (hsame : SameAnswers digest load load') {path : PathBuf}
    (hstore : (load path).store = some store) (hstore' : (load' path).store = some store')
    {secret : String} (hsecret : Presentable secret) :
    store.opens digest secret = store'.opens digest secret := by
  obtain ⟨header, hheader⟩ := hsecret
  let req : Request := ⟨some (.v4 127 0 0 1), some header⟩
  let config : Config := { security := ⟨true, some path⟩ }
  refine told_inj fun permission => ?_
  have hstarted := hsame.started config .builtin req permission
  rw [start_toOption, start_toOption] at hstarted
  simp only [config, Option.elim_some, hstore, hstore', Option.map_some, AuthState.decision,
    middleware_decision, req, hheader] at hstarted
  have hdecision : authorize digest (.v4 127 0 0 1) permission (some secret) (some store) =
      authorize digest (.v4 127 0 0 1) permission (some secret) (some store') :=
    Option.some.inj hstarted
  rw [authorize_some, authorize_some] at hdecision
  exact hdecision

theorem agree_of_orderFree {digest : String → Hash} {raw : List RawToken} {entries : List Entry}
    (hfree : OrderFree digest raw) (hentries : entriesOf raw = some (.ok entries)) :
    Agree digest raw := by
  intro secret hsecret
  rw [← opens_perm_iff]
  intro raw' hperm
  obtain ⟨entries', hentries'⟩ := entriesOf_perm hperm hentries
  let toml (text : String) : Except String (List RawToken) :=
    if text = "" then .ok raw else .ok raw'
  have htext : toml "" = .ok raw := rfl
  have htext' : toml "\n" = .ok raw' := rfl
  have hsame := hfree raw' hperm toml _ _ htext htext'
  have hstore (path : PathBuf) : (loading toml "" path).store = some ⟨entries⟩ := by
    rw [loading_store htext, hentries]
  have hstore' (path : PathBuf) : (loading toml "\n" path).store = some ⟨entries'⟩ := by
    rw [loading_store htext', hentries']
  let path := PathBuf.ofString "/etc/abora/auth.toml"
  have hopens := opens_of_sameAnswers hsame (hstore path) (hstore' path) hsecret
  rw [opens_eq hentries, opens_eq hentries'] at hopens
  exact hopens.symm

/-- **The order of the tables shows exactly when** the file loads and has two tables for one secret
that do not grant the same. If it does not load it is refused in every order. -/
theorem order_free_iff (digest : String → Hash) (raw : List RawToken) :
    OrderFree digest raw ↔
      ((∀ t ∈ raw, ReadsAsHash t.secretHash) → Agree digest raw) := by
  rw [reads_iff]
  constructor
  · intro hfree ⟨entries, hentries⟩
    exact agree_of_orderFree hfree hentries
  · intro hagree raw' hperm toml text text' htext htext'
    refine sameAnswers_of fun path => ?_
    rw [loading_store htext, loading_store htext']
    by_cases hloads : ∃ entries, entriesOf raw = some (.ok entries)
    · obtain ⟨entries, hentries⟩ := hloads
      obtain ⟨entries', hentries'⟩ := entriesOf_perm hperm hentries
      refine .inr ⟨⟨entries⟩, ⟨entries'⟩, by rw [hentries], by rw [hentries'], ?_⟩
      intro secret hsecret
      rw [opens_eq hentries, opens_eq hentries']
      exact (opens_perm_iff.mpr (hagree ⟨entries, hentries⟩ secret hsecret) raw' hperm).symm
    · have hnone : ∀ entries, entriesOf raw ≠ some (.ok entries) := fun entries h =>
        hloads ⟨entries, h⟩
      have hstore (r : List RawToken) (h : ∀ entries, entriesOf r ≠ some (.ok entries)) :
          (match entriesOf r with
            | some (.ok entries) => some (TokenStore.mk entries)
            | _ => none) = none := by
        split
        · next entries heq => exact absurd heq (h entries)
        · rfl
      refine .inl ⟨hstore raw hnone, hstore raw' fun entries' hentries' => ?_⟩
      obtain ⟨entries, hentries⟩ := entriesOf_perm hperm.symm hentries'
      exact hnone entries hentries

/-! ## A second table for an existing secret -/

/-- `sha256:` and a hash of 32 equal bytes. -/
def sevens : String := "sha256:" ++ String.ofList (flat (List.replicate 32 ('0', '7')))

def monitorTable : RawToken := ⟨some "monitor", ["read_all"], sevens⟩

def opsTable : RawToken := ⟨some "ops", ["manage:updates"], sevens⟩

theorem decode_sevens : decodeSha256Hex sevens = some (.ok (Vector.replicate 32 7)) := by
  refine decode_ok_iff.mpr ⟨List.replicate 32 ('0', '7'), List.length_replicate, ?_, ?_, ?_⟩
  · simp [sevens]
  · intro p hp
    rw [List.eq_of_mem_replicate hp]
    exact .inl ⟨by decide, by decide⟩
  · have hbyte : pairByte ('0', '7') = 7 := by decide
    rw [Vector.toList_replicate, List.map_replicate, hbyte]

/-- **A table added for the same secret is never reached**: an operator who adds one that may apply
updates behind one that may read gains nothing by it, and in the other order everything. -/
theorem order_matters : ¬ OrderFree (fun _ => Vector.replicate 32 7) [monitorTable, opsTable] := by
  intro hfree
  have hentries : entriesOf [monitorTable, opsTable] =
      some (.ok [⟨monitorTable.stored, Vector.replicate 32 7⟩,
        ⟨opsTable.stored, Vector.replicate 32 7⟩]) :=
    entriesOf_ok_iff.mpr (.cons ⟨rfl, decode_sevens⟩ (.cons ⟨rfl, decode_sevens⟩ .nil))
  have hpresentable : Presentable "s3cret" := ⟨asciiBytes "Bearer s3cret", by decide⟩
  have hsame := agree_of_orderFree hfree hentries "s3cret" hpresentable monitorTable
    List.mem_cons_self opsTable (by simp) decode_sevens decode_sevens .manageUpdates
  have hdiffer : monitorTable.stored.grants "manage:updates" ≠
      opsTable.stored.grants "manage:updates" := by decide
  exact hdiffer hsame

end Abora.Daemon
