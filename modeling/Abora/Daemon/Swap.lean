import Abora.Daemon.Access
import Abora.Daemon.Reload

/-!
# A request in the middle of a reload

A reload writes the configuration and the tokens under two locks, one after the other
(`apply_reload`, `refresh_tokens`); a request takes the two read guards one after the other and
keeps both until it has been judged. `swapStep` runs the two against each other, one lock operation
at a time, in whatever order the schedule names them; an operation that would have to wait for a
guard does nothing.

Because the configuration guard is held while the tokens are read, a request that saw the old
configuration also sees the old tokens. The other mixture happens: the new configuration with the
tokens of before. It is a third policy only when the reload turns authentication on — otherwise it
enforces what one of the two complete policies enforces (`judge_between`).

The invariant (`SwapOk`) says that what is live is what a reload that has got this far has
installed, and that whatever the request holds is live; a write cannot change what a guard holds, as
it waits for it.
-/

namespace Abora.Daemon

open Abora.Lib

/-- How far the authorization of a request has got; a guard is the value it keeps readable. -/
inductive Asking where
  | arrived
  | config (config : Config)
  | both (config : Config) (tokens : Option TokenStore)
  | judged (answer : Decision × Option String)
  deriving DecidableEq

inductive Writing where
  | config
  | tokens
  | done
  deriving DecidableEq, Repr

/-- The live state, the one request and the one reload. -/
structure Swap where
  auth : AuthState
  asking : Asking
  writing : Writing
  deriving DecidableEq

inductive Actor where
  | request
  | reload
  deriving DecidableEq, Repr

/-- The request holds a read guard on the configuration. -/
def Asking.readsConfig : Asking → Bool
  | .config _ | .both _ _ => true
  | .arrived | .judged _ => false

def Asking.readsTokens : Asking → Bool
  | .both _ _ => true
  | _ => false

/-- What is enforced in a state: the decision and the name. -/
def judge (digest : String → Hash) (req : Request) (permission : Permission) (s : AuthState) :
    Decision × Option String :=
  middleware digest s.config s.tokens req permission

section

variable (digest : String → Hash) (req : Request) (permission : Permission)
variable (fresh : Config) (load : PathBuf → Loaded)

/-- The guards are taken in this order, and given back together. -/
def requestStep (s : Swap) : Swap :=
  match s.asking with
  | .arrived => { s with asking := .config s.auth.config }
  | .config config => { s with asking := .both config s.auth.tokens }
  | .both config tokens =>
    { s with asking := .judged (middleware digest config tokens req permission) }
  | .judged _ => s

/-- The two halves of `applyReload`. -/
def reloadStep (s : Swap) : Swap :=
  match s.writing with
  | .config =>
    -- `write()` waits until no read guard is left
    if s.asking.readsConfig then s
    else { s with auth := { s.auth with config := fresh }, writing := .tokens }
  | .tokens =>
    if s.asking.readsTokens then s
    else { s with auth := refreshTokens s.auth load, writing := .done }
  | .done => s

def swapStep (s : Swap) : Actor → Swap
  | .request => requestStep digest req permission s
  | .reload => reloadStep fresh load s

end

/-- A request has just arrived and a reload is about to write. -/
def Swap.start (old : AuthState) : Swap := ⟨old, .arrived, .config⟩

def between (old : AuthState) (fresh : Config) : AuthState := { old with config := fresh }

/-! ## The invariant -/

/-- What a reload that has got this far has installed. -/
def Writing.installed (old : AuthState) (fresh : Config) (load : PathBuf → Loaded) :
    Writing → AuthState
  | .config => old
  | .tokens => between old fresh
  | .done => applyReload old fresh load

/-- The states that can be in force while a request is judged: before, between and after. -/
def Policies (old : AuthState) (fresh : Config) (load : PathBuf → Loaded) : List AuthState :=
  [old, between old fresh, applyReload old fresh load]

/-- What a request holds is what is live, and its answer was right for some state. -/
def Asking.Sees (digest : String → Hash) (req : Request) (permission : Permission)
    (policies : List AuthState) (auth : AuthState) : Asking → Prop
  | .arrived => True
  | .config c => c = auth.config
  | .both c t => c = auth.config ∧ t = auth.tokens
  | .judged answer => ∃ p ∈ policies, answer = judge digest req permission p

/-- The invariant of every schedule: the live state is that of the reload's progress, and the
request sees it. -/
structure SwapOk (digest : String → Hash) (req : Request) (permission : Permission)
    (old : AuthState) (fresh : Config) (load : PathBuf → Loaded) (s : Swap) : Prop where
  auth : s.auth = s.writing.installed old fresh load
  sees : s.asking.Sees digest req permission (Policies old fresh load) s.auth

theorem installed_mem (old : AuthState) (fresh : Config) (load : PathBuf → Loaded)
    (w : Writing) : w.installed old fresh load ∈ Policies old fresh load := by
  cases w with
  | config => exact List.mem_cons_self
  | tokens => exact List.mem_cons_of_mem _ List.mem_cons_self
  | done => exact List.mem_cons_of_mem _ (List.mem_cons_of_mem _ List.mem_cons_self)

section

variable {digest : String → Hash} {req : Request} {permission : Permission}
variable {old : AuthState} {fresh : Config} {load : PathBuf → Loaded}

theorem requestStep_ok {s : Swap} (hs : SwapOk digest req permission old fresh load s) :
    SwapOk digest req permission old fresh load (requestStep digest req permission s) := by
  obtain ⟨auth, asking, writing⟩ := s
  obtain ⟨hauth, hsees⟩ := hs
  cases asking with
  | arrived => exact ⟨hauth, rfl⟩
  | config config => exact ⟨hauth, hsees, rfl⟩
  | both config tokens =>
    obtain ⟨rfl, rfl⟩ : config = auth.config ∧ tokens = auth.tokens := hsees
    have hauth : auth = writing.installed old fresh load := hauth
    exact ⟨hauth, auth, hauth ▸ installed_mem old fresh load writing, rfl⟩
  | judged answer => exact ⟨hauth, hsees⟩

/-- A write happens only when no guard could notice it, so what is held stays what is live. -/
theorem reloadStep_ok {s : Swap} (hs : SwapOk digest req permission old fresh load s) :
    SwapOk digest req permission old fresh load (reloadStep fresh load s) := by
  obtain ⟨auth, asking, writing⟩ := s
  obtain ⟨hauth, hsees⟩ := hs
  cases writing with
  | config =>
    obtain rfl : auth = old := hauth
    cases asking with
    | arrived => exact ⟨rfl, trivial⟩
    | config config => exact ⟨rfl, hsees⟩
    | both config tokens => exact ⟨rfl, hsees⟩
    | judged answer => exact ⟨rfl, hsees⟩
  | tokens =>
    obtain rfl : auth = between old fresh := hauth
    cases asking with
    | arrived => exact ⟨rfl, trivial⟩
    | config config => exact ⟨rfl, hsees.trans (refreshTokens_config _ _).symm⟩
    | both config tokens => exact ⟨rfl, hsees⟩
    | judged answer => exact ⟨rfl, hsees⟩
  | done => exact ⟨hauth, hsees⟩

theorem swap_run_ok (digest : String → Hash) (req : Request) (permission : Permission)
    (old : AuthState) (fresh : Config) (load : PathBuf → Loaded) (schedule : List Actor) :
    SwapOk digest req permission old fresh load
      (run (swapStep digest req permission fresh load) (Swap.start old) schedule) := by
  refine run_invariant (fun s actor hs => ?_) ⟨rfl, trivial⟩ schedule
  cases actor with
  | request => exact requestStep_ok hs
  | reload => exact reloadStep_ok hs

end

/-! ## What the state in between enforces -/

/-- Only the store in force counts: a configuration enters a decision by no other setting. -/
theorem judge_congr (digest : String → Hash) (req : Request) (permission : Permission)
    {a b : AuthState} (h : enforced a.config a.tokens = enforced b.config b.tokens) :
    judge digest req permission a = judge digest req permission b := by
  have hjudge (s : AuthState) : judge digest req permission s =
      (authorize digest (req.peer.getD (.v4 0 0 0 0)) permission (presented req.authorization)
          (enforced s.config s.tokens), do
        let store ← enforced s.config s.tokens
        let secret ← presented req.authorization
        let token ← store.find digest secret
        some (token.name.getD "unnamed token")) := rfl
  rw [hjudge, hjudge, h]

/-- The reload turns authentication on: nothing was enforced before it. -/
def TurnsOn (old : AuthState) (fresh : Config) : Prop :=
  old.config.security.requireAuthentication = false ∧
    fresh.security.requireAuthentication = true

/-- **Unless the reload turns authentication on, the state in between is no third policy.** If
nothing is to be enforced it is the new one; otherwise both configurations enforce the old store. -/
theorem judge_between (digest : String → Hash) (req : Request) (permission : Permission)
    (old : AuthState) (fresh : Config) (load : PathBuf → Loaded) (h : ¬ TurnsOn old fresh) :
    judge digest req permission (between old fresh) = judge digest req permission old ∨
      judge digest req permission (between old fresh) =
        judge digest req permission (applyReload old fresh load) := by
  cases hfresh : fresh.security.requireAuthentication with
  | false =>
    -- neither the old tokens nor the new ones are looked at
    refine .inr (judge_congr digest req permission ?_)
    have hnone : ∀ tokens, enforced fresh tokens = none :=
      fun tokens => enforced_eq_none_iff.mpr (.inr hfresh)
    have hconfig : (applyReload old fresh load).config = fresh := refreshTokens_config _ load
    rw [hconfig]
    exact (hnone _).trans (hnone _).symm
  | true =>
    have hold : old.config.security.requireAuthentication = true := by
      by_contra hoff
      exact h ⟨by simpa using hoff, hfresh⟩
    refine .inl (judge_congr digest req permission ?_)
    show enforced fresh old.tokens = enforced old.config old.tokens
    rw [enforced, enforced, hfresh, hold]

/-- **Under which policy a request is judged**, however it and a reload interleave: the old one, the
new one, or — only if the reload turns authentication on — the new configuration with the old
tokens. The invariant leaves three states, and `judge_between` takes the middle one away. -/
theorem judged_under (digest : String → Hash) (req : Request) (permission : Permission)
    (old : AuthState) (fresh : Config) (load : PathBuf → Loaded) (schedule : List Actor)
    {answer : Decision × Option String}
    (h : (run (swapStep digest req permission fresh load) (Swap.start old) schedule).asking =
      .judged answer) :
    answer = middleware digest old.config old.tokens req permission ∨
      answer = judge digest req permission (applyReload old fresh load) ∨
      TurnsOn old fresh ∧ answer = middleware digest fresh old.tokens req permission := by
  have hok := (swap_run_ok digest req permission old fresh load schedule).sees
  rw [h] at hok
  obtain ⟨p, hp, rfl⟩ := hok
  simp only [Policies, List.mem_cons, List.not_mem_nil, or_false] at hp
  rcases hp with rfl | rfl | rfl
  · exact .inl rfl
  · by_cases hon : TurnsOn old fresh
    · exact .inr (.inr ⟨hon, rfl⟩)
    · rcases judge_between digest req permission old fresh load hon with heq | heq
      · exact .inl heq
      · exact .inr (.inl heq)
  · exact .inr (.inl rfl)

/-! ## A revoked token that works once more -/

def securedBy (required : Bool) : Config :=
  { security := ⟨required, some (PathBuf.ofString "/etc/abora/tokens.toml")⟩ }

/-- Authentication is off, and a token that may apply updates is loaded. -/
def beforeSwap : AuthState :=
  ⟨securedBy false, some ⟨[applyToken (some "ops")]⟩,
    .file (PathBuf.ofString "/etc/abora/abora.toml"), true⟩

def rotated : TokenStore := ⟨[⟨⟨some "ops2", ["manage:updates"]⟩, Vector.replicate 32 9⟩]⟩

/-- The reload turns authentication on; a request that comes between its writes is judged by the
token that is on its way out. -/
theorem judged_under_rotated :
    let digest : String → Hash := fun _ => Vector.replicate 32 7
    let schedule : List Actor := [.reload, .request, .request, .request]
    let answer : Decision × Option String := (.allowed, some "ops")
    (run (swapStep digest applyCall .manageUpdates (securedBy true) fun _ => .ok rotated)
        (Swap.start beforeSwap) schedule).asking = .judged answer ∧
      (answer = middleware digest beforeSwap.config beforeSwap.tokens applyCall .manageUpdates ∨
        answer = judge digest applyCall .manageUpdates
          (applyReload beforeSwap (securedBy true) fun _ => .ok rotated) ∨
        TurnsOn beforeSwap (securedBy true) ∧
          answer = middleware digest (securedBy true) beforeSwap.tokens applyCall .manageUpdates) := by
  intro digest schedule answer
  have hrun : (run (swapStep digest applyCall .manageUpdates (securedBy true) fun _ => .ok rotated)
      (Swap.start beforeSwap) schedule).asking = .judged answer := by decide
  exact ⟨hrun, judged_under digest applyCall .manageUpdates beforeSwap (securedBy true)
    (fun _ => .ok rotated) schedule hrun⟩

/-- **A third policy**: the old pair refuses the request because nothing is enforced, the new pair
because the secret was revoked, and between the two writes it is allowed. -/
theorem judged_by_mixture :
    ¬ ∀ (digest : String → Hash) (req : Request) (permission : Permission) (old : AuthState)
        (fresh : Config) (load : PathBuf → Loaded) (schedule : List Actor)
        (answer : Decision × Option String),
        (∀ path, fresh.security.tokenFile = some path → ∃ store, load path = .ok store) →
        (run (swapStep digest req permission fresh load) (Swap.start old) schedule).asking =
          .judged answer →
        answer.1 = (judge digest req permission old).1 ∨
          answer.1 = (judge digest req permission (applyReload old fresh load)).1 := by
  intro h
  let digest : String → Hash := fun _ => Vector.replicate 32 7
  have hold : (judge digest applyCall .manageUpdates beforeSwap).1 = .tokensRequired := by decide
  have hnew : (judge digest applyCall .manageUpdates
      (applyReload beforeSwap (securedBy true) fun _ => .ok rotated)).1 =
      .authenticationRequired := by decide
  have hor := h digest applyCall .manageUpdates beforeSwap (securedBy true) (fun _ => .ok rotated)
    [.reload, .request, .request, .request] (.allowed, some "ops")
    (fun _ _ => ⟨rotated, rfl⟩) (by decide)
  rw [hold, hnew] at hor
  rcases hor with hor | hor
  · cases hor
  · cases hor

end Abora.Daemon
