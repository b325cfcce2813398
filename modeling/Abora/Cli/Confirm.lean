import Abora.Daemon.Handlers
import Abora.Daemon.Ledger
import Abora.Helper.Run

/-!
# Confirming a plan (`apply_updates` in `cli/abora/src/main.rs`)

The client asks the daemon for a plan, prints it, asks the operator, and asks the daemon to apply.
Between the two calls the daemon goes on: it checks for updates, it records results, others call it.
Nothing of the plan is sent with the second call, which requests whatever is listed by then.
`confirmed_iff` says when that is what was printed.

What the operator confirms is text, so that is where the plan is read from: `readPlan` takes the
names off the printed lines, which it can because no valid name has a blank in it. The daemon at
either end of a session is a `Ledger`, and what happens in between is a list of its events, so the
two calls see two states of one run. A call may also get lost on its way to the daemon or back; what
the client does then is an error in either case, but a request whose answer was lost is in place.
-/

namespace Abora.Cli

open Lib Lib.Text Update Daemon

/-- What becomes of one call on its way. The client cannot tell the two failures apart. -/
inductive Delivery where
  | answered
  /-- It never reaches the handler, and the client sees an error. -/
  | dropped (error : String)
  /-- The handler runs, and the client sees an error. -/
  | unanswered (error : String)
  deriving DecidableEq, Repr

/-- A call of `updates/apply`, with what the daemon finds when it arrives. -/
structure ApplyCall where
  config : Config
  caller : String
  env : ApplyEnv
  delivery : Delivery

structure ApplyArgs where
  dryRun : Bool
  yes : Bool
  json : Bool
  deriving DecidableEq, Repr

/-- Standard input: whether it is a terminal, and the line that is typed. -/
structure Stdin where
  isTerminal : Bool
  line : String
  deriving DecidableEq, Repr

/-- What a run of the command printed, and whether it succeeded. The lines of the plan are kept
apart from the others. -/
structure Output where
  plan : List String := []
  stdout : List String := []
  stderr : List String := []
  success : Bool := false
  deriving DecidableEq, Repr

/-- The error of `call_json` for an error envelope. -/
def httpError (b : ApiErrorBody) : String :=
  s!"HTTP {b.error.code.httpStatus}: {b.error.message} ({b.error.code.name})"

/-- `call_json` on `updates/apply`. A refusal arrives as the text of its envelope. -/
def callApply (encode : ApplyRequest → Bytes) (l : Ledger) (c : ApplyCall) (dryRun : Bool) :
    Ledger × Except String ApplyResponse :=
  match c.delivery with
  | .dropped error => (l, .error error)
  | .unanswered error => ((l.apply encode c.config c.caller dryRun c.env).1, .error error)
  | .answered =>
    let (l, answer) := l.apply encode c.config c.caller dryRun c.env
    (l, answer.mapError fun refusal => httpError (refusalBody refusal))

/-- `str::contains`. -/
def containsText (text part : String) : Bool := text.toList.tails.any part.toList.isPrefixOf

/-- What is printed for an error, with a hint that is chosen by words in its text. -/
def updatesError (base msg : String) : List String :=
  s!"error: {msg}" ::
    if containsText msg "HTTP 403" then
      ["hint: this token does not grant the needed permission (`read:updates` to look, `manage:updates` to apply)."]
    else if containsText msg "transport error" then [s!"hint: is the daemon running at {base}?"]
    else if containsText msg "bearer token" then ["hint: pass --token or set $ABORA_DAEMON_TOKEN."]
    else []

def planLine (names : List String) : String :=
  String.ofList (' ' :: ' ' :: joinAll ' ' (names.map String.toList))

/-- `format_plan`: six names a line, under a line that says how many there are. -/
def formatPlan (packages : List String) : List String :=
  s!"{packages.length} package(s) would be upgraded:" :: (chunks 5 packages).map planLine

/-- Whether the line that was typed is a yes. Anything else is a no, the empty line included. -/
def confirms (line : String) : Bool :=
  ["y", "Y", "yes", "YES"].contains (String.ofList (trim line.toList))

/-- `apply_updates`, with what happens at the daemon while the operator makes up their mind;
`pretty` prints a response as JSON. -/
def applyUpdates (decode : Bytes → Option ApplyResult) (encode : ApplyRequest → Bytes)
    (pretty : ApplyResponse → String) (base : String) (args : ApplyArgs) (stdin : Stdin)
    (l : Ledger) (first : ApplyCall) (between : List LedgerEvent) (second : ApplyCall) :
    Ledger × Output :=
  let (l, plan) := callApply encode l first true
  match plan with
  | .error msg => (l, { stderr := updatesError base msg })
  | .ok plan =>
    let shown := if args.json && args.dryRun then [pretty plan] else []
    if plan.permitted = false then
      (l, { stdout := shown, stderr := ["cannot apply now: " ++ plan.reason.getD "not permitted"] })
    else
      let lines := if !args.json || !args.dryRun then formatPlan plan.packages else []
      let asked := if args.yes then [] else ["Apply these updates now? [y/N] "]
      if args.dryRun then (l, { plan := lines, stdout := shown, success := true })
      else if !args.yes && !stdin.isTerminal then
        (l, { plan := lines, stderr :=
          ["refusing to apply without confirmation: run in a terminal, or pass --yes"] })
      else if !args.yes && !confirms stdin.line then
        (l, { plan := lines, stdout := asked ++ ["cancelled; nothing was requested"] })
      else
        let l := run (ledgerStep decode encode) l between
        let (l, answer) := callApply encode l second false
        match answer with
        | .error msg => (l, { plan := lines, stdout := asked, stderr := updatesError base msg })
        | .ok v =>
          let verdict :=
            if args.json then pretty v
            else "accepted (request " ++ v.id.getD "-" ++ "). Follow it with `abora updates`: " ++
              "status shows `installing`, then a history entry appears."
          (l, { plan := lines, stdout := asked ++ [verdict], success := true })

/-- The command succeeded, and not by a dry run: it reports an accepted request. -/
def Reports (args : ApplyArgs) (out : Output) : Prop := out.success = true ∧ args.dryRun = false

/-- The names on the lines of a plan. -/
def readPlan (lines : List String) : List String :=
  lines.tail.flatMap fun line => (splitAll ' ' (line.toList.drop 2)).map String.ofList

def Lists (l : Ledger) (name : String) : Prop :=
  name ∈ l.updates.available.map AvailableUpdate.component

/-! ## What is printed can be read -/

/-- What is printed can be read: the names come off the lines of the plan as they were put on
them. -/
theorem readPlan_formatPlan {packages : List String} (h : ∀ p ∈ packages, ' ' ∉ p.toList) :
    readPlan (formatPlan packages) = packages := by
  have hline {names : List String} (hn : names ∈ chunks 5 packages) :
      (splitAll ' ' ((planLine names).toList.drop 2)).map String.ofList = names := by
    have hne : names.map String.toList ≠ [] := by simpa using ne_nil_of_mem_chunks hn
    have hspace : ∀ w ∈ names.map String.toList, ' ' ∉ w := by
      intro w hw
      obtain ⟨p, hp, rfl⟩ := List.mem_map.mp hw
      exact h p (mem_of_mem_chunks hn hp)
    have hdrop : (planLine names).toList.drop 2 = joinAll ' ' (names.map String.toList) := by
      rw [planLine, String.toList_ofList]
      rfl
    rw [hdrop, splitAll_joinAll hne hspace, List.map_map]
    simp
  calc readPlan (formatPlan packages)
      = (chunks 5 packages).flatMap fun names =>
          (splitAll ' ' ((planLine names).toList.drop 2)).map String.ofList := by
        rw [readPlan, formatPlan, List.tail_cons, List.flatMap_map]
    _ = (chunks 5 packages).flatMap id := List.flatMap_congr fun names hn => hline hn
    _ = packages := by rw [List.flatMap_id, flatten_chunks]

/-- Whatever happens, only valid names are listed. -/
theorem availableValid_step {decode : Bytes → Option ApplyResult} {encode : ApplyRequest → Bytes}
    {l : Ledger} (hl : AvailableValid l.updates) (ev : LedgerEvent) :
    AvailableValid (ledgerStep decode encode l ev).updates := by
  cases ev with
  | refresh c =>
    have h : AvailableValid (updatesStep decode l.updates
        (.refresh c.channel c.run c.now c.saved)) := updatesStep_valid hl _
    exact h
  | ingest channel env => exact fun u hu => hl u (ingest_available hu)
  | apply config caller dryRun env => exact hl
  | outside file => exact hl

/-! ## The two calls -/

/-- A plan is what is listed when it is asked for, and asking changes nothing. -/
theorem callApply_plan {encode : ApplyRequest → Bytes} {l l' : Ledger} {c : ApplyCall}
    {plan : ApplyResponse} (h : callApply encode l c true = (l', .ok plan)) :
    l' = l ∧ plan.packages = l.updates.requestPackages := by
  unfold callApply at h
  rw [apply_dryRun] at h
  cases hdelivery : c.delivery with
  | answered =>
    rw [hdelivery] at h
    cases h
    exact ⟨rfl, rfl⟩
  | dropped e =>
    rw [hdelivery] at h
    cases h
  | unanswered e =>
    rw [hdelivery] at h
    cases h

/-- An accepted call puts a request in place, and names in it what is listed when it arrives. -/
theorem callApply_accepted {encode : ApplyRequest → Bytes} {l l' : Ledger} {c : ApplyCall}
    {v : ApplyResponse} (h : callApply encode l c false = (l', .ok v)) :
    l'.requestFile = some (encode (l.request c.caller c.env)) := by
  unfold callApply at h
  cases hdelivery : c.delivery with
  | answered =>
    rcases ledger_apply_cases encode l c.config c.caller c.env with
      ⟨reason, -, hreal⟩ | ⟨-, ⟨e, -, hreal⟩ | ⟨-, hreal⟩⟩
    · rw [hdelivery, hreal] at h
      cases h
    · rw [hdelivery, hreal] at h
      cases h
    · rw [hdelivery, hreal] at h
      cases h
      rfl
  | dropped e =>
    rw [hdelivery] at h
    cases h
  | unanswered e =>
    rw [hdelivery] at h
    cases h

/-- What the operator has to do for the second call to be made. -/
def Agrees (args : ApplyArgs) (stdin : Stdin) : Prop :=
  args.yes = true ∨ stdin.isTerminal = true ∧ confirms stdin.line = true

variable {decode : Bytes → Option ApplyResult} {encode : ApplyRequest → Bytes}
  {pretty : ApplyResponse → String} {base : String} {args : ApplyArgs} {stdin : Stdin}
  {l : Ledger} {first second : ApplyCall} {between : List LedgerEvent}

/-- **A report of an accepted request** is the end of both calls, with the operator's word between
them. Whatever else the command may print ends in an error. -/
theorem reports_cases
    (h : Reports args
      (applyUpdates decode encode pretty base args stdin l first between second).2) :
    Agrees args stdin ∧ ∃ plan l' v, callApply encode l first true = (l, .ok plan) ∧
      callApply encode (run (ledgerStep decode encode) l between) second false = (l', .ok v) ∧
      (applyUpdates decode encode pretty base args stdin l first between second).1 = l' ∧
      (applyUpdates decode encode pretty base args stdin l first between second).2.plan =
        formatPlan plan.packages := by
  obtain ⟨hsuccess, hreal⟩ := h
  -- success leaves one way through the command: both calls pass, and somebody agrees in between
  unfold applyUpdates at hsuccess ⊢
  rcases hfirst : callApply encode l first true with ⟨l₁, answer⟩
  cases answer with
  | error msg => simp [hfirst] at hsuccess
  | ok plan =>
    obtain ⟨rfl, -⟩ := callApply_plan hfirst
    simp only [hfirst, hreal, Bool.and_false, Bool.not_false, Bool.or_true, if_true,
      Bool.false_eq_true, if_false] at hsuccess ⊢
    cases hpermitted : plan.permitted with
    | false => simp [hpermitted] at hsuccess
    | true =>
      simp only [hpermitted, Bool.true_eq_false, if_false] at hsuccess ⊢
      split at hsuccess
      · cases hsuccess
      split at hsuccess
      · cases hsuccess
      rename_i hterminal hconfirms
      rcases hsecond : callApply encode (run (ledgerStep decode encode) l₁ between) second false
        with ⟨l₂, answer⟩
      cases answer with
      | error msg => simp [hsecond] at hsuccess
      | ok v =>
        have hagrees : Agrees args stdin := by
          cases hyes : args.yes with
          | true => exact .inl hyes
          | false =>
            rw [hyes] at hterminal hconfirms
            exact .inr ⟨by simpa using hterminal, by simpa using hconfirms⟩
        simp only [hterminal, hconfirms, Bool.false_eq_true, if_false]
        exact ⟨hagrees, plan, l₂, v, rfl, rfl, rfl, rfl⟩

/-- Nothing stands against the call when it arrives, and it is answered. -/
structure Passes (l : Ledger) (c : ApplyCall) : Prop where
  answered : c.delivery = .answered
  unblocked : l.updates.block c.config l.requestFile.isSome c.env.localTime = none
  written : c.env.written = .ok ()

theorem reports_of_passes (hyes : args.yes = true) (hreal : args.dryRun = false)
    (hfirst : Passes l first) (hsecond : Passes (run (ledgerStep decode encode) l between) second) :
    Reports args
      (applyUpdates decode encode pretty base args stdin l first between second).2 := by
  refine ⟨?_, hreal⟩
  have hplan : callApply encode l first true =
      (l, .ok ⟨true, true, none, none, l.updates.requestPackages⟩) := by
    unfold callApply
    rw [hfirst.answered, apply_dryRun, hfirst.unblocked]
    rfl
  have haccepted : ∃ l' v,
      callApply encode (run (ledgerStep decode encode) l between) second false = (l', .ok v) := by
    unfold callApply
    rw [hsecond.answered]
    rcases ledger_apply_cases encode (run (ledgerStep decode encode) l between) second.config
      second.caller second.env with ⟨reason, hblock, -⟩ | ⟨-, ⟨e, hwritten, -⟩ | ⟨-, hcall⟩⟩
    · rw [hsecond.unblocked] at hblock
      cases hblock
    · rw [hsecond.written] at hwritten
      cases hwritten
    · rw [hcall]
      exact ⟨_, _, rfl⟩
  obtain ⟨l', v, hcall⟩ := haccepted
  simp only [applyUpdates, hplan, hcall, hreal, hyes, Bool.not_true, Bool.false_and,
    Bool.true_eq_false, Bool.false_eq_true, if_false]

/-! ## A session -/

/-- One use of the command, from the start of the daemon: what happens before, the two calls, and
what happens between them. -/
structure Session where
  store : UpdateStore
  requestFile : PathBuf
  resultFile : PathBuf
  file : Option Bytes
  /-- What happens before the first call. -/
  before : List LedgerEvent
  args : ApplyArgs
  stdin : Stdin
  first : ApplyCall
  between : List LedgerEvent
  second : ApplyCall

namespace Session

def planned (s : Session) (decode : Bytes → Option ApplyResult) (encode : ApplyRequest → Bytes) :
    Ledger :=
  run (ledgerStep decode encode) (Ledger.start s.store s.requestFile s.resultFile s.file) s.before

def requested (s : Session) (decode : Bytes → Option ApplyResult) (encode : ApplyRequest → Bytes) :
    Ledger :=
  run (ledgerStep decode encode) (s.planned decode encode) s.between

/-- The daemon when the command has ended, and what the command printed. -/
def result (s : Session) (decode : Bytes → Option ApplyResult) (encode : ApplyRequest → Bytes)
    (pretty : ApplyResponse → String) (base : String) : Ledger × Output :=
  applyUpdates decode encode pretty base s.args s.stdin (s.planned decode encode) s.first s.between
    s.second

end Session

/-- The packages of the request are those on the lines of the plan exactly if the same names are
listed at both calls: both are written in order, each name once. -/
theorem packages_iff {s : Session} {decode : Bytes → Option ApplyResult}
    {encode : ApplyRequest → Bytes} {pretty : ApplyResponse → String} {base : String}
    (h : Reports s.args (s.result decode encode pretty base).2) :
    ((s.requested decode encode).request s.second.caller s.second.env).packages =
        readPlan (s.result decode encode pretty base).2.plan ↔
      ∀ name, Lists (s.planned decode encode) name ↔ Lists (s.requested decode encode) name := by
  obtain ⟨-, plan, l', v, hplan, -, -, hlines⟩ := reports_cases h
  have hvalid : AvailableValid (s.planned decode encode).updates :=
    run_invariant (I := fun l : Ledger => AvailableValid l.updates)
      (fun l ev hl => availableValid_step hl ev)
      (host_available s.store s.requestFile s.resultFile) s.before
  have hspace : ∀ p ∈ plan.packages, ' ' ∉ p.toList := by
    intro p hp
    rw [(callApply_plan hplan).2] at hp
    obtain ⟨u, hu, rfl⟩ := List.mem_map.mp (mem_sortDedup.mp hp)
    exact validPackageName_not_mem (hvalid u hu) (by decide)
  have hread : readPlan (s.result decode encode pretty base).2.plan =
      (s.planned decode encode).updates.requestPackages := by
    rw [Session.result, hlines, readPlan_formatPlan hspace, (callApply_plan hplan).2]
  have hpackages : ((s.requested decode encode).request s.second.caller s.second.env).packages =
      (s.requested decode encode).updates.requestPackages := rfl
  rw [hread, hpackages, UpdatesState.requestPackages, UpdatesState.requestPackages,
    sortDedup_eq_iff]
  exact forall_congr' fun name => iff_comm

/-- **What the operator confirmed is what is requested** exactly when, as the second call arrives,
the daemon lists the names it listed at the first. -/
theorem confirmed_iff (decode : Bytes → Option ApplyResult) (encode : ApplyRequest → Bytes)
    (pretty : ApplyResponse → String) (base : String) (s : Session)
    (h : Reports s.args (s.result decode encode pretty base).2) :
    ∃ r, (s.result decode encode pretty base).1.requestFile = some (encode r) ∧
      r = (s.requested decode encode).request s.second.caller s.second.env ∧
      (r.packages = readPlan (s.result decode encode pretty base).2.plan ↔
        ∀ name, Lists (s.planned decode encode) name ↔
          Lists (s.requested decode encode) name) := by
  obtain ⟨-, plan, l', v, -, haccepted, hend, -⟩ := reports_cases h
  refine ⟨_, ?_, rfl, packages_iff h⟩
  rw [Session.result, hend]
  exact callApply_accepted haccepted

def checkFinds (now line : String) : LedgerEvent := .refresh ⟨.stable, .ok line, now, .ok ()⟩

def opensslLine : String := "Inst openssl [3.0.13] (3.0.14 Ubuntu:24.04/noble-updates [amd64])\n"

def curlLine : String := "Inst curl [8.5.0-1] (8.5.0-2 Ubuntu:24.04/noble-updates [amd64])\n"

/-- `abora updates apply --yes` inside a window, after a check that found `openssl`; the request
arrives half a minute after the plan was asked for. -/
def nightSession (between : List LedgerEvent) : Session :=
  let config : Config :=
    { maintenance := { enabled := true, windows := [⟨[.saturday], "02:00", "04:00", none⟩] } }
  let call (now : String) : ApplyCall :=
    ⟨config, "ops", ⟨false, some ⟨.saturday, 200⟩, 0xa1, now, .ok ()⟩, .answered⟩
  { store := UpdateStore.inMemory
    requestFile := PathBuf.ofString "/var/lib/abora/apply-request.json"
    resultFile := defaultResultFile
    file := none
    before := [checkFinds "2026-09-19T03:00:00Z" opensslLine]
    args := ⟨false, true, false⟩
    stdin := ⟨false, ""⟩
    first := call "2026-09-19T03:20:00Z"
    between := between
    second := call "2026-09-19T03:20:30Z" }

/-- What the daemon is told: no result is waiting, and requests are printed as they are. -/
abbrev nightResult (s : Session) : Ledger × Output :=
  s.result (fun _ => none) Helper.requestText (fun _ => "") "http://127.0.0.1:7360"

/-- A check between the two calls finds the same package again, and the request is what was
printed. -/
theorem confirmed_undisturbed :
    let s := nightSession [checkFinds "2026-09-19T03:20:10Z" opensslLine]
    ∃ r : ApplyRequest, (nightResult s).1.requestFile = some (Helper.requestText r) ∧
      r.id = "apply-00000000000000a1" ∧ r.requestedAt = "2026-09-19T03:20:30Z" ∧
      r.packages = readPlan (nightResult s).2.plan ∧ r.packages = ["openssl"] := by
  intro s
  have hfirst : Passes (s.planned (fun _ => none) Helper.requestText) s.first :=
    ⟨rfl, by decide, rfl⟩
  have hsecond : Passes (s.requested (fun _ => none) Helper.requestText) s.second :=
    ⟨rfl, by decide, rfl⟩
  have hreports : Reports s.args (nightResult s).2 := reports_of_passes rfl rfl hfirst hsecond
  -- the list is another one, with the same name on it
  have hsame : (s.requested (fun _ => none) Helper.requestText).updates.available.map
      AvailableUpdate.component =
        (s.planned (fun _ => none) Helper.requestText).updates.available.map
          AvailableUpdate.component := by decide
  obtain ⟨r, hfile, hr, hiff⟩ := confirmed_iff (fun _ => none) Helper.requestText (fun _ => "")
    "http://127.0.0.1:7360" s hreports
  have hplan : r.packages = readPlan (nightResult s).2.plan :=
    hiff.mpr fun name => by rw [Lists, Lists, hsame]
  have hpackages : r.packages = ["openssl"] := by
    rw [hr]
    decide
  refine ⟨r, hfile, ?_, ?_, hplan, hpackages⟩
  · rw [hr]
    decide
  · rw [hr]
    rfl

/-- **The operator confirms one package and another is requested**: a check runs while they
think. -/
theorem other_packages_requested :
    ¬ ∀ (decode : Bytes → Option ApplyResult) (encode : ApplyRequest → Bytes)
        (pretty : ApplyResponse → String) (base : String) (s : Session),
        Reports s.args (s.result decode encode pretty base).2 →
        ((s.requested decode encode).request s.second.caller s.second.env).packages =
          readPlan (s.result decode encode pretty base).2.plan := by
  intro h
  let s := nightSession [checkFinds "2026-09-19T03:20:10Z" curlLine]
  have hfirst : Passes (s.planned (fun _ => none) Helper.requestText) s.first :=
    ⟨rfl, by decide, rfl⟩
  have hsecond : Passes (s.requested (fun _ => none) Helper.requestText) s.second :=
    ⟨rfl, by decide, rfl⟩
  have hreports : Reports s.args (nightResult s).2 := reports_of_passes rfl rfl hfirst hsecond
  have hsame := (packages_iff hreports).mp (h _ _ _ _ s hreports)
  have hbefore : Lists (s.planned (fun _ => none) Helper.requestText) "openssl" := by
    unfold Lists
    decide
  have hafter : ¬ Lists (s.requested (fun _ => none) Helper.requestText) "openssl" := by
    unfold Lists
    decide
  exact hafter ((hsame "openssl").mp hbefore)

end Abora.Cli
