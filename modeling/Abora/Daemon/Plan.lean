import Abora.Daemon.Ledger

/-!
# What a request names, and what a dry run says about it

`request_apply` computes the packages and the reason against it once, and a dry run stops there. So
the two answers cannot differ on either; what is left to say is what the packages *are* — the names
found by the last successful refresh without those applied since, written in order — and that every
answer but an accepted request leaves everything as it was.

The names are kept by the ledger (`Abora.Daemon.Ledger`), which remembers what was found and what
was applied, while the daemon only has the list that is left. `plan_tells_truth` is about every
state that a run of refreshes, ingests and requests leads to.
-/

namespace Abora.Daemon

open Abora.Lib Abora.Update

/-- The names that were found and not applied, written in order, each once. -/
structure NamesListed (l : Ledger) (packages : List String) : Prop where
  sorted : packages.Pairwise (· < ·)
  mem_iff : ∀ name, name ∈ packages ↔ name ∈ l.found ∧ name ∉ l.applied

/-- A real call and its dry run, in one state: what each of them answers, and what it leaves
behind. -/
structure TellsTruth (encode : ApplyRequest → Bytes) (l : Ledger) (config : Config)
    (caller : String) (env : ApplyEnv) : Prop where
  /-- An accepted call writes a request, and names in it what it answers. -/
  accepted : ∀ resp, (l.apply encode config caller false env).2 = .ok resp →
    NamesListed l resp.packages ∧
      ∃ r, (l.apply encode config caller false env).1.requestFile = some (encode r) ∧
        r.packages = resp.packages
  /-- A dry run names the same, and permits what would be accepted if it could be written. -/
  dryRun : ∃ plan, (l.apply encode config caller true env).2 = .ok plan ∧
    NamesListed l plan.packages ∧
    (∀ resp, (l.apply encode config caller false env).2 = .ok resp →
      plan.packages = resp.packages) ∧
    (plan.permitted = true ↔
      (∃ resp, (l.apply encode config caller false env).2 = .ok resp) ∨
        ∃ e, env.written = .error e ∧ (l.apply encode config caller false env).2 =
          .error (.internal s!"could not write the apply request: {e}"))
  /-- A dry run and a refusal leave the list, the store and the request file alone. -/
  dryRunFrame : (l.apply encode config caller true env).1 = l
  refusalFrame : ∀ refusal, (l.apply encode config caller false env).2 = .error refusal →
    (l.apply encode config caller false env).1 = l

theorem requestPackages_listed {l : Ledger} (hl : l.NamesOk) :
    NamesListed l l.updates.requestPackages := by
  refine ⟨pairwise_sortDedup _, fun name => ?_⟩
  rw [UpdatesState.requestPackages, mem_sortDedup]
  exact hl name

/-- **One state**: the three ways of the real call, next to the dry run. -/
theorem apply_tellsTruth (encode : ApplyRequest → Bytes) {l : Ledger} (hl : l.NamesOk)
    (config : Config) (caller : String) (env : ApplyEnv) :
    TellsTruth encode l config caller env := by
  have hlisted := requestPackages_listed hl
  have hdry := apply_dryRun encode l config caller env
  rcases ledger_apply_cases encode l config caller env with
    ⟨reason, hblock, hreal⟩ | ⟨hblock, ⟨e, hwritten, hreal⟩ | ⟨hwritten, hreal⟩⟩
  · refine ⟨fun resp h => ?_, ⟨_, by rw [hdry], hlisted, fun resp h => ?_, ?_⟩, by rw [hdry],
      fun _ _ => by rw [hreal]⟩
    · rw [hreal] at h
      cases h
    · rw [hreal] at h
      cases h
    · rw [hreal, hblock]
      simp
  · refine ⟨fun resp h => ?_, ⟨_, by rw [hdry], hlisted, fun resp h => ?_, ?_⟩, by rw [hdry],
      fun _ _ => by rw [hreal]⟩
    · rw [hreal] at h
      cases h
    · rw [hreal] at h
      cases h
    · rw [hreal, hblock]
      exact ⟨fun _ => .inr ⟨e, hwritten, rfl⟩, fun _ => rfl⟩
  · refine ⟨fun resp h => ?_, ⟨_, by rw [hdry], hlisted, fun resp h => ?_, ?_⟩, by rw [hdry],
      fun refusal h => ?_⟩
    · rw [hreal] at h
      cases h
      exact ⟨hlisted, _, by rw [hreal], rfl⟩
    · rw [hreal] at h
      cases h
      rfl
    · rw [hreal, hblock]
      exact ⟨fun _ => .inl ⟨_, rfl⟩, fun _ => rfl⟩
    · rw [hreal] at h
      cases h

/-- **A request names exactly what is listed, and a dry run tells the truth**, after every run of
refreshes, ingests and requests. The ledger's names are an invariant of the run, and one state is
enough for the rest. -/
theorem plan_tells_truth (decode : Bytes → Option ApplyResult) (encode : ApplyRequest → Bytes)
    (store : UpdateStore) (requestFile resultFile : PathBuf) (file : Option Bytes)
    (events : List LedgerEvent) (config : Config) (caller : String) (env : ApplyEnv) :
    TellsTruth encode
      (run (ledgerStep decode encode) (Ledger.start store requestFile resultFile file) events)
      config caller env := by
  refine apply_tellsTruth encode ?_ config caller env
  exact run_invariant (I := Ledger.NamesOk) (fun l ev hl => namesOk_step hl ev)
    (start_namesOk store requestFile resultFile file) events

end Abora.Daemon
