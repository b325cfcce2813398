import Mathlib.Data.List.Nodup
import Mathlib.Data.List.ProdSigma
import Abora.Daemon.State

/-!
# The requests the daemon writes

Two programs enforce the request format: `requestApply` by how it builds a request, and the helper's
`validateRequest` by what it refuses. This module carries the validator's conditions through the
builder. The id is always one the validator accepts; the names are, because the list of available
updates only ever holds names the parser let through (`AvailableValid`); there is at least one of
them, because an empty list is a conflict. The one condition nothing implies is the bound on their
number.

`AvailableValid` is an invariant of every run of refreshes and ingests: a refresh replaces the list
by what the parser returned or leaves it alone, and an ingest only takes from it. The witness of the
bound is a simulation of 2197 packages, whose names are the words of three letters; what has to be
computed about them is their number and that they differ.
-/

namespace Abora.Daemon

open Abora.Lib Abora.Lib.Text Abora.Update

/-! ## One call -/

/-- Nothing stands against a request when none is waiting, there is something to ask for, and the
policy allows it. -/
theorem block_eq_none_iff {s : UpdatesState} {config : Config} {pending : Bool}
    {now : Option LocalTime} :
    s.block config pending now = none ↔
      pending = false ∧ s.requestPackages ≠ [] ∧ OpenAt config now := by
  rw [← applyPermitted_iff]
  unfold UpdatesState.block
  cases pending with
  | true => simp
  | false =>
    by_cases hempty : s.requestPackages = []
    · simp [hempty]
    by_cases hclosed : (permissions config now).applyPermitted = false
    · simp [hempty, hclosed]
    · simp [hempty, hclosed]

/-- **One call** that is no dry run: a conflict, a failed write, or a request in place. -/
theorem requestApply_cases (s : UpdatesState) (config : Config) (caller : String)
    (env : ApplyEnv) :
    (∃ reason, s.block config env.pending env.localTime = some reason ∧
        s.requestApply config caller false env = (.error (.conflict reason), none)) ∨
      (s.block config env.pending env.localTime = none ∧
        ((∃ e, env.written = .error e ∧ s.requestApply config caller false env =
            (.error (.internal s!"could not write the apply request: {e}"), none)) ∨
          (env.written = .ok () ∧ s.requestApply config caller false env =
            (.ok ⟨false, true, none, some (newRequestId env.hash), s.requestPackages⟩,
              some (s.request caller env))))) := by
  unfold UpdatesState.requestApply
  cases hblock : s.block config env.pending env.localTime with
  | some reason => exact .inl ⟨reason, rfl, rfl⟩
  | none =>
    cases hwritten : env.written with
    | error e => exact .inr ⟨rfl, .inl ⟨e, rfl, rfl⟩⟩
    | ok u => exact .inr ⟨rfl, .inr ⟨rfl, rfl⟩⟩

/-- A request that was written is the one `request` builds, and its list was not empty. -/
theorem requestApply_some {s : UpdatesState} {config : Config} {caller : String}
    {env : ApplyEnv} {resp : ApplyResponse} {r : ApplyRequest}
    (h : s.requestApply config caller false env = (.ok resp, some r)) :
    r = s.request caller env ∧ s.requestPackages ≠ [] := by
  rcases requestApply_cases s config caller env with
    ⟨reason, -, hcall⟩ | ⟨hblock, ⟨e, -, hcall⟩ | ⟨-, hcall⟩⟩
  · rw [hcall] at h
    cases h
  · rw [hcall] at h
    cases h
  · rw [hcall] at h
    cases h
    exact ⟨rfl, (block_eq_none_iff.mp hblock).2.1⟩

/-! ## The id -/

theorem hexDigit_alphanum : ∀ d < 16, (hexDigit d).isAlphanum = true := by decide

theorem newRequestId_toList (hash : UInt64) :
    (newRequestId hash).toList = "apply-".toList ++ hexPadded 16 hash.toNat := by
  simp [newRequestId]

theorem length_newRequestId (hash : UInt64) : (newRequestId hash).toList.length = 22 := by
  rw [newRequestId_toList, List.length_append, length_hexPadded]
  rfl

/-- **Every id the daemon makes is one the helper accepts**: `apply-` and sixteen hexadecimal
digits. -/
theorem newRequestId_valid (hash : UInt64) : validRequestId (newRequestId hash) = true := by
  refine validRequestId_of_all ?_ fun c hc => ?_
  · rw [length_newRequestId]
    exact ⟨by decide, by decide⟩
  · rw [newRequestId_toList] at hc
    rcases List.mem_append.mp hc with hc | hc
    · have hword : ("apply-".toList.all fun c => c.isAlphanum || c == '-') = true := by decide
      simpa using List.all_eq_true.mp hword c hc
    · obtain ⟨d, hd, rfl⟩ := mem_hexPadded hc
      exact .inl (hexDigit_alphanum d hd)

/-! ## The names -/

/-- Every listed component is a name the parser let through. -/
def AvailableValid (s : UpdatesState) : Prop :=
  ∀ u ∈ s.available, validPackageName u.component = true

theorem host_available (store : UpdateStore) (requestFile resultFile : PathBuf) :
    AvailableValid (UpdatesState.host store requestFile resultFile) := by
  intro u hu
  cases hu

/-- What a refresh does to the list: nothing, or it is what the simulation said. -/
theorem refresh_available (s : UpdatesState) (channel : Channel) (run : Except String String)
    (now : String) (saved : Except StoreError Unit) :
    (s.refresh channel run now saved).1.available = s.available ∨
      ∃ output, run = .ok output ∧ (s.refresh channel run now saved).1.available =
        (parseSimulation output).map (PackageUpgrade.toAvailable channel) := by
  unfold UpdatesState.refresh
  rcases check_cases s.provider channel run now saved with
    ⟨message, -, h⟩ | ⟨output, hrun, ⟨e, h⟩ | h⟩
  · rw [h]
    exact .inl rfl
  · rw [h]
    exact .inl rfl
  · rw [h]
    exact .inr ⟨output, hrun, rfl⟩

theorem mem_dropInstalled {s : UpdatesState} {result : ApplyResult} {u : AvailableUpdate}
    (h : u ∈ (s.dropInstalled result).available) : u ∈ s.available := by
  unfold UpdatesState.dropInstalled at h
  by_cases hok : result.succeeded = true
  · rw [if_pos hok] at h
    exact (List.mem_filter.mp h).1
  · rw [if_neg hok] at h
    exact h

@[simp] theorem dropInstalled_store (s : UpdatesState) (result : ApplyResult) :
    (s.dropInstalled result).store = s.store := by
  unfold UpdatesState.dropInstalled
  split <;> rfl

/-- The store after the entry of a result was appended. -/
def recordedStore (s : UpdatesState) (channel : Channel) (result : ApplyResult) : UpdateStore :=
  ⟨s.store.path, trim ((Call.update (applyEntry channel result)).edit s.store.data)⟩

/-- **One ingest**: it changes nothing — because the id is not one, or is already recorded, or the
save failed — or it appends the entry of the result. -/
theorem ingestResult_cases (s : UpdatesState) (channel : Channel) (result : ApplyResult)
    (saved : Except StoreError Unit) :
    (((validRequestId result.id || result.id == "invalid") = false ∨
        s.store.history.any (carries result.id) = true ∨
        (s.store.path ≠ none ∧ ∃ e, saved = .error e)) ∧
        s.ingestResult channel result saved = (s, false)) ∨
      ((validRequestId result.id || result.id == "invalid") = true ∧
        s.store.history.any (carries result.id) = false ∧
        s.ingestResult channel result saved =
          ((s.withStore (recordedStore s channel result)).dropInstalled result, true)) := by
  unfold UpdatesState.ingestResult
  cases hid : validRequestId result.id || result.id == "invalid" with
  | false => exact .inl ⟨.inl rfl, if_pos rfl⟩
  | true =>
    cases hseen : s.store.history.any (carries result.id) with
    | true => exact .inl ⟨.inr (.inl rfl), by simp⟩
    | false =>
      rcases perform_cases s.store (.update (applyEntry channel result)) saved with
        ⟨e, hpath, hsaved, h⟩ | ⟨-, h⟩
      · have h : s.store.recordUpdate (applyEntry channel result) saved = (s.store, .error e) := h
        rw [h]
        exact .inl ⟨.inr (.inr ⟨hpath, e, hsaved⟩), rfl⟩
      · have h : s.store.recordUpdate (applyEntry channel result) saved =
            (recordedStore s channel result, .ok ()) := h
        rw [h]
        exact .inr ⟨rfl, rfl, rfl⟩

theorem ingest_available {decode : Bytes → Option ApplyResult} {s : UpdatesState}
    {channel : Channel} {env : IngestEnv} {u : AvailableUpdate}
    (h : u ∈ (s.ingestApplyResult decode channel env).1.available) : u ∈ s.available := by
  unfold UpdatesState.ingestApplyResult at h
  cases hread : readRegularFile s.applyResultFile env.stat env.now env.contents none with
  | error e =>
    rw [hread] at h
    exact h
  | ok bytes =>
    cases hdec : decode bytes with
    | none =>
      simp only [hread, hdec] at h
      exact h
    | some result =>
      simp only [hread, hdec] at h
      rcases ingestResult_cases s channel result env.saved with ⟨-, hcall⟩ | ⟨-, -, hcall⟩
      · rw [hcall] at h
        exact h
      · rw [hcall] at h
        have hold : u ∈ (s.withStore (recordedStore s channel result)).available :=
          mem_dropInstalled h
        exact hold

/-! ## Runs -/

/-- What may change the list between two requests. -/
inductive UpdatesEvent where
  | refresh (channel : Channel) (run : Except String String) (now : String)
      (saved : Except StoreError Unit)
  | ingest (channel : Channel) (env : IngestEnv)

def updatesStep (decode : Bytes → Option ApplyResult) (s : UpdatesState) :
    UpdatesEvent → UpdatesState
  | .refresh channel run now saved => (s.refresh channel run now saved).1
  | .ingest channel env => (s.ingestApplyResult decode channel env).1

theorem updatesStep_valid {decode : Bytes → Option ApplyResult} {s : UpdatesState}
    (hs : AvailableValid s) (ev : UpdatesEvent) : AvailableValid (updatesStep decode s ev) := by
  cases ev with
  | refresh channel run now saved =>
    intro u hu
    rcases refresh_available s channel run now saved with h | ⟨output, -, h⟩
    · rw [updatesStep, h] at hu
      exact hs u hu
    · rw [updatesStep, h] at hu
      obtain ⟨v, hv, rfl⟩ := List.mem_map.mp hu
      exact (parseSimulation_valid hv).1
  | ingest channel env => exact fun u hu => hs u (ingest_available hu)

/-- A written request meets every condition of the validator but the bound, from any state whose
list is valid. -/
theorem request_validates_of_length {s : UpdatesState} (hs : AvailableValid s) (caller : String)
    (env : ApplyEnv) (hne : s.requestPackages ≠ []) :
    validateRequest (s.request caller env) = .ok () ↔
      s.requestPackages.length ≤ maxPackages := by
  rw [validateRequest_ok_iff]
  constructor
  · exact fun h => h.2.2.1
  · intro hlen
    refine ⟨newRequestId_valid env.hash, hne, hlen, fun p hp => ?_⟩
    obtain ⟨u, hu, rfl⟩ := List.mem_map.mp (mem_sortDedup.mp hp)
    exact hs u hu

/-- **When the helper accepts what the daemon accepts**: exactly when the last check listed no more
distinct packages than one request may name, after any run of refreshes and ingests. -/
theorem request_validates_iff (decode : Bytes → Option ApplyResult) (store : UpdateStore)
    (requestFile resultFile : PathBuf) (events : List UpdatesEvent) (config : Config)
    (caller : String) (env : ApplyEnv) {resp : ApplyResponse} {r : ApplyRequest}
    (h : (run (updatesStep decode) (UpdatesState.host store requestFile resultFile)
      events).requestApply config caller false env = (.ok resp, some r)) :
    validateRequest r = .ok () ↔
      ((run (updatesStep decode) (UpdatesState.host store requestFile resultFile)
        events).available.map AvailableUpdate.component).toFinset.card ≤ maxPackages := by
  have hstep (s : UpdatesState) (ev : UpdatesEvent) (hs : AvailableValid s) :
      AvailableValid (updatesStep decode s ev) := updatesStep_valid hs ev
  have hvalid := run_invariant hstep (host_available store requestFile resultFile) events
  obtain ⟨rfl, hne⟩ := requestApply_some h
  rw [request_validates_of_length hvalid caller env hne, UpdatesState.requestPackages,
    length_sortDedup]

theorem request_validates_one :
    let simulation := "Inst openssl [3.0.13] (3.0.14 Ubuntu:24.04/noble-updates [amd64])\n"
    let s := run (updatesStep fun _ => none)
      (UpdatesState.host UpdateStore.inMemory (PathBuf.ofString "/var/lib/abora/apply-request.json")
        (PathBuf.ofString "/var/lib/abora-apply/result.json"))
      [.refresh .stable (.ok simulation) "2026-09-19T03:00:00Z" (.ok ())]
    let config : Config :=
      { maintenance := { enabled := true, windows := [⟨[.saturday], "02:00", "04:00", none⟩] } }
    let env : ApplyEnv :=
      ⟨false, some ⟨.saturday, 200⟩, 0xa1, "2026-09-19T03:20:00Z", .ok ()⟩
    (s.requestApply config "ops" false env).2 = some (s.request "ops" env) ∧
      validateRequest (s.request "ops" env) = .ok () := by
  intro simulation s config env
  have hcall : s.requestApply config "ops" false env =
      (.ok ⟨false, true, none, some (newRequestId env.hash), s.requestPackages⟩,
        some (s.request "ops" env)) := by
    have hblock : s.block config env.pending env.localTime = none := by decide
    simp [UpdatesState.requestApply, hblock, env, UpdatesState.request]
  refine ⟨by rw [hcall], ?_⟩
  exact (request_validates_iff (fun _ => none) _ _ _ _ config "ops" env hcall).mpr (by decide)

/-! ## More packages than a request may name -/

def letters : List Char := "abcdefghijklm".toList

/-- More names than a request may have: the words of three of thirteen letters. -/
def manyNames : List Chars :=
  (letters ×ˢ letters ×ˢ letters).map fun p => [p.1, p.2.1, p.2.2]

theorem nodup_manyNames : manyNames.Nodup := by
  have hletters : letters.Nodup := by decide
  refine List.Nodup.map ?_ (hletters.product (hletters.product hletters))
  rintro ⟨a, b, c⟩ ⟨a', b', c'⟩ h
  simp only [List.cons.injEq, and_true] at h
  obtain ⟨rfl, rfl, rfl⟩ := h
  rfl

theorem length_manyNames : manyNames.length = 2197 := by
  have hletters : letters.length = 13 := by decide
  simp [manyNames, List.length_product, hletters]

theorem mem_manyNames {name : Chars} (h : name ∈ manyNames) :
    name.length = 3 ∧ ∀ c ∈ name, c.isLower = true := by
  have hall : letters.all Char.isLower = true := by decide
  have hletters : ∀ c ∈ letters, c.isLower = true := List.all_eq_true.mp hall
  obtain ⟨⟨a, b, c⟩, hp, rfl⟩ := List.mem_map.mp h
  rw [List.mem_product, List.mem_product] at hp
  refine ⟨rfl, fun d hd => ?_⟩
  simp only [List.mem_cons, List.not_mem_nil, or_false] at hd
  rcases hd with rfl | rfl | rfl
  · exact hletters _ hp.1
  · exact hletters _ hp.2.1
  · exact hletters _ hp.2.2

/-- A name of lowercase letters is valid, and has nothing in it that an `Inst` line is cut at. -/
theorem validPackageName_of_lower {name : Chars} (hlen : name.length = 3)
    (hall : ∀ c ∈ name, c.isLower = true) : validPackageName (String.ofList name) = true := by
  have hsize : ∀ c ∈ name, c.utf8Size = 1 :=
    fun c hc => utf8Size_of_alphanum (isAlphanum_of_lower (hall c hc))
  obtain ⟨c, cs, rfl⟩ := List.exists_cons_of_length_eq_add_one hlen
  have hc := hall c List.mem_cons_self
  have hdash : c ≠ '-' := by
    rintro rfl
    exact absurd hc (by decide)
  have hdot : c ≠ '.' := by
    rintro rfl
    exact absurd hc (by decide)
  have hbytes : byteLen (c :: cs) ≤ 200 := by
    rw [byteLen_eq_length hsize, hlen]
    decide
  simp only [validPackageName, String.toList_ofList, hbytes]
  simp [hdash, hdot, hc]
  intro d hd
  exact .inl (.inl (hall d (List.mem_cons_of_mem _ hd)))

def manyLine (name : Chars) : Chars :=
  instLine name (some ['1']) ['2'] "Ubuntu:24.04/noble [amd64]".toList

def manySimulation : String := String.ofList (unlines (manyNames.map manyLine))

theorem parse_manySimulation :
    parseSimulation manySimulation = manyNames.map fun name =>
      ⟨String.ofList name, some "1", "2", "Ubuntu:24.04/noble [amd64]"⟩ := by
  have hlow {c : Char} (hc : c.isLower = false) {name : Chars} (h : name ∈ manyNames) :
      c ∉ name := by
    intro hmem
    rw [(mem_manyNames h).2 c hmem] at hc
    cases hc
  refine parseSimulation_unlines (fun name h => ?_) fun name h => ?_
  · obtain ⟨hlen, hall⟩ := mem_manyNames h
    exact parseInstLine_instLine (validPackageName_of_lower hlen hall)
      (hlow (by decide) h) (by simp) (by simp) (by simp) (by decide)
  · have hn := hlow (show '\n'.isLower = false by decide) h
    have hr := hlow (show '\r'.isLower = false by decide) h
    simp [manyLine, instLine, installedPart, hn, hr]

/-- **A check can list more than a request may name**: the daemon accepts the request, and the
helper's own check refuses it. -/
theorem accepted_request_refused :
    ¬ ∀ (decode : Bytes → Option ApplyResult) (store : UpdateStore)
        (requestFile resultFile : PathBuf) (events : List UpdatesEvent) (config : Config)
        (caller : String) (env : ApplyEnv) (resp : ApplyResponse) (r : ApplyRequest),
        (run (updatesStep decode) (UpdatesState.host store requestFile resultFile)
          events).requestApply config caller false env = (.ok resp, some r) →
        validateRequest r = .ok () := by
  intro h
  let requestFile := PathBuf.ofString "/var/lib/abora/apply-request.json"
  let resultFile := PathBuf.ofString "/var/lib/abora-apply/result.json"
  let start := UpdatesState.host UpdateStore.inMemory requestFile resultFile
  let config : Config :=
    { maintenance := { enabled := true, windows := [⟨[.saturday], "02:00", "04:00", none⟩] } }
  let env : ApplyEnv := ⟨false, some ⟨.saturday, 200⟩, 0xa1, "2026-09-19T03:20:00Z", .ok ()⟩
  have hrefresh (simulation : String) : (run (updatesStep fun _ => none) start
      [.refresh .stable (.ok simulation) "2026-09-19T03:00:00Z" (.ok ())]).available =
      (parseSimulation simulation).map (PackageUpgrade.toAvailable .stable) := rfl
  have hs := hrefresh manySimulation
  have hlast := h (fun _ => none) UpdateStore.inMemory requestFile resultFile
    [.refresh .stable (.ok manySimulation) "2026-09-19T03:00:00Z" (.ok ())] config "ops" env
  -- from here on only the list matters, not how it came about
  generalize run (updatesStep fun _ => none) start _ = s at hs hlast
  have hnames : s.available.map AvailableUpdate.component = manyNames.map String.ofList := by
    rw [hs, parse_manySimulation, List.map_map, List.map_map]
    rfl
  -- thirteen letters in three places
  have hlen : s.requestPackages.length = 2197 := by
    have hnodup : (manyNames.map String.ofList).Nodup :=
      nodup_manyNames.map fun a b hab => String.ofList_injective hab
    rw [UpdatesState.requestPackages, length_sortDedup, hnames,
      List.toFinset_card_of_nodup hnodup, List.length_map, length_manyNames]
  have hne : s.requestPackages ≠ [] := by
    intro hnil
    rw [hnil] at hlen
    cases hlen
  -- the daemon sees nothing wrong with it
  have hblock : s.block config env.pending env.localTime = none :=
    block_eq_none_iff.mpr ⟨rfl, hne, by decide⟩
  rcases requestApply_cases s config "ops" env with
    ⟨reason, hb, -⟩ | ⟨-, ⟨e, hw, -⟩ | ⟨-, hcall⟩⟩
  · rw [hblock] at hb
    cases hb
  · cases hw
  · have hvalid := hlast _ _ hcall
    have hbound : s.requestPackages.length ≤ maxPackages :=
      (validateRequest_ok_iff.mp hvalid).2.2.1
    rw [hlen] at hbound
    exact absurd hbound (by decide)

end Abora.Daemon
