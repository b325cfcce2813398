import Abora.Lib.Utf8
import Abora.Update.Host

/-!
# Running `apt-get` (`SystemRunner` in `abora-update/src/host.rs`)

Two threads drain the child's pipes while the runner waits for it. A thread's read error is dropped,
and `read_to_string` leaves its buffer alone when the bytes are not UTF-8, so the output of a
command that succeeded may be read as the empty text. The simulation parser takes the empty text for
a simulation with nothing to do, and the status after it says that the host is up to date.

`answer_kept_iff` is exactly when that does not cost anything: the output is UTF-8, or no line of it
is, so that there was nothing to lose. What it would mean to lose something is said about the text
the runner returns (`KeepsLines`) and about the check and the status it leads to (`Reports`).
-/

namespace Abora.Update

open Abora.Lib Abora.Lib.Text

/-- `ExitStatus`, and how it is printed. Only whether it is a success is looked at. -/
structure ExitStatus where
  success : Bool
  text : String
  deriving DecidableEq, Repr

/-- What becomes of a command: what the operating system refuses, the deadline, or an exit with
everything that was written to the two pipes. -/
inductive Child where
  | notSpawned (e : IoError)
  | timedOut
  | waitFailed (e : IoError)
  | exited (status : ExitStatus) (stdout stderr : Bytes)
  deriving DecidableEq, Repr

/-- The characters left when the first `n` bytes and the rest of a cut character are gone. The
source looks for the next boundary with a loop, which is `Abora.Update.Tail`. -/
def dropBytes : Nat → Chars → Chars
  | _, [] => []
  | n, c :: cs => if n = 0 then c :: cs else dropBytes (n - c.utf8Size) cs

/-- `tail`: the last `max` bytes, cut on a character boundary and trimmed. -/
def tail (text : Chars) (max : Nat) : Chars :=
  if byteLen text ≤ max then Text.trim text
  else Text.trim (dropBytes (byteLen text - max) text)

/-- `read_to_string` into an empty buffer, its error dropped: bytes that are not UTF-8 leave the
buffer as it was. -/
def drain (pipe : Bytes) : String := (fromUtf8 pipe).getD ""

structure SystemRunner where
  /-- In seconds. -/
  timeout : Nat
  deriving DecidableEq, Repr

def commandTimeout : Nat := 120

def SystemRunner.default : SystemRunner := ⟨commandTimeout⟩

/-- `SystemRunner::run`, given what becomes of the command. A failed command is reported by the end
of its error output, or by its exit status when it wrote none. -/
def SystemRunner.run (r : SystemRunner) (program : String) : Child → Except String String
  | .notSpawned e => .error s!"could not run {program}: {e.message}"
  | .timedOut => .error s!"{program} timed out after {r.timeout}s"
  | .waitFailed e => .error s!"waiting for {program}: {e.message}"
  | .exited status stdout stderr =>
    let out := drain stdout
    let err := drain stderr
    if status.success then .ok out
    else if Text.trim err.toList = [] then .error s!"{program} exited with {status.text}"
    else .error s!"{program} exited with {status.text}: {String.ofList (tail err.toList 600)}"

def Child.succeeded (status : String) (stdout stderr : Bytes) : Child :=
  .exited ⟨true, status⟩ stdout stderr

@[simp] theorem run_succeeded (r : SystemRunner) (program status : String) (out err : Bytes) :
    r.run program (.succeeded status out err) = .ok (drain out) := rfl

/-- A text is returned only from a command that succeeded, and it is what was drained. -/
theorem run_ok {r : SystemRunner} {program text : String} {child : Child}
    (h : r.run program child = .ok text) :
    ∃ status out err, child = .exited status out err ∧ status.success = true ∧ text = drain out := by
  unfold SystemRunner.run at h
  cases child with
  | notSpawned e => cases h
  | timedOut => cases h
  | waitFailed e => cases h
  | exited status out err =>
    dsimp only at h
    split at h
    · rename_i hsuccess
      cases h
      exact ⟨status, out, err, rfl, hsuccess, rfl⟩
    · split at h <;> cases h

/-! ## What a check makes of the output -/

/-- Every line of the output that can be read is in the text that was returned, if one was. -/
def KeepsLines (out : Bytes) (result : Except String String) : Prop :=
  ∀ text, result = .ok text →
    ∀ l ∈ byteLines out, ∀ s, fromUtf8 l = some s → s.toList ∈ lines text.toList

/-- The output has a line that reads as this upgrade. Other lines may be no UTF-8 at all. -/
def Announces (out : Bytes) (u : PackageUpgrade) : Prop :=
  ∃ l ∈ byteLines out, ∃ s, fromUtf8 l = some s ∧ parseInstLine s.toList = some u

/-- A check that failed, or that lists every upgrade the output announces; and a status that does
not deny them. -/
def Reports (out : Bytes) (channel : Channel)
    (checked : HostPackageProvider × Except UpdateError AvailableUpdates) : Prop :=
  (∀ u, Announces out u → (∃ e, checked.2 = .error e) ∨
    ∃ available, checked.2 = .ok available ∧ u.toAvailable channel ∈ available.updates) ∧
  checked.1.status ≠ .ok .upToDate

/-- The output is UTF-8, or there is no line in it that is: either everything is kept, or there was
nothing that could have been. -/
def Readable (out : Bytes) : Prop :=
  (∃ s, fromUtf8 out = some s) ∨ ∀ l ∈ byteLines out, fromUtf8 l = none

theorem drain_of_none {out : Bytes} (h : fromUtf8 out = none) : drain out = "" := by
  rw [drain, h]
  rfl

theorem keepsLines_iff (out : Bytes) : KeepsLines out (.ok (drain out)) ↔ Readable out := by
  cases hout : fromUtf8 out with
  | some s =>
    refine iff_of_true (fun text htext l hl t ht => ?_) (.inl ⟨s, hout⟩)
    have hdrain : drain out = s := by
      rw [drain, hout]
      rfl
    obtain ⟨line, hline, hread⟩ := fromUtf8_of_mem_byteLines hout hl
    have hts : t = String.ofList line := Option.some.inj (ht.symm.trans hread)
    cases htext
    rw [hdrain, hts, String.toList_ofList]
    exact hline
  | none =>
    -- the empty text has no line at all
    have hempty : lines (drain out).toList = [] := by
      rw [drain_of_none hout]
      rfl
    constructor
    · intro hkeeps
      refine .inr fun l hl => ?_
      rw [Option.eq_none_iff_forall_ne_some]
      intro s hs
      have hmem := hkeeps _ rfl l hl s hs
      rw [hempty] at hmem
      cases hmem
    · intro hreadable text htext l hl s hs
      rcases hreadable with ⟨t, ht⟩ | hnone
      · rw [hout] at ht
        cases ht
      · rw [hnone l hl] at hs
        cases hs

/-- An announced upgrade is in the simulation that was drained, when the output is UTF-8: the lines
of the text are the lines of the bytes. -/
theorem announced_mem {out : Bytes} {u : PackageUpgrade} {s : String} (hout : fromUtf8 out = some s)
    (hu : Announces out u) : u ∈ parseSimulation (drain out) := by
  obtain ⟨l, hl, t, ht, hparse⟩ := hu
  have hline := (keepsLines_iff out).mpr (.inl ⟨s, hout⟩) _ rfl l hl t ht
  exact List.mem_filterMap.mpr ⟨t.toList, hline, hparse⟩

theorem status_check {p : HostPackageProvider} {channel : Channel} {now : String}
    {saved : Except StoreError Unit} (output : String) :
    (p.check channel (.ok output) now saved).1.status = .ok .upToDate ↔
      parseSimulation output = [] := by
  have hlast : (p.check channel (.ok output) now saved).1.last =
      some (.updates ((parseSimulation output).map PackageUpgrade.label)) := by
    rcases check_cases p channel (.ok output) now saved with ⟨m, hrun, -⟩ | ⟨o, hrun, hcheck⟩
    · cases hrun
    · cases hrun
      rcases hcheck with ⟨e, hcheck⟩ | hcheck <;> rw [hcheck]
  unfold HostPackageProvider.status
  rw [hlast]
  cases parseSimulation output with
  | nil => simp
  | cons u us => simp

/-- A check of UTF-8 output lists everything announced in it, unless recording its time fails. -/
theorem reports_of_utf8 {p : HostPackageProvider} {channel : Channel} {now : String}
    {saved : Except StoreError Unit} {out : Bytes} {s : String} (hout : fromUtf8 out = some s)
    (hannounces : ∃ u, Announces out u) :
    Reports out channel (p.check channel (.ok (drain out)) now saved) := by
  refine ⟨fun u hu => ?_, fun hstatus => ?_⟩
  · have hmem := announced_mem hout hu
    rcases check_cases p channel (.ok (drain out)) now saved with ⟨m, hrun, -⟩ | ⟨o, hrun, hcheck⟩
    · cases hrun
    · cases hrun
      rcases hcheck with ⟨e, hcheck⟩ | hcheck
      · exact .inl ⟨storeErr e, by rw [hcheck]⟩
      · refine .inr ⟨_, by rw [hcheck], ?_⟩
        exact List.mem_map.mpr ⟨u, hmem, rfl⟩
  · obtain ⟨u, hu⟩ := hannounces
    have hmem := announced_mem hout hu
    rw [(status_check _).mp hstatus] at hmem
    cases hmem

/-- **Nothing `apt` said is lost exactly when its output can be read** at all, or no line of it can:
for the text the runner returns, and, when the output announces an upgrade, for the check and the
status after it. The second part has the announced upgrade as its premise, since a status of *up to
date* is right when there is none. -/
theorem answer_kept_iff (r : SystemRunner) (status : String) (out err : Bytes) :
    (KeepsLines out (r.run "apt-get" (.succeeded status out err)) ↔ Readable out) ∧
    ((∃ u, Announces out u) → ∀ (p : HostPackageProvider) (channel : Channel) (now : String)
      (saved : Except StoreError Unit),
      (Reports out channel
        (p.check channel (r.run "apt-get" (.succeeded status out err)) now saved) ↔
          Readable out)) := by
  rw [run_succeeded]
  refine ⟨keepsLines_iff out, fun hannounces p channel now saved => ?_⟩
  constructor
  · intro hreports
    cases hout : fromUtf8 out with
    | some s => exact .inl ⟨s, hout⟩
    | none =>
      have hdenied : (p.check channel (.ok (drain out)) now saved).1.status = .ok .upToDate := by
        rw [status_check, drain_of_none hout]
        rfl
      exact absurd hdenied hreports.2
  · intro hreadable
    rcases hreadable with ⟨s, hs⟩ | hnone
    · exact reports_of_utf8 hs hannounces
    · obtain ⟨u, l, hl, s, hs, -⟩ := hannounces
      rw [hnone l hl] at hs
      cases hs

/-- An upgrade on the first line, so that a text starting with it announces the upgrade. -/
theorem announces_first {line : Chars} {u : PackageUpgrade} (h : '\n' ∉ line)
    (hparse : parseInstLine (dropCr line) = some u) (rest : Bytes) :
    Announces (encode line ++ 0x0A :: rest) u := by
  have hnot : 0x0A ∉ encode line := by
    intro hmem
    obtain ⟨c, hc, hbyte⟩ := List.mem_flatMap.mp hmem
    have heq := char_eq_of_toNat (d := '\n') (mem_utf8EncodeChar_ascii hbyte (by decide)).1
    exact h (heq ▸ hc)
  have hlines : byteLines (encode line ++ 0x0A :: rest) =
      encode (dropCr line) :: byteLinesFrom [] rest := by
    rw [byteLines, byteLinesFrom_append _ _ hnot, byteLinesFrom, if_pos rfl, List.nil_append,
      dropCrByte_encode]
  refine ⟨encode (dropCr line), ?_, _, fromUtf8_encode _, ?_⟩
  · rw [hlines]
    exact List.mem_cons_self
  · rw [String.toList_ofList]
    exact hparse

theorem answer_kept_ascii :
    let out := encode "Inst libc6 [1] (2 Ubuntu)\n".toList
    Reports out .stable (HostPackageProvider.check ⟨⟨none, StoreData.empty⟩, none⟩ .stable
      (SystemRunner.default.run "apt-get" (.succeeded "exit status: 0" out []))
      "2026-09-20T10:00:00Z" (.ok ())) := by
  intro out
  have hannounces : Announces out ⟨"libc6", some "1", "2", "Ubuntu"⟩ :=
    @announces_first "Inst libc6 [1] (2 Ubuntu)".toList _ (by decide) (by decide) []
  exact ((answer_kept_iff _ _ _ _).2 ⟨_, hannounces⟩ _ _ _ _).mpr (.inl ⟨_, fromUtf8_encode _⟩)

/-- One byte of Latin-1 on the last line: the upgrade on the first one is neither reported nor
missed. -/
theorem answer_lost :
    let out := encode "Inst libc6 [1] (2 Ubuntu)".toList ++ [0x0A, 0xFF, 0x0A]
    let result := SystemRunner.default.run "apt-get" (.succeeded "exit status: 0" out [])
    let checked := HostPackageProvider.check ⟨⟨none, StoreData.empty⟩, none⟩ .stable result
      "2026-09-20T10:00:00Z" (.ok ())
    Announces out ⟨"libc6", some "1", "2", "Ubuntu"⟩ ∧ ¬KeepsLines out result ∧
      checked.2 = .ok ⟨.stable, []⟩ ∧ checked.1.status = .ok .upToDate := by
  intro out result checked
  have hannounces : Announces out ⟨"libc6", some "1", "2", "Ubuntu"⟩ :=
    announces_first (by decide) (by decide) _
  have hout : fromUtf8 out = none := by
    have hmem : (0xFF : UInt8) ∈ out := List.mem_append_right _ (by decide)
    exact fromUtf8_of_mem hmem (by decide)
  have hresult : result = .ok "" := congrArg Except.ok (drain_of_none hout)
  have hchecked : checked = HostPackageProvider.check ⟨⟨none, StoreData.empty⟩, none⟩ .stable
      (.ok "") "2026-09-20T10:00:00Z" (.ok ()) := by rw [← hresult]
  refine ⟨hannounces, fun hkeeps => ?_, by rw [hchecked]; rfl, by rw [hchecked]; rfl⟩
  obtain ⟨l, hl, s, hs, -⟩ := hannounces
  have hmem := hkeeps "" hresult l hl s hs
  cases hmem

end Abora.Update
