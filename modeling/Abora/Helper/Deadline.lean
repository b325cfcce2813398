import Mathlib.Data.Nat.Find
import Abora.Config.Windows
import Abora.Helper.Run

/-!
# How long an install may take

A window says when work may start, when it must have finished, and how long one run may take at
most. `process` asks the first and then hands the install to a runner with a limit of its own, half
an hour; nothing compares that limit with the end of the window or with its cap.

So a run stays inside its window for certain only if half an hour fits (`installs_inside_iff`). As
the last minutes of a window are as good a start as any, no configuration that ever lets an install
start keeps all of them inside.

Time is finer here than in the policy, which sees minutes: an instant is a weekday and the time
since midnight, and what a clock shows of it is rounded down. How long an install really takes is
not known, so *inside* is about every length up to the limit, and the longest decides
(`EndsInside.mono`).
-/

namespace Abora.Helper

open Abora.Lib Abora.Update

/-- `INSTALL_TIMEOUT`: after this the runner kills the install. -/
def installTimeout : Duration := Duration.fromSecs (30 * 60)

/-- A number of minutes; of a clock reading, the time since midnight. -/
def minutes (n : Nat) : Duration := Duration.fromSecs (60 * n)

/-- A moment of local time. -/
structure LocalInstant where
  weekday : Weekday
  sinceMidnight : Duration

/-- What a clock without seconds shows. -/
def LocalInstant.time (at_ : LocalInstant) : LocalTime :=
  ⟨at_.weekday, at_.sinceMidnight / minutes 1⟩

/-- The run starts an install at `start`. The instant is the one at which the policy was evaluated,
read on a finer clock: the simulation that comes between the two is taken to need no time. What
follows for an install that begins later is worse only, as its window is as much shorter. -/
structure StartsInstall (decode : Bytes → Option ApplyRequest) (ctx : Ctx) (env : Env)
    (start : LocalInstant) : Prop where
  installs : ∃ packages, installCommand packages ∈ (process decode ctx env).1
  clock : env.localTime = some start.time

/-- An install of length `d` is over by the end of the window and within its cap. -/
structure EndsInside (w : MaintenanceWindow) (start : LocalInstant) (d : Duration) : Prop where
  opened : windowOpen w start.time = true
  stop : ∃ stop, ClockText w.stop stop ∧ start.sinceMidnight + d ≤ minutes stop
  cap : ∀ cap, w.maxDurationMinutes = some cap → d ≤ minutes cap

/-- However long the install takes, it ends inside a window that was open when it started. Which
window it is may depend on how long it took. -/
def StaysInside (config : Config) (start : LocalInstant) : Prop :=
  ∀ d ≤ installTimeout, ∃ w ∈ config.maintenance.windows, EndsInside w start d

/-- Some open window has half an hour left, and no cap below thirty minutes. -/
def RoomFor (config : Config) (start : LocalInstant) : Prop :=
  ∃ w ∈ config.maintenance.windows, windowOpen w start.time = true ∧
    (∃ stop, ClockText w.stop stop ∧ start.sinceMidnight + minutes 30 ≤ minutes stop) ∧
    ∀ cap, w.maxDurationMinutes = some cap → 30 ≤ cap

/-! ## One run -/

theorem minutes_le_iff {m n : Nat} : minutes m ≤ minutes n ↔ m ≤ n := by
  show 60 * m * 1000000000 ≤ 60 * n * 1000000000 ↔ m ≤ n
  omega

theorem installTimeout_eq : installTimeout = minutes 30 := rfl

/-- What is too long for a longer run is too long for a shorter one. -/
theorem EndsInside.mono {w : MaintenanceWindow} {start : LocalInstant} {d e : Duration}
    (h : EndsInside w start e) (hle : d ≤ e) : EndsInside w start d := by
  obtain ⟨stop, hstop, hend⟩ := h.stop
  exact ⟨h.opened, ⟨stop, hstop, Nat.le_trans (Nat.add_le_add_left hle _) hend⟩,
    fun cap hcap => Nat.le_trans hle (h.cap cap hcap)⟩

/-- An install stays inside exactly if one of half an hour does. -/
theorem staysInside_iff {config : Config} {start : LocalInstant} :
    StaysInside config start ↔ RoomFor config start := by
  constructor
  · intro h
    obtain ⟨w, hw, hopen, hstop, hcap⟩ := h installTimeout (Nat.le_refl _)
    rw [installTimeout_eq] at hstop hcap
    exact ⟨w, hw, hopen, hstop, fun cap hc => minutes_le_iff.mp (hcap cap hc)⟩
  · intro ⟨w, hw, hopen, hstop, hcap⟩ d hd
    rw [installTimeout_eq] at hd
    have hlimit : EndsInside w start (minutes 30) :=
      ⟨hopen, hstop, fun cap hc => minutes_le_iff.mpr (hcap cap hc)⟩
    exact ⟨w, hw, hlimit.mono hd⟩

/-! ## Every run of a configuration -/

def LocalTime.instant (t : LocalTime) : LocalInstant := ⟨t.weekday, minutes t.minutes⟩

theorem time_instant (t : LocalTime) : (LocalTime.instant t).time = t := by
  have hdiv : minutes t.minutes / minutes 1 = t.minutes := by
    show 60 * t.minutes * 1000000000 / (60 * 1 * 1000000000) = t.minutes
    omega
  obtain ⟨day, m⟩ := t
  simp only [LocalTime.instant, LocalInstant.time] at hdiv ⊢
  rw [hdiv]

/-- The last open minute of a day: an install that starts there has no room, in no window that is
open then. -/
theorem exists_no_room {config : Config} {t : LocalTime}
    (h : inWindow config.maintenance.windows t = true) :
    ∃ t : LocalTime, inWindow config.maintenance.windows t = true ∧
      ¬ RoomFor config (LocalTime.instant t) := by
  let opened (m : Nat) : Prop := inWindow config.maintenance.windows ⟨t.weekday, m⟩ = true
  have hle : ∀ m, opened m → m ≤ lastMinute := by
    intro m hm
    obtain ⟨w, -, hw⟩ := List.any_eq_true.mp hm
    exact Nat.le_of_lt (windowOpen_lt hw)
  let last := Nat.findGreatest opened lastMinute
  have hlast : opened last := Nat.findGreatest_spec (hle t.minutes h) h
  refine ⟨⟨t.weekday, last⟩, hlast, ?_⟩
  intro ⟨w, hw, hopen, ⟨stop, hstop, hroom⟩, _⟩
  rw [time_instant] at hopen
  obtain ⟨hday, a, b, ha, hb, hfrom, hto⟩ := windowOpen_iff.mp hopen
  have hroom : last + 30 ≤ stop := by
    have hnanos : 60 * last * 1000000000 + 60 * 30 * 1000000000 ≤ 60 * stop * 1000000000 := hroom
    omega
  -- then the window is still open a minute later
  have hnext : opened (last + 1) := by
    refine List.any_eq_true.mpr ⟨w, hw, windowOpen_iff.mpr ⟨hday, a, stop, ha, hstop, ?_, ?_⟩⟩
    · exact Nat.le_succ_of_le hfrom
    · show last + 1 < stop
      omega
  exact absurd (Nat.le_findGreatest (hle _ hnext) hnext) (Nat.not_succ_le_self last)

/-- Nothing but the policy and the simulation stands between an accepted request and its install. -/
theorem installs_of_accepted {decode : Bytes → Option ApplyRequest} {ctx : Ctx} {env : Env}
    {request : ApplyRequest} {simulation : String} (hacc : Accepted decode env request)
    (hopen : OpenAt ctx.config env.localTime)
    (hsim : env.runner simulateCommand = .ok simulation) (hne : todo request simulation ≠ []) :
    installCommand (todo request simulation) ∈ (process decode ctx env).1 := by
  rw [process_of_accepted hacc, perform_of_listed hopen hsim hne]
  exact mem_install_iff.mpr rfl

/-- An install starts whenever a window is open and a good request is waiting, at any minute of
it. -/
theorem exists_startsInstall (ctx : Ctx) {t : LocalTime} (h : OpenAt ctx.config (some t)) :
    ∃ decode env, StartsInstall decode ctx env (LocalTime.instant t) := by
  let decode (bytes : Bytes) : Option ApplyRequest :=
    if bytes = nightJson then some nightRequest else none
  let env : Env := { nightEnv.toEnv with localTime := some t }
  have hage : (⟨true, 138, some 1789790310000000000⟩ : Metadata).age nightEnv.fileNow ≤
      maxRequestAge := by decide
  have hacc : Accepted decode env nightRequest :=
    { present := rfl
      file := ⟨_, rfl, rfl, by decide, hage⟩
      decodes := ⟨nightJson, rfl, if_pos rfl⟩
      valid := by decide }
  have hsim : nightEnv.runner simulateCommand =
      .ok "Inst openssl [3.0.13] (3.0.14 Ubuntu:24.04/noble-updates [amd64])\n" := rfl
  have hmem : installCommand _ ∈ (process decode ctx env).1 :=
    installs_of_accepted hacc h hsim (by decide)
  exact ⟨decode, env, ⟨_, hmem⟩, by rw [time_instant]⟩

/-- And only inside an open window. -/
theorem StartsInstall.opened {decode : Bytes → Option ApplyRequest} {ctx : Ctx} {env : Env}
    {start : LocalInstant} (h : StartsInstall decode ctx env start) :
    OpenAt ctx.config (some start.time) := by
  obtain ⟨packages, hmem⟩ := h.installs
  rw [← h.clock]
  rcases process_accepted decode ctx env with ⟨request, -, hp⟩ | ⟨outcome, hp, -⟩
  · rw [hp] at hmem
    rcases perform_cases ctx env request with ⟨hnone, -⟩ | ⟨simulation, hopen, -⟩
    · exact absurd hmem (not_mem_install hnone packages)
    · exact hopen
  · rw [hp] at hmem
    cases hmem

/-- **Installs stay inside their window** when half an hour fits into it, and only then; so a
configuration keeps every install inside exactly if it never lets one start. The first half is about
one start, the second about all of them, the last minute of a window among them. -/
theorem installs_inside_iff (ctx : Ctx) :
    (∀ decode env start, StartsInstall decode ctx env start →
        (StaysInside ctx.config start ↔ RoomFor ctx.config start)) ∧
      ((∀ decode env start, StartsInstall decode ctx env start → StaysInside ctx.config start) ↔
        ∀ now, ¬ OpenAt ctx.config now) := by
  refine ⟨fun decode env start _ => staysInside_iff, ?_⟩
  constructor
  · rintro h now ⟨henabled, t, rfl, hwindow⟩
    obtain ⟨t, hopen, hroom⟩ := exists_no_room hwindow
    obtain ⟨decode, env, hstarts⟩ := exists_startsInstall ctx ⟨henabled, t, rfl, hopen⟩
    exact hroom (staysInside_iff.mp (h decode env _ hstarts))
  · intro h decode env start hstarts
    exact absurd hstarts.opened (h _)

/-- At two in the morning, with two hours ahead, half an hour fits. -/
theorem installs_inside_early :
    let ctx : Ctx := ⟨requestPath nightConfig, nightConfig⟩
    ∃ decode env start, StartsInstall decode ctx env start ∧ RoomFor nightConfig start ∧
      StaysInside nightConfig start := by
  intro ctx
  have hopen : OpenAt nightConfig (some ⟨.saturday, 120⟩) := by decide +kernel
  obtain ⟨decode, env, hstarts⟩ := exists_startsInstall ctx hopen
  have hfour : parseClock "04:00" = .ok 240 := by decide +kernel
  have hroom : RoomFor nightConfig (LocalTime.instant ⟨.saturday, 120⟩) := by
    refine ⟨_, List.mem_singleton.mpr rfl, ?_, ⟨240, parseClock_ok_iff.mp hfour, ?_⟩, ?_⟩
    · rw [time_instant]
      decide +kernel
    · decide
    · intro cap hcap
      cases hcap
  exact ⟨decode, env, _, hstarts, hroom,
    ((installs_inside_iff ctx).1 decode env _ hstarts).mpr hroom⟩

/-- **An install can outlast its window**: it starts at 03:59, the window closes at 04:00. -/
theorem install_outlasts_window :
    ¬ ∀ (config : Config), config.validate = .ok () →
        ∀ decode requestPath env start, StartsInstall decode ⟨requestPath, config⟩ env start →
          StaysInside config start := by
  intro h
  have hvalid : nightConfig.validate = .ok () := by decide +kernel
  have hopen : OpenAt nightConfig (some ⟨.saturday, 239⟩) := by decide +kernel
  obtain ⟨decode, env, hstarts⟩ :=
    exists_startsInstall ⟨requestPath nightConfig, nightConfig⟩ hopen
  obtain ⟨w, hw, -, ⟨stop, hstop, hroom⟩, -⟩ :=
    staysInside_iff.mp (h nightConfig hvalid decode _ env _ hstarts)
  have hfour : parseClock "04:00" = .ok 240 := by decide +kernel
  rw [List.mem_singleton.mp hw] at hstop
  rw [hstop.functional (parseClock_ok_iff.mp hfour)] at hroom
  have hnanos : 60 * 239 * 1000000000 + 60 * 30 * 1000000000 ≤ 60 * 240 * 1000000000 := hroom
  omega

end Abora.Helper
