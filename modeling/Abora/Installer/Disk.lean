import Abora.Installer.Install
import Abora.Lib.Lists

/-!
# The disks the installer writes to (`installer/nixos/abora-framework-install.sh`)

Between the confirmation and the configuration the script partitions, formats and mounts. It names
the disk while it partitions; after that it asks for partitions by the names and labels it gave them
itself, and another disk may have the same ones. `erase_confirmed` is about whether there is an
erase at all, `erases_only_the_disk_iff` about which disks are written to.

A machine here is a list of partitions and the list of the disks that were written to. What decides
between two partitions of one name is udev, and what decides whether a command works is the command:
both are `Tools`, about which nothing is assumed but that a link leads to something of that name.
-/

namespace Abora.Installer

/-- A partition, with its name in the partition table and the label of its file system. -/
structure Part where
  disk : String
  number : Nat
  name : String
  label : Option String
  mounted : Bool
  deriving DecidableEq, Repr

/-- The machine's disks: the partitions there are, and what has been done so far. -/
structure Devices where
  parts : List Part
  /-- The disks that were written to, the last one first. -/
  written : List String
  /-- How many times something was run or looked at. -/
  clock : Nat
  deriving DecidableEq, Repr

/-- What is decided elsewhere: by the tools that are run, by udev and by what was on the disk. All
of it may change from one moment to the next, so everything is asked at a time. -/
structure Tools where
  ends : Nat → Except String Unit
  /-- What a tool says that has nothing to work on. -/
  complaint : Nat → String
  /-- Where a link of `/dev/disk/by-partlabel` leads. -/
  byPartlabel : Nat → String → List Part → Option Part
  /-- Where a link of `/dev/disk/by-label` leads. -/
  byLabel : Nat → String → List Part → Option Part
  /-- The label of an old file system where a new partition is. -/
  residue : Nat → Option String

/-- A link leads to a partition that has the name; of several, to any. -/
structure Tools.Lawful (t : Tools) : Prop where
  byPartlabel : ∀ {now name parts p},
    t.byPartlabel now name parts = some p → p ∈ parts ∧ p.name = name
  byLabel : ∀ {now label parts p},
    t.byLabel now label parts = some p → p ∈ parts ∧ p.label = some label

/-! ## The commands -/

/-- What the script runs between the confirmation and the configuration. A command of the disk names
it nowhere here, since it is always the one that was confirmed. -/
inductive Command where
  | wipefs
  | mklabel
  | mkpart (name : String)
  | set (number : Nat) (flag : String)
  | settle
  | partprobe
  /-- The wait for a link of `/dev/disk/by-partlabel`. -/
  | await (name : String)
  /-- `mkfs.ext4` and `mkfs.fat`, on the partition of a name. -/
  | mkfs (label name : String)
  | mount (label dir : String)
  | mkdir (dir : String)
  | generateConfig
  deriving DecidableEq, Repr

/-- The partitions that the disk gets. The root partition is the last of them and takes the rest of
it. -/
def partitionCommands (mode : String) : List Command :=
  [.wipefs, .mklabel] ++
  (if mode = "uefi" then [.mkpart "abora-esp", .set 1 "esp", .mkpart "abora-root"]
    else [.mkpart "abora-bios", .set 1 "bios_grub", .mkpart "abora-root"]) ++
  [.settle, .partprobe, .settle]

/-- Everything between the confirmation and `write_system_config`. From `await` on, the disk is not
named any more. -/
def prepareCommands (mode : String) : List Command :=
  partitionCommands mode ++
  [.await "abora-root", .mkfs "abora-root" "abora-root", .mount "abora-root" "/mnt"] ++
  (if mode = "uefi" then
    [.mkfs "ABORA-BOOT" "abora-esp", .mkdir "/mnt/boot", .mount "ABORA-BOOT" "/mnt/boot"]
    else []) ++
  [.generateConfig]

namespace Devices

variable (d : Devices)

def pass : Devices := { d with clock := d.clock + 1 }

/-- A command that fails may have written already. -/
def write (disk : String) (parts : List Part) : Devices :=
  { parts := parts, written := disk :: d.written, clock := d.clock + 1 }

/-- The next partition on a disk. The label of an old file system may still be found where it is. -/
def newPart (disk name : String) (residue : Option String) : Part :=
  ⟨disk, (d.parts.filter fun q => q.disk = disk).length + 1, name, residue, false⟩

/-- `[ -e /dev/disk/by-partlabel/… ]`, some time later. -/
def appears (t : Tools) (name : String) (later : Nat) : Bool :=
  (t.byPartlabel (d.clock + later) name d.parts).isSome

/-- How often the loop looks, which ends at the first look that finds something, and after twenty
looks in any case. -/
def looks (t : Tools) (name : String) : Nat :=
  ((List.range 20).find? (d.appears t name)).elim 20 (· + 1)

end Devices

/-- The partitions, one of them changed. A partition is known by its disk and its number. -/
def changed (parts : List Part) (p : Part) (f : Part → Part) : List Part :=
  parts.map fun q => if q.disk = p.disk ∧ q.number = p.number then f q else q

/-- One command of the script. What is written below a mount point counts with the mount. A command
that has nothing to work on complains; one that has may still fail, after it has written. -/
def perform (t : Tools) (disk : String) (d : Devices) : Command → Devices × Except String Unit
  | .wipefs | .set _ _ => (d.write disk d.parts, t.ends d.clock)
  | .mklabel => (d.write disk (d.parts.filter fun q => q.disk ≠ disk), t.ends d.clock)
  | .mkpart name =>
    (d.write disk (d.parts ++ [d.newPart disk name (t.residue d.clock)]), t.ends d.clock)
  | .settle | .mkdir _ | .generateConfig => (d.pass, t.ends d.clock)
  | .partprobe => (d.pass, .ok ())
  | .await name =>
    ({ d with clock := d.clock + d.looks t name + 1 },
      if d.appears t name (d.looks t name) then .ok ()
      else .error "the new root partition did not appear")
  | .mkfs label name =>
    match t.byPartlabel d.clock name d.parts with
    | none => (d.pass, .error (t.complaint d.clock))
    | some p =>
      -- neither makes a file system over one that is mounted
      if p.mounted then (d.pass, .error (t.complaint d.clock))
      else
        (d.write p.disk (changed d.parts p fun q => { q with label := some label }),
          t.ends d.clock)
  | .mount label _ =>
    match t.byLabel d.clock label d.parts with
    | none => (d.pass, .error (t.complaint d.clock))
    | some p =>
      (d.write p.disk (changed d.parts p fun q => { q with mounted := true }), t.ends d.clock)

/-- The script stops at the first command that fails (`set -e`), and what was written by then
stays. -/
def execute (t : Tools) (disk : String) (d : Devices) : List Command → Devices × Except String Unit
  | [] => (d, .ok ())
  | c :: cs =>
    match (perform t disk d c).2 with
    | .error e => ((perform t disk d c).1, .error e)
    | .ok () => execute t disk (perform t disk d c).1 cs

/-! ## The run -/

/-- The configuration that a disk is erased for, if the run gets there. This does not depend on what
the disks answer, so a disk that can be prepared stands in for them. -/
def approved (env : Env) (args : List String) : Option SystemConfig :=
  match install { env with prepare := fun _ => .ok () } args with
  | .ok (.written c) => if c.settings.generateOnly = "" then some c else none
  | _ => none

/-- The script, on a machine with its disks. Where the run does not come to a disk it ends as
before, and nothing has been touched. -/
def installOn (env : Env) (t : Tools) (d : Devices) (args : List String) :
    Devices × Except String Outcome :=
  match approved env args with
  | none => (d, install env args)
  | some c =>
    let r := execute t c.targetDisk d (prepareCommands c.mode)
    (r.1, r.2.map fun _ => .written c)

/-- What a real install has gone through when it comes to the disk: one condition for each way in
which it could have ended before. -/
structure Confirmed (env : Env) (s : Settings) : Prop where
  named : s.disk ≠ ""
  block_device : env.isBlockDevice s.disk = true
  nothing_found : env.findsMounted s.disk = false
  real : s.dryRun = false
  confirmed : s.assumeYes = true ∨ env.tty = true ∧ env.confirm = s.disk

theorem confirmErase_cases (env : Env) (s : Settings) :
    confirmErase env s = .ok () ∧ (s.assumeYes = true ∨ env.tty = true ∧ env.confirm = s.disk) ∨
      ∃ e, confirmErase env s = .error e := by
  unfold confirmErase
  by_cases htty : (!s.assumeYes && !env.tty) = true
  · exact .inr ⟨_, if_pos htty⟩
  by_cases hconfirm : (!s.assumeYes && env.confirm != s.disk) = true
  · exact .inr ⟨_, by rw [if_neg htty, if_pos hconfirm]⟩
  refine .inl ⟨by rw [if_neg htty, if_neg hconfirm], ?_⟩
  cases hyes : s.assumeYes
  · rw [hyes] at htty hconfirm
    exact .inr ⟨by simpa using htty, by simpa using hconfirm⟩
  · exact .inl rfl

/-- Either the disk is prepared and nothing else decides, or it does not come to that. -/
theorem realInstall_spec (env : Env) (s : Settings) :
    (∃ release, Confirmed env s ∧ ∀ prepare, realInstall { env with prepare := prepare } s =
      (prepare s.disk).map fun _ => .written (realConfig env s release)) ∨
    ∃ r, (∀ prepare, realInstall { env with prepare := prepare } s = r) ∧
      ∀ c, r ≠ .ok (.written c) := by
  -- no step before `prepare` looks at it
  have hfinds (prepare : String → Except String Unit) :
      Env.findsMounted { env with prepare := prepare } s.disk = env.findsMounted s.disk := rfl
  have hrelease (prepare : String → Except String Unit) :
      installRelease { env with prepare := prepare } s = installRelease env s := rfl
  have hconfirm (prepare : String → Except String Unit) :
      confirmErase { env with prepare := prepare } s = confirmErase env s := rfl
  unfold realInstall
  simp only [hfinds, hrelease, hconfirm]
  by_cases hdisk : s.disk = ""
  · exact .inr ⟨_, fun _ => if_pos hdisk, fun c h => by cases h⟩
  simp only [if_neg hdisk]
  by_cases hblock : (!env.isBlockDevice s.disk) = true
  · exact .inr ⟨_, fun _ => if_pos hblock, fun c h => by cases h⟩
  simp only [if_neg hblock]
  by_cases hmounted : env.findsMounted s.disk = true
  · exact .inr ⟨_, fun _ => if_pos hmounted, fun c h => by cases h⟩
  simp only [if_neg hmounted]
  by_cases hpassword : s.passwordHash = "" ∧ s.dryRun = false
  · exact .inr ⟨_, fun _ => if_pos hpassword, fun c h => by cases h⟩
  simp only [if_neg hpassword]
  cases installRelease env s with
  | error e => exact .inr ⟨.error e, fun _ => rfl, fun c h => by cases h⟩
  | ok release =>
    show (∃ release', _ ∧ ∀ prepare, (if !validRelease release then _ else _) = _) ∨
      ∃ r, (∀ prepare, (if !validRelease release then _ else _) = r) ∧ _
    by_cases hvalid : (!validRelease release) = true
    · exact .inr ⟨_, fun _ => if_pos hvalid, fun c h => by cases h⟩
    simp only [if_neg hvalid]
    by_cases hdry : s.dryRun = true
    · exact .inr ⟨_, fun _ => if_pos hdry, fun c h => by cases h⟩
    simp only [if_neg hdry]
    rcases confirmErase_cases env s with ⟨hok, hgiven⟩ | ⟨e, he⟩
    · refine .inl ⟨release, ⟨hdisk, by simpa using hblock, by simpa using hmounted,
        by simpa using hdry, hgiven⟩, fun prepare => ?_⟩
      rw [hok]
      cases prepare s.disk <;> rfl
    · refine .inr ⟨.error e, fun prepare => ?_, fun c h => by cases h⟩
      rw [he]
      rfl

/-- The questions change neither what is to be done nor whether to ask, and a disk only where there
is none. -/
theorem interact_keeps {env : Env} {s s' : Settings} (h : interact env s = .ok s') :
    s'.generateOnly = s.generateOnly ∧ s'.dryRun = s.dryRun ∧ s'.assumeYes = s.assumeYes ∧
      (s'.disk = s.disk ∨ env.tty = true ∧ s.assumeYes = false ∧ s'.disk = env.disk) := by
  unfold interact at h
  split at h
  · rename_i hask
    simp only [Bool.and_eq_true, Bool.not_eq_true'] at hask
    obtain ⟨hcheck, -, hpassword⟩ := Lib.ok_of_bind h
    unfold askPassword at hpassword
    split at hpassword
    · obtain ⟨hash, -, rfl⟩ := Lib.ok_of_map hpassword
      unfold askSettings
      split <;> simp [hask]
    · cases hpassword
      unfold askSettings
      split <;> simp [hask]
  · cases h
    exact ⟨rfl, rfl, rfl, .inl rfl⟩

/-- What a run has gone through when it comes to the disk. -/
structure Reaches (env : Env) (args : List String) (given s : Settings) : Prop where
  parsed : parseArgs .initial args = .ok (some given)
  asked : interact env given = .ok s
  not_generated : s.generateOnly = ""
  root : env.root = true
  confirmed : Confirmed env s

/-- Either the run comes to a disk and nothing else decides, or it does not come to one. -/
theorem install_spec (env : Env) (args : List String) :
    (∃ given s release, Reaches env args given s ∧
      ∀ prepare, install { env with prepare := prepare } args =
        (prepare s.disk).map fun _ => .written (realConfig env s release)) ∨
    ∃ r, (∀ prepare, install { env with prepare := prepare } args = r) ∧
      ∀ c, r = .ok (.written c) → c.settings.generateOnly ≠ "" := by
  -- every way through the script that ends before the disk ends there whatever `prepare` would say
  unfold install
  cases hparse : parseArgs .initial args with
  | error e => exact .inr ⟨_, fun _ => rfl, fun c h => by cases h⟩
  | ok given =>
    cases given with
    | none => exact .inr ⟨_, fun _ => rfl, fun c h => by cases h⟩
    | some given =>
      dsimp only
      cases hcheck : checkSettings given with
      | error e => exact .inr ⟨_, fun _ => rfl, fun c h => by cases h⟩
      | ok u =>
        dsimp only
        by_cases hroot : given.generateOnly = "" ∧ given.dryRun = false ∧ env.root = false
        · exact .inr ⟨_, fun _ => if_pos hroot, fun c h => by cases h⟩
        simp only [if_neg hroot]
        have hask (prepare : String → Except String Unit) :
            interact { env with prepare := prepare } given = interact env given := rfl
        simp only [hask]
        cases hs : interact env given with
        | error e => exact .inr ⟨_, fun _ => rfl, fun c h => by cases h⟩
        | ok s =>
          dsimp only
          by_cases hgenerate : s.generateOnly = ""
          swap
          · refine .inr ⟨.ok (.written (generateOnly env s)), fun _ => if_pos hgenerate, ?_⟩
            rintro c ⟨⟩
            exact hgenerate
          simp only [hgenerate, ne_eq, not_true_eq_false, if_false]
          rcases realInstall_spec env s with ⟨release, hconfirmed, hreal⟩ | ⟨r, hr, hnot⟩
          · refine .inl ⟨given, s, release, ⟨hparse, hs, hgenerate, ?_, hconfirmed⟩, hreal⟩
            obtain ⟨hgen, hdry, -⟩ := interact_keeps hs
            rw [← hgen, ← hdry] at hroot
            simpa [hgenerate, hconfirmed.real] using hroot
          · exact .inr ⟨r, hr, fun c h => absurd h (hnot c)⟩

/-- The same of what is approved: it is the configuration of a run that comes to its disk. -/
theorem approved_spec (env : Env) (args : List String) :
    (∃ given s release, Reaches env args given s ∧
      approved env args = some (realConfig env s release) ∧
      ∀ prepare, install { env with prepare := prepare } args =
        (prepare s.disk).map fun _ => .written (realConfig env s release)) ∨
    approved env args = none ∧ ∀ prepare, install { env with prepare := prepare } args =
      install env args := by
  unfold approved
  rcases install_spec env args with ⟨given, s, release, hreach, hinstall⟩ | ⟨r, hr, hwritten⟩
  · refine .inl ⟨given, s, release, hreach, ?_, hinstall⟩
    have hsettings : (realConfig env s release).settings.generateOnly = "" := by
      unfold realConfig dryPassword
      dsimp only
      split <;> exact hreach.not_generated
    rw [hinstall]
    exact if_pos hsettings
  · refine .inr ⟨?_, fun prepare => (hr prepare).trans (hr env.prepare).symm⟩
    rw [hr]
    match r, hwritten with
    | .ok (.written c), hwritten => exact if_neg (hwritten c rfl)
    | .ok .usage, _ | .ok .dryRun, _ | .error _, _ => rfl

/-- **The disks are what `prepare` stands for**: with them, the script ends as it does there. -/
theorem installOn_outcome (env : Env) (t : Tools) (d : Devices) (args : List String) :
    (installOn env t d args).2 =
      install { env with prepare := fun disk =>
        (execute t disk d (prepareCommands ((approved env args).elim "" SystemConfig.mode))).2 }
        args := by
  unfold installOn
  rcases approved_spec env args with
    ⟨given, s, release, -, happroved, hinstall⟩ | ⟨happroved, hinstall⟩
  · rw [happroved]
    let mode := (realConfig env s release).mode
    exact (hinstall fun disk => (execute t disk d (prepareCommands mode)).2).symm
  · rw [happroved]
    exact (hinstall _).symm

/-- What a run leaves on the disk it has prepared has been checked like what is only generated: the
files read back under the same condition, whatever became of the disks in between. -/
theorem installOn_readsBack_iff {env : Env} (henv : env.Hashes) {t : Tools} {d : Devices}
    {args : List String} {c : SystemConfig} (h : (installOn env t d args).2 = .ok (.written c)) :
    c.ReadsBack ↔ c.mode = "uefi" ∨ Lib.Nix.Inert c.targetDisk.toList := by
  rw [installOn_outcome] at h
  have hother (prepare : String → Except String Unit) :
      Env.Hashes { env with prepare := prepare } := henv
  obtain ⟨hsettings, hrelease⟩ := install_checked (hother _) h
  exact SystemConfig.readsBack_iff hsettings hrelease

/-! ## Nothing is erased unasked -/

/-- No flag names a disk, and only two give consent. -/
theorem setFlag_keeps {s s' : Settings} {arg : String} (h : setFlag s arg = some s') :
    s'.disk = s.disk ∧ (s'.assumeYes = s.assumeYes ∨ arg = "--yes" ∨ arg = "-y") := by
  unfold setFlag at h
  split at h <;> cases h <;> simp

/-- One option names a disk, by its value, and none gives consent. -/
theorem valueOption_keeps {s : Settings} {arg what : String} {set : String → Settings}
    (h : valueOption s arg = some (what, set)) (v : String) :
    ((set v).disk = s.disk ∨ (set v).disk = v) ∧ (set v).assumeYes = s.assumeYes := by
  unfold valueOption at h
  split at h <;> cases h <;> simp

/-- The disk and the consent come from the command line, or are what they were before it. The
induction is over the arguments, one option at a time. -/
theorem parseArgs_given {s s' : Settings} {args : List String}
    (h : parseArgs s args = .ok (some s')) :
    (s'.disk = s.disk ∨ s'.disk ∈ args) ∧
      (s'.assumeYes = s.assumeYes ∨ "--yes" ∈ args ∨ "-y" ∈ args) := by
  fun_induction parseArgs s args with
  | case1 s =>
    cases h
    exact ⟨.inl rfl, .inl rfl⟩
  | case2 => cases h
  | case3 s arg rest hhelp s1 hflag ih =>
    have hkept := setFlag_keeps hflag
    have hgiven := ih h
    grind
  | case4 => cases h
  | case5 => cases h
  | case6 => cases h
  | case7 s arg hhelp hflag what set hvalue value rest hne ih =>
    have hkept := valueOption_keeps hvalue value
    have hgiven := ih h
    grind

theorem perform_written (t : Tools) (disk : String) (d : Devices) (c : Command) :
    ∃ w, (perform t disk d c).1.written = w ++ d.written := by
  unfold perform
  split
  any_goals exact ⟨[], rfl⟩
  any_goals exact ⟨[disk], rfl⟩
  · split
    · exact ⟨[], rfl⟩
    · split
      · exact ⟨[], rfl⟩
      · exact ⟨[_], rfl⟩
  · split
    · exact ⟨[], rfl⟩
    · exact ⟨[_], rfl⟩

theorem execute_written (t : Tools) (disk : String) (d : Devices) (cs : List Command) :
    ∃ w, (execute t disk d cs).1.written = w ++ d.written := by
  induction cs generalizing d with
  | nil => exact ⟨[], rfl⟩
  | cons c cs ih =>
    obtain ⟨w, hw⟩ := perform_written t disk d c
    unfold execute
    split
    · exact ⟨w, hw⟩
    · obtain ⟨w', hw'⟩ := ih (perform t disk d c).1
      exact ⟨w' ++ w, by rw [hw', hw, List.append_assoc]⟩

/-- The chosen disk is the first that is written to: `wipefs` comes before anything else. -/
theorem first_written (t : Tools) (disk : String) {d : Devices} (hclean : d.written = [])
    (mode : String) :
    (execute t disk d (prepareCommands mode)).1.written.getLast? = some disk := by
  obtain ⟨cs, hcs⟩ : ∃ cs, prepareCommands mode = .wipefs :: cs := ⟨_, rfl⟩
  have hfirst : (perform t disk d .wipefs).1.written = [disk] := congrArg (disk :: ·) hclean
  rw [hcs]
  unfold execute
  split
  · rw [hfirst]
    rfl
  · obtain ⟨w, hw⟩ := execute_written t disk (perform t disk d .wipefs).1 cs
    rw [hw, hfirst, List.getLast?_concat]

/-- Who chose the disk, and who agreed: it stands on the command line with the consent, or was
typed. -/
theorem Reaches.disk_given {env : Env} {args : List String} {given s : Settings}
    (h : Reaches env args given s) :
    s.disk ∈ args ∧ ("--yes" ∈ args ∨ "-y" ∈ args) ∨
      env.tty = true ∧ env.confirm = s.disk ∧ (s.disk ∈ args ∨ env.disk = s.disk) := by
  obtain ⟨hdisk, hyes⟩ := parseArgs_given h.parsed
  obtain ⟨-, -, hkept, hasked⟩ := interact_keeps h.asked
  have hnamed := h.confirmed.named
  have hconfirmed := h.confirmed.confirmed
  have hinitial : Settings.initial.disk = "" ∧ Settings.initial.assumeYes = false := ⟨rfl, rfl⟩
  rw [hinitial.1] at hdisk
  rw [hinitial.2] at hyes
  grind

/-- Where it succeeds, `lsblk` prints the mount points of a disk's partitions. -/
def Env.Lists (env : Env) (d : Devices) : Prop :=
  ∀ p ∈ d.parts, p.mounted = true → (env.lsblk p.disk).ok = true →
    ∃ c ∈ (env.lsblk p.disk).output, isSpace c = false

/-- If the commands that look for mount points could be run and found none, then there are none. -/
theorem Env.Lists.unmounted {env : Env} {d : Devices} (hlists : env.Lists d) {disk : String}
    (h : env.findsMounted disk = false) (hok : (env.lsblk disk).ok = true)
    (hgrep : env.grepRuns = true) : ∀ p ∈ d.parts, p.disk = disk → p.mounted = false := by
  intro p hp hdisk
  by_contra hmounted
  rw [← hdisk] at hok h
  obtain ⟨c, hc, hspace⟩ := hlists p hp (Bool.eq_true_of_not_eq_false hmounted) hok
  unfold Env.findsMounted at h
  rw [hok, hgrep, Bool.true_and, Bool.true_and, List.any_eq_false] at h
  exact h c hc (by rw [hspace]; rfl)

/-- **Nothing is written to unless a disk was named and its erase confirmed**, by root. The disk is
the first to be written to; it is a block device, and nothing on it is mounted, as long as `lsblk`
and `grep` could be run: the script takes a failure of either for a disk without mount points. -/
theorem erase_confirmed {env : Env} {t : Tools} {d : Devices} {args : List String}
    (hlists : env.Lists d) (hclean : d.written = [])
    (h : (installOn env t d args).1.written ≠ []) :
    ∃ disk, (installOn env t d args).1.written.getLast? = some disk ∧
      env.root = true ∧ env.isBlockDevice disk = true ∧
      ((env.lsblk disk).ok = true → env.grepRuns = true →
        ∀ p ∈ d.parts, p.disk = disk → p.mounted = false) ∧
      (disk ∈ args ∧ ("--yes" ∈ args ∨ "-y" ∈ args) ∨
        env.tty = true ∧ env.confirm = disk ∧ (disk ∈ args ∨ env.disk = disk)) := by
  unfold installOn at h ⊢
  rcases approved_spec env args with ⟨given, s, release, hreach, happroved, -⟩ | ⟨happroved, -⟩
  · rw [happroved]
    exact ⟨s.disk, first_written t s.disk hclean _, hreach.root, hreach.confirmed.block_device,
      hlists.unmounted hreach.confirmed.nothing_found, hreach.disk_given⟩
  · rw [happroved] at h
    exact absurd hclean h

/-- A machine with a disk to install to, another one that is in use, and somebody who wants the
installation. -/
def spareMachine : Env :=
  { anyMachine with
    root := true
    isBlockDevice := fun disk => disk = "/dev/vda"
    lsblk := fun disk => ⟨if disk = "/dev/vdb" then "\n/home\n".toList else "\n".toList, true⟩
    nixosRelease := some (.ok "26.05") }

def spareArgs : List String :=
  ["--disk", "/dev/vda", "--password-hash", "$6$salt$hash", "--yes"]

def spareConfig : SystemConfig :=
  realConfig spareMachine
    { Settings.initial with
      disk := "/dev/vda", passwordHash := "$6$salt$hash", assumeYes := true } "26.05"

theorem approved_spare : approved spareMachine spareArgs = some spareConfig := rfl

/-- Tools that all work and find nothing they were not told of: no link leads anywhere. -/
def plainTools : Tools := ⟨fun _ => .ok (), fun _ => "", fun _ _ _ => none, fun _ _ _ => none,
  fun _ => none⟩

theorem written_of_approved {env : Env} {args : List String} {c : SystemConfig}
    (happroved : approved env args = some c) (t : Tools) {d : Devices} (hclean : d.written = []) :
    (installOn env t d args).1.written.getLast? = some c.targetDisk := by
  unfold installOn
  rw [happroved]
  exact first_written t c.targetDisk hclean c.mode

/-- The spare disk is written to, and `/home` on the other one does not keep it from that. -/
theorem erase_confirmed_spare :
    let d : Devices := ⟨[⟨"/dev/vdb", 1, "home", none, true⟩], [], 0⟩
    ∃ disk, (installOn spareMachine plainTools d spareArgs).1.written.getLast? = some disk ∧
      spareMachine.root = true ∧ spareMachine.isBlockDevice disk = true ∧
      ((spareMachine.lsblk disk).ok = true → spareMachine.grepRuns = true →
        ∀ p ∈ d.parts, p.disk = disk → p.mounted = false) ∧
      (disk ∈ spareArgs ∧ ("--yes" ∈ spareArgs ∨ "-y" ∈ spareArgs) ∨
        spareMachine.tty = true ∧ spareMachine.confirm = disk ∧
          (disk ∈ spareArgs ∨ spareMachine.disk = disk)) := by
  intro d
  have hlists : spareMachine.Lists d := by
    intro p hp _ _
    obtain rfl := List.mem_singleton.mp hp
    exact ⟨'/', by decide, by decide⟩
  refine erase_confirmed hlists rfl fun hnothing => ?_
  have hfirst := written_of_approved approved_spare plainTools (d := d) rfl
  rw [hnothing] at hfirst
  cases hfirst

/-- `lsblk` prints a mount point and then fails: the disk is erased with `/home` on it. -/
theorem mounted_disk_erased :
    let env := { spareMachine with lsblk := fun _ => ⟨"\n/home\n".toList, false⟩ }
    let d : Devices := ⟨[⟨"/dev/vda", 1, "home", none, true⟩], [], 0⟩
    env.Lists d ∧
      (installOn env plainTools d spareArgs).1.written.getLast? = some "/dev/vda" := by
  intro env d
  have happroved : approved env spareArgs = some spareConfig := rfl
  exact ⟨fun p _ _ hok => (by cases hok), written_of_approved happroved plainTools rfl⟩

/-! ## Which disks are written to -/

/-- A partition that a command takes if the link leads to it. -/
def Command.Takes (p : Part) : Command → Prop
  | .mkfs _ name => p.name = name ∧ p.mounted = false
  | .mount label _ => p.label = some label
  | _ => False

/-- A partition that the script may take for one of its own. -/
def Mistakable (mode : String) (p : Part) : Prop :=
  p.mounted = false ∧ (p.name = "abora-root" ∨ mode = "uefi" ∧ p.name = "abora-esp") ∨
    p.label = some "abora-root" ∨ mode = "uefi" ∧ p.label = some "ABORA-BOOT"

theorem mistakable_of_takes {mode : String} {p : Part} :
    ∀ c ∈ prepareCommands mode, c.Takes p → Mistakable mode p := by
  unfold prepareCommands partitionCommands Mistakable
  by_cases hmode : mode = "uefi"
  · simp only [hmode, if_true, List.cons_append, List.nil_append, List.forall_mem_cons,
      Command.Takes]
    simp +contextual
  · simp only [hmode, if_false, List.cons_append, List.nil_append, List.forall_mem_cons,
      Command.Takes]
    simp +contextual

/-- Nothing was done to the other disks: their partitions are what they were, and none was written
to. -/
structure Apart (disk : String) (others : List Part) (d : Devices) : Prop where
  parts : (d.parts.filter fun q => q.disk ≠ disk) = others
  written : ∀ w ∈ d.written, w = disk

theorem filter_changed {disk : String} {p : Part} {f : Part → Part} (parts : List Part)
    (hp : p.disk = disk) (hf : ∀ q, (f q).disk = q.disk) :
    ((changed parts p f).filter fun q => q.disk ≠ disk) = parts.filter fun q => q.disk ≠ disk := by
  unfold changed
  induction parts with
  | nil => rfl
  | cons q parts ih =>
    rw [List.map_cons, List.filter_cons, List.filter_cons, ih]
    by_cases hq : q.disk = disk
    · by_cases hnumber : q.number = p.number <;> simp [hq, hp, hf, hnumber]
    · simp [hq, hp]

namespace Apart

variable {disk : String} {others : List Part} {d : Devices}

theorem mem (h : Apart disk others d) {p : Part} (hp : p ∈ d.parts) (hdisk : p.disk ≠ disk) :
    p ∈ others := by
  rw [← h.parts]
  exact List.mem_filter.mpr ⟨hp, decide_eq_true hdisk⟩

theorem pass (h : Apart disk others d) : Apart disk others d.pass := ⟨h.parts, h.written⟩

theorem write (h : Apart disk others d) {parts : List Part}
    (hparts : (parts.filter fun q => q.disk ≠ disk) = others) :
    Apart disk others (d.write disk parts) :=
  ⟨hparts, List.forall_mem_cons.mpr ⟨rfl, h.written⟩⟩

theorem change (h : Apart disk others d) {p : Part} {f : Part → Part} (hp : p.disk = disk)
    (hf : ∀ q, (f q).disk = q.disk) : Apart disk others (d.write p.disk (changed d.parts p f)) := by
  rw [hp]
  exact h.write ((filter_changed d.parts hp hf).trans h.parts)

/-- A command that takes none of the other partitions leaves them alone. While the script partitions
it names the disk; after that it follows a link, which leads to the disk since it may not lead
elsewhere. -/
theorem perform {t : Tools} (ht : t.Lawful) {c : Command} (hc : ∀ p ∈ others, ¬ c.Takes p)
    (h : Apart disk others d) : Apart disk others (perform t disk d c).1 := by
  cases c with
  | wipefs | set number flag => exact h.write h.parts
  | mklabel =>
    refine h.write ?_
    rw [List.filter_filter]
    simpa using h.parts
  | mkpart name =>
    refine h.write ?_
    rw [List.filter_append, h.parts]
    simp [Devices.newPart]
  | settle | partprobe | mkdir dir | generateConfig => exact h.pass
  | await name => exact ⟨h.parts, h.written⟩
  | mkfs label name =>
    unfold Installer.perform
    dsimp only
    cases hlink : t.byPartlabel d.clock name d.parts with
    | none => exact h.pass
    | some p =>
      dsimp only
      obtain ⟨hp, hname⟩ := ht.byPartlabel hlink
      by_cases hmounted : p.mounted = true
      · rw [if_pos hmounted]
        exact h.pass
      · rw [if_neg hmounted]
        by_cases hdisk : p.disk = disk
        · exact h.change hdisk fun _ => rfl
        · exact absurd ⟨hname, Bool.eq_false_of_not_eq_true hmounted⟩ (hc p (h.mem hp hdisk))
  | mount label dir =>
    unfold Installer.perform
    dsimp only
    cases hlink : t.byLabel d.clock label d.parts with
    | none => exact h.pass
    | some p =>
      obtain ⟨hp, hlabel⟩ := ht.byLabel hlink
      by_cases hdisk : p.disk = disk
      · exact h.change hdisk fun _ => rfl
      · exact absurd hlabel (hc p (h.mem hp hdisk))

theorem execute {t : Tools} (ht : t.Lawful) {cs : List Command}
    (hcs : ∀ c ∈ cs, ∀ p ∈ others, ¬ c.Takes p) (h : Apart disk others d) :
    Apart disk others (execute t disk d cs).1 := by
  induction cs generalizing d with
  | nil => exact h
  | cons c cs ih =>
    obtain ⟨hc, hcs⟩ := List.forall_mem_cons.mp hcs
    unfold Installer.execute
    split
    · exact h.perform ht hc
    · exact ih hcs (h.perform ht hc)

end Apart

/-! ## Links that lead elsewhere -/

/-- Tools that work, and links that lead to `p` where they may, else to the disk. These are the
worst that udev can do to `p`. -/
def leading (p : Part) (disk : String) : Tools where
  ends _ := .ok ()
  complaint _ := ""
  byPartlabel _ name parts :=
    if p ∈ parts ∧ p.name = name ∧ p.mounted = false then some p
    else parts.find? fun q => q.disk = disk ∧ q.name = name
  byLabel _ label parts :=
    if p ∈ parts ∧ p.label = some label then some p
    else parts.find? fun q => q.disk = disk ∧ q.label = some label
  residue _ := none

theorem leading_lawful (p : Part) (disk : String) : (leading p disk).Lawful where
  byPartlabel := by
    intro now name parts q h
    dsimp only [leading] at h
    split at h
    · rename_i hp
      cases h
      exact ⟨hp.1, hp.2.1⟩
    · have hq := List.find?_some h
      exact ⟨List.mem_of_find?_eq_some h, (of_decide_eq_true hq).2⟩
  byLabel := by
    intro now label parts q h
    dsimp only [leading] at h
    split at h
    · rename_i hp
      cases h
      exact hp
    · have hq := List.find?_some h
      exact ⟨List.mem_of_find?_eq_some h, (of_decide_eq_true hq).2⟩

/-- The partitions of a disk, behind those of the others: how a run with the worst links looks until
it comes to `p`. -/
structure Laid (disk : String) (others own : List Part) (d : Devices) : Prop where
  parts : d.parts = others ++ own
  apart : ∀ q ∈ others, q.disk ≠ disk

section

variable {disk : String} {others own : List Part} {d : Devices} {p : Part} {cs : List Command}

theorem Laid.find (h : Laid disk others own d) (f : Part → Prop) [DecidablePred f] :
    (d.parts.find? fun q => q.disk = disk ∧ f q) = own.find? fun q => q.disk = disk ∧ f q := by
  have hnone : (others.find? fun q => q.disk = disk ∧ f q) = none := by
    rw [List.find?_eq_none]
    intro q hq hfound
    exact h.apart q hq (of_decide_eq_true hfound).1
  rw [h.parts, List.find?_append, hnone, Option.none_or]

theorem Laid.changed (h : Laid disk others own d) {q : Part} (hq : q.disk = disk)
    (f : Part → Part) : changed d.parts q f = others ++ changed own q f := by
  unfold Installer.changed
  rw [h.parts, List.map_append]
  congr 1
  refine (List.map_congr_left fun r hr => if_neg fun hsame => ?_).trans (List.map_id _)
  exact h.apart r hr (hsame.1.trans hq)

theorem written_of_takes {c : Command} (hp : p ∈ d.parts) (hc : c.Takes p) :
    p.disk ∈ (execute (leading p disk) disk d (c :: cs)).1.written := by
  have hfirst : p.disk ∈ (perform (leading p disk) disk d c).1.written := by
    cases c with
    | mkfs label name =>
      unfold perform
      dsimp only [leading]
      rw [if_pos ⟨hp, hc⟩]
      dsimp only
      rw [if_neg (by rw [hc.2]; exact Bool.false_ne_true)]
      exact List.mem_cons_self
    | mount label dir =>
      unfold perform
      dsimp only [leading]
      rw [if_pos ⟨hp, hc⟩]
      exact List.mem_cons_self
    | _ => exact hc.elim
  unfold execute
  split
  · exact hfirst
  · obtain ⟨w, hw⟩ := execute_written (leading p disk) disk
      (perform (leading p disk) disk d c).1 cs
    rw [hw]
    exact List.mem_append_right w hfirst

/-- The partitions are made, and nothing can go wrong before that. -/
theorem execute_partition (mode : String) (d : Devices) :
    ∃ d', (∀ cs, execute (leading p disk) disk d (partitionCommands mode ++ cs) =
        execute (leading p disk) disk d' cs) ∧
      Laid disk (d.parts.filter fun q => q.disk ≠ disk)
        [⟨disk, 1, if mode = "uefi" then "abora-esp" else "abora-bios", none, false⟩,
          ⟨disk, 2, "abora-root", none, false⟩] d' := by
  have hapart : ∀ q ∈ d.parts.filter fun q => q.disk ≠ disk, q.disk ≠ disk := fun q hq =>
    of_decide_eq_true (List.mem_filter.mp hq).2
  unfold partitionCommands
  by_cases hmode : mode = "uefi"
  · rw [if_pos hmode, if_pos hmode]
    refine ⟨_, fun _ => rfl, ?_, hapart⟩
    simp [perform, Devices.write, Devices.pass, Devices.newPart, leading]
  · rw [if_neg hmode, if_neg hmode]
    refine ⟨_, fun _ => rfl, ?_, hapart⟩
    simp [perform, Devices.write, Devices.pass, Devices.newPart, leading]

theorem execute_await {name : String} (h : d.appears (leading p disk) name 0 = true) :
    ∃ d', (∀ cs, execute (leading p disk) disk d (.await name :: cs) =
        execute (leading p disk) disk d' cs) ∧ d'.parts = d.parts := by
  have hperform : perform (leading p disk) disk d (.await name) =
      ({ d with clock := d.clock + d.looks (leading p disk) name + 1 }, .ok ()) := by
    unfold perform
    dsimp only
    -- these links do not change with time
    have hlater : d.appears (leading p disk) name (d.looks (leading p disk) name) = true := h
    rw [if_pos hlater]
  refine ⟨{ d with clock := d.clock + d.looks (leading p disk) name + 1 }, fun cs => ?_, rfl⟩
  rw [execute, hperform]

/-- A file system is made on the partition that is meant. -/
theorem execute_mkfs (h : Laid disk others own d) {label name : String} {q : Part}
    (hp : ¬ Command.Takes p (.mkfs label name))
    (hq : (own.find? fun q => q.disk = disk ∧ q.name = name) = some q)
    (hmounted : q.mounted = false) :
    ∃ d', (∀ cs, execute (leading p disk) disk d (.mkfs label name :: cs) =
        execute (leading p disk) disk d' cs) ∧
      Laid disk others (changed own q fun r => { r with label := some label }) d' := by
  have hfound := List.find?_some hq
  have hdisk : q.disk = disk := (of_decide_eq_true hfound).1
  have hlink : (leading p disk).byPartlabel d.clock name d.parts = some q := by
    dsimp only [leading]
    rw [if_neg fun htakes => hp htakes.2, h.find fun q => q.name = name, hq]
  refine ⟨d.write q.disk (changed d.parts q fun r => { r with label := some label }), fun cs => ?_,
    h.changed hdisk _, h.apart⟩
  rw [execute, perform, hlink]
  dsimp only
  rw [hmounted]
  rfl

theorem execute_mount (h : Laid disk others own d) {label dir : String} {q : Part}
    (hp : ¬ Command.Takes p (.mount label dir))
    (hq : (own.find? fun q => q.disk = disk ∧ q.label = some label) = some q) :
    ∃ d', (∀ cs, execute (leading p disk) disk d (.mount label dir :: cs) =
        execute (leading p disk) disk d' cs) ∧
      Laid disk others (changed own q fun r => { r with mounted := true }) d' := by
  have hfound := List.find?_some hq
  have hdisk : q.disk = disk := (of_decide_eq_true hfound).1
  have hlink : (leading p disk).byLabel d.clock label d.parts = some q := by
    dsimp only [leading]
    rw [if_neg fun htakes => hp htakes.2, h.find fun q => q.label = some label, hq]
  refine ⟨d.write q.disk (changed d.parts q fun r => { r with mounted := true }), fun cs => ?_,
    h.changed hdisk _, h.apart⟩
  rw [execute, perform, hlink]
  rfl

/-- Whatever may be taken is taken, by some links. Each of the four ways to be mistaken has a
command that takes the partition; what has to be shown is that the run comes to it. -/
theorem written_of_mistakable {mode : String} (hp : p ∈ d.parts) (hdisk : p.disk ≠ disk)
    (h : Mistakable mode p) :
    p.disk ∈ (execute (leading p disk) disk d (prepareCommands mode)).1.written := by
  have hother : p ∈ d.parts.filter fun q => q.disk ≠ disk :=
    List.mem_filter.mpr ⟨hp, decide_eq_true hdisk⟩
  have hthere {own : List Part} {d' : Devices}
      (hlaid : Laid disk (d.parts.filter fun q => q.disk ≠ disk) own d') : p ∈ d'.parts := by
    rw [hlaid.parts]
    exact List.mem_append_left _ hother
  unfold prepareCommands
  simp only [List.append_assoc, List.cons_append, List.nil_append]
  -- the run is followed command by command, until one of them takes `p`
  obtain ⟨d1, hrun, hlaid⟩ := @execute_partition disk p mode d
  have happears : d1.appears (leading p disk) "abora-root" 0 = true := by
    dsimp only [Devices.appears, leading]
    split
    · rfl
    · rw [hlaid.find fun q => q.name = "abora-root"]
      split <;> simp
  obtain ⟨d2, hlook, hparts⟩ := execute_await happears
  rw [hrun, hlook]
  replace hlaid : Laid _ _ _ d2 := ⟨hparts.trans hlaid.parts, hlaid.apart⟩
  by_cases hroot : Command.Takes p (.mkfs "abora-root" "abora-root")
  · exact written_of_takes (hthere hlaid) hroot
  obtain ⟨d3, hrun, hlaid⟩ := execute_mkfs (q := ⟨disk, 2, "abora-root", none, false⟩) hlaid hroot
    (by split <;> simp) rfl
  rw [hrun]
  by_cases hmount : Command.Takes p (.mount "abora-root" "/mnt")
  · exact written_of_takes (hthere hlaid) hmount
  obtain ⟨d4, hrun, hlaid⟩ := execute_mount
    (q := ⟨disk, 2, "abora-root", some "abora-root", false⟩) hlaid hmount (by simp [changed])
  rw [hrun]
  -- neither command of the root took it, so it is the boot partition that it is mistaken for
  rcases h with ⟨hfree, hname | ⟨rfl, hname⟩⟩ | hlabel | ⟨rfl, hlabel⟩
  · exact absurd ⟨hname, hfree⟩ hroot
  · exact written_of_takes (c := .mkfs "ABORA-BOOT" "abora-esp") (hthere hlaid) ⟨hname, hfree⟩
  · exact absurd hlabel hmount
  · by_cases hesp : Command.Takes p (.mkfs "ABORA-BOOT" "abora-esp")
    · exact written_of_takes (hthere hlaid) hesp
    obtain ⟨d5, hrun, hlaid⟩ := execute_mkfs (q := ⟨disk, 1, "abora-esp", none, false⟩) hlaid hesp
      (by simp [changed]) rfl
    have hmkdir (cs : List Command) : execute (leading p disk) disk d5 (.mkdir "/mnt/boot" :: cs) =
        execute (leading p disk) disk d5.pass cs := rfl
    have hmem : p ∈ d5.parts := hthere hlaid
    simp only [if_true, List.cons_append, List.nil_append]
    rw [hrun, hmkdir]
    exact written_of_takes (c := .mount "ABORA-BOOT" "/mnt/boot") (d := d5.pass) hmem hlabel

end

/-- **The chosen disk is the only one that is written to**, wherever the links lead, exactly when no
other disk has a partition that may be taken for one of the new ones. -/
theorem erases_only_the_disk_iff {env : Env} {args : List String} {c : SystemConfig}
    (happroved : approved env args = some c) {d : Devices} (hclean : d.written = []) :
    (∀ t : Tools, t.Lawful → ∀ disk ∈ (installOn env t d args).1.written, disk = c.targetDisk) ↔
      ∀ p ∈ d.parts, p.disk ≠ c.targetDisk → ¬ Mistakable c.mode p := by
  unfold installOn
  rw [happroved]
  constructor
  · intro honly p hp hdisk hmistakable
    exact hdisk (honly (leading p c.targetDisk) (leading_lawful p c.targetDisk) p.disk
      (written_of_mistakable hp hdisk hmistakable))
  · intro hnone t ht
    have hapart : Apart c.targetDisk (d.parts.filter fun q => q.disk ≠ c.targetDisk) d :=
      ⟨rfl, fun w hw => by rw [hclean] at hw; cases hw⟩
    refine (hapart.execute ht fun command hcommand p hp htakes => ?_).written
    obtain ⟨hp, hdisk⟩ := List.mem_filter.mp hp
    exact hnone p hp (of_decide_eq_true hdisk) (mistakable_of_takes command hcommand htakes)

/-- An earlier installation is on another disk, unmounted. -/
theorem erases_only_the_disk_iff_earlier :
    ¬ ∀ t : Tools, t.Lawful → ∀ disk ∈ (installOn spareMachine t
      ⟨[⟨"/dev/vdb", 2, "abora-root", some "abora-root", false⟩], [], 0⟩ spareArgs).1.written,
      disk = "/dev/vda" := by
  intro honly
  exact (erases_only_the_disk_iff approved_spare rfl).mp honly _ List.mem_cons_self (by decide)
    (.inl ⟨rfl, .inl rfl⟩)

end Abora.Installer
