import Abora.Installer.Settings
import Abora.Lib.Lists

/-!
# The files the installer writes (`installer/nixos/abora-framework-install.sh`)

A command line is checked, completed at the terminal if there is one, checked again, and turned into
`flake.nix` and `configuration.nix`, unless it is refused, or asks for help or for a dry run.
`generated_files_exact` reads the files the way Nix does: what is between quotes in them is the
settings, under a condition on the disk, which nothing checks.

The files are written twice below: once as the script writes them, line by line, and once as they
are meant, as pieces of code, comments and strings. That the two are the same text is
`flakeNix_eq_render` and `configurationNix_eq_render`; that the pieces are what Nix reads is a
matter of the language (`Lib.Nix`), as long as each string is one that stands for itself.
-/

namespace Abora.Installer

open Lib.Text Lib.Nix

/-- What `write_system_config` is called with, and the settings it looks at. They are global
variables in the script, and what they are when it is called is what counts. -/
structure SystemConfig where
  dir : String
  mode : String
  targetDisk : String
  release : String
  settings : Settings
  deriving DecidableEq, Repr

namespace SystemConfig

/-- A text of lines, each of them ended, as a here-document is. -/
def heredoc (ls : List String) : Chars := unlines (ls.map String.toList)

/-- `anix_module` and `tinypm_module`: a line of its own where the module is wanted, and nothing,
not even an empty line, where it is not. -/
def moduleLines (want : Option Bool) (name : String) : List String :=
  if want = some true then ["        abora-framework.nixosModules." ++ name] else []

/-- `flake.nix`. The host name is also the name of the system's configuration. -/
def flakeNix (c : SystemConfig) : Chars :=
  heredoc [
    "\x7b",
    "  description = \"" ++ c.settings.hostname ++ " (built on Abora Framework)\";",
    "",
    "  inputs = \x7b",
    "    abora-framework.url = \"" ++ c.settings.frameworkFlake ++ "\";",
    "    nixpkgs.follows = \"abora-framework/nixpkgs\";",
    "  \x7d;",
    "",
    "  outputs =",
    "    \x7b nixpkgs, abora-framework, ... \x7d:",
    "    \x7b",
    "      nixosConfigurations.\"" ++ c.settings.hostname ++ "\" = nixpkgs.lib.nixosSystem \x7b",
    "        system = \"x86_64-linux\";",
    "        modules = [",
    "          ./hardware-configuration.nix",
    "          ./configuration.nix",
    "          abora-framework.nixosModules.framework"] ++
  heredoc (moduleLines c.settings.wantAnix "anix") ++
  heredoc (moduleLines c.settings.wantTinypm "tinypm") ++
  heredoc [
    "        ];",
    "      \x7d;",
    "    \x7d;",
    "\x7d"]

/-- `bootloader`. The disk is written into the configuration only for a BIOS, where GRUB is
installed on the disk and not on a partition. -/
def bootloader (c : SystemConfig) : List String :=
  if c.mode = "uefi" then [
    "  boot.loader.systemd-boot.enable = true;",
    "  boot.loader.efi.canTouchEfiVariables = true;"]
  else [
    "  boot.loader.grub.enable = true;",
    "  boot.loader.grub.device = \"" ++ c.targetDisk ++ "\";"]

/-- `password_line`. Without a hash an empty line is left in its place. -/
def passwordLine (c : SystemConfig) : String :=
  if c.settings.passwordHash = "" then ""
  else "    hashedPassword = \"" ++ c.settings.passwordHash ++ "\";"

/-- `configuration.nix`. The host name stands in a comment too, where it must not end the line. -/
def configurationNix (c : SystemConfig) : Chars :=
  heredoc [
    "# Your system. This file and flake.nix are yours to edit; rebuild with",
    "#   sudo nixos-rebuild switch --flake /etc/nixos#" ++ c.settings.hostname,
    "\x7b ... \x7d:",
    "",
    "\x7b",
    "  networking.hostName = \"" ++ c.settings.hostname ++ "\";",
    "  time.timeZone = \"" ++ c.settings.timezone ++ "\";",
    "",
    "  # The Abora Framework base: the aborad daemon and the abora command.",
    "  aboraFramework.enable = true;",
    "",
    "  users.users.\"" ++ c.settings.username ++ "\" = \x7b",
    "    isNormalUser = true;",
    "    extraGroups = [ \"wheel\" ];"] ++
  heredoc [c.passwordLine] ++
  heredoc [
    "  \x7d;",
    ""] ++
  heredoc c.bootloader ++
  heredoc [
    "",
    "  system.stateVersion = \"" ++ c.release ++ "\";",
    "\x7d"]

end SystemConfig

/-! ## What the files say -/

namespace SystemConfig

def modulePieces (want : Option Bool) (name : String) : List Piece :=
  if want = some true then [.code ("        abora-framework.nixosModules." ++ name ++ "\n")] else []

/-- `flake.nix` as it is meant: what is code and what is a string. -/
def flakePieces (c : SystemConfig) : List Piece := [
    .code "\x7b\n  description = ",
    .str (c.settings.hostname ++ " (built on Abora Framework)").toList,
    .code ";\n\n  inputs = \x7b\n    abora-framework.url = ",
    .str c.settings.frameworkFlake.toList,
    .code ";\n    nixpkgs.follows = ",
    .str "abora-framework/nixpkgs".toList,
    .code ";\n  \x7d;\n\n  outputs =\n    \x7b nixpkgs, abora-framework, ... \x7d:\n    \x7b\n",
    .code "      nixosConfigurations.",
    .str c.settings.hostname.toList,
    .code " = nixpkgs.lib.nixosSystem \x7b\n        system = ",
    .str "x86_64-linux".toList,
    .code ";\n        modules = [\n          ./hardware-configuration.nix\n",
    .code "          ./configuration.nix\n          abora-framework.nixosModules.framework\n"] ++
  modulePieces c.settings.wantAnix "anix" ++
  modulePieces c.settings.wantTinypm "tinypm" ++
  [.code "        ];\n      \x7d;\n    \x7d;\n\x7d\n"]

def bootloaderPieces (c : SystemConfig) : List Piece :=
  if c.mode = "uefi" then
    [.code "  boot.loader.systemd-boot.enable = true;\n",
      .code "  boot.loader.efi.canTouchEfiVariables = true;\n"]
  else
    [.code "  boot.loader.grub.enable = true;\n  boot.loader.grub.device = ",
      .str c.targetDisk.toList, .code ";\n"]

def passwordPieces (c : SystemConfig) : List Piece :=
  if c.settings.passwordHash = "" then [.code "\n"]
  else [.code "    hashedPassword = ", .str c.settings.passwordHash.toList, .code ";\n"]

/-- `configuration.nix` as it is meant: what is code, what is a comment and what is a string. -/
def configurationPieces (c : SystemConfig) : List Piece := [
    .comment " Your system. This file and flake.nix are yours to edit; rebuild with".toList,
    .comment ("   sudo nixos-rebuild switch --flake /etc/nixos#" ++ c.settings.hostname).toList,
    .code "\x7b ... \x7d:\n\n\x7b\n  networking.hostName = ",
    .str c.settings.hostname.toList,
    .code ";\n  time.timeZone = ",
    .str c.settings.timezone.toList,
    .code ";\n\n  ",
    .comment " The Abora Framework base: the aborad daemon and the abora command.".toList,
    .code "  aboraFramework.enable = true;\n\n  users.users.",
    .str c.settings.username.toList,
    .code " = \x7b\n    isNormalUser = true;\n    extraGroups = [ ",
    .str "wheel".toList,
    .code " ];\n"] ++
  c.passwordPieces ++ [.code "  \x7d;\n\n"] ++ c.bootloaderPieces ++ [
    .code "\n  system.stateVersion = ",
    .str c.release.toList,
    .code ";\n\x7d\n"]

/-- Nix reads the files as they are meant: the template's code and comments, and between quotes the
settings. -/
def ReadsBack (c : SystemConfig) : Prop :=
  lex c.flakeNix = some (tokens c.flakePieces) ∧
    lex c.configurationNix = some (tokens c.configurationPieces)

theorem render_append (a b : List Piece) : render (a ++ b) = render a ++ render b :=
  List.flatMap_append

theorem render_nil : render [] = [] := rfl

theorem render_cons (p : Piece) (ps : List Piece) : render (p :: ps) = p.render ++ render ps := rfl

theorem heredoc_nil : heredoc [] = [] := rfl

theorem heredoc_cons (l : String) (ls : List String) :
    heredoc (l :: ls) = l.toList ++ '\n' :: heredoc ls :=
  List.append_cons l.toList '\n' (heredoc ls) |>.symm

theorem heredoc_moduleLines (want : Option Bool) {name : String} :
    heredoc (moduleLines want name) = render (modulePieces want name) := by
  unfold moduleLines modulePieces
  split
  · simp [heredoc, unlines, render, Piece.render]
  · rfl

/-- The file that is written is the file that is meant. The settings are in the same places of both;
the rest is text without variables. -/
theorem flakeNix_eq_render (c : SystemConfig) : c.flakeNix = render c.flakePieces := by
  unfold flakeNix flakePieces
  rw [render_append, render_append, render_append, heredoc_moduleLines, heredoc_moduleLines]
  refine congrArg₂ _ (congrArg₂ _ (congrArg₂ _ ?_ rfl) rfl) ?_
  all_goals
    simp only [heredoc_cons, heredoc_nil, render_cons, render_nil, Piece.render,
      String.toList_append, List.append_assoc, List.cons_append, List.nil_append]
    repeat rw [String.toList_ofList]
    simp only [List.cons_append, List.nil_append]

theorem heredoc_passwordLine (c : SystemConfig) :
    heredoc [c.passwordLine] = render c.passwordPieces := by
  unfold passwordLine passwordPieces
  split
  · rfl
  · simp [heredoc, unlines, render, Piece.render]

theorem heredoc_bootloader (c : SystemConfig) :
    heredoc c.bootloader = render c.bootloaderPieces := by
  unfold bootloader bootloaderPieces
  split
  · simp [heredoc_cons, heredoc_nil, render_cons, render_nil, Piece.render]
  · simp [heredoc_cons, heredoc_nil, render_cons, render_nil, Piece.render]

theorem configurationNix_eq_render (c : SystemConfig) :
    c.configurationNix = render c.configurationPieces := by
  unfold configurationNix configurationPieces
  rw [render_append, render_append, render_append, render_append, heredoc_passwordLine,
    heredoc_bootloader]
  refine congrArg₂ _ (congrArg₂ _ (congrArg₂ _ (congrArg₂ _ ?_ rfl) ?_) rfl) ?_
  all_goals
    simp only [heredoc_cons, heredoc_nil, render_cons, render_nil, Piece.render,
      String.toList_append, List.append_assoc, List.cons_append, List.nil_append]
    repeat rw [String.toList_ofList]
    simp only [List.cons_append, List.nil_append]

theorem modulePieces_fixed {want : Option Bool} {name : String}
    (hname : name.toList.all isCode = true) : ∀ p ∈ modulePieces want name, p.Fixed := by
  unfold modulePieces
  split
  · intro p hp
    obtain rfl := List.mem_singleton.mp hp
    simp only [Piece.Fixed, String.toList_append, List.all_append, hname, Bool.and_true]
    repeat rw [String.toList_ofList]
    rfl
  · exact fun p hp => (by cases hp)

theorem flakePieces_fixed (c : SystemConfig) : ∀ p ∈ c.flakePieces, p.Fixed := by
  unfold flakePieces
  simp only [List.forall_mem_append, List.forall_mem_cons]
  refine ⟨⟨⟨?_, modulePieces_fixed (by decide)⟩, modulePieces_fixed (by decide)⟩, ?_⟩
  · simp only [Piece.Fixed]
    repeat rw [String.toList_ofList]
    exact ⟨rfl, trivial, rfl, trivial, rfl, trivial, rfl, rfl, trivial, rfl, trivial, rfl, rfl,
      List.forall_mem_nil _⟩
  · simp only [Piece.Fixed]
    repeat rw [String.toList_ofList]
    exact ⟨rfl, List.forall_mem_nil _⟩

/-- What does not come from the settings is code and comments that Nix reads as such. The host name
has to stay on the line of its comment. -/
theorem configurationPieces_fixed {c : SystemConfig}
    (hhost : '\n' ∉ c.settings.hostname.toList ∧ '\r' ∉ c.settings.hostname.toList) :
    ∀ p ∈ c.configurationPieces, p.Fixed := by
  unfold configurationPieces passwordPieces bootloaderPieces
  simp only [List.forall_mem_append, List.forall_mem_cons]
  refine ⟨⟨⟨⟨?_, ?_⟩, ?_⟩, ?_⟩, ?_⟩
  · simp only [Piece.Fixed, String.toList_append, List.mem_append, hhost, or_false]
    repeat rw [String.toList_ofList]
    refine ⟨by decide, by decide, rfl, trivial, rfl, trivial, rfl, by decide, rfl, trivial, rfl,
      trivial, rfl, List.forall_mem_nil _⟩
  · split
    · simp only [List.forall_mem_cons, Piece.Fixed]
      exact ⟨by decide, List.forall_mem_nil _⟩
    · simp only [List.forall_mem_cons, Piece.Fixed]
      exact ⟨by decide, trivial, by decide, List.forall_mem_nil _⟩
  · simp only [Piece.Fixed]
    exact ⟨by decide, List.forall_mem_nil _⟩
  · split
    · simp only [List.forall_mem_cons, Piece.Fixed]
      repeat rw [String.toList_ofList]
      exact ⟨rfl, rfl, List.forall_mem_nil _⟩
    · simp only [List.forall_mem_cons, Piece.Fixed]
      repeat rw [String.toList_ofList]
      exact ⟨rfl, trivial, rfl, List.forall_mem_nil _⟩
  · simp only [Piece.Fixed]
    exact ⟨by decide, trivial, by decide, List.forall_mem_nil _⟩

theorem modulePieces_reads (want : Option Bool) (name : String) :
    ∀ p ∈ modulePieces want name, p.Reads := by
  unfold modulePieces
  split
  · exact List.forall_mem_singleton.mpr trivial
  · exact List.forall_mem_nil _

theorem flakePieces_reads {c : SystemConfig} (h : Checked c.settings) :
    ∀ p ∈ c.flakePieces, p.Reads := by
  have hdescription : Inert (c.settings.hostname ++ " (built on Abora Framework)").toList := by
    rw [String.toList_append]
    exact Harmless.inert (h.hostname_harmless.append (by decide))
  have hsystem : Inert "x86_64-linux".toList := by decide
  have hnixpkgs : Inert "abora-framework/nixpkgs".toList := by decide
  unfold flakePieces
  simp only [List.forall_mem_append, List.forall_mem_cons, Piece.Reads, hdescription,
    h.frameworkFlake_harmless.inert, hnixpkgs, h.hostname_harmless.inert, hsystem, true_and]
  exact ⟨⟨⟨List.forall_mem_nil _, modulePieces_reads _ _⟩, modulePieces_reads _ _⟩,
    List.forall_mem_nil _⟩

theorem passwordPieces_reads {c : SystemConfig} (h : Checked c.settings) :
    ∀ p ∈ c.passwordPieces, p.Reads := by
  unfold passwordPieces
  split
  · exact List.forall_mem_singleton.mpr trivial
  · rename_i hne
    simp only [List.forall_mem_cons, Piece.Reads]
    exact ⟨trivial, (h.passwordHash_harmless hne).inert, trivial, List.forall_mem_nil _⟩

/-- The disk is the only string that has not been checked, and it is written for a BIOS only. -/
theorem bootloaderPieces_reads_iff (c : SystemConfig) :
    (∀ p ∈ c.bootloaderPieces, p.Reads) ↔ c.mode = "uefi" ∨ Inert c.targetDisk.toList := by
  unfold bootloaderPieces
  split
  · rename_i hmode
    exact iff_of_true (by simp [Piece.Reads]) (.inl hmode)
  · rename_i hmode
    simp [Piece.Reads, hmode]

/-- **The files read back** exactly when the disk does, where it is written. -/
theorem readsBack_iff {c : SystemConfig} (h : Checked c.settings)
    (hrelease : validRelease c.release = true) :
    c.ReadsBack ↔ c.mode = "uefi" ∨ Inert c.targetDisk.toList := by
  unfold ReadsBack
  rw [flakeNix_eq_render, configurationNix_eq_render, lex_render_iff c.flakePieces_fixed,
    lex_render_iff (configurationPieces_fixed h.hostname_harmless.single_line),
    ← bootloaderPieces_reads_iff]
  unfold configurationPieces
  simp only [List.forall_mem_append]
  constructor
  · exact fun hall => hall.2.1.2
  · intro hloader
    refine ⟨flakePieces_reads h, ⟨⟨⟨?_, passwordPieces_reads h⟩, ?_⟩, hloader⟩, ?_⟩
    · have hwheel : Inert "wheel".toList := by decide
      simp only [List.forall_mem_cons, Piece.Reads, h.hostname_harmless.inert,
        h.timezone_harmless.inert, h.username_harmless.inert, hwheel, true_and]
      exact List.forall_mem_nil _
    · exact List.forall_mem_singleton.mpr trivial
    · simp only [List.forall_mem_cons, Piece.Reads, (validRelease_harmless hrelease).inert,
        true_and]
      exact List.forall_mem_nil _

end SystemConfig

/-! ## The run -/

/-- What a command printed, and whether it succeeded. -/
structure Ran where
  output : Chars
  ok : Bool
  deriving DecidableEq, Repr

/-- The machine, and the person at its terminal. A command that fails where its status is not looked
at ends the script, with what it complains of. -/
structure Env where
  root : Bool
  tty : Bool
  /-- What is typed at the questions; an empty answer takes the default. -/
  disk : String
  hostname : String
  username : String
  timezone : String
  wantAnix : Bool
  wantTinypm : Bool
  /-- The password that is typed, as `mkpasswd` hashes it. -/
  mkpasswd : Except String String
  efi : Bool
  isBlockDevice : String → Bool
  /-- `lsblk -no MOUNTPOINTS`, for a disk. -/
  lsblk : String → Ran
  /-- Whether `grep` can be run at all. -/
  grepRuns : Bool
  /-- `nixos-version --release`, cut to five characters, if there is such a command. -/
  nixosRelease : Option (Except String String)
  confirm : String
  /-- Partitioning, formatting, mounting and `nixos-generate-config`. -/
  prepare : String → Except String Unit

/-- `[[:space:]]`: the six characters of the C locale. -/
def isSpace (c : Char) : Bool := [' ', '\t', '\n', '\x0B', '\x0C', '\r'].contains c

/-- `lsblk -no MOUNTPOINTS "$disk" | grep -q '[^[:space:]]'`. With `pipefail` a pipeline succeeds
where all of its commands do: a mount point that `lsblk` printed before it failed is not one that
was found. -/
def Env.findsMounted (env : Env) (disk : String) : Bool :=
  (env.lsblk disk).ok && env.grepRuns && (env.lsblk disk).output.any fun c => !isSpace c

/-- How the script ends, apart from an error: with its help, with what a dry run says, or with
files. -/
inductive Outcome where
  | usage
  | dryRun
  | written (c : SystemConfig)

/-- What `echo` writes of one word: an option of its own is not written. An answer of `-n` to a
question is such a word. -/
def echoed (word : String) : String :=
  match word.toList with
  | '-' :: rest =>
    if rest ≠ [] && rest.all fun c => c == 'n' || c == 'e' || c == 'E' then "" else word
  | _ => word

/-- `ask`: an empty answer takes the default. -/
def ask (answer default : String) : String := echoed (if answer = "" then default else answer)

/-- What is asked before the second check. A disk that was named is not asked for again, nor a
module that was decided on the command line. -/
def askSettings (env : Env) (s : Settings) : Settings :=
  { s with
    disk := if s.generateOnly = "" ∧ s.disk = "" then env.disk else s.disk
    hostname := ask env.hostname s.hostname
    username := ask env.username s.username
    timezone := ask env.timezone s.timezone
    wantAnix := some (s.wantAnix.getD env.wantAnix)
    wantTinypm := some (s.wantTinypm.getD env.wantTinypm) }

/-- `ask_password`, where it is called: not for files that are only generated, and not for a dry
run. -/
def askPassword (env : Env) (s : Settings) : Except String Settings :=
  if s.passwordHash = "" ∧ s.generateOnly = "" ∧ s.dryRun = false then
    env.mkpasswd.map fun hash => { s with passwordHash := hash }
  else .ok s

/-- The questions, with the second check. Without a terminal, or with `--yes`, nothing is asked, and
the command line has been checked already. -/
def interact (env : Env) (s : Settings) : Except String Settings :=
  if env.tty && !s.assumeYes then
    (checkSettings (askSettings env s)).bind fun _ => askPassword env (askSettings env s)
  else .ok s

def bootMode (env : Env) (s : Settings) : String :=
  if s.bootMode ≠ "" then s.bootMode
  else if s.generateOnly ≠ "" ∨ env.efi then "uefi"
  else "bios"

/-- The configuration that `--generate-only` writes. A disk that was not named is `/dev/sda`. -/
def generateOnly (env : Env) (s : Settings) : SystemConfig where
  dir := s.generateOnly
  mode := bootMode env s
  targetDisk := if s.disk = "" then "/dev/sda" else s.disk
  release := if s.stateVersion = "" then "26.05" else s.stateVersion
  settings := s

def installRelease (env : Env) (s : Settings) : Except String String :=
  if s.stateVersion ≠ "" then .ok s.stateVersion else env.nixosRelease.getD (.ok "26.05")

/-- A dry run has a password that nobody can use. It is set where none was given, and a real install
without one is refused before that. -/
def dryPassword (s : Settings) : Settings :=
  if s.passwordHash = "" then { s with passwordHash := "$6$dry$run" } else s

/-- What is left to be checked before a disk is written to: that somebody has agreed, either by
`--yes` or by typing the disk's path. -/
def confirmErase (env : Env) (s : Settings) : Except String Unit :=
  if !s.assumeYes && !env.tty then
    .error "not a terminal: pass --yes to confirm the erase non-interactively"
  else if !s.assumeYes && env.confirm != s.disk then
    .error "confirmation did not match; nothing was changed"
  else .ok ()

def realConfig (env : Env) (s : Settings) (release : String) : SystemConfig :=
  ⟨"/mnt/etc/nixos", bootMode env s, s.disk, release, dryPassword s⟩

/-- A real install, up to `nix flake lock`. Preparing the disk is left open here (`Env.prepare`):
the files do not depend on it. -/
def realInstall (env : Env) (s : Settings) : Except String Outcome :=
  if s.disk = "" then .error "no disk given: pass --disk DEVICE"
  else if !env.isBlockDevice s.disk then .error s!"{s.disk} is not a block device"
  else if env.findsMounted s.disk then
    .error (s!"{s.disk} has mounted filesystems; unmount them first " ++
      "(or you picked the disk you booted from)")
  else if s.passwordHash = "" ∧ s.dryRun = false then
    .error "no password: pass --password-hash HASH, or run interactively"
  else do
    let release ← installRelease env s
    if !validRelease release then
      .error ("could not work out a NixOS release for system.stateVersion " ++
        s!"(got '{release}'); pass --state-version")
    else if s.dryRun then .ok .dryRun
    else
      confirmErase env s
      env.prepare s.disk
      return .written (realConfig env s release)

/-- The script, from its arguments to the files. -/
def install (env : Env) (args : List String) : Except String Outcome :=
  match parseArgs .initial args with
  | .error e => .error e
  | .ok none => .ok .usage
  | .ok (some s) =>
    match checkSettings s with
    | .error e => .error e
    | .ok () =>
      if s.generateOnly = "" ∧ s.dryRun = false ∧ env.root = false then
        .error "run as root (sudo), or use --generate-only DIR to only write the configuration"
      else
        match interact env s with
        | .error e => .error e
        | .ok s =>
          if s.generateOnly ≠ "" then .ok (.written (generateOnly env s)) else realInstall env s

/-! ## Every run -/

/-- What `mkpasswd` prints passes the script's own check of a hash, which is not made again. -/
def Env.Hashes (env : Env) : Prop := ∀ hash, env.mkpasswd = .ok hash → validHash hash = true

theorem askPassword_checked {env : Env} (henv : env.Hashes) {s s' : Settings} (hs : Checked s)
    (h : askPassword env s = .ok s') : Checked s' := by
  unfold askPassword at h
  split at h
  · obtain ⟨hash, hhash, rfl⟩ := Lib.ok_of_map h
    exact { hs with passwordHash := fun _ => henv hash hhash }
  · cases h
    exact hs

/-- The questions leave the settings checked: what was typed is checked, and a hash passes by
itself. -/
theorem interact_checked {env : Env} (henv : env.Hashes) {s s' : Settings}
    (hs : Checked s) (h : interact env s = .ok s') : Checked s' := by
  unfold interact at h
  split at h
  · cases hcheck : checkSettings (askSettings env s) with
    | error e =>
      rw [hcheck] at h
      cases h
    | ok u =>
      rw [hcheck] at h
      exact askPassword_checked henv (checked_of_checkSettings hcheck) h
  · cases h
    exact hs

theorem dryPassword_checked {s : Settings} (h : Checked s) : Checked (dryPassword s) := by
  unfold dryPassword
  split
  · have hdry : validHash "$6$dry$run" = true := by decide
    exact { h with passwordHash := fun _ => hdry }
  · exact h

/-- What is only generated has been checked, and so has its release: it was given, or is `26.05`. -/
theorem generateOnly_checked {env : Env} {s : Settings} (h : Checked s) :
    Checked (generateOnly env s).settings ∧ validRelease (generateOnly env s).release = true := by
  refine ⟨h, ?_⟩
  unfold generateOnly
  dsimp only
  split
  · decide
  · exact h.stateVersion ‹_›

/-- What is written to a disk has been checked. The release is checked here once more, since
`nixos-version` may have printed it. -/
theorem realInstall_checked {env : Env} {s : Settings} (hs : Checked s) {c : SystemConfig}
    (h : realInstall env s = .ok (.written c)) :
    Checked c.settings ∧ validRelease c.release = true := by
  unfold realInstall at h
  iterate 4
    split at h
    · cases h
  obtain ⟨release, -, h⟩ := Lib.ok_of_bind h
  split at h
  · cases h
  rename_i hrelease
  split at h
  · cases h
  obtain ⟨-, -, h⟩ := Lib.ok_of_bind h
  obtain ⟨-, -, h⟩ := Lib.ok_of_bind h
  cases h
  have hvalid : validRelease release = true := by simpa using hrelease
  exact ⟨dryPassword_checked hs, hvalid⟩

/-- What is written has been checked, on every way there. -/
theorem install_checked {env : Env} (henv : env.Hashes) {args : List String}
    {c : SystemConfig} (h : install env args = .ok (.written c)) :
    Checked c.settings ∧ validRelease c.release = true := by
  unfold install at h
  split at h
  · cases h
  · cases h
  split at h
  · cases h
  rename_i s _ hcheck
  split at h
  · cases h
  split at h
  · cases h
  rename_i s' hinteract
  have hs' := interact_checked henv (checked_of_checkSettings hcheck) hinteract
  split at h
  · cases h
    exact generateOnly_checked hs'
  · exact realInstall_checked hs' h

/-- **The files that are generated say what the settings say, and nothing else**, exactly when the
boot mode is UEFI or the disk reads as itself between quotes. -/
theorem generated_files_exact {env : Env} (henv : env.Hashes)
    {args : List String} {c : SystemConfig} (h : install env args = .ok (.written c)) :
    c.ReadsBack ↔ c.mode = "uefi" ∨ Inert c.targetDisk.toList :=
  SystemConfig.readsBack_iff (install_checked henv h).1 (install_checked henv h).2

/-- A machine on which the files are only generated. -/
def anyMachine : Env where
  root := false
  tty := false
  disk := ""
  hostname := ""
  username := ""
  timezone := ""
  wantAnix := false
  wantTinypm := false
  mkpasswd := .ok "$6$salt$hash"
  efi := false
  isBlockDevice _ := false
  lsblk _ := ⟨[], true⟩
  grepRuns := true
  nixosRelease := none
  confirm := ""
  prepare _ := .ok ()

theorem anyMachine_hashes : anyMachine.Hashes := fun hash h => by
  cases h
  decide

def biosConfig (disk : String) : SystemConfig where
  dir := "out"
  mode := "bios"
  targetDisk := disk
  release := "26.05"
  settings :=
    { Settings.initial with generateOnly := "out", bootMode := "bios", disk := disk }

/-- A BIOS machine with a plain disk, from the command line to the files. -/
theorem generated_files_exact_vda :
    install anyMachine ["--generate-only", "out", "--boot-mode", "bios", "--disk", "/dev/vda"] =
      .ok (.written (biosConfig "/dev/vda")) ∧ (biosConfig "/dev/vda").ReadsBack := by
  have hinstall : install anyMachine
      ["--generate-only", "out", "--boot-mode", "bios", "--disk", "/dev/vda"] =
      .ok (.written (biosConfig "/dev/vda")) := by rfl
  exact ⟨hinstall, (generated_files_exact anyMachine_hashes hinstall).mpr (.inr (by decide))⟩

/-- A disk that ends its string. The rest of its name is then code of the configuration. -/
theorem disk_breaks_out :
    install anyMachine ["--generate-only", "out", "--boot-mode", "bios",
      "--disk", "/dev/sda\"; evil = \""] = .ok (.written (biosConfig "/dev/sda\"; evil = \"")) ∧
    ¬ (biosConfig "/dev/sda\"; evil = \"").ReadsBack := by
  have hinstall : install anyMachine ["--generate-only", "out", "--boot-mode", "bios",
      "--disk", "/dev/sda\"; evil = \""] =
      .ok (.written (biosConfig "/dev/sda\"; evil = \"")) := by rfl
  refine ⟨hinstall, fun hreads => ?_⟩
  have hchecked := install_checked anyMachine_hashes hinstall
  revert hreads
  rw [SystemConfig.readsBack_iff hchecked.1 hchecked.2]
  decide

end Abora.Installer
