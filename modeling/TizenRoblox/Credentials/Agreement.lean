/-
# Where the credentials are looked for

Four places name the credentials file, each on its own: the setup script writes it
on the machine it runs on or copies it to the TV, the diagnosis checks for it, and
the stub of libsecret opens it in the home of the Sober that the launcher starts.
Here they are put side by side. They agree on one file of the TV exactly under
three conditions (`agreement_iff`): the installation directory is named in the
environment or there is no package, the name fits the buffer of the stub, and
setup, if run on the TV itself, was run in the home that the launcher gives Sober.

Names are compared as pathnames, so a doubled slash makes no difference.
-/

import TizenRoblox.Credentials.Setup
import TizenRoblox.Launcher.Reaching

namespace TizenRoblox.Credentials

open TizenRoblox.Foundation TizenRoblox.Posix TizenRoblox.Launcher

/-- Where setup was run. -/
inductive SetupPlace
  /-- On the TV: the file is the one in the user's home. -/
  | onTv
  /-- On another machine, with the copy to the TV. -/
  | onHost
  deriving DecidableEq

/-- The paths that setup has written on the TV. -/
def writtenOnTv (state : SetupState) : SetupPlace → List Bytes
  | .onTv => state.written
  | .onHost => state.tvWritten

/-- `INSTALL_DIR` of `diagnose.sh` -/
def diagnoseInstallDir (tizenrobloxDir : Bytes) : Bytes :=
  if tizenrobloxDir = [] then bytes "/opt/tizenroblox" else tizenrobloxDir

/-- `CREDS_FILE` of `diagnose.sh` -/
def diagnoseCredsFile (tizenrobloxDir : Bytes) : Bytes :=
  diagnoseInstallDir tizenrobloxDir ++ bytes "/data/.tizenroblox_creds"

/-- The three names lead to one file. -/
def Agree (written checked opened : Bytes) : Prop :=
  Pathname.ofBytes written = Pathname.ofBytes checked ∧
    Pathname.ofBytes checked = Pathname.ofBytes opened

/-- The name of the credentials file in its directory. -/
def credName : Name := bytes ".tizenroblox_creds"

private theorem partsOf_dataDir (installDir : Bytes) :
    Pathname.partsOf (installDir ++ bytes "/data") =
      Pathname.partsOf installDir ++ [bytes "data"] := by
  rw [show bytes "/data" = slash :: bytes "data" from by decide, Pathname.partsOf_append_slash,
    show Pathname.partsOf (bytes "data") = [bytes "data"] from by decide]

/-- The credentials file of a data directory. -/
private theorem ofBytes_dataFile (installDir : Bytes) :
    Pathname.ofBytes (installDir ++ bytes "/data/.tizenroblox_creds") =
      (Pathname.ofBytes (installDir ++ bytes "/data")).child credName := by
  have hsplit : installDir ++ bytes "/data/.tizenroblox_creds" =
      (installDir ++ bytes "/data") ++ slash :: credName := by
    rw [List.append_assoc]
    rfl
  have hnonempty : installDir ++ bytes "/data" ≠ [] :=
    List.append_ne_nil_of_right_ne_nil _ (by decide)
  rw [hsplit]
  exact Pathname.ofBytes_append_slash hnonempty (by decide) (by decide)

/-- A home is the data directory exactly where the files in them are the same. -/
private theorem ofBytes_homeFile_iff (home installDir : Bytes) :
    Pathname.ofBytes (home ++ bytes "/.tizenroblox_creds") =
        Pathname.ofBytes (installDir ++ bytes "/data/.tizenroblox_creds") ↔
      Pathname.ofBytes home = Pathname.ofBytes (installDir ++ bytes "/data") := by
  rw [ofBytes_dataFile]
  by_cases hempty : home = []
  · subst hempty
    constructor
    · intro heq
      have hparts : Pathname.partsOf (bytes "/.tizenroblox_creds") =
          Pathname.partsOf (installDir ++ bytes "/data") ++ [credName] :=
        congrArg Pathname.parts heq
      have hone : (Pathname.partsOf (bytes "/.tizenroblox_creds")).length = 1 := by decide
      have hlength := congrArg List.length hparts
      rw [hone, partsOf_dataDir] at hlength
      simp at hlength
    · intro heq
      have hparts : Pathname.partsOf [] = Pathname.partsOf (installDir ++ bytes "/data") :=
        congrArg Pathname.parts heq
      rw [partsOf_dataDir, Pathname.partsOf_nil] at hparts
      simp at hparts
  · rw [show bytes "/.tizenroblox_creds" = slash :: credName from by decide,
      Pathname.ofBytes_append_slash hempty (by decide) (by decide), Pathname.child_inj]

/-- The stub opens the file of the data directory exactly where the name fits its
buffer. -/
private theorem ofBytes_credPath_iff (installDir : Bytes) :
    Pathname.ofBytes (installDir ++ bytes "/data/.tizenroblox_creds") =
        Pathname.ofBytes (credPath (some (soberHome installDir))) ↔
      (installDir ++ bytes "/data/.tizenroblox_creds").length ≤ 511 := by
  have hpath : credPath (some (soberHome installDir)) =
      (installDir ++ bytes "/data/.tizenroblox_creds").take 511 := by
    rw [credPath, Option.getD_some, soberHome, List.append_assoc]
    rfl
  rw [hpath]
  constructor
  · intro heq
    apply Pathname.length_le_of_partsOf_take
    · rw [List.getLast?_append,
        show (bytes "/data/.tizenroblox_creds").getLast? = some 115 from by decide]
      simp [slash]
    · exact (congrArg Pathname.parts heq).symm
  · intro hfits
    rw [List.take_of_length_le hfits]

section Agreement

variable {setupWorld : SetupWorld} {place : SetupPlace} {disk tvDisk : Disk}
  {state : SetupState} {written : Bytes} {world : World} {launchState : State}

/-- The launcher and the other scripts take one directory for the installation
unless they are told none and there is a package. -/
private theorem detectInstallDir_eq_iff
    (hdir : launchState.get "TIZENROBLOX_DIR" = setupWorld.tizenrobloxDir) :
    detectInstallDir world launchState = setupInstallDir setupWorld ↔
      setupWorld.tizenrobloxDir ≠ [] ∨
        launchState.tree.isDirectory world.cwd (.ofBytes tpkDir) = false := by
  unfold detectInstallDir setupInstallDir
  rw [hdir]
  by_cases hempty : setupWorld.tizenrobloxDir = []
  · cases hpackage : launchState.tree.isDirectory world.cwd (.ofBytes tpkDir) with
    | false => simp [hempty, manualDir]
    | true =>
        have hne : tpkDir ≠ bytes "/opt/tizenroblox" := by decide
        simp [hempty, hne]
  · simp [hempty]

/-- The diagnosis and the stub in the Sober of the launcher name one file exactly
where the installation directories are one and the name fits. -/
private theorem checked_eq_opened_iff
    (hdir : launchState.get "TIZENROBLOX_DIR" = setupWorld.tizenrobloxDir) :
    Pathname.ofBytes (diagnoseCredsFile setupWorld.tizenrobloxDir) =
        Pathname.ofBytes (credPath (some (soberHome (detectInstallDir world launchState)))) ↔
      (setupWorld.tizenrobloxDir ≠ [] ∨
          launchState.tree.isDirectory world.cwd (.ofBytes tpkDir) = false) ∧
        (detectInstallDir world launchState ++ bytes "/data/.tizenroblox_creds").length ≤ 511 := by
  have hchecked : diagnoseCredsFile setupWorld.tizenrobloxDir =
      setupInstallDir setupWorld ++ bytes "/data/.tizenroblox_creds" := rfl
  rw [hchecked, ← detectInstallDir_eq_iff hdir]
  by_cases hsame : detectInstallDir world launchState = setupInstallDir setupWorld
  · rw [hsame, ofBytes_credPath_iff]
    simp
  · -- nothing is set and there is a package: both names are fixed ones
    have hpackage := mt (detectInstallDir_eq_iff hdir).mpr hsame
    simp only [not_or, not_not, Bool.not_eq_false] at hpackage
    have hlauncher : detectInstallDir world launchState = tpkDir := by
      simp [detectInstallDir, hdir, hpackage]
    have hothers : setupInstallDir setupWorld = bytes "/opt/tizenroblox" := by
      simp [setupInstallDir, hpackage]
    have hapart : Pathname.ofBytes (bytes "/opt/tizenroblox" ++ bytes "/data/.tizenroblox_creds") ≠
        Pathname.ofBytes (credPath (some (soberHome tpkDir))) := by
      decide
    rw [hlauncher, hothers]
    exact iff_of_false hapart fun hboth => hsame (by rw [hlauncher, hothers, hboth.1])

/-- What setup has written on the TV, what the diagnosis checks and what the stub
opens in the Sober of a launcher, all three with the same `TIZENROBLOX_DIR`, are
one file exactly where that is set or there is no package, the name of the file
fits the buffer of the stub and, if setup was run on the TV, it was run with the
data directory for its home. -/
theorem agreement_iff (hran : SetupRan setupWorld disk tvDisk state)
    (hwritten : written ∈ writtenOnTv state place) (hfresh : launchState.trace = [])
    (hdir : launchState.get "TIZENROBLOX_DIR" = setupWorld.tizenrobloxDir)
    {program arguments : Bytes} {vars : String → Option Bytes}
    (hstarted : .startedSober program arguments vars ∈ (launch world launchState).trace) :
    Agree written (diagnoseCredsFile setupWorld.tizenrobloxDir) (credPath (vars "HOME")) ↔
      (setupWorld.tizenrobloxDir ≠ [] ∨
          launchState.tree.isDirectory world.cwd (.ofBytes tpkDir) = false) ∧
        (detectInstallDir world launchState ++ bytes "/data/.tizenroblox_creds").length ≤ 511 ∧
        (place = .onTv → Pathname.ofBytes setupWorld.home =
          Pathname.ofBytes (setupInstallDir setupWorld ++ bytes "/data")) := by
  have hhere : Pathname.ofBytes written =
      Pathname.ofBytes (diagnoseCredsFile setupWorld.tizenrobloxDir) ↔
        (place = .onTv → Pathname.ofBytes setupWorld.home =
          Pathname.ofBytes (setupInstallDir setupWorld ++ bytes "/data")) := by
    have hchecked : diagnoseCredsFile setupWorld.tizenrobloxDir =
        setupInstallDir setupWorld ++ bytes "/data/.tizenroblox_creds" := rfl
    have hcreds := writesCreds_of_ran setupWorld hran
    rw [hchecked]
    cases place with
    | onTv =>
        rw [hcreds.1 written hwritten, credsFile, ofBytes_homeFile_iff]
        simp
    | onHost =>
        rw [hcreds.2 written hwritten, tvCredsFile, tvHome, List.append_assoc]
        simp
        rfl
  rw [sober_home world hfresh hstarted, Agree, hhere, checked_eq_opened_iff hdir]
  tauto

/-- Where the launcher reaches Sober, it has started it somehow. -/
private theorem startedSober_of_reaches (hreaches : ReachesSober world launchState) :
    ∃ program arguments vars,
      .startedSober program arguments vars ∈ (launch world launchState).trace := by
  have hcount : 0 < (launch world launchState).trace.countP Event.isSober :=
    Nat.lt_of_le_of_lt (Nat.zero_le _) hreaches
  obtain ⟨event, hmem, hsober⟩ := List.countP_pos_iff.mp hcount
  cases event with
  | startedSober program arguments vars => exact ⟨program, arguments, vars, hmem⟩
  | said line => cases hsober
  | startedMapper => cases hsober
  | terminated pid => cases hsober

end Agreement

/-- A user on another machine who types in a token and lets it be copied to the
TV. -/
def copyWorld : SetupWorld where
  home := bytes "/home/user"
  tizenrobloxDir := []
  umask := 0o022#9
  secretTool := false
  applicationSecret := none
  schemaSecret := none
  hasCredentials := false
  firstCred := none
  tokenLine := some (bytes "abc")
  tvLine := some (bytes "10.0.0.2")
  writeOk := true
  chmodOk := true
  sshOk := true
  scpOk := true
  tvUmask := 0o022#9

/-- The state after that setup. -/
def copiedState : SetupState :=
  (setup copyWorld true (setupStart (fun _ => none) fun _ => none)).state

/-- The TV with every library, where the installation is the package. -/
def packagedTv : State :=
  let place (parts : Path) : Path :=
    [bytes "opt", bytes "usr", bytes "apps", bytes "org.tizenroblox.app"] ++ parts
  .initial ⟨[([bytes "opt"], .dir), ([bytes "opt", bytes "usr"], .dir),
      ([bytes "opt", bytes "usr", bytes "apps"], .dir), (place [], .dir),
      (place [bytes "bin"], .dir), (place [bytes "lib"], .dir),
      (place [bytes "bin", bytes "sober"], .file [])] ++ systemLibraries⟩
    (fun _ => none) 0 []

private theorem launchable_packagedTv : Launchable quietWorld packagedTv where
  mkdirs _ := rfl
  redirections _ _ := rfl
  log _ := rfl
  sober := by decide
  alone _ _ := rfl

/-- With the package installed, the file that was copied is not the one the stub
opens. -/
theorem not_agree_packagedTv :
    bytes "/opt/tizenroblox/data/.tizenroblox_creds" ∈ writtenOnTv copiedState .onHost ∧
      ∃ program arguments vars,
        .startedSober program arguments vars ∈ (launch quietWorld packagedTv).trace ∧
          ¬ Agree (bytes "/opt/tizenroblox/data/.tizenroblox_creds")
            (diagnoseCredsFile copyWorld.tizenrobloxDir) (credPath (vars "HOME")) := by
  refine ⟨by decide, ?_⟩
  obtain ⟨program, arguments, vars, hstarted⟩ := startedSober_of_reaches
    ((reachesSober_iff_findsAll launchable_packagedTv).mpr (by decide))
  refine ⟨program, arguments, vars, hstarted, fun hagree => ?_⟩
  rw [sober_home quietWorld rfl hstarted] at hagree
  revert hagree
  unfold Agree
  decide

/-- With a manual installation it is. -/
theorem agree_fullTv :
    ∃ program arguments vars,
      .startedSober program arguments vars ∈ (launch quietWorld fullTv).trace ∧
        Agree (bytes "/opt/tizenroblox/data/.tizenroblox_creds")
          (diagnoseCredsFile copyWorld.tizenrobloxDir) (credPath (vars "HOME")) := by
  obtain ⟨program, arguments, vars, hstarted⟩ := startedSober_of_reaches
    ((reachesSober_iff_findsAll launchable_fullTv).mpr (by decide))
  refine ⟨program, arguments, vars, hstarted, ?_⟩
  have hran : SetupRan copyWorld (fun _ => none) (fun _ => none) copiedState := rfl
  have hwritten : bytes "/opt/tizenroblox/data/.tizenroblox_creds" ∈
      writtenOnTv copiedState .onHost := by
    decide
  exact (agreement_iff hran hwritten rfl rfl hstarted).mpr
    ⟨Or.inr (by decide), by decide, nofun⟩

end TizenRoblox.Credentials
