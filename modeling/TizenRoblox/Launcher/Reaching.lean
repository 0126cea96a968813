/-
# Whether the launcher starts Sober

Everything before and after the resolution of the libraries lets the script go on
as long as directories can be made, files opened and lines logged
(`preparation_passes`, `keeps_completion`). The resolution does so only where every lookup finds its
library: the helpers answer a missing library with a warning and `return 1`, and
under `set -e` that ends the script. So whether a launcher reaches Sober is
decided by the tree in which the resolution starts.
-/

import TizenRoblox.Launcher.Environment

namespace TizenRoblox.Launcher

open TizenRoblox.Foundation TizenRoblox.Posix TizenRoblox.Shell TizenRoblox.Shell.Command

/-- Sober has been started so many times. -/
def Started (starts : ℕ) (state : State) : Prop := state.soberStarts = starts

theorem inert_started (starts : ℕ) : Inert (Started starts) where
  record event state hevent hstate := by
    simpa [Started, State.record_soberStarts, hevent] using hstate
  setTree _ _ hstate := hstate
  setVariable _ _ _ _ hstate := hstate
  trap _ hstate := hstate

section Elementary

variable (world : World) {levels starts : ℕ}

theorem keeps_line (hlog : ∀ trace, world.logOk trace = true) (line : State → Bytes) :
    Keeps levels (Started starts) (say world line) :=
  keeps_say world hlog fun _ hstate => by simpa [Started] using hstate

theorem keeps_said (hlog : ∀ trace, world.logOk trace = true) (line : Bytes) :
    Keeps levels (Started starts) (echo world line) :=
  keeps_line world hlog fun _ => line

theorem keeps_assigned (name : String) (value : State → Bytes) :
    Keeps levels (Started starts) (assign name value) :=
  keeps_act fun _ hstate => by simpa [Started] using hstate

theorem keeps_mkdirP {directory : Bytes} (hmkdir : world.mkdirOk directory = true) :
    Keeps levels (Started starts) (mkdirP world directory) := by
  intro strict state hstate
  simpa [mkdirP, simple, hmkdir, Outcome.Within, Started] using hstate

theorem keepsIn_lnSf (source target : Bytes) :
    KeepsIn false levels (Started starts) (lnSf world source target) := by
  apply keepsIn_attempt
  intro state next hstate hnext
  obtain ⟨tree, _, rfl⟩ := Option.map_eq_some_iff.mp hnext
  exact hstate

theorem keepsIn_mvF (source target : Bytes) :
    KeepsIn false levels (Started starts) (mvF world source target) := by
  apply keepsIn_attempt
  intro state next hstate hnext
  obtain ⟨tree, _, rfl⟩ := Option.map_eq_some_iff.mp hnext
  exact hstate

theorem keeps_writeTo {file : Bytes} (data : Bytes) (hopen : world.openOk file = true) :
    Keeps levels (Started starts) (writeTo world file data) := by
  intro strict state hstate
  simpa [writeTo, simple, hopen, Outcome.Within, Started] using hstate

theorem keepsIn_writeTo (file data : Bytes) :
    KeepsIn false levels (Started starts) (writeTo world file data) :=
  keepsIn_simple fun _ hstate => by simpa [Started] using hstate

theorem keeps_appendTo {file : Bytes} (hopen : world.openOk file = true) :
    Keeps levels (Started starts) (appendTo world file) := by
  intro strict state hstate
  simpa [appendTo, simple, hopen, Outcome.Within, Started] using hstate

end Elementary

/-! ## The stages before the resolution -/

section Preparation

variable (world : World) (installDir : Bytes)

theorem keeps_logging {levels starts : ℕ}
    (hmkdir : world.mkdirOk (installDir ++ bytes "/logs") = true)
    (hopen : world.openOk (logFile installDir) = true)
    (hlog : ∀ trace, world.logOk trace = true) :
    Keeps levels (Started starts) (logging world installDir) :=
  keeps_block ⟨keeps_mkdirP world hmkdir,
    keeps_ifThen (keepsIn_test.andThen keepsIn_test) (keeps_orTrue (keepsIn_mvF world _ _)),
    keeps_appendTo world hopen, keeps_said world hlog _⟩

theorem keeps_elfInterpreter {levels starts : ℕ} (hmkdir : world.mkdirOk (bytes "/lib") = true)
    (hlog : ∀ trace, world.logOk trace = true) :
    Keeps levels (Started starts) (elfInterpreter world) := by
  apply keeps_ifThen (keepsIn_test.negate.andThen keepsIn_test.negate)
  apply keeps_forEach
  intro interp _
  apply keeps_ifThen keepsIn_test
  exact keeps_block ⟨keeps_said world hlog _, keeps_mkdirP world hmkdir,
    fun strict => (keepsIn_lnSf world _ _).orElse (keeps_said world hlog _ strict),
    keeps_brk (le_refl 1) (by omega)⟩

theorem keeps_waylandSearch {levels starts : ℕ} :
    Keeps levels (Started starts) (waylandSearch world) := by
  apply keeps_forEach
  intro socket _ strict state
  refine keeps_forEach (fun dir _ => ?_) strict state
  apply keeps_ifThen keepsIn_test
  exact keeps_block ⟨keeps_assigned _ _, keeps_assigned _ _, keeps_brk (by omega) (by omega)⟩

theorem keeps_waylandEnvironment {levels starts : ℕ}
    (hlog : ∀ trace, world.logOk trace = true) :
    Keeps levels (Started starts) (waylandEnvironment world) := by
  refine keeps_block ⟨keeps_ifThen keepsIn_test (keeps_waylandSearch world),
    keeps_ifThen keepsIn_test (keeps_block ?_), keeps_assigned _ _, keeps_line world hlog _,
    keeps_line world hlog _⟩
  exact ⟨keeps_said world hlog _, keeps_assigned _ _⟩

theorem keeps_homeDirectories {levels starts : ℕ}
    (hmkdir : ∀ directory, world.mkdirOk directory = true) :
    Keeps levels (Started starts) (homeDirectories world installDir) :=
  keeps_block ⟨keeps_mkdirP world (hmkdir _), keeps_mkdirP world (hmkdir _),
    keeps_mkdirP world (hmkdir _), keeps_assigned _ _, keeps_assigned _ _, keeps_assigned _ _,
    keeps_assigned _ _⟩

/-- The state in which the script looks for Sober and for another launcher. -/
def checkState (state : State) : State := (opening world installDir true state).state

/-- The state in which the resolution of the libraries starts. -/
def resolutionState (state : State) : State := (preparation world installDir true state).state

variable {world} {installDir} {state : State}

theorem Passes.state_eq {command : Command State} {strict : Bool} {source target : State}
    (hpasses : Passes command strict source target) : (command strict source).state = target := by
  obtain ⟨status, hstatus⟩ := hpasses
  rw [hstatus]
  rfl

theorem opening_passes (state : State) (hmkdir : ∀ directory, world.mkdirOk directory = true)
    (hopen : world.openOk (logFile installDir) = true)
    (hlog : ∀ trace, world.logOk trace = true) :
    Passes (opening world installDir) true state (checkState world installDir state) ∧
      (checkState world installDir state).soberStarts = state.soberStarts := by
  have hkeeps : KeepsIn true 0 (Started state.soberStarts) (opening world installDir) :=
    (keeps_logging world installDir (hmkdir _) hopen hlog true).seq
      (keeps_elfInterpreter world (hmkdir _) hlog true)
  obtain ⟨next, hstarts, hpasses⟩ := hkeeps.passes state rfl
  obtain rfl := Passes.state_eq hpasses
  exact ⟨hpasses, hstarts⟩

theorem soberCheck_passes
    (hsober : state.tree.isFile world.cwd (.ofBytes (soberBin installDir)) = true) :
    Passes (soberCheck world installDir) true state state :=
  ⟨0, by simp [soberCheck, ifThen, ifElse, negate, testF, fileTest, hsober]⟩

/-- The check does nothing without a PID file, ends the script if a live process owns
the file, and removes it otherwise. -/
theorem instanceCheck_eq (world : World) (state : State) :
    instanceCheck world true state =
      match state.tree.contents world.cwd (.ofBytes pidFile) with
      | none => .done 0 state
      | some data =>
          let owner := commandSubstitution data
          let read := state.setVariable "OLD_PID" owner
          if world.alive owner then
            .exited (if world.logOk state.trace then 0 else 1) (read.say world
              (bytes "TizenRoblox already running (PID " ++ owner ++ bytes ")"))
          else
            .done 0 (read.setTree
              ((state.tree.rmF world.cwd (.ofBytes pidFile)).getD state.tree)) := by
  have hfile := state.tree.isFile_eq_isSome_contents world.cwd (.ofBytes pidFile)
  cases hdata : state.tree.contents world.cwd (.ofBytes pidFile) with
  | none =>
      rw [hdata] at hfile
      simp [instanceCheck, ifThen, ifElse, testF, fileTest, hfile]
  | some data =>
      rw [hdata] at hfile
      obtain ⟨tree, htree⟩ := Tree.rmF_of_isFile hfile
      have hcat : catInto world "OLD_PID" pidFile true state =
          .done 0 (state.setVariable "OLD_PID" (commandSubstitution data)) :=
        attempt_eq_done (by simp [hdata]) true
      have howner : (state.setVariable "OLD_PID" (commandSubstitution data)).get "OLD_PID" =
          commandSubstitution data := by
        simp [State.get, State.setVariable]
      have hremove : rmF world pidFile true
          (state.setVariable "OLD_PID" (commandSubstitution data)) =
            .done 0 ((state.setVariable "OLD_PID" (commandSubstitution data)).setTree tree) :=
        attempt_eq_done (by simp [htree]) true
      cases halive : world.alive (commandSubstitution data) with
      | true =>
          cases hlog : world.logOk state.trace <;>
            simp [instanceCheck, ifThen, ifElse, testF, fileTest, hfile, block, seq, hcat, howner,
              halive, exit, say, simple, hlog]
      | false =>
          simp [instanceCheck, ifThen, ifElse, testF, fileTest, hfile, block, seq, hcat, howner,
            halive, hremove, htree]

/-- A file that names no live process is removed, and the script goes on. -/
theorem instanceCheck_passes
    (hdead : ∀ data, state.tree.contents world.cwd (.ofBytes pidFile) = some data →
      world.alive (commandSubstitution data) = false) :
    ∃ next, Passes (instanceCheck world) true state next ∧
      next.soberStarts = state.soberStarts := by
  have hcheck := instanceCheck_eq world state
  cases hdata : state.tree.contents world.cwd (.ofBytes pidFile) with
  | none =>
      rw [hdata] at hcheck
      exact ⟨state, ⟨0, hcheck⟩, rfl⟩
  | some data =>
      rw [hdata] at hcheck
      simp only [hdead data hdata, Bool.false_eq_true, if_false] at hcheck
      exact ⟨_, ⟨0, hcheck⟩, rfl⟩

/-- The preparation passes where Sober is installed and no launcher is running. -/
theorem preparation_passes (hmkdir : ∀ directory, world.mkdirOk directory = true)
    (hopen : world.openOk (logFile installDir) = true)
    (hlog : ∀ trace, world.logOk trace = true)
    (hsober : (checkState world installDir state).tree.isFile world.cwd
      (.ofBytes (soberBin installDir)) = true)
    (hdead : ∀ data, (checkState world installDir state).tree.contents world.cwd
      (.ofBytes pidFile) = some data → world.alive (commandSubstitution data) = false) :
    Passes (preparation world installDir) true state (resolutionState world installDir state) ∧
      (resolutionState world installDir state).soberStarts = state.soberStarts := by
  obtain ⟨hopening, hopeningStarts⟩ := opening_passes state hmkdir hopen hlog
  obtain ⟨checked, hchecked, hcheckedStarts⟩ := instanceCheck_passes hdead
  have hkeeps : KeepsIn true 0 (Started state.soberStarts)
      (seq (waylandEnvironment world) (homeDirectories world installDir)) :=
    (keeps_waylandEnvironment world hlog true).seq
      (keeps_homeDirectories world installDir hmkdir true)
  obtain ⟨next, hstarts, hlast⟩ := hkeeps.passes checked
    (hcheckedStarts.trans hopeningStarts)
  have hpasses : Passes (preparation world installDir) true state next :=
    hopening.seq ((soberCheck_passes hsober).seq (hchecked.seq hlast))
  obtain rfl := Passes.state_eq hpasses
  exact ⟨hpasses, hstarts⟩

end Preparation

/-! ## The stages after the resolution -/

section Completion

variable (world : World) (installDir : Bytes) {levels starts : ℕ}

theorem keeps_graphicsEnvironment (hmkdir : ∀ directory, world.mkdirOk directory = true) :
    Keeps levels (Started starts) (graphicsEnvironment world installDir) :=
  keeps_block ⟨keeps_assigned _ _, keeps_assigned _ _, keeps_assigned _ _, keeps_assigned _ _,
    keeps_assigned _ _, keeps_assigned _ _, keeps_mkdirP world (hmkdir _), keeps_assigned _ _,
    keeps_assigned _ _⟩

theorem keeps_cpuPerformance : Keeps levels (Started starts) (cpuPerformance world) :=
  keeps_block ⟨keeps_forEach fun _ _ => keeps_orTrue (keepsIn_writeTo world _ _),
    keeps_ifThen keepsIn_test (keeps_orTrue (keepsIn_writeTo world _ _)), keeps_assigned _ _,
    keeps_assigned _ _, keeps_assigned _ _, keeps_assigned _ _⟩

theorem keeps_soberEnvironment : Keeps levels (Started starts) (soberEnvironment installDir) :=
  keeps_block ⟨keeps_assigned _ _, keeps_assigned _ _, keeps_assigned _ _, keeps_assigned _ _⟩

theorem keeps_dbusSession : Keeps levels (Started starts) (dbusSession world) := by
  apply keeps_ifThen keepsIn_test
  apply keeps_ifThen keepsIn_test
  apply keeps_orTrue
  apply keeps_act
  intro state hstate
  cases world.dbusLaunch with
  | none => exact hstate
  | some launched => simpa [Started] using hstate

theorem keeps_uinputModule (hlog : ∀ trace, world.logOk trace = true) :
    Keeps levels (Started starts) (uinputModule world) := by
  apply keeps_ifThen keepsIn_test.negate
  refine keeps_block ⟨keeps_orTrue (keepsIn_simple fun state hstate => ?_),
    keeps_ifElse keepsIn_test.negate (keeps_block ?_) (keeps_said world hlog _)⟩
  · cases world.modprobeOk <;> simpa [Started] using hstate
  · exact ⟨keeps_said world hlog _, keeps_said world hlog _⟩

theorem keeps_startInputMapper (hopen : world.openOk inputPidFile = true)
    (hlog : ∀ trace, world.logOk trace = true) :
    Keeps levels (Started starts) (startInputMapper world installDir) := by
  apply keeps_ifElse keepsIn_test _ (keeps_said world hlog _)
  refine keeps_block ⟨keeps_said world hlog _, keeps_act fun state hstate => ?_,
    keeps_assigned _ _, keeps_writeTo world _ hopen, keeps_said world hlog _⟩
  simpa [Started, State.record_soberStarts, Event.isSober] using hstate

theorem keeps_announce (hopen : world.openOk pidFile = true)
    (hlog : ∀ trace, world.logOk trace = true) :
    Keeps levels (Started starts) (announce world installDir) :=
  keeps_block ⟨keeps_writeTo world _ hopen, keeps_said world hlog _, keeps_said world hlog _⟩

theorem keeps_completion (hmkdir : ∀ directory, world.mkdirOk directory = true)
    (hinput : world.openOk inputPidFile = true) (hpid : world.openOk pidFile = true)
    (hlog : ∀ trace, world.logOk trace = true) :
    Keeps levels (Started starts) (completion world installDir) :=
  keeps_block ⟨keeps_graphicsEnvironment world installDir hmkdir, keeps_cpuPerformance world,
    keeps_soberEnvironment installDir, keeps_dbusSession world,
    keeps_uinputModule world hlog, keeps_act fun _ hstate => hstate,
    keeps_startInputMapper world installDir hinput hlog,
    keeps_announce world installDir hpid hlog⟩

end Completion

/-! ## The whole script -/

section Launch

variable {world : World} {state : State}

/-- The trap starts no Sober: what counts is what the script itself has started. -/
theorem launch_soberStarts :
    (launch world state).soberStarts =
      (launchBody world (detectInstallDir world state) true state).state.soberStarts := by
  unfold launch
  split
  · rename_i hblocked
    rw [hblocked]
    rfl
  · split
    · exact (inert_started _).cleanup world true _ rfl
    · rfl

/-- The script reaches the command that starts Sober. -/
def ReachesSober (world : World) (state : State) : Prop :=
  state.soberStarts < (launch world state).soberStarts

/-- What the launcher may count on: directories can be made, its own files opened and
its log written, and when it looks, Sober is installed and no live process owns the
PID file. -/
structure Launchable (world : World) (state : State) : Prop where
  mkdirs : ∀ directory, world.mkdirOk directory = true
  redirections : ∀ file ∈ [logFile (detectInstallDir world state), inputPidFile, pidFile],
    world.openOk file = true
  log : ∀ trace, world.logOk trace = true
  sober : (checkState world (detectInstallDir world state) state).tree.isFile world.cwd
    (.ofBytes (soberBin (detectInstallDir world state))) = true
  alone : ∀ data, (checkState world (detectInstallDir world state) state).tree.contents world.cwd
    (.ofBytes pidFile) = some data → world.alive (commandSubstitution data) = false

/-- The tree in which the libraries are looked up. -/
def libraryTree (world : World) (state : State) : Tree :=
  (resolutionState world (detectInstallDir world state) state).tree

/-- The directory the libraries are linked in. -/
def libraryDir (world : World) (state : State) : Bytes :=
  libDirOf (detectInstallDir world state)

private theorem launchBody_soberStarts (hlaunchable : Launchable world state) :
    (launchBody world (detectInstallDir world state) true state).state.soberStarts =
      state.soberStarts +
        if findsAll world (libraryDir world state) launcherLookups (libraryTree world state)
        then 1 else 0 := by
  have hmkdir := hlaunchable.mkdirs
  have hopen := hlaunchable.redirections
  have hlog := hlaunchable.log
  simp only [List.forall_mem_cons, List.not_mem_nil, false_implies, implies_true, and_true]
    at hopen
  obtain ⟨hprepared, hstarts⟩ :=
    preparation_passes hmkdir hopen.1 hlog hlaunchable.sober hlaunchable.alone
  rw [launchBody, block_cons_of_passes _ (by simp) hprepared]
  cases hfinds : findsAll world (libraryDir world state) launcherLookups
      (libraryTree world state) with
  | false =>
      obtain ⟨next, hexits, hnext⟩ :=
        resolveLibraries_exits world (detectInstallDir world state)
          (libDirOf (detectInstallDir world state)) hlog hfinds
      rw [block_cons_of_exited _ hexits]
      simpa [Outcome.state, hstarts] using hnext
  | true =>
      obtain ⟨resolved, hresolved, hresolvedStarts⟩ :=
        resolveLibraries_passes world (detectInstallDir world state)
          (libDirOf (detectInstallDir world state)) hlog hfinds
      have hkeeps : KeepsIn true 0 (Started state.soberStarts)
          (completion world (detectInstallDir world state)) :=
        keeps_completion world _ hmkdir hopen.2.1 hopen.2.2 hlog true
      obtain ⟨ready, hready, hcompleted⟩ := hkeeps.passes resolved
        (hresolvedStarts.trans hstarts)
      rw [block_cons_of_passes _ (by simp) hresolved,
        block_cons_of_passes _ (by simp) hcompleted]
      simp only [block, crashRecovery_strict_starts, if_true]
      rw [show ready.soberStarts = state.soberStarts from hready]

theorem reachesSober_iff_findsAll (hlaunchable : Launchable world state) :
    ReachesSober world state ↔
      findsAll world (libraryDir world state) launcherLookups (libraryTree world state) = true := by
  rw [ReachesSober, launch_soberStarts, launchBody_soberStarts hlaunchable]
  cases findsAll world (libraryDir world state) launcherLookups (libraryTree world state) <;> simp

/-- The launcher reaches Sober exactly where each lookup finds its library among
what the TV has and the earlier lookups have linked. Where no lookup touches
what another one reads, this means that the TV has every library that is not in
`lib/` already. -/
theorem reachesSober_iff (hlaunchable : Launchable world state) :
    (ReachesSober world state ↔
        findsAll world (libraryDir world state) launcherLookups (libraryTree world state) = true) ∧
      (Undisturbed world (libraryDir world state) launcherLookups (libraryTree world state) →
        (ReachesSober world state ↔ ∀ lookup ∈ launcherLookups,
          lookup.found world (libraryDir world state) (libraryTree world state) = true)) := by
  have hiff := reachesSober_iff_findsAll hlaunchable
  refine ⟨hiff, fun hundisturbed => ?_⟩
  rw [hiff, findsAll_iff_of_undisturbed world (libraryDir world state) hundisturbed]

/-- The directories and the Sober of an installation, and nothing else. -/
def installed : List (Path × Node) := [
  ([bytes "opt"], .dir), ([bytes "opt", bytes "tizenroblox"], .dir),
  ([bytes "opt", bytes "tizenroblox", bytes "bin"], .dir),
  ([bytes "opt", bytes "tizenroblox", bytes "lib"], .dir),
  ([bytes "opt", bytes "tizenroblox", bytes "bin", bytes "sober"], .file [])]

/-- Every library the launcher looks for, in `/usr/lib`. -/
def systemLibraries : List (Path × Node) :=
  ([bytes "usr"], .dir) :: ([bytes "usr", bytes "lib"], .dir) ::
    launcherLookups.map fun lookup => ([bytes "usr", bytes "lib", lookup.soname], .file [])

/-- An installation on a TV that has none of the libraries. -/
def bareTv : State := .initial ⟨installed⟩ (fun _ => none) 0 []

/-- An installation on a TV that has them all. -/
def fullTv : State := .initial ⟨installed ++ systemLibraries⟩ (fun _ => none) 0 []

private theorem launchable_bareTv : Launchable quietWorld bareTv where
  mkdirs _ := rfl
  redirections _ _ := rfl
  log _ := rfl
  sober := by decide
  alone _ _ := rfl

theorem launchable_fullTv : Launchable quietWorld fullTv where
  mkdirs _ := rfl
  redirections _ _ := rfl
  log _ := rfl
  sober := by decide
  alone _ _ := rfl

/-- A missing library ends the script before Sober is started. -/
theorem not_reachesSober_bareTv :
    Launchable quietWorld bareTv ∧ ¬ ReachesSober quietWorld bareTv := by
  refine ⟨launchable_bareTv, fun hreaches => ?_⟩
  rw [reachesSober_iff_findsAll launchable_bareTv] at hreaches
  revert hreaches
  decide

theorem reachesSober_fullTv : ReachesSober quietWorld fullTv :=
  (reachesSober_iff launchable_fullTv).1.mpr (by decide)

end Launch

end TizenRoblox.Launcher
