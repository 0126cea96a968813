/-
# The environment Sober is started in

Most of the script neither starts Sober nor touches its home: it logs, tests and
rearranges files, and assigns other variables. A property that all this leaves
alone is *inert*, and every stage but one preserves every inert property,
whatever becomes of the script. The one stage sets the home directory, so a
Sober that is started at all has the data directory of the installation for its
home (`sober_home`).
-/

import TizenRoblox.Launcher.Script

namespace TizenRoblox.Launcher

open TizenRoblox.Foundation TizenRoblox.Posix TizenRoblox.Shell TizenRoblox.Shell.Command

/-- The variables that are not to be assigned unnoticed: the home and the session bus. -/
def guarded : List String := ["HOME", "DBUS_SESSION_BUS_ADDRESS", "DBUS_SESSION_BUS_PID"]

/-- What a property of states has to ignore to be left alone by the stages that only log,
rearrange files and assign variables. -/
structure Plain (property : State → Prop) : Prop where
  said : ∀ line taken state, property state → property (state.record (.said line taken))
  setTree : ∀ tree state, property state → property (state.setTree tree)
  setVariable : ∀ name value state, name ∉ guarded → property state →
    property (state.setVariable name value)

/-- What a property of states has to ignore. -/
structure Inert (property : State → Prop) : Prop where
  record : ∀ event state, event.isSober = false → property state → property (state.record event)
  setTree : ∀ tree state, property state → property (state.setTree tree)
  setVariable : ∀ name value state, name ≠ "HOME" → property state →
    property (state.setVariable name value)
  trap : ∀ state, property state → property { state with trapped := true }

section Elementary

variable (world : World) {property : State → Prop}

theorem Inert.plain (hinert : Inert property) : Plain property where
  said line taken state hstate := hinert.record (.said line taken) state rfl hstate
  setTree := hinert.setTree
  setVariable name value state hname hstate :=
    hinert.setVariable name value state (fun heq => hname (by simp [guarded, heq])) hstate

theorem Plain.say (hplain : Plain property) (line : State → Bytes) :
    Preserves property (say world line) :=
  preserves_say line hplain.said

theorem Plain.echo (hplain : Plain property) (line : Bytes) :
    Preserves property (echo world line) :=
  hplain.say world fun _ => line

theorem Plain.assign (hplain : Plain property) (name : String) (value : State → Bytes)
    (hname : name ∉ guarded) : Preserves property (assign name value) :=
  preserves_act fun state hstate => hplain.setVariable name _ state hname hstate

theorem Plain.mkdirP (hplain : Plain property) (directory : Bytes) :
    Preserves property (mkdirP world directory) :=
  preserves_simple fun state hstate => hplain.setTree _ state hstate

/-- A command that may replace the tree. -/
private theorem Plain.treeCommand (hplain : Plain property) (run : Tree → Option Tree) :
    Preserves property (.attempt fun state => (run state.tree).map fun tree =>
      state.setTree tree) := by
  apply preserves_attempt
  intro state next hstate hnext
  obtain ⟨tree, _, rfl⟩ := Option.map_eq_some_iff.mp hnext
  exact hplain.setTree tree state hstate

theorem Plain.lnSf (hplain : Plain property) (source target : Bytes) :
    Preserves property (lnSf world source target) :=
  hplain.treeCommand fun tree => linkedTree world source target tree

theorem Plain.mvF (hplain : Plain property) (source target : Bytes) :
    Preserves property (mvF world source target) :=
  hplain.treeCommand fun tree => tree.mvF world.cwd (.ofBytes source) (.ofBytes target)

theorem Plain.rmF (hplain : Plain property) (file : Bytes) :
    Preserves property (rmF world file) :=
  hplain.treeCommand fun tree => tree.rmF world.cwd (.ofBytes file)

theorem Plain.written (hplain : Plain property) (file data : Bytes) (state : State)
    (hstate : property state) : property (written world file data state) := by
  unfold Launcher.written
  split
  · split
    · exact hplain.setTree _ state hstate
    · exact hstate
  · exact hstate

theorem Plain.writeTo (hplain : Plain property) (file data : Bytes) :
    Preserves property (writeTo world file data) :=
  preserves_simple fun state hstate => hplain.written world file data state hstate

theorem Plain.appendTo (hplain : Plain property) (file : Bytes) :
    Preserves property (appendTo world file) := by
  apply preserves_simple
  intro state hstate
  simp only [opened]
  split
  · exact hstate
  · exact hplain.written world file [] state hstate

theorem Plain.catInto (hplain : Plain property) (name : String) (file : Bytes)
    (hname : name ∉ guarded) : Preserves property (catInto world name file) := by
  apply preserves_attempt
  intro state next hstate hnext
  obtain ⟨data, _, rfl⟩ := Option.map_eq_some_iff.mp hnext
  exact hplain.setVariable name _ state hname hstate

theorem Inert.kill (hinert : Inert property) (pid : State → Bytes) :
    Preserves property (kill world pid) := by
  apply preserves_simple
  intro state hstate
  split
  · exact hinert.record _ state rfl hstate
  · exact hstate

end Elementary

/-! ## The stages -/

section Stages

variable (world : World) (installDir libDir : Bytes) {property : State → Prop}

theorem Plain.logging (hplain : Plain property) :
    Preserves property (logging world installDir) :=
  preserves_block ⟨hplain.mkdirP world _,
    preserves_ifThen (preserves_test.andThen preserves_test) (hplain.mvF world _ _).orTrue,
    hplain.appendTo world _, hplain.echo world _⟩

theorem Plain.elfInterpreter (hplain : Plain property) :
    Preserves property (elfInterpreter world) := by
  refine preserves_ifThen (preserves_test.negate.andThen preserves_test.negate) ?_
  apply preserves_forEach
  intro interp _
  refine preserves_ifThen preserves_test ?_
  exact preserves_block ⟨hplain.echo world _, hplain.mkdirP world _,
    (hplain.lnSf world _ _).orElse (hplain.echo world _), preserves_brk 1⟩

theorem Plain.soberCheck (hplain : Plain property) :
    Preserves property (soberCheck world installDir) := by
  refine preserves_ifThen preserves_test.negate ?_
  exact preserves_block ⟨hplain.echo world _, preserves_exit 1⟩

theorem Plain.instanceCheck (hplain : Plain property) :
    Preserves property (instanceCheck world) := by
  refine preserves_ifThen preserves_test ?_
  refine preserves_block ⟨hplain.catInto world _ _ (by decide), preserves_ifThen preserves_test
    (preserves_block ?_), hplain.rmF world _⟩
  exact ⟨hplain.say world _, preserves_exit 0⟩

theorem Plain.waylandEnvironment (hplain : Plain property) :
    Preserves property (waylandEnvironment world) := by
  have hsearch : Preserves property (waylandSearch world) := by
    apply preserves_forEach
    intro socket _ strict state
    refine preserves_forEach (fun dir _ => ?_) strict state
    refine preserves_ifThen preserves_test ?_
    exact preserves_block ⟨hplain.assign _ _ (by decide), hplain.assign _ _ (by decide),
      preserves_brk 2⟩
  refine preserves_block ⟨preserves_ifThen preserves_test hsearch, preserves_ifThen preserves_test
    (preserves_block ?_), hplain.assign _ _ (by decide), hplain.say world _, hplain.say world _⟩
  exact ⟨hplain.echo world _, hplain.assign _ _ (by decide)⟩

/-- What any lookup does with its candidates. -/
private theorem Plain.search (hplain : Plain property) (candidates : List Bytes)
    (line : Bytes → Bytes) (target : Bytes) {leave : Command State}
    (hleave : Preserves property leave) :
    Preserves property (.forEach candidates fun candidate =>
      .ifThen (testF world candidate) <| .block [
        Launcher.echo world (line candidate),
        .orTrue (Launcher.lnSf world candidate target),
        leave]) := by
  apply preserves_forEach
  intro candidate _
  refine preserves_ifThen preserves_test ?_
  exact preserves_block ⟨hplain.echo world _, (hplain.lnSf world _ _).orTrue, hleave⟩

theorem Plain.lookup (hplain : Plain property) (lookup : Lookup) :
    Preserves property (lookup.command world libDir) := by
  obtain ⟨manner, soname, candidates⟩ := lookup
  cases manner with
  | prefer =>
      apply preserves_call
      exact preserves_block ⟨hplain.search world _ _ _ (preserves_ret 0), hplain.echo world _,
        preserves_ret 1⟩
  | trySymlink =>
      apply preserves_call
      exact preserves_block
        ⟨preserves_ifThen (preserves_test.orElse preserves_test) (preserves_ret 0),
          hplain.search world _ _ _ (preserves_ret 0), hplain.echo world _, preserves_ret 1⟩
  | compat =>
      exact preserves_ifThen preserves_test.negate (hplain.search world _ _ _ (preserves_brk 1))

theorem Plain.lookupCommands (hplain : Plain property) (lookups : List Lookup) :
    Preserves property (lookupCommands world libDir lookups) := by
  apply preserves_block
  rw [List.forall_map_iff, List.forall_iff_forall_mem]
  exact fun lookup _ => hplain.lookup world libDir lookup

theorem Plain.resolveLibraries (hplain : Plain property) :
    Preserves property (resolveLibraries world installDir libDir) := by
  refine preserves_block ⟨hplain.lookupCommands world libDir _, preserves_forEach fun lib _ =>
    preserves_ifThen (preserves_test.negate.andThen preserves_test.negate) (hplain.echo world _),
    preserves_block ?_, hplain.lookupCommands world libDir _⟩
  exact ⟨hplain.assign _ _ (by decide), hplain.say world _⟩

theorem Plain.graphicsEnvironment (hplain : Plain property) :
    Preserves property (graphicsEnvironment world installDir) :=
  preserves_block ⟨hplain.assign _ _ (by decide), hplain.assign _ _ (by decide),
    hplain.assign _ _ (by decide), hplain.assign _ _ (by decide), hplain.assign _ _ (by decide),
    hplain.assign _ _ (by decide), hplain.mkdirP world _, hplain.assign _ _ (by decide),
    hplain.assign _ _ (by decide)⟩

theorem Plain.cpuPerformance (hplain : Plain property) :
    Preserves property (cpuPerformance world) :=
  preserves_block ⟨preserves_forEach fun _ _ => (hplain.writeTo world _ _).orTrue,
    preserves_ifThen preserves_test (hplain.writeTo world _ _).orTrue,
    hplain.assign _ _ (by decide), hplain.assign _ _ (by decide), hplain.assign _ _ (by decide),
    hplain.assign _ _ (by decide)⟩

theorem Plain.soberEnvironment (hplain : Plain property) :
    Preserves property (soberEnvironment installDir) :=
  preserves_block ⟨hplain.assign _ _ (by decide), hplain.assign _ _ (by decide),
    hplain.assign _ _ (by decide), hplain.assign _ _ (by decide)⟩

theorem Plain.uinputModule (hplain : Plain property) :
    Preserves property (uinputModule world) := by
  refine preserves_ifThen preserves_test.negate ?_
  refine preserves_block ⟨Preserves.orTrue (preserves_simple fun state hstate => ?_),
    preserves_ifElse preserves_test.negate (preserves_block ?_) (hplain.echo world _)⟩
  · cases world.modprobeOk
    · exact hstate
    · exact hplain.setTree _ state hstate
  · exact ⟨hplain.echo world _, hplain.echo world _⟩

/-- Of all preparations only one assigns a guarded variable. -/
theorem Plain.preparation (hplain : Plain property)
    (hhome : ∀ value state, property state → property (state.setVariable "HOME" value)) :
    Preserves property (preparation world installDir) := by
  refine preserves_block ⟨(hplain.logging world installDir).seq (hplain.elfInterpreter world),
    hplain.soberCheck world installDir, hplain.instanceCheck world,
    hplain.waylandEnvironment world, preserves_block ?_⟩
  exact ⟨hplain.mkdirP world _, hplain.mkdirP world _, hplain.mkdirP world _,
    preserves_act fun state hstate => hhome _ state hstate,
    hplain.assign _ _ (by decide), hplain.assign _ _ (by decide), hplain.assign _ _ (by decide)⟩

/-- The session bus is started only where none is announced. -/
theorem preserves_dbusSession
    (hbus : ∀ address pid, world.dbusLaunch = some (address, pid) → ∀ state, property state →
      state.get "DBUS_SESSION_BUS_ADDRESS" = [] →
      property ((state.setVariable "DBUS_SESSION_BUS_ADDRESS" address).setVariable
        "DBUS_SESSION_BUS_PID" pid)) :
    Preserves property (dbusSession world) := by
  intro strict state hstate
  simp only [dbusSession, ifThen, ifElse, test_tested]
  by_cases haddress : state.get "DBUS_SESSION_BUS_ADDRESS" = []
  · cases hlaunch : world.dbusLaunch with
    | none => simpa [haddress, hlaunch, Outcome.state] using hstate
    | some launched =>
        have hstarted := hbus launched.1 launched.2 hlaunch state hstate haddress
        simpa [haddress, hlaunch, orTrue, orElse, evalDbusLaunch, Outcome.state] using hstarted
  · simpa [haddress, Outcome.state] using hstate

theorem Inert.dbusSession (hinert : Inert property) : Preserves property (dbusSession world) :=
  preserves_dbusSession world fun _ _ _ _ hstate _ =>
    hinert.setVariable _ _ _ (by decide) (hinert.setVariable _ _ _ (by decide) hstate)

theorem Inert.startInputMapper (hinert : Inert property) :
    Preserves property (startInputMapper world installDir) := by
  refine preserves_ifElse preserves_test ?_ (hinert.plain.echo world _)
  exact preserves_block ⟨hinert.plain.echo world _,
    preserves_act fun state hstate => hinert.record _ state rfl hstate,
    hinert.plain.assign _ _ (by decide), hinert.plain.writeTo world _ _, hinert.plain.echo world _⟩

theorem Inert.completion (hinert : Inert property) :
    Preserves property (completion world installDir) := by
  refine preserves_block ⟨hinert.plain.graphicsEnvironment world installDir,
    hinert.plain.cpuPerformance world, hinert.plain.soberEnvironment installDir,
    hinert.dbusSession world, hinert.plain.uinputModule world, preserves_act hinert.trap,
    hinert.startInputMapper world installDir, preserves_block ?_⟩
  exact ⟨hinert.plain.writeTo world _ _, hinert.plain.echo world _, hinert.plain.echo world _⟩

theorem Inert.cleanup (hinert : Inert property) : Preserves property (cleanup world) := by
  refine preserves_block ⟨hinert.plain.echo world _,
    preserves_ifThen preserves_test (preserves_block ?_), hinert.plain.rmF world _,
    preserves_ifThen preserves_test (hinert.kill world _).orTrue, hinert.plain.echo world _⟩
  exact ⟨hinert.plain.catInto world _ _ (by decide), (hinert.kill world _).orTrue,
    hinert.plain.rmF world _⟩

/-- What holds of the variables and the trace survives a turn of the recovery loop if it
survives the lines of the log and the start of Sober. -/
theorem preserves_recoveryTurn_of (holds : (String → Option Bytes) → List Event → Prop)
    {soberBin : Bytes}
    (hsaid : ∀ line taken vars trace, holds vars trace → holds vars (trace ++ [.said line taken]))
    (hstarted : ∀ vars trace, holds vars trace →
      holds vars (trace ++ [.startedSober soberBin ((vars "SOBER_ARGS").getD []) vars])) :
    Preserves (fun state : State => holds state.vars state.trace)
      (recoveryTurn world soberBin) := by
  have hline (line : State → Bytes) :
      Preserves (fun state : State => holds state.vars state.trace) (say world line) :=
    preserves_simple fun _ hstate => hsaid _ _ _ _ hstate
  refine preserves_block ⟨fun strict state hstate => ?_, preserves_act fun _ hstate => hstate, ?_,
    hline _, ?_, ?_, hline _, preserves_skip⟩
  · cases hruns : state.runs with
    | nil =>
        rw [runSober_of_nil soberBin strict state hruns]
        exact hstarted _ _ hstate
    | cons run rest =>
        rw [runSober_of_cons soberBin strict state hruns]
        split
        · exact hstarted _ _ hstate
        · exact hstarted _ _ hstate
  · refine preserves_ifThen ((preserves_test.orElse preserves_test).orElse preserves_test) ?_
    exact preserves_block ⟨hline _, preserves_brk 1⟩
  · intro strict state hstate
    rw [countCrash_eq]
    exact hstate
  · refine preserves_ifThen preserves_test ?_
    exact preserves_block ⟨hline _, preserves_brk 1⟩

end Stages

/-! ## The home of Sober -/

section Home

variable (world : World) (home : Bytes)

/-- A Sober that was started had this home. -/
def Event.AtHome : Event → Prop
  | .startedSober _ _ vars => vars "HOME" = some home
  | _ => True

/-- Every Sober started so far had this home, and if `set` the next one will. -/
def SoberAtHome (set : Bool) (state : State) : Prop :=
  (set = true → state.vars "HOME" = some home) ∧ ∀ event ∈ state.trace, event.AtHome home

theorem inert_soberAtHome (set : Bool) : Inert (SoberAtHome home set) where
  record event state hevent hstate := by
    refine ⟨hstate.1, fun other hother => ?_⟩
    rcases List.mem_append.mp hother with hold | hnew
    · exact hstate.2 other hold
    · obtain rfl : other = event := by simpa using hnew
      cases other with
      | startedSober program arguments vars => simp [Event.isSober] at hevent
      | said line taken => trivial
      | startedMapper => trivial
      | terminated pid => trivial
  setTree tree state hstate := hstate
  setVariable name value state hname hstate := by
    refine ⟨fun hset => ?_, hstate.2⟩
    have hkept : (state.setVariable name value).vars "HOME" = state.vars "HOME" :=
      Function.update_of_ne (Ne.symm hname) _ _
    rw [hkept]
    exact hstate.1 hset
  trap state hstate := hstate

/-- A Sober that is started has the home the variable says. -/
theorem preserves_recoveryTurn (soberBin : Bytes) :
    Preserves (SoberAtHome home true) (recoveryTurn world soberBin) := by
  refine preserves_recoveryTurn_of world (fun vars trace =>
    (true = true → vars "HOME" = some home) ∧ ∀ event ∈ trace, event.AtHome home) ?_ ?_
  · intro line taken vars trace hholds
    exact ⟨hholds.1, List.forall_mem_append.mpr
      ⟨hholds.2, List.forall_mem_singleton.mpr trivial⟩⟩
  · intro vars trace hholds
    exact ⟨hholds.1, List.forall_mem_append.mpr
      ⟨hholds.2, List.forall_mem_singleton.mpr (hholds.1 rfl)⟩⟩

theorem preserves_crashRecovery (soberBin : Bytes) (arguments : List Bytes) :
    Preserves (SoberAtHome home true) (crashRecovery world soberBin arguments) :=
  preserves_block ⟨(inert_soberAtHome home true).plain.assign _ _ (by decide),
    preserves_act fun _ hstate => hstate,
    fun strict state hstate => preserves_whileDo preserves_test
      (preserves_recoveryTurn world home soberBin) _ strict state hstate⟩

end Home

section Launch

variable (world : World) (installDir : Bytes)

/-- The home directories are assigned last of all preparations. -/
theorem establishes_preparation :
    Establishes (fun state => state.vars "HOME" = some (soberHome installDir))
      (preparation world installDir) := by
  have hassigned : Establishes (fun state => state.vars "HOME" = some (soberHome installDir))
      (homeDirectories world installDir) := by
    apply Establishes.seq
    apply Establishes.seq
    apply Establishes.seq
    intro strict source status target houtcome
    simp only [block, seq, assign, act_eq, Outcome.done.injEq] at houtcome
    rw [← houtcome.2]
    simp [State.setVariable, Function.update_of_ne]
  exact hassigned.seq.seq.seq.seq

theorem preserves_preparation (home : Bytes) :
    Preserves (SoberAtHome home false) (preparation world installDir) :=
  (inert_soberAtHome home false).plain.preparation world installDir
    fun _ _ hstate => ⟨nofun, hstate.2⟩

/-- Sober's home is the data directory of the installation. -/
theorem preserves_launchBody (strict : Bool) {state : State}
    (hstate : SoberAtHome (soberHome installDir) false state) :
    SoberAtHome (soberHome installDir) false
      (launchBody world installDir strict state).state := by
  have hprepared :=
    preserves_preparation world installDir (soberHome installDir) strict state hstate
  have hassigned := establishes_preparation world installDir strict state
  have hinert := inert_soberAtHome (soberHome installDir) true
  have hrest : Preserves (SoberAtHome (soberHome installDir) true) (block [
      resolveLibraries world installDir (libDirOf installDir),
      completion world installDir,
      crashRecovery world (soberBin installDir) world.arguments]) := by
    exact preserves_block ⟨hinert.plain.resolveLibraries world installDir _,
      hinert.completion world installDir, preserves_crashRecovery world _ _ _⟩
  simp only [launchBody, block, seq] at hrest ⊢
  cases houtcome : preparation world installDir strict state with
  | done status next =>
      rw [houtcome] at hprepared
      have hnext := hrest strict next ⟨fun _ => hassigned _ _ houtcome, hprepared.2⟩
      exact ⟨by simp, hnext.2⟩
  | returned status next => rw [houtcome] at hprepared; exact hprepared
  | broken levels next => rw [houtcome] at hprepared; exact hprepared
  | exited status next => rw [houtcome] at hprepared; exact hprepared
  | blocked next => rw [houtcome] at hprepared; exact hprepared

/-- Every Sober that a launcher starts has the data directory of the installation
for its home. -/
theorem sober_home {state : State} (hfresh : state.trace = []) {program arguments : Bytes}
    {vars : String → Option Bytes}
    (hstarted : .startedSober program arguments vars ∈ (launch world state).trace) :
    vars "HOME" = some (soberHome (detectInstallDir world state)) := by
  have hbody := preserves_launchBody world (detectInstallDir world state) true
    (show SoberAtHome _ false state from ⟨nofun, by simp [hfresh]⟩)
  have hlaunch : SoberAtHome (soberHome (detectInstallDir world state)) false
      (launch world state) := by
    unfold launch
    split
    · next hblocked =>
        rw [hblocked] at hbody
        exact hbody
    · split
      · exact (inert_soberAtHome _ false).cleanup world true _ hbody
      · exact hbody
  exact hlaunch.2 _ hstarted

end Launch

end TizenRoblox.Launcher
