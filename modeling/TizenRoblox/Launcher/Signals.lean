/-
# The launcher among signals

The part of `launch.sh` that follows its first trap, as a text with line numbers, and
the traps. A launcher sets its trap once everything else is prepared; from then on
signals reach it between any two commands, and `cleanup` runs when it exits, whatever
ended it. Run by itself the text is the part of the script that was modelled without
signals (`launchBody_eq`), so a launcher that no signal reaches does what `launch` says
(`launchAmong_quiet`).

Pauses matter here only as commands that signals can follow.
-/

import TizenRoblox.Launcher.Environment
import TizenRoblox.Shell.Traps

namespace TizenRoblox.Launcher

open TizenRoblox.Foundation TizenRoblox.Posix TizenRoblox.Shell TizenRoblox.Shell.Command

/-- The signals the launcher sets traps for. -/
inductive Signal
  | int
  | term
  | usr1
  deriving DecidableEq

/-- A text of the launcher. -/
abbrev Text := Program State Signal

/-! ## The texts -/

section Texts

variable (world : World) (installDir : Bytes)

def cleanupText : Text := .block [
  .command 329 (echo world shuttingDownLine),
  .ifThen (.command 330 (testF world inputPidFile)) <| .block [
    .command 331 (catInto world "INPUT_PID" inputPidFile),
    .orTrue 332 (.command 332 (kill world fun state => state.get "INPUT_PID")),
    .command 333 (rmF world inputPidFile)],
  .command 335 (rmF world pidFile),
  .ifThen (.command 336 (.test fun state => state.get "DBUS_SESSION_BUS_PID" ≠ [])) <|
    .orTrue 337 (.command 337 (kill world fun state => state.get "DBUS_SESSION_BUS_PID")),
  .command 339 (echo world stoppedLine)]

/-- `_sober_stopped` -/
def soberStopped : Text := .command 370 (.act fun state => { state with stopRestart := 1 })

/-- `trap cleanup EXIT INT TERM` and `trap '_sober_stopped' USR1` -/
def handler : Signal → Text
  | .int | .term => cleanupText world
  | .usr1 => soberStopped

def startInputMapperText : Text :=
  .ifElse (.command 343 (testF world (inputMapperBin installDir)))
    (.block [
      .command 344 (echo world (bytes "[launch] Starting Samsung TV input mapper...")),
      .command 345 (.act (State.record .startedMapper)),
      .command 346 (assign "INPUT_MAPPER_PID" fun _ => world.mapperPid),
      .command 347 (writeTo world inputPidFile (world.mapperPid ++ [newline])),
      .command 348 pause,
      .command 349 (echo world (bytes "[launch] Input mapper PID: " ++ world.mapperPid))])
    (.command 351 (echo world (bytes "WARNING: input_mapper not found at " ++
      inputMapperBin installDir ++ bytes " — gamepad won't work")))

def announceText : Text := .block [
  .command 355 (writeTo world pidFile (world.pid ++ [newline])),
  .command 356 (echo world (bytes "[launch] Launching Sober runtime...")),
  .command 357 (echo world (bytes "[launch] Binary: " ++ soberBin installDir))]

def stopIfCleanText : Text :=
  .ifThen (.orElse (.orElse (.command 379 (.test fun state => state.exitCode = 0))
      (.command 379 (.test fun state => state.exitCode = 130)))
      (.command 379 (.test fun state => state.exitCode = 143))) <|
    .block [
      .command 380 (sayCode world (bytes "[launch] Sober exited cleanly (code ") (bytes ")")),
      .command 381 (.brk 1)]

def countCrashText : Text := .block [
  .command 387 (.act fun state => { state with now := state.clock }),
  .ifThen (.command 388 (.test fun state => restartWindow < state.now - state.windowStart)) <|
    .block [
      .command 389 (.act fun state => { state with restartCount := 0 }),
      .command 390 (.act fun state => { state with windowStart := state.now })],
  .command 393 (.act fun state => { state with restartCount := state.restartCount + 1 })]

def giveUpText : Text :=
  .ifThen (.command 394 (.test fun state => maxRestarts < state.restartCount)) <| .block [
    .command 395 (echo world (bytes "[launch] Too many crashes (" ++ decimal maxRestarts ++
      bytes " in " ++ decimal restartWindow ++ bytes "s) — giving up")),
    .command 396 (.brk 1)]

/-- What the body of the loop does once it has the exit code of Sober. -/
def judgeText : Text := .block [
  stopIfCleanText world,
  .command 384 (sayCode world (bytes "[launch] Sober crashed (code ") (bytes ")")),
  countCrashText,
  giveUpText world,
  .command 399 (say world fun state => restartLine state.restartCount),
  .command 400 pause]

def recoveryTurnText : Text := .block [
  .command 375 (runSober (soberBin installDir)),
  .command 376 takeExitCode,
  judgeText world]

/-- What the last section does before its loop. -/
def recoveryStartText : Text := .block [
  .command 359 (assign "SOBER_ARGS" fun _ => joinArguments world.arguments),
  .command 365 (.act fun state => { state with restartCount := 0 }),
  .command 366 (.act fun state => { state with windowStart := state.clock }),
  .command 367 (.act fun state => { state with stopRestart := 0 })]

def recoveryLoopText : Text :=
  .whileDo (fun state => state.runs.length + 1)
    (.command 374 (.test fun state => state.stopRestart = 0)) (recoveryTurnText world installDir)

/-- The script from its first trap on. -/
def trappedText : Text := .block [
  .trap 341 [.int, .term] installTrap,
  startInputMapperText world installDir,
  announceText world installDir,
  recoveryStartText world,
  .trap 372 [.usr1] .skip,
  recoveryLoopText world installDir]

end Texts

/-! ## The texts by themselves -/

section Runs

variable (world : World) (installDir : Bytes)

theorem cleanupText_run : (cleanupText world).run = cleanup world := rfl

theorem startInputMapperText_run :
    (startInputMapperText world installDir).run = startInputMapper world installDir := by
  have hpause (next : Command State) : Command.seq pause next = next := skip_seq next
  simp only [startInputMapperText, Program.block, Program.run, hpause]
  rfl

theorem announceText_run : (announceText world installDir).run = announce world installDir := rfl

theorem countCrashText_run : countCrashText.run = countCrash := by
  simp only [countCrashText, Program.block, Program.ifThen, Program.run, act_seq_act]
  rfl

theorem recoveryTurnText_run :
    (recoveryTurnText world installDir).run = recoveryTurn world (soberBin installDir) := by
  simp only [recoveryTurnText, judgeText, Program.block, Program.run, countCrashText_run]
  rfl

/-- The last section of the script, but for the trap in it, is the recovery section. -/
theorem recoveryText_run :
    Command.seq (recoveryStartText world).run (recoveryLoopText world installDir).run =
      crashRecovery world (soberBin installDir) world.arguments := by
  simp only [recoveryStartText, recoveryLoopText, Program.block, Program.run,
    recoveryTurnText_run, seq_assoc, act_seq_act]
  funext strict state
  simp only [crashRecovery, block, Command.seq, act_eq]

end Runs

/-! ## The commands of the texts -/

/-- What a property of states has to ignore if only Sober is to affect it. -/
structure Aloof (property : State → Prop) : Prop extends Inert property where
  counters : ∀ restartCount windowStart stopRestart now state, property state →
    property { state with
      restartCount := restartCount, windowStart := windowStart, stopRestart := stopRestart,
      now := now }

/-- A command that sets no trap and preserves what only Sober affects. -/
structure Mild (signals : List Signal) (command : Command State) : Prop where
  untrapped : signals = []
  preserves : ∀ property, Aloof property → Preserves property command

section Mild

variable {world : World} {installDir : Bytes}

theorem mild_said (line : State → Bytes) : Mild [] (say world line) :=
  ⟨rfl, fun _ haloof => haloof.plain.say world line⟩

theorem mild_test (condition : State → Bool) : Mild [] (.test condition) :=
  ⟨rfl, fun _ _ => preserves_test⟩

theorem mild_skip : Mild [] .skip := ⟨rfl, fun _ _ => preserves_skip⟩

theorem mild_brk (levels : ℕ) : Mild [] (.brk levels) := ⟨rfl, fun _ _ => preserves_brk levels⟩

theorem mild_rmF (file : Bytes) : Mild [] (rmF world file) :=
  ⟨rfl, fun _ haloof => haloof.plain.rmF world file⟩

theorem mild_kill (pid : State → Bytes) : Mild [] (kill world pid) :=
  ⟨rfl, fun _ haloof => haloof.toInert.kill world pid⟩

theorem mild_assign {name : String} (value : State → Bytes) (hname : name ∉ guarded) :
    Mild [] (assign name value) :=
  ⟨rfl, fun _ haloof => haloof.plain.assign name value hname⟩

theorem mild_writeTo (file data : Bytes) : Mild [] (writeTo world file data) :=
  ⟨rfl, fun _ haloof => haloof.plain.writeTo world file data⟩

/-- An update of the counters. -/
theorem mild_counters {update : State → State}
    (hupdate : ∀ property, Aloof property → ∀ state, property state → property (update state)) :
    Mild [] (.act update) :=
  ⟨rfl, fun property haloof => preserves_act (hupdate property haloof)⟩

theorem mild_cleanupText : (cleanupText world).Each fun _ => Mild :=
  ⟨mild_said _,
    ⟨mild_test _, ⟨⟨rfl, fun _ haloof => haloof.plain.catInto world _ _ (by decide)⟩,
      ⟨mild_kill _, mild_skip⟩, mild_rmF _⟩, trivial⟩,
    mild_rmF _, ⟨mild_test _, ⟨mild_kill _, mild_skip⟩, trivial⟩, mild_said _⟩

theorem mild_handler (signal : Signal) : (handler world signal).Each fun _ => Mild := by
  cases signal with
  | int => exact mild_cleanupText
  | term => exact mild_cleanupText
  | usr1 => exact mild_counters fun _ haloof _ => haloof.counters _ _ _ _ _

theorem mild_startInputMapperText : (startInputMapperText world installDir).Each fun _ => Mild :=
  ⟨mild_test _,
    ⟨mild_said _,
      ⟨rfl, fun _ haloof => preserves_act fun _ hstate => haloof.record _ _ rfl hstate⟩,
      mild_assign _ (by decide), mild_writeTo _ _, mild_skip, mild_said _⟩,
    mild_said _⟩

theorem mild_announceText : (announceText world installDir).Each fun _ => Mild :=
  ⟨mild_writeTo _ _, mild_said _, mild_said _⟩

theorem mild_recoveryStartText : (recoveryStartText world).Each fun _ => Mild :=
  ⟨mild_assign _ (by decide), mild_counters fun _ haloof _ => haloof.counters _ _ _ _ _,
    mild_counters fun _ haloof _ => haloof.counters _ _ _ _ _,
    mild_counters fun _ haloof _ => haloof.counters _ _ _ _ _⟩

theorem mild_stopIfCleanText : (stopIfCleanText world).Each fun _ => Mild :=
  ⟨⟨⟨mild_test _, mild_test _⟩, mild_test _⟩, ⟨mild_said _, mild_brk 1⟩, trivial⟩

theorem mild_countCrashText : countCrashText.Each fun _ => Mild :=
  ⟨mild_counters fun _ haloof _ => haloof.counters _ _ _ _ _,
    ⟨mild_test _, ⟨mild_counters fun _ haloof _ => haloof.counters _ _ _ _ _,
      mild_counters fun _ haloof _ => haloof.counters _ _ _ _ _⟩, trivial⟩,
    mild_counters fun _ haloof _ => haloof.counters _ _ _ _ _⟩

theorem mild_giveUpText : (giveUpText world).Each fun _ => Mild :=
  ⟨mild_test _, ⟨mild_said _, mild_brk 1⟩, trivial⟩

theorem mild_judgeText : (judgeText world).Each fun _ => Mild :=
  ⟨mild_stopIfCleanText, mild_said _, mild_countCrashText, mild_giveUpText, mild_said _,
    mild_skip⟩

end Mild

/-! ### The tree, the variables and the trace -/

/-- What is said of the tree, the variables and the trace. -/
abbrev Stage := Tree → (String → Option Bytes) → List Event → Prop

/-- The state is at a stage. -/
abbrev Stage.Of (stage : Stage) (state : State) : Prop :=
  stage state.tree state.vars state.trace

/-- The script is at a stage. -/
abbrev At (stage : Stage) (live : Live State Signal) : Prop := stage.Of live.state

/-- A stage that the log, the arguments and the starts of Sober leave alone. -/
structure Stage.Steady (stage : Stage) : Prop where
  said : ∀ line taken tree vars trace, stage tree vars trace →
    stage tree vars (trace ++ [.said line taken])
  started : ∀ program arguments env tree vars trace, stage tree vars trace →
    stage tree vars (trace ++ [.startedSober program arguments env])
  assigned : ∀ value tree vars trace, stage tree vars trace →
    stage tree (Function.update vars "SOBER_ARGS" (some value)) trace

section Steady

variable {stage : Stage} (hsteady : stage.Steady) {world : World} (installDir : Bytes)
include hsteady

theorem Stage.Steady.line (line : State → Bytes) : Preserves stage.Of (say world line) :=
  preserves_say line fun _ _ _ hstate => hsteady.said _ _ _ _ _ hstate

theorem Stage.Steady.runSober (program : Bytes) : Preserves stage.Of (runSober program) := by
  intro strict state hstate
  have hstarted := hsteady.started program (state.get "SOBER_ARGS") state.vars _ _ _ hstate
  cases hruns : state.runs with
  | nil =>
      rw [runSober_of_nil _ strict state hruns]
      exact hstarted
  | cons run rest =>
      rw [runSober_of_cons _ strict state hruns]
      split
      · exact hstarted
      · exact hstarted

theorem Stage.Steady.recoveryStartText :
    (recoveryStartText world).Each fun _ _ run => Preserves stage.Of run :=
  ⟨preserves_act fun _ hstate => hsteady.assigned _ _ _ _ hstate,
    preserves_act fun _ hstate => hstate, preserves_act fun _ hstate => hstate,
    preserves_act fun _ hstate => hstate⟩

theorem Stage.Steady.judgeText : (judgeText world).Each fun _ _ run => Preserves stage.Of run := by
  refine ⟨?_, hsteady.line _, ?_, ?_, hsteady.line _, preserves_skip⟩
  · exact ⟨⟨⟨preserves_test, preserves_test⟩, preserves_test⟩, ⟨hsteady.line _, preserves_brk 1⟩,
      trivial⟩
  · exact ⟨preserves_act fun _ hstate => hstate,
      ⟨preserves_test, ⟨preserves_act fun _ hstate => hstate, preserves_act fun _ hstate => hstate⟩,
        trivial⟩,
      preserves_act fun _ hstate => hstate⟩
  · exact ⟨preserves_test, ⟨hsteady.line _, preserves_brk 1⟩, trivial⟩

theorem Stage.Steady.recoveryLoopText :
    (recoveryLoopText world installDir).Each fun _ _ run => Preserves stage.Of run :=
  ⟨preserves_test, hsteady.runSober _, preserves_act fun _ hstate => hstate, hsteady.judgeText⟩

/-- What the script does once the input mapper is started keeps a steady stage that is kept
when `PID_FILE` is written. -/
theorem Stage.Steady.laterText
    (hwrite : Preserves stage.Of (writeTo world pidFile (world.pid ++ [newline]))) :
    (Program.block [announceText world installDir, Launcher.recoveryStartText world,
      .trap 372 [.usr1] .skip, Launcher.recoveryLoopText world installDir] : Text).Each
      fun _ _ run => Preserves stage.Of run :=
  ⟨⟨hwrite, hsteady.line _, hsteady.line _⟩, hsteady.recoveryStartText, preserves_skip,
    hsteady.recoveryLoopText installDir⟩

end Steady

/-! ## A launcher among signals -/

section Launch

variable (world : World) (installDir : Bytes)

/-- What the script does before its first trap. -/
def untrapped : Command State := .block [
  preparation world installDir,
  resolveLibraries world installDir (libDirOf installDir),
  graphicsEnvironment world installDir,
  cpuPerformance world,
  soberEnvironment installDir,
  dbusSession world,
  uinputModule world]

/-- A script in which no signal has been caught. -/
def uncaught (arriving : List (List Signal)) (state : State) : Live State Signal :=
  ⟨state, [], 0, arriving, []⟩

/-- A part of the script whose traps are nested to some depth. -/
abbrev among (depth : ℕ) (text : Text) : Command (Live State Signal) :=
  interrupted (lookFor (handler world) depth) text

/-- The script from its first trap on, with the trap of its exit. -/
def trappedRun (live : Live State Signal) : Live State Signal :=
  match execute (handler world) (trappedText world installDir) true live with
  | .blocked last => last
  | outcome => (execute (handler world) (cleanupText world) true outcome.state).state

variable {world installDir} in
/-- What holds of the text and is kept by `cleanup` holds of the run. -/
theorem trappedRun_of {property : Live State Signal → Prop} {live : Live State Signal}
    (htext :
      property (execute (handler world) (trappedText world installDir) true live).state)
    (hcleanup : ∀ next, property next →
      property (execute (handler world) (cleanupText world) true next).state) :
    property (trappedRun world installDir live) := by
  unfold trappedRun
  split
  · next hblocked => exact (congrArg (fun outcome => property outcome.state) hblocked).mp htext
  · exact hcleanup _ htext

/-- A run of the script in which signals arrive once it has set a trap. -/
def launchAmong (state : State) (arriving : List (List Signal)) : Live State Signal :=
  match untrapped world (detectInstallDir world state) true state with
  | .done _ next => trappedRun world (detectInstallDir world state) (uncaught arriving next)
  | outcome => uncaught arriving outcome.state

/-- The text is what the whole script does after its first trap. -/
theorem launchBody_eq :
    launchBody world installDir =
      .seq (untrapped world installDir) (trappedText world installDir).run := by
  simp only [trappedText, Program.block, Program.run, startInputMapperText_run,
    announceText_run, skip_seq, recoveryText_run]
  simp only [launchBody, completion, untrapped, block, seq_assoc]

/-! ### Before the first trap -/

/-- The script assigns its home and the session bus once each before it sets a trap. -/
theorem Plain.untrapped {property : State → Prop} (hplain : Plain property)
    (hhome : ∀ value state, property state → property (state.setVariable "HOME" value))
    (hbus : ∀ address pid, world.dbusLaunch = some (address, pid) → ∀ state, property state →
      state.get "DBUS_SESSION_BUS_ADDRESS" = [] →
      property ((state.setVariable "DBUS_SESSION_BUS_ADDRESS" address).setVariable
        "DBUS_SESSION_BUS_PID" pid)) :
    Preserves property (untrapped world installDir) :=
  preserves_block ⟨hplain.preparation world installDir hhome,
    hplain.resolveLibraries world installDir _, hplain.graphicsEnvironment world installDir,
    hplain.cpuPerformance world, hplain.soberEnvironment installDir,
    preserves_dbusSession world hbus, hplain.uinputModule world⟩

/-- Every property that the stages ignore is kept until the first trap. -/
theorem Inert.untrapped {property : State → Prop} (hinert : Inert property)
    (hhome : ∀ value state, property state → property (state.setVariable "HOME" value)) :
    Preserves property (untrapped world installDir) :=
  hinert.plain.untrapped world installDir hhome fun _ _ _ _ hstate _ =>
    hinert.setVariable _ _ _ (by decide) (hinert.setVariable _ _ _ (by decide) hstate)

/-! ### Without signals -/

theorem aloof_trapped : Aloof fun state : State => state.trapped = true where
  record _ _ _ hstate := hstate
  setTree _ _ hstate := hstate
  setVariable _ _ _ _ hstate := hstate
  trap _ _ := rfl
  counters _ _ _ _ _ hstate := hstate

/-- Once the trap is set it stays set. -/
theorem trapped_trappedText (strict : Bool) (state : State) :
    ((trappedText world installDir).run strict state).state.trapped = true := by
  have hmild {text : Text} (htext : text.Each fun _ => Mild) :
      text.Each fun _ _ run => Preserves (fun state => state.trapped = true) run :=
    htext.mono fun _ _ _ hrun => hrun.preserves _ aloof_trapped
  have hsober : Preserves (fun state => state.trapped = true) (runSober (soberBin installDir)) := by
    intro strict state hstate
    cases hruns : state.runs with
    | nil =>
        rw [runSober_of_nil _ strict state hruns]
        exact hstate
    | cons run rest =>
        rw [runSober_of_cons _ strict state hruns]
        split <;> exact hstate
  have hrest : Preserves (fun state => state.trapped = true) (Program.block [
      startInputMapperText world installDir, announceText world installDir,
      recoveryStartText world, .trap 372 [.usr1] .skip, recoveryLoopText world installDir]).run :=
    Program.preserves_run ⟨hmild mild_startInputMapperText, hmild mild_announceText,
      hmild mild_recoveryStartText, preserves_skip, preserves_test, hsober,
      preserves_act fun _ hstate => hstate, hmild mild_judgeText⟩
  have htrap : installTrap strict state = .done 0 { state with trapped := true } := act_eq _ _ _
  exact (congrArg (fun outcome => outcome.state.trapped) (seq_of_passes ⟨0, htrap⟩)).trans
    (hrest strict _ rfl)

/-- From the first trap on, too. -/
theorem trappedRun_quiet (state : State) :
    (trappedRun world installDir (uncaught [] state)).state =
      match (trappedText world installDir).run true state with
      | .blocked last => last
      | outcome => (cleanup world true outcome.state).state := by
  have hquiet (program : Text) (live : Live State Signal) (hlive : live.arriving = []) :
      (execute (handler world) program true live).map Live.state =
          program.run true live.state ∧
        (execute (handler world) program true live).state.arriving = [] := by
    obtain ⟨hsame, harriving, _⟩ :=
      interrupted_quiet (handler world) live.arriving.length live.handled program true live
        ⟨hlive, rfl⟩
    exact ⟨hsame, harriving⟩
  obtain ⟨hsame, harriving⟩ := hquiet (trappedText world installDir) (uncaught [] state) rfl
  have hends (outcome : Outcome (Live State Signal)) (houtcome : outcome.state.arriving = []) :
      (execute (handler world) (cleanupText world) true outcome.state).state.state =
        (cleanup world true (outcome.map Live.state).state).state := by
    have hcleanup := (hquiet (cleanupText world) outcome.state houtcome).1
    rw [← Outcome.map_state Live.state, hcleanup, cleanupText_run, Outcome.map_state]
  unfold trappedRun
  rw [show (trappedText world installDir).run true state = _ from hsame.symm]
  cases houtcome : execute (handler world) (trappedText world installDir) true (uncaught [] state)
    with
  | blocked last => rfl
  | _ => exact hends _ (houtcome ▸ harriving)

/-- A launcher that no signal reaches does what the script says. -/
theorem launchAmong_quiet {state : State} (hfresh : state.trapped = false) :
    (launchAmong world state []).state = launch world state := by
  have hplain : Plain fun state : State => state.trapped = false :=
    ⟨fun _ _ _ hstate => hstate, fun _ _ hstate => hstate, fun _ _ _ _ hstate => hstate⟩
  have huntrapped := hplain.untrapped world (detectInstallDir world state)
    (fun _ _ hstate => hstate) (fun _ _ _ _ hstate _ => hstate) true state hfresh
  unfold launchAmong launch
  rw [launchBody_eq, Command.seq]
  cases houtcome : untrapped world (detectInstallDir world state) true state with
  | done status next =>
      have htrapped := trapped_trappedText world (detectInstallDir world state) true next
      simp only [trappedRun_quiet]
      cases hrun : (trappedText world (detectInstallDir world state)).run true next with
      | blocked last => rfl
      | _ =>
          rw [hrun] at htrapped
          exact (if_pos htrapped).symm
  | blocked next => rfl
  | _ =>
      rw [houtcome] at huntrapped
      exact (if_neg (ne_true_of_eq_false huntrapped)).symm

end Launch

end TizenRoblox.Launcher
