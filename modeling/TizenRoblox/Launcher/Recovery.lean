/-
# Crash recovery

The launcher starts Sober in a loop that is meant to restart it after a crash,
at most three times within a window, and to stop after a deliberate exit. What
the loop should do is `RestartLaw`. What it does depends on the context: where a
failing command does not end the script the loop obeys the law
(`crashRecovery_tolerant`), but the launcher runs under `set -e`, and there a
crash of Sober is a failing command. The script then ends at the first crash,
before the counter is looked at, and the law holds only for launchers whose first
run of Sober ends deliberately (`crashRecovery_strict_iff`).

A pause between restarts is a command that does nothing.
-/

import TizenRoblox.Launcher.State
import TizenRoblox.Shell.Text

namespace TizenRoblox.Launcher

open TizenRoblox.Foundation TizenRoblox.Posix TizenRoblox.Shell TizenRoblox.Shell.Command

def maxRestarts : ℤ := 3

/-- `RESTART_WINDOW`, in seconds. -/
def restartWindow : ℤ := 60

/-- An exit code that the launcher takes for deliberate: a normal end, SIGINT or
SIGTERM. -/
def isCleanExit (exitCode : ℕ) : Bool := exitCode = 0 || exitCode = 130 || exitCode = 143

/-! ## The loop -/

section Definitions

variable (world : World) (soberBin : Bytes)

/-- `"${SOBER_BIN}" ${SOBER_ARGS}`: with no further run to come Sober never ends. -/
def runSober : Command State := fun strict state =>
  let started := state.record (.startedSober soberBin (state.get "SOBER_ARGS") state.vars)
  match state.runs with
  | [] => .blocked started
  | run :: rest => simple (fun started =>
      ({ started with soberStatus := run.exitCode, clock := run.endTime, runs := rest },
        run.exitCode)) strict started

/-- `EXIT_CODE=$?` -/
def takeExitCode : Command State := .act fun state => { state with exitCode := state.soberStatus }

def sayCode (before after : Bytes) : Command State :=
  say world fun state => before ++ decimal state.exitCode ++ after

/-- Deliberate exits leave the loop. -/
def stopIfClean : Command State :=
  .ifThen (.orElse (.orElse (.test fun state => state.exitCode = 0)
      (.test fun state => state.exitCode = 130)) (.test fun state => state.exitCode = 143)) <|
    .block [sayCode world (bytes "[launch] Sober exited cleanly (code ") (bytes ")"), .brk 1]

/-- Counts a crash, in a new window if the old one is over. -/
def countCrash : Command State := .block [
  .act fun state => { state with now := state.clock },
  .ifThen (.test fun state => restartWindow < state.now - state.windowStart) <|
    .act fun state => { state with restartCount := 0, windowStart := state.now },
  .act fun state => { state with restartCount := state.restartCount + 1 }]

/-- Too many crashes leave the loop. -/
def giveUp : Command State :=
  .ifThen (.test fun state => maxRestarts < state.restartCount) <| .block [
    echo world (bytes "[launch] Too many crashes (" ++ decimal maxRestarts ++ bytes " in " ++
      decimal restartWindow ++ bytes "s) — giving up"),
    .brk 1]

def restartLine (restartCount : ℤ) : Bytes :=
  bytes "[launch] Restarting (attempt " ++ decimal restartCount ++ bytes "/" ++
    decimal maxRestarts ++ bytes ")..."

/-- `sleep` -/
def pause : Command State := .skip

/-- The body of the loop. -/
def recoveryTurn : Command State := .block [
  runSober soberBin,
  takeExitCode,
  stopIfClean world,
  sayCode world (bytes "[launch] Sober crashed (code ") (bytes ")"),
  countCrash,
  giveUp world,
  say world fun state => restartLine state.restartCount,
  pause]

/-- The last section of the script. A turn uses up one run of Sober or blocks, so
the fuel of the loop never runs out. -/
def crashRecovery (arguments : List Bytes) : Command State := .block [
  assign "SOBER_ARGS" fun _ => joinArguments arguments,
  .act fun state =>
    { state with restartCount := 0, windowStart := state.clock, stopRestart := 0 },
  fun strict state =>
    whileDo (.test fun state => state.stopRestart = 0) (recoveryTurn world soberBin)
      (state.runs.length + 1) strict state]

end Definitions

/-! ## The counters -/

/-- `_restart_count` and `_window_start`. -/
structure Counters where
  count : ℤ
  windowStart : ℤ
  deriving DecidableEq

/-- What a crash at the given time makes of the counters. -/
def Counters.crash (now : ℤ) (counters : Counters) : Counters :=
  if restartWindow < now - counters.windowStart then ⟨1, now⟩
  else ⟨counters.count + 1, counters.windowStart⟩

/-- The counters after runs that all crashed. -/
def Counters.after (counters : Counters) (runs : List SoberRun) : Counters :=
  runs.foldl (fun counters run => counters.crash run.endTime) counters

/-- The counters of a state. -/
def State.counters (state : State) : Counters := ⟨state.restartCount, state.windowStart⟩

/-- The law of the recovery loop: Sober, started `starts` times, is not started
again after a deliberate exit, and is started again after every crash that did
not make the counter exceed its maximum. -/
structure RestartLaw (counters : Counters) (runs : List SoberRun) (starts : ℕ) : Prop where
  stops : ∀ index run, runs[index]? = some run → index < starts →
    isCleanExit run.exitCode = true → starts = index + 1
  restarts : ∀ index run, runs[index]? = some run → index < starts →
    isCleanExit run.exitCode = false →
    (counters.after (runs.take (index + 1))).count ≤ maxRestarts → index + 1 < starts

/-- How often a loop that obeys the law starts Sober. -/
def startsFrom : Counters → List SoberRun → ℕ
  | _, [] => 1
  | counters, run :: rest =>
    if isCleanExit run.exitCode then 1
    else if maxRestarts < (counters.crash run.endTime).count then 1
    else startsFrom (counters.crash run.endTime) rest + 1

theorem startsFrom_pos (counters : Counters) (runs : List SoberRun) :
    0 < startsFrom counters runs := by
  cases runs with
  | nil => simp [startsFrom]
  | cons run rest =>
      simp only [startsFrom]
      split
      · exact Nat.one_pos
      · split
        · exact Nat.one_pos
        · exact Nat.succ_pos _

theorem restartLaw_startsFrom (counters : Counters) (runs : List SoberRun) :
    RestartLaw counters runs (startsFrom counters runs) := by
  induction runs generalizing counters with
  | nil => exact ⟨by simp, by simp⟩
  | cons head rest ih =>
      have hlater := ih (counters.crash head.endTime)
      constructor
      · intro index run hrun hindex hclean
        cases index with
        | zero =>
            obtain rfl : head = run := by simpa using hrun
            simp [startsFrom, hclean]
        | succ index =>
            simp only [startsFrom] at hindex ⊢
            split at hindex
            · omega
            · split at hindex
              · omega
              · rename_i hcrash hcount
                rw [if_neg hcrash, if_neg hcount,
                  hlater.stops index run (by simpa using hrun) (by omega) hclean]
      · intro index run hrun hindex hcrash hcount
        cases index with
        | zero =>
            obtain rfl : head = run := by simpa using hrun
            have hbelow : ¬ maxRestarts < (counters.crash head.endTime).count := by
              simpa [Counters.after] using hcount
            rw [startsFrom, hcrash, if_neg Bool.false_ne_true, if_neg hbelow]
            have hpos := startsFrom_pos (counters.crash head.endTime) rest
            omega
        | succ index =>
            simp only [startsFrom] at hindex ⊢
            split at hindex
            · omega
            · split at hindex
              · omega
              · rename_i hhead hbelow
                have hagain := hlater.restarts index run (by simpa using hrun) (by omega)
                  hcrash (by simpa [Counters.after] using hcount)
                rw [if_neg hhead, if_neg hbelow]
                omega

/-! ## What the commands of a turn do -/

section Commands

variable (world : World) (soberBin : Bytes) (strict : Bool) (state : State)

/-- The state in which a run of Sober has ended. -/
def ended (run : SoberRun) (rest : List SoberRun) (state : State) : State :=
  { state.record (.startedSober soberBin (state.get "SOBER_ARGS") state.vars) with
    soberStatus := run.exitCode, clock := run.endTime, runs := rest }

/-- The state in which its exit code is looked at. -/
def judged (run : SoberRun) (rest : List SoberRun) (state : State) : State :=
  { ended soberBin run rest state with exitCode := run.exitCode }

/-- The state after a crash has been counted. -/
def crashed (state : State) : State :=
  let counters := state.counters.crash state.clock
  { state with
    now := state.clock, restartCount := counters.count, windowStart := counters.windowStart }

theorem ended_soberStarts (run : SoberRun) (rest : List SoberRun) :
    (ended soberBin run rest state).soberStarts = state.soberStarts + 1 :=
  State.record_soberStarts (.startedSober soberBin (state.get "SOBER_ARGS") state.vars) state

theorem judged_soberStarts (run : SoberRun) (rest : List SoberRun) :
    (judged soberBin run rest state).soberStarts = state.soberStarts + 1 :=
  ended_soberStarts soberBin state run rest

theorem runSober_of_nil (hruns : state.runs = []) :
    runSober soberBin strict state =
      .blocked (state.record (.startedSober soberBin (state.get "SOBER_ARGS") state.vars)) := by
  simp [runSober, hruns]

theorem runSober_of_cons {run : SoberRun} {rest : List SoberRun}
    (hruns : state.runs = run :: rest) :
    runSober soberBin strict state =
      if strict ∧ run.exitCode ≠ 0 then .exited run.exitCode (ended soberBin run rest state)
      else .done run.exitCode (ended soberBin run rest state) := by
  simp only [runSober, hruns, simple]
  rfl

theorem takeExitCode_ended (run : SoberRun) (rest : List SoberRun) :
    takeExitCode strict (ended soberBin run rest state) =
      .done 0 (judged soberBin run rest state) :=
  act_eq _ strict _

/-- The loop is left, or the script with it. -/
def LeavesLoop (outcome : Outcome State) (next : State) : Prop :=
  outcome = .broken 1 next ∨ outcome = .exited 1 next

/-- A last line and `break` leave the loop, whether or not the log takes the line. -/
theorem leavesLoop_say (line : State → Bytes) :
    LeavesLoop (block [say world line, brk 1] strict state) (state.say world (line state)) := by
  cases htaken : world.logOk state.trace with
  | true => exact .inl (by simp [block, seq, say_of_taken line htaken, brk])
  | false =>
      cases strict with
      | true => exact .inr (block_cons_of_exited _ (say_refused line htaken))
      | false => exact .inl (by simp [block, seq, say_tolerant, brk])

theorem stopIfClean_of_clean (hclean : isCleanExit state.exitCode = true) :
    ∃ line, LeavesLoop (stopIfClean world strict state) (state.say world line) := by
  refine ⟨bytes "[launch] Sober exited cleanly (code " ++ decimal state.exitCode ++ bytes ")", ?_⟩
  have hleaves := leavesLoop_say world strict state fun state =>
    bytes "[launch] Sober exited cleanly (code " ++ decimal state.exitCode ++ bytes ")"
  simp only [isCleanExit, Bool.or_eq_true, decide_eq_true_eq] at hclean
  rcases hclean with (hcode | hcode) | hcode <;>
    simpa [stopIfClean, ifThen, ifElse, orElse, hcode, sayCode] using hleaves

theorem stopIfClean_of_crash (hcrash : isCleanExit state.exitCode = false) :
    stopIfClean world strict state = .done 0 state := by
  simp only [isCleanExit, Bool.or_eq_false_iff, decide_eq_false_iff_not] at hcrash
  simp [stopIfClean, ifThen, ifElse, orElse, hcrash]

theorem countCrash_eq : countCrash strict state = .done 0 (crashed state) := by
  by_cases hwindow : restartWindow < state.clock - state.windowStart <;>
    simp [countCrash, block, seq, ifThen, ifElse, crashed, Counters.crash, State.counters,
      hwindow]

theorem giveUp_of_exceeded (hcount : maxRestarts < state.restartCount) :
    ∃ line, LeavesLoop (giveUp world strict state) (state.say world line) := by
  refine ⟨bytes "[launch] Too many crashes (" ++ decimal maxRestarts ++ bytes " in " ++
    decimal restartWindow ++ bytes "s) — giving up", ?_⟩
  rw [giveUp, ifThen, ifElse_test_true (by simpa using hcount)]
  exact leavesLoop_say world strict state _

theorem giveUp_of_not_exceeded (hcount : ¬ maxRestarts < state.restartCount) :
    giveUp world strict state = .done 0 state := by
  simp [giveUp, ifThen, ifElse, hcount]

end Commands

/-! ## What a turn does -/

section Turns

variable (world : World) (soberBin : Bytes) {strict : Bool} {state : State} {run : SoberRun}
  {rest : List SoberRun}

/-- With no run to come the script waits for Sober. -/
theorem recoveryTurn_of_nil (strict : Bool) (hruns : state.runs = []) :
    ∃ next, recoveryTurn world soberBin strict state = .blocked next ∧
      next.soberStarts = state.soberStarts + 1 := by
  refine ⟨_, ?_, State.record_soberStarts
    (.startedSober soberBin (state.get "SOBER_ARGS") state.vars) state⟩
  simp [recoveryTurn, block, seq, runSober_of_nil soberBin strict state hruns]

/-- Under `set -e` a run that does not end with 0 ends the script. -/
theorem recoveryTurn_exits (hruns : state.runs = run :: rest) (hcode : run.exitCode ≠ 0) :
    recoveryTurn world soberBin true state =
      .exited run.exitCode (ended soberBin run rest state) := by
  simp [recoveryTurn, block, seq, runSober_of_cons soberBin true state hruns, hcode]

/-- Where a run does not end the script, its exit code is looked at. -/
private theorem recoveryTurn_eq_judged (hruns : state.runs = run :: rest)
    (hpasses : strict = false ∨ run.exitCode = 0) :
    recoveryTurn world soberBin strict state =
      block [
        stopIfClean world,
        sayCode world (bytes "[launch] Sober crashed (code ") (bytes ")"),
        countCrash,
        giveUp world,
        say world fun state => restartLine state.restartCount,
        pause]
        strict (judged soberBin run rest state) := by
  have hrun : Passes (runSober soberBin) strict state (ended soberBin run rest state) := by
    refine ⟨run.exitCode, ?_⟩
    rw [runSober_of_cons soberBin strict state hruns, if_neg]
    rcases hpasses with rfl | hcode
    · simp
    · simp [hcode]
  rw [recoveryTurn, block_cons_of_passes _ (by simp) hrun,
    block_cons_of_passes _ (by simp) ⟨0, takeExitCode_ended soberBin strict state run rest⟩]

/-- A deliberate exit that does not end the script leaves the loop. -/
theorem recoveryTurn_of_clean (strict : Bool) (hruns : state.runs = run :: rest)
    (hpasses : strict = false ∨ run.exitCode = 0) (hclean : isCleanExit run.exitCode = true) :
    ∃ next, LeavesLoop (recoveryTurn world soberBin strict state) next ∧
      next.soberStarts = state.soberStarts + 1 := by
  obtain ⟨line, hstop⟩ :=
    stopIfClean_of_clean world strict (judged soberBin run rest state) hclean
  refine ⟨_, ?_, (State.say_soberStarts world line _).trans
    (judged_soberStarts soberBin state run rest)⟩
  rw [recoveryTurn_eq_judged world soberBin hruns hpasses]
  rcases hstop with hbroken | hexited
  · exact .inl (by simp only [block, seq, hbroken])
  · exact .inr (block_cons_of_exited _ hexited)

/-- The state in which a crash of the run has been said and counted. -/
private def afterCrash (run : SoberRun) (rest : List SoberRun) (state : State) : State :=
  crashed ((judged soberBin run rest state).say world
    (bytes "[launch] Sober crashed (code " ++ decimal run.exitCode ++ bytes ")"))

/-- Where its status does not end the script, a crash is counted, and the loop
goes on unless there were too many. -/
theorem recoveryTurn_of_crash (hruns : state.runs = run :: rest)
    (hcrash : isCleanExit run.exitCode = false) :
    ∃ next, next.soberStarts = state.soberStarts + 1 ∧ next.runs = rest ∧
      next.stopRestart = state.stopRestart ∧
      next.counters = state.counters.crash run.endTime ∧
      if maxRestarts < (state.counters.crash run.endTime).count then
        LeavesLoop (recoveryTurn world soberBin false state) next
      else recoveryTurn world soberBin false state = .done 0 next := by
  have hturn : recoveryTurn world soberBin false state =
      seq (giveUp world) (seq (say world fun state => restartLine state.restartCount) pause)
        false (afterCrash world soberBin run rest state) := by
    rw [recoveryTurn_eq_judged world soberBin hruns (.inl rfl),
      block_cons_of_passes _ (by simp) ⟨0, stopIfClean_of_crash world false _ hcrash⟩,
      sayCode, block_cons_of_passes _ (by simp) (passes_say _ (.inl rfl)),
      block_cons_of_passes _ (by simp) ⟨0, countCrash_eq false _⟩]
    rfl
  have hstarts : (afterCrash world soberBin run rest state).soberStarts = state.soberStarts + 1 :=
    (State.say_soberStarts world _ _).trans (judged_soberStarts soberBin state run rest)
  rw [hturn, seq]
  by_cases hcount : maxRestarts < (state.counters.crash run.endTime).count
  · obtain ⟨line, hgiveUp⟩ :=
      giveUp_of_exceeded world false (afterCrash world soberBin run rest state) hcount
    refine ⟨(afterCrash world soberBin run rest state).say world line, ?_, rfl, rfl, rfl, ?_⟩
    · exact (State.say_soberStarts world _ _).trans hstarts
    · rw [if_pos hcount]
      rcases hgiveUp with hbroken | hexited
      · exact .inl (by rw [hbroken])
      · exact .inr (by rw [hexited])
  · have hgoesOn :=
      giveUp_of_not_exceeded world false (afterCrash world soberBin run rest state) hcount
    refine ⟨(afterCrash world soberBin run rest state).say world
      (restartLine (afterCrash world soberBin run rest state).restartCount),
      (State.say_soberStarts world _ _).trans hstarts, rfl, rfl, rfl, ?_⟩
    rw [hgoesOn, if_neg hcount]
    exact (seq_of_passes (passes_say _ (.inl rfl))).trans (skip_eq false _)

end Turns

/-! ## What the loop does -/

section Loop

variable (world : World) (soberBin : Bytes)

/-- `[ "${_STOP_RESTART}" -eq 0 ]` -/
private def goOn : Command State := .test fun state => state.stopRestart = 0

/-- Where a crash does not end the script, the loop obeys the law. -/
theorem recoveryLoop_tolerant (state : State) (hstop : state.stopRestart = 0) :
    (whileDo goOn (recoveryTurn world soberBin) (state.runs.length + 1) false
        state).state.soberStarts =
      state.soberStarts + startsFrom state.counters state.runs := by
  have hgoOn : goOn false state = .done 0 state := by simp [goOn, hstop]
  induction hruns : state.runs generalizing state with
  | nil =>
      obtain ⟨next, hturn, hstarts⟩ := recoveryTurn_of_nil world soberBin false hruns
      simp only [whileDo, hgoOn, hturn, Outcome.state, hstarts, startsFrom]
  | cons run rest ih =>
      rw [List.length_cons, whileDo, hgoOn]
      cases hclean : isCleanExit run.exitCode with
      | true =>
          obtain ⟨next, hturn, hstarts⟩ :=
            recoveryTurn_of_clean world soberBin false hruns (Or.inl rfl) hclean
          simp only [startsFrom, hclean, if_true, ← hstarts]
          rcases hturn with hturn | hturn <;> simp only [hturn, Outcome.state]
      | false =>
          obtain ⟨next, hstarts, hrest, hnextStop, hcounters, hturn⟩ :=
            recoveryTurn_of_crash world soberBin hruns hclean
          by_cases hcount : maxRestarts < (state.counters.crash run.endTime).count
          · simp only [startsFrom, hclean, Bool.false_eq_true, if_false, if_pos hcount, ← hstarts]
            rw [if_pos hcount] at hturn
            rcases hturn with hturn | hturn <;> simp only [hturn, Outcome.state]
          · rw [if_neg hcount] at hturn
            have hlater := ih next (hnextStop.trans hstop)
              (by simp [goOn, hnextStop, hstop]) hrest
            simp only [hturn, if_neg hcount, startsFrom, hclean, Bool.false_eq_true, if_false]
            rw [hlater, hstarts, hcounters]
            omega

/-- Under `set -e` the loop starts Sober once and no more. -/
theorem recoveryLoop_strict (state : State) (hstop : state.stopRestart = 0) :
    (whileDo goOn (recoveryTurn world soberBin) (state.runs.length + 1) true
        state).state.soberStarts =
      state.soberStarts + 1 := by
  have hgoOn : goOn false state = .done 0 state := by simp [goOn, hstop]
  rw [whileDo, hgoOn]
  cases hruns : state.runs with
  | nil =>
      obtain ⟨next, hturn, hstarts⟩ := recoveryTurn_of_nil world soberBin true hruns
      simp only [hturn, Outcome.state, hstarts]
  | cons run rest =>
      by_cases hcode : run.exitCode = 0
      · obtain ⟨next, hturn, hstarts⟩ := recoveryTurn_of_clean world soberBin true hruns
          (Or.inr hcode) (by simp [isCleanExit, hcode])
        rcases hturn with hturn | hturn <;> simp only [hturn, Outcome.state, hstarts]
      · simp only [recoveryTurn_exits world soberBin hruns hcode, Outcome.state, ended_soberStarts]

end Loop

/-! ## The recovery section of the script -/

section Section

variable (world : World) (soberBin : Bytes) (arguments : List Bytes)

/-- The state in which the loop starts. -/
private def loopStart (state : State) : State :=
  { state.setVariable "SOBER_ARGS" (joinArguments arguments) with
    restartCount := 0, windowStart := state.clock, stopRestart := 0 }

private theorem crashRecovery_eq (strict : Bool) (state : State) :
    crashRecovery world soberBin arguments strict state =
      whileDo goOn (recoveryTurn world soberBin) (state.runs.length + 1) strict
        (loopStart arguments state) := by
  simp only [crashRecovery, block, seq, assign, act_eq]
  rfl

/-- How often the section starts Sober. -/
def recoveryStarts (strict : Bool) (state : State) : ℕ :=
  (crashRecovery world soberBin arguments strict state).state.soberStarts - state.soberStarts

theorem crashRecovery_strict_starts (state : State) :
    (crashRecovery world soberBin arguments true state).state.soberStarts =
      state.soberStarts + 1 := by
  rw [crashRecovery_eq]
  exact recoveryLoop_strict world soberBin (loopStart arguments state) rfl

/-- Where a crash of Sober does not end the script, it is answered as it should
be. -/
theorem crashRecovery_tolerant (state : State) :
    RestartLaw ⟨0, state.clock⟩ state.runs
      (recoveryStarts world soberBin arguments false state) := by
  have hstarts := recoveryLoop_tolerant world soberBin (loopStart arguments state) rfl
  have hlaw := restartLaw_startsFrom ⟨0, state.clock⟩ state.runs
  rw [recoveryStarts, crashRecovery_eq]
  have hcount : (loopStart arguments state).soberStarts = state.soberStarts := rfl
  rw [show state.runs.length = (loopStart arguments state).runs.length from rfl, hstarts, hcount,
    Nat.add_sub_cancel_left]
  exact hlaw

/-- One start obeys the law only if there is nothing to answer: Sober runs on, or
its first run ends deliberately. -/
theorem restartLaw_one_iff (start : ℤ) (runs : List SoberRun) :
    RestartLaw ⟨0, start⟩ runs 1 ↔ ∀ run ∈ runs.head?, isCleanExit run.exitCode = true := by
  cases runs with
  | nil => exact ⟨fun _ => by simp, fun _ => ⟨by simp, by simp⟩⟩
  | cons head rest =>
      simp only [List.head?_cons, Option.mem_def, Option.some.injEq, forall_eq']
      constructor
      · intro hlaw
        by_contra hcrash
        have hcount : (Counters.after ⟨0, start⟩ [head]).count ≤ maxRestarts := by
          simp only [Counters.after, List.foldl_cons, List.foldl_nil, Counters.crash]
          split <;> simp [maxRestarts]
        have hagain := hlaw.restarts 0 head rfl Nat.one_pos (by simpa using hcrash) hcount
        omega
      · intro hclean
        refine ⟨fun index run hrun hindex _ => by omega, fun index run hrun hindex hcrash _ => ?_⟩
        obtain rfl : index = 0 := by omega
        obtain rfl : head = run := by simpa using hrun
        simp [hclean] at hcrash

/-- Under the launcher's own `set -e` the law holds exactly for the launchers
whose first run of Sober, if it ends at all, ends deliberately. -/
theorem crashRecovery_strict_iff (state : State) :
    RestartLaw ⟨0, state.clock⟩ state.runs (recoveryStarts world soberBin arguments true state) ↔
      ∀ run ∈ state.runs.head?, isCleanExit run.exitCode = true := by
  have hone : recoveryStarts world soberBin arguments true state = 1 := by
    rw [recoveryStarts, crashRecovery_strict_starts, Nat.add_sub_cancel_left]
  rw [hone]
  exact restartLaw_one_iff state.clock state.runs

end Section

/-- A launcher whose Sober crashes and would end well when started again. -/
def oneCrash : State := .initial ⟨[]⟩ (fun _ => none) 0 [⟨139, 5⟩, ⟨0, 9⟩]

/-- The crash is not answered by a restart. -/
theorem not_restartLaw_oneCrash :
    ¬ RestartLaw ⟨0, oneCrash.clock⟩ oneCrash.runs
      (recoveryStarts quietWorld (bytes "/opt/tizenroblox/bin/sober") [] true oneCrash) := by
  rw [recoveryStarts, crashRecovery_strict_starts, Nat.add_sub_cancel_left]
  intro hlaw
  have hagain := hlaw.restarts 0 ⟨139, 5⟩ rfl Nat.one_pos rfl (by decide)
  omega

end TizenRoblox.Launcher
