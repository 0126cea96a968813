/-
# The arguments of Sober

The launcher keeps its arguments in one variable, joined by blanks, and starts Sober
with the words of that variable: split at blanks, and expanded to pathnames. A Sober
that is started has the arguments of the launcher exactly if each of them arrives by
itself (`sober_arguments_iff`). An empty argument never does, nor does one with a blank
in the middle, and one with the characters of a pattern does not where it matches
another name.
-/

import TizenRoblox.Launcher.Reaching
import TizenRoblox.Shell.Glob

namespace TizenRoblox.Launcher

open TizenRoblox.Foundation TizenRoblox.Posix TizenRoblox.Shell TizenRoblox.Shell.Command
open TizenRoblox.Shell.Glob TizenRoblox.Shell.Glob.Globbing

/-- The arguments in `"${SOBER_BIN}" ${SOBER_ARGS}`. -/
def soberArguments (globbing : Globbing) (tree : Tree) (cwd : Path) (soberArgs : Bytes) :
    List Bytes :=
  globbing.words tree cwd soberArgs

section Started

variable (world : World) (arguments : List Bytes)

/-- A Sober that was started was given the joined arguments. -/
def Event.GivenJoined : Event → Prop
  | .startedSober _ soberArgs _ => soberArgs = joinArguments arguments
  | _ => True

/-- Every Sober started so far was given the joined arguments. -/
def GivenJoined (state : State) : Prop := ∀ event ∈ state.trace, event.GivenJoined arguments

theorem inert_givenJoined : Inert (GivenJoined arguments) where
  record event state hevent hstate := by
    apply List.forall_mem_append.mpr ⟨hstate, List.forall_mem_singleton.mpr _⟩
    cases event with
    | startedSober program soberArgs vars => cases hevent
    | said line taken => trivial
    | startedMapper => trivial
    | terminated pid => trivial
  setTree _ _ hstate := hstate
  setVariable _ _ _ _ hstate := hstate
  trap _ hstate := hstate

/-- With the variable assigned, the loop gives every Sober the joined arguments. -/
theorem givenJoined_recoveryLoop (soberBin : Bytes) (fuel : ℕ) :
    Preserves (fun state => state.vars "SOBER_ARGS" = some (joinArguments arguments) ∧
        GivenJoined arguments state)
      (whileDo (.test fun state => state.stopRestart = 0) (recoveryTurn world soberBin) fuel) := by
  have hturn : Preserves (fun state : State =>
      state.vars "SOBER_ARGS" = some (joinArguments arguments) ∧ GivenJoined arguments state)
      (recoveryTurn world soberBin) := by
    refine preserves_recoveryTurn_of world (fun vars trace =>
      vars "SOBER_ARGS" = some (joinArguments arguments) ∧
        ∀ event ∈ trace, event.GivenJoined arguments) ?_ ?_
    · intro line taken vars trace hholds
      exact ⟨hholds.1, List.forall_mem_append.mpr
        ⟨hholds.2, List.forall_mem_singleton.mpr trivial⟩⟩
    · intro vars trace hholds
      exact ⟨hholds.1, List.forall_mem_append.mpr
        ⟨hholds.2, List.forall_mem_singleton.mpr (by simp [Event.GivenJoined, hholds.1])⟩⟩
  exact preserves_whileDo preserves_test hturn fuel

/-- The variable is assigned before the loop. -/
theorem givenJoined_crashRecovery (soberBin : Bytes) :
    Preserves (GivenJoined arguments) (crashRecovery world soberBin arguments) := by
  intro strict state hstate
  simp only [crashRecovery, block, seq, assign, act_eq]
  have hassigned : (state.setVariable "SOBER_ARGS" (joinArguments arguments)).vars "SOBER_ARGS" =
      some (joinArguments arguments) := by simp [State.setVariable]
  exact And.right (givenJoined_recoveryLoop world arguments soberBin _ strict _ ⟨hassigned, hstate⟩)

/-- Every Sober that a launcher starts is given the joined arguments. -/
theorem givenJoined_launch {state : State} (hfresh : state.trace = []) :
    GivenJoined world.arguments (launch world state) := by
  have hinert := inert_givenJoined world.arguments
  have hbody : Preserves (GivenJoined world.arguments)
      (launchBody world (detectInstallDir world state)) :=
    preserves_block ⟨hinert.plain.preparation world _ fun _ _ hstate => hstate,
      hinert.plain.resolveLibraries world _ _, hinert.completion world _,
      givenJoined_crashRecovery world _ _⟩
  have hdone := hbody true state (by simp [GivenJoined, hfresh])
  unfold launch
  split
  · next hblocked => rwa [hblocked] at hdone
  · split
    · exact hinert.cleanup world true _ hdone
    · exact hdone

/-- A Sober that a launcher starts has the launcher's arguments if each of them arrives,
and then only, unless one that is all blanks is the name of something. It has them
whatever the directory holds exactly if each of them arrives whatever it holds. -/
theorem sober_arguments_iff {state : State} (hfresh : state.trace = [])
    {program soberArgs : Bytes} {vars : String → Option Bytes}
    (hstarted : .startedSober program soberArgs vars ∈ (launch world state).trace)
    (globbing : Globbing) :
    (∀ tree, (∀ argument ∈ world.arguments, globbing.Arrives tree world.cwd argument) →
      soberArguments globbing tree world.cwd soberArgs = world.arguments) ∧
    (∀ tree, (∀ argument ∈ world.arguments, fieldsOf argument = [] →
        pathExists tree world.cwd argument = false) →
      soberArguments globbing tree world.cwd soberArgs = world.arguments →
      ∀ argument ∈ world.arguments, globbing.Arrives tree world.cwd argument) ∧
    ((∀ tree, soberArguments globbing tree world.cwd soberArgs = world.arguments) ↔
      ∀ tree, ∀ argument ∈ world.arguments, globbing.Arrives tree world.cwd argument) := by
  obtain rfl : soberArgs = joinArguments world.arguments :=
    givenJoined_launch world hfresh _ hstarted
  exact ⟨fun _ harrive => words_joinArguments harrive,
    fun _ hblank hsame => arrives_of_words hblank hsame, forall_words_joinArguments_iff⟩

end Started

/-! ## Arguments that arrive and arguments that do not -/

/-- A launcher that is given arguments. -/
def argumentsWorld (arguments : List Bytes) : World := { quietWorld with arguments := arguments }

/-- The libraries are found, whatever the arguments are. -/
theorem findsAll_argumentsWorld (arguments : List Bytes) (libDir : Bytes) (lookups : List Lookup)
    (tree : Tree) :
    findsAll (argumentsWorld arguments) libDir lookups tree =
      findsAll quietWorld libDir lookups tree := by
  induction lookups generalizing tree with
  | nil => rfl
  | cons lookup rest ih => exact congrArg (lookup.found quietWorld libDir tree && ·) (ih _)

/-- It starts Sober on a TV that has everything. -/
theorem started_fullTv (arguments : List Bytes) :
    ∃ program soberArgs vars, .startedSober program soberArgs vars ∈
      (launch (argumentsWorld arguments) fullTv).trace := by
  have hlaunchable : Launchable (argumentsWorld arguments) fullTv :=
    ⟨fun _ => rfl, fun _ _ => rfl, fun _ => rfl, launchable_fullTv.sober, fun _ _ => rfl⟩
  have hreaches : ReachesSober (argumentsWorld arguments) fullTv := by
    rw [reachesSober_iff_findsAll hlaunchable, findsAll_argumentsWorld]
    exact (by decide : findsAll quietWorld (libraryDir quietWorld fullTv) launcherLookups
      (libraryTree quietWorld fullTv) = true)
  obtain ⟨event, hmem, hsober⟩ := List.countP_pos_iff.mp (Nat.zero_lt_of_lt hreaches)
  cases event with
  | startedSober program soberArgs vars => exact ⟨program, soberArgs, vars, hmem⟩
  | said line taken => cases hsober
  | startedMapper => cases hsober
  | terminated pid => cases hsober

/-- A link to a place, with a question mark that matches nothing. -/
def placeLink : List Bytes := [bytes "--url", bytes "roblox://start?placeId=1"]

theorem sober_arguments_placeLink :
    ∃ program soberArgs vars, .startedSober program soberArgs vars ∈
        (launch (argumentsWorld placeLink) fullTv).trace ∧
      soberArguments byteGlobbing fullTv.tree [] soberArgs = placeLink := by
  obtain ⟨program, soberArgs, vars, hstarted⟩ := started_fullTv placeLink
  refine ⟨program, soberArgs, vars, hstarted, ?_⟩
  apply (sober_arguments_iff (argumentsWorld placeLink) rfl hstarted byteGlobbing).1
  intro argument hmem
  refine ⟨argument, ?_⟩
  revert argument
  decide

/-- An empty argument is lost, one with a blank becomes two, and one with a question mark
becomes the name of a file. -/
theorem arguments_lost :
    ∀ arguments ∈ ([[[]], [bytes "a b"], [bytes "a?"]] : List (List Bytes)),
      ∃ program soberArgs vars, .startedSober program soberArgs vars ∈
          (launch (argumentsWorld arguments) fullTv).trace ∧
        soberArguments byteGlobbing ⟨[([bytes "ab"], .file [])]⟩ [] soberArgs ≠ arguments := by
  intro arguments hmem
  obtain ⟨program, soberArgs, vars, hstarted⟩ := started_fullTv arguments
  refine ⟨program, soberArgs, vars, hstarted, ?_⟩
  obtain rfl : soberArgs = joinArguments arguments :=
    givenJoined_launch (argumentsWorld arguments) rfl _ hstarted
  clear hstarted
  revert arguments
  decide

theorem not_sober_arguments :
    ¬ ∀ (world : World) (state : State) (program soberArgs : Bytes) (vars : String → Option Bytes)
        (globbing : Globbing) (tree : Tree), state.trace = [] →
      .startedSober program soberArgs vars ∈ (launch world state).trace →
        soberArguments globbing tree world.cwd soberArgs = world.arguments := by
  intro hall
  obtain ⟨program, soberArgs, vars, hstarted, hlost⟩ := arguments_lost [bytes "a b"] (by decide)
  have hsame := hall (argumentsWorld [bytes "a b"]) fullTv program soberArgs vars byteGlobbing
    ⟨[([bytes "ab"], .file [])]⟩ rfl hstarted
  exact hlost hsame

end TizenRoblox.Launcher
