/-
# The world of the launcher

`launch.sh` runs on a TV. What it can change is the state: the file tree, its
variables, and the trace of what it said and started. What it only observes is
the world: the processes it can signal, which of its redirections succeed, the
answers of `ldconfig` and `dbus-launch`, and how each run of Sober will end.

Library directories are searched, linked and loaded through the tree, so links
and missing files behave here as they do on the TV. Time stamps in log lines are
left out, and a redirection, a `mkdir` or a link succeeds when the world says so.
The log may stop taking lines at any moment, when its disk is full: an `echo` is
then a command that fails.
-/

import Mathlib.Logic.Function.Basic
import TizenRoblox.Posix.Tree
import TizenRoblox.Shell.Command

namespace TizenRoblox.Launcher

open TizenRoblox.Foundation TizenRoblox.Posix TizenRoblox.Shell TizenRoblox.Shell.Command

/-- One run of Sober: its exit code, and `date +%s` when it has ended. -/
structure SoberRun where
  exitCode : ℕ
  endTime : ℤ
  deriving DecidableEq

/-- What a run of the launcher leaves behind for others to see. -/
inductive Event
  /-- A line for the log, and whether the log has taken it. -/
  | said (line : Bytes) (taken : Bool)
  /-- The input mapper was started in the background. -/
  | startedMapper
  /-- A program was started as Sober, with this text for its arguments and these
  variables. -/
  | startedSober (program arguments : Bytes) (vars : String → Option Bytes)
  /-- A process was sent SIGTERM. -/
  | terminated (pid : Bytes)

/-- Whether an event is a start of Sober. -/
def Event.isSober : Event → Bool
  | .startedSober _ _ _ => true
  | _ => false

/-- What the launcher observes and cannot change. -/
structure World where
  /-- The working directory. -/
  cwd : Path
  /-- The arguments of the script. -/
  arguments : List Bytes
  /-- `$$` -/
  pid : Bytes
  /-- The process id of the input mapper once it is started. -/
  mapperPid : Bytes
  /-- Whether `kill -0` finds the process a text names. -/
  alive : Bytes → Bool
  /-- Whether `mkdir -p` of a directory succeeds. -/
  mkdirOk : Bytes → Bool
  /-- Whether a redirection can open its file. -/
  openOk : Bytes → Bool
  /-- Whether a link can be made under a name. -/
  linkOk : Bytes → Bool
  /-- Whether the log takes a line when this is all that has happened. -/
  logOk : List Event → Bool
  /-- Whether `ldconfig -p` lists a library. -/
  cached : Bytes → Bool
  /-- The address and process id that `dbus-launch` prints when it succeeds. -/
  dbusLaunch : Option (Bytes × Bytes)
  /-- The expansion of the CPU governor pattern. -/
  governors : List Bytes
  /-- Whether `modprobe uinput` creates the device. -/
  modprobeOk : Bool

/-- A TV that creates and logs whatever it is asked to and has no other processes. -/
def quietWorld : World where
  cwd := []
  arguments := []
  pid := bytes "100"
  mapperPid := bytes "101"
  alive := fun _ => false
  mkdirOk := fun _ => true
  openOk := fun _ => true
  linkOk := fun _ => true
  logOk := fun _ => true
  cached := fun _ => false
  dbusLaunch := none
  governors := []
  modprobeOk := false

structure State where
  tree : Tree
  /-- Shell and environment variables. -/
  vars : String → Option Bytes
  trace : List Event
  /-- Whether `trap cleanup EXIT INT TERM` has been executed. -/
  trapped : Bool
  restartCount : ℤ
  windowStart : ℤ
  stopRestart : ℤ
  exitCode : ℕ
  now : ℤ
  /-- `$?` when Sober has ended. -/
  soberStatus : ℕ
  /-- What `date +%s` prints; the clock moves on while Sober runs. -/
  clock : ℤ
  /-- How the runs of Sober still to come will end. -/
  runs : List SoberRun

namespace State

/-- The state in which a launcher starts. -/
def initial (tree : Tree) (vars : String → Option Bytes) (clock : ℤ) (runs : List SoberRun) :
    State where
  tree := tree
  vars := vars
  trace := []
  trapped := false
  restartCount := 0
  windowStart := 0
  stopRestart := 0
  exitCode := 0
  now := 0
  soberStatus := 0
  clock := clock
  runs := runs

/-- `${NAME}`: an unset variable expands to nothing. -/
def get (state : State) (name : String) : Bytes := (state.vars name).getD []

/-- `${NAME:-fallback}` -/
def getOr (state : State) (name : String) (fallback : Bytes) : Bytes :=
  if state.get name = [] then fallback else state.get name

def setVariable (name : String) (value : Bytes) (state : State) : State :=
  { state with vars := Function.update state.vars name (some value) }

def record (event : Event) (state : State) : State :=
  { state with trace := state.trace ++ [event] }

def setTree (tree : Tree) (state : State) : State := { state with tree := tree }

/-- How often Sober has been started. -/
def soberStarts (state : State) : ℕ := state.trace.countP Event.isSober

@[simp] theorem setVariable_tree (name : String) (value : Bytes) (state : State) :
    (state.setVariable name value).tree = state.tree := rfl

@[simp] theorem setVariable_trace (name : String) (value : Bytes) (state : State) :
    (state.setVariable name value).trace = state.trace := rfl

@[simp] theorem setVariable_soberStarts (name : String) (value : Bytes) (state : State) :
    (state.setVariable name value).soberStarts = state.soberStarts := rfl

@[simp] theorem record_tree (event : Event) (state : State) :
    (state.record event).tree = state.tree := rfl

@[simp] theorem record_variables (event : Event) (state : State) :
    (state.record event).vars = state.vars := rfl

@[simp] theorem record_trace (event : Event) (state : State) :
    (state.record event).trace = state.trace ++ [event] := rfl

@[simp] theorem setTree_tree (tree : Tree) (state : State) :
    (state.setTree tree).tree = tree := rfl

@[simp] theorem setTree_trace (tree : Tree) (state : State) :
    (state.setTree tree).trace = state.trace := rfl

@[simp] theorem setTree_variables (tree : Tree) (state : State) :
    (state.setTree tree).vars = state.vars := rfl

@[simp] theorem setTree_soberStarts (tree : Tree) (state : State) :
    (state.setTree tree).soberStarts = state.soberStarts := rfl

theorem record_soberStarts (event : Event) (state : State) :
    (state.record event).soberStarts =
      state.soberStarts + if event.isSober then 1 else 0 := by
  simp [soberStarts, record, List.countP_singleton]

/-- The state after a line for the log. -/
def say (world : World) (line : Bytes) (state : State) : State :=
  state.record (.said line (world.logOk state.trace))

section Say

variable (world : World) (line : Bytes) (state : State)

@[simp] theorem say_tree : (state.say world line).tree = state.tree := rfl

@[simp] theorem say_variables : (state.say world line).vars = state.vars := rfl

@[simp] theorem say_trace :
    (state.say world line).trace = state.trace ++ [.said line (world.logOk state.trace)] := rfl

@[simp] theorem say_soberStarts : (state.say world line).soberStarts = state.soberStarts := by
  simp [say, record_soberStarts, Event.isSober]

end Say

end State

/-! ## Elementary commands -/

section Commands

variable (world : World)

/-- `echo` of a line that the state tells, into the log. -/
def say (line : State → Bytes) : Command State := .simple fun state =>
  (state.say world (line state), if world.logOk state.trace then 0 else 1)

/-- `echo line` into the log. -/
def echo (line : Bytes) : Command State := say world fun _ => line

/-- `NAME=value`, with or without `export`. -/
def assign (name : String) (value : State → Bytes) : Command State :=
  .act fun state => state.setVariable name (value state)

/-- A test of the file tree. -/
def fileTest (test : Tree → Path → Pathname → Bool) (file : Bytes) : Command State :=
  .test fun state => test state.tree world.cwd (.ofBytes file)

/-- `[ -f file ]` -/
def testF (file : Bytes) : Command State := fileTest world Tree.isFile file

/-- `[ -L file ]` -/
def testL (file : Bytes) : Command State := fileTest world Tree.isLink file

/-- `mkdir -p directory` -/
def mkdirP (directory : Bytes) : Command State := .simple fun state =>
  (state.setTree (state.tree.mkdirP world.cwd (.ofBytes directory)),
    if world.mkdirOk directory then 0 else 1)

/-- The tree after `ln -sf source target`, if the link can be made. -/
def linkedTree (source target : Bytes) (tree : Tree) : Option Tree :=
  if world.linkOk target then tree.lnSf world.cwd (.ofBytes source) (.ofBytes target) else none

theorem lnSf_of_linkedTree {source target : Bytes} {tree next : Tree}
    (hlinked : linkedTree world source target tree = some next) :
    tree.lnSf world.cwd (.ofBytes source) (.ofBytes target) = some next := by
  unfold linkedTree at hlinked
  split at hlinked
  · exact hlinked
  · cases hlinked

/-- `ln -sf source target` -/
def lnSf (source target : Bytes) : Command State := .attempt fun state =>
  (linkedTree world source target state.tree).map fun tree => state.setTree tree

/-- `rm -f file` -/
def rmF (file : Bytes) : Command State := .attempt fun state =>
  (state.tree.rmF world.cwd (.ofBytes file)).map fun tree => state.setTree tree

/-- `mv -f source target` -/
def mvF (source target : Bytes) : Command State := .attempt fun state =>
  (state.tree.mvF world.cwd (.ofBytes source) (.ofBytes target)).map fun tree =>
    state.setTree tree

/-- The state after `data` has been written to a file, if that can be done. -/
def written (file data : Bytes) (state : State) : State :=
  match state.tree.write world.cwd (.ofBytes file) data with
  | some tree => if world.openOk file then state.setTree tree else state
  | none => state

/-- The state after a file has been opened for appending: it exists, if it can. -/
def opened (file : Bytes) (state : State) : State :=
  match state.tree.stat world.cwd (.ofBytes file) with
  | some _ => state
  | none => written world file [] state

/-- `echo data > file` -/
def writeTo (file data : Bytes) : Command State := .simple fun state =>
  (written world file data state, if world.openOk file then 0 else 1)

/-- A redirection `>> file`. -/
def appendTo (file : Bytes) : Command State := .simple fun state =>
  (opened world file state, if world.openOk file then 0 else 1)

/-- `kill pid` -/
def kill (pid : State → Bytes) : Command State := .simple fun state =>
  if world.alive (pid state) then (state.record (.terminated (pid state)), 0) else (state, 1)

section Lines

variable {world} {strict : Bool} {state : State} (line : State → Bytes)

/-- The script goes on after a line: its status is tested, or the log takes it. -/
def Heard (world : World) (strict : Bool) (state : State) : Prop :=
  strict = false ∨ world.logOk state.trace = true

/-- A line that the log takes lets the script go on. -/
theorem say_of_taken (htaken : world.logOk state.trace = true) :
    say world line strict state = .done 0 (state.say world (line state)) := by
  simp [say, simple, htaken]

/-- Where its status is tested the script goes on after any line. -/
theorem say_tolerant :
    say world line false state =
      .done (if world.logOk state.trace then 0 else 1) (state.say world (line state)) :=
  simple_tested _ state

/-- Under `set -e` a line that the log does not take ends the script. -/
theorem say_refused (hrefused : world.logOk state.trace = false) :
    say world line true state = .exited 1 (state.say world (line state)) := by
  simp [say, simple, hrefused]

theorem passes_say (hheard : Heard world strict state) :
    Passes (say world line) strict state (state.say world (line state)) := by
  rcases hheard with rfl | htaken
  · exact ⟨_, say_tolerant line⟩
  · exact ⟨0, say_of_taken line htaken⟩

theorem passes_echo (line : Bytes) (hheard : Heard world strict state) :
    Passes (echo world line) strict state (state.say world line) :=
  passes_say _ hheard

theorem echo_refused (line : Bytes) (hrefused : world.logOk state.trace = false) :
    echo world line true state = .exited 1 (state.say world line) :=
  say_refused _ hrefused

/-- What no line changes survives an `echo`, whether or not the log takes the line. -/
theorem preserves_say {property : State → Prop}
    (hsaid : ∀ line taken state, property state → property (state.record (.said line taken))) :
    Preserves property (say world line) :=
  preserves_simple fun state hstate => hsaid _ _ state hstate

theorem preserves_echo {property : State → Prop} (line : Bytes)
    (hsaid : ∀ line taken state, property state → property (state.record (.said line taken))) :
    Preserves property (echo world line) :=
  preserves_say _ hsaid

end Lines

@[simp]
theorem written_soberStarts (file data : Bytes) (state : State) :
    (written world file data state).soberStarts = state.soberStarts := by
  unfold written
  split
  · split <;> rfl
  · rfl

@[simp]
theorem opened_soberStarts (file : Bytes) (state : State) :
    (opened world file state).soberStarts = state.soberStarts := by
  unfold opened
  split
  · rfl
  · simp

end Commands

end TizenRoblox.Launcher
