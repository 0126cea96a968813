/-
# What an ended launcher leaves behind

When a launcher has ended, its PID files should be gone and the input mapper it has
started should have been told to end, at whatever points signals have run `cleanup`
before. An early run of `cleanup` may miss a mapper that is started but not yet recorded;
the run at the exit makes up for that, as long as the mapper is recorded by then.

Under `set -e` two things may end `cleanup` too early. One is a PID file of somebody
else's. If the launcher is interrupted when the mapper is started and not recorded, and
`cleanup` itself is interrupted right after it has seen that file, then the inner
`cleanup` removes the file and the outer one fails to read it. The other is a log that
takes no more lines, for `cleanup` starts and ends with one. Launchers for which no moment
is of the first kind, and whose log takes those lines where it matters, leave nothing
behind (`leavesNothing_launchAmong`).

`cleanup` is followed through the stages of a mapper that is in hand, `InHand` first and
`TornDown` last. What lies between the two survives every trap (`Between`), and where a
trap ends the script all is done but for what a full log has cut off (`Quit`).
-/

import TizenRoblox.Launcher.Ownership

namespace TizenRoblox.Launcher

open TizenRoblox.Foundation TizenRoblox.Posix TizenRoblox.Shell TizenRoblox.Shell.Command

/-! ## The PID files -/

/-- In `/tmp` the PID files are regular files, or they are not there. -/
structure PlainFiles (tree : Tree) : Prop where
  tmp : tree.RealDir [bytes "tmp"]
  own : tree.Writable pidPlace
  input : tree.Writable inputPidPlace

section Files

variable {tree : Tree} {cwd : Path}

theorem PlainFiles.set (hfiles : PlainFiles tree) (name : Name) (data : Bytes) :
    PlainFiles (tree.set ([bytes "tmp"] ++ [name]) (.file data)) := by
  have hkept {place : Path} (hplace : tree.Writable place) :
      (tree.set ([bytes "tmp"] ++ [name]) (.file data)).Writable place := by
    unfold Tree.Writable
    rw [Tree.node_set]
    split
    · exact .inr ⟨data, rfl⟩
    · exact hplace
  exact ⟨hfiles.tmp.set name _, hkept hfiles.own, hkept hfiles.input⟩

theorem PlainFiles.erase (hfiles : PlainFiles tree) (name : Name) :
    PlainFiles (tree.erase ([bytes "tmp"] ++ [name])) := by
  have hkept {place : Path} (hplace : tree.Writable place) :
      (tree.erase ([bytes "tmp"] ++ [name])).Writable place := by
    unfold Tree.Writable
    rw [Tree.node_erase]
    split
    · exact .inl rfl
    · exact hplace
  exact ⟨hfiles.tmp.erase name, hkept hfiles.own, hkept hfiles.input⟩

theorem PlainFiles.stat_input (hfiles : PlainFiles tree) :
    tree.stat cwd (.ofBytes inputPidFile) = tree.node inputPidPlace := by
  rw [ofBytes_inputPidFile]
  exact hfiles.tmp.stat_child (by decide) hfiles.input.not_link

/-- The test of `cleanup` says whether the file is there. -/
theorem PlainFiles.isFile_input (hfiles : PlainFiles tree) :
    tree.isFile cwd (.ofBytes inputPidFile) = true ↔ tree.node inputPidPlace ≠ none := by
  rw [Tree.isFile, hfiles.stat_input]
  rcases hfiles.input with hnone | ⟨data, hdata⟩ <;> simp [*]

theorem PlainFiles.contents_input {data : Bytes} (hfiles : PlainFiles tree) :
    tree.contents cwd (.ofBytes inputPidFile) = some data ↔
      tree.node inputPidPlace = some (.file data) := by
  rw [Tree.contents, hfiles.stat_input]
  rcases hfiles.input with hnone | ⟨other, hother⟩ <;> simp [*]

theorem PlainFiles.rmF_input (hfiles : PlainFiles tree) :
    tree.rmF cwd (.ofBytes inputPidFile) = some (tree.erase inputPidPlace) := by
  rw [ofBytes_inputPidFile]
  exact hfiles.tmp.rmF_of_writable (by decide) hfiles.input

theorem PlainFiles.rmF_own (hfiles : PlainFiles tree) :
    tree.rmF cwd (.ofBytes pidFile) = some (tree.erase pidPlace) := by
  rw [ofBytes_pidFile]
  exact hfiles.tmp.rmF_of_writable (by decide) hfiles.own

theorem PlainFiles.write_input (hfiles : PlainFiles tree) (data : Bytes) :
    tree.write cwd (.ofBytes inputPidFile) data = some (tree.set inputPidPlace (.file data)) := by
  rw [ofBytes_inputPidFile]
  exact Tree.write_of_locate data
    (hfiles.tmp.locate_child_of_not_link (by decide) hfiles.input.not_link) hfiles.input

theorem PlainFiles.write_own (hfiles : PlainFiles tree) (data : Bytes) :
    tree.write cwd (.ofBytes pidFile) data = some (tree.set pidPlace (.file data)) := by
  rw [ofBytes_pidFile]
  exact Tree.write_of_locate data
    (hfiles.tmp.locate_child_of_not_link (by decide) hfiles.own.not_link) hfiles.own

end Files

/-! ## The stages of the mapper -/

section Stages

variable (world : World)

/-- A mapper that was started has been told to end, unless it has ended by itself. -/
def MapperEnded (trace : List Event) : Prop :=
  .startedMapper ∈ trace → world.alive world.mapperPid = true → .terminated world.mapperPid ∈ trace

/-- `INPUT_PID_FILE` names the mapper. -/
def NamesMapper (tree : Tree) : Prop :=
  ∃ data, tree.node inputPidPlace = some (.file data) ∧
    commandSubstitution data = world.mapperPid

/-- The mapper has ended, or can be found. -/
structure InHand (tree : Tree) (_vars : String → Option Bytes) (trace : List Event) : Prop where
  files : PlainFiles tree
  mapper : MapperEnded world trace ∨ NamesMapper world tree

/-- Nothing is left. -/
structure TornDown (tree : Tree) (_vars : String → Option Bytes) (trace : List Event) : Prop where
  files : PlainFiles tree
  own : tree.node pidPlace = none
  input : tree.node inputPidPlace = none
  mapper : MapperEnded world trace

/-- The file has been found, and is still there unless all is done. -/
def Found : Stage := fun tree vars trace =>
  InHand world tree vars trace ∧
    (tree.node inputPidPlace ≠ none ∨ TornDown world tree vars trace)

/-- The mapper has ended, or it is known which process it is. -/
structure Read (tree : Tree) (vars : String → Option Bytes) (trace : List Event) : Prop where
  files : PlainFiles tree
  mapper : MapperEnded world trace ∨
    NamesMapper world tree ∧ inputVar vars = world.mapperPid

/-- The mapper has ended. -/
structure Ended (tree : Tree) (_vars : String → Option Bytes) (trace : List Event) : Prop where
  files : PlainFiles tree
  mapper : MapperEnded world trace

/-- The mapper has ended and its file is gone. -/
structure Removed (tree : Tree) (_vars : String → Option Bytes) (trace : List Event) : Prop where
  files : PlainFiles tree
  mapper : MapperEnded world trace
  input : tree.node inputPidPlace = none

/-- The log has not taken the first line of `cleanup`, and the script has ended there. -/
def CutShort (trace : List Event) : Prop :=
  trace.getLast? = some (.said shuttingDownLine false)

/-- What holds where `cleanup` ends the script. -/
def Quit : Stage := fun tree vars trace =>
  TornDown world tree vars trace ∨ InHand world tree vars trace ∧ CutShort trace

/-- A stage of `cleanup`. -/
structure Between (stage : Stage) : Prop where
  least : ∀ tree vars trace, TornDown world tree vars trace → stage tree vars trace
  most : ∀ tree vars trace, stage tree vars trace → InHand world tree vars trace

variable {world} {tree : Tree} {vars : String → Option Bytes} {trace : List Event}

theorem MapperEnded.append {event : Event} (hended : MapperEnded world trace)
    (hevent : event ≠ .startedMapper) : MapperEnded world (trace ++ [event]) := by
  intro hstarted halive
  rcases List.mem_append.mp hstarted with hold | hnew
  · exact List.mem_append_left _ (hended hold halive)
  · exact absurd (List.mem_singleton.mp hnew).symm hevent

theorem InHand.append {event : Event} (hinHand : InHand world tree vars trace)
    (hevent : event ≠ .startedMapper) : InHand world tree vars (trace ++ [event]) :=
  ⟨hinHand.files, hinHand.mapper.imp_left fun hended => hended.append hevent⟩

theorem TornDown.append {event : Event} (htornDown : TornDown world tree vars trace)
    (hevent : event ≠ .startedMapper) : TornDown world tree vars (trace ++ [event]) :=
  { htornDown with mapper := htornDown.mapper.append hevent }

/-- A mapper in hand whose file is gone has ended. -/
theorem InHand.ended (hinHand : InHand world tree vars trace)
    (hnone : tree.node inputPidPlace = none) : MapperEnded world trace := by
  rcases hinHand.mapper with hended | ⟨data, hdata, _⟩
  · exact hended
  · rw [hnone] at hdata
    cases hdata

theorem between_inHand : Between world (InHand world) :=
  ⟨fun _ _ _ hdown => ⟨hdown.files, .inl hdown.mapper⟩, fun _ _ _ => id⟩

theorem between_found : Between world (Found world) :=
  ⟨fun _ _ _ hdown => ⟨between_inHand.least _ _ _ hdown, .inr hdown⟩, fun _ _ _ => And.left⟩

theorem between_read : Between world (Read world) :=
  ⟨fun _ _ _ hdown => ⟨hdown.files, .inl hdown.mapper⟩,
    fun _ _ _ hread => ⟨hread.files, hread.mapper.imp_right And.left⟩⟩

theorem between_ended : Between world (Ended world) :=
  ⟨fun _ _ _ hdown => ⟨hdown.files, hdown.mapper⟩,
    fun _ _ _ hended => ⟨hended.files, .inl hended.mapper⟩⟩

theorem between_removed : Between world (Removed world) :=
  ⟨fun _ _ _ hdown => ⟨hdown.files, hdown.mapper, hdown.input⟩,
    fun _ _ _ hremoved => ⟨hremoved.files, .inl hremoved.mapper⟩⟩

theorem between_tornDown : Between world (TornDown world) :=
  ⟨fun _ _ _ => id, between_inHand.least⟩

theorem Quit.inHand (hquit : Quit world tree vars trace) : InHand world tree vars trace :=
  hquit.elim (between_inHand.least _ _ _) And.left

theorem between_quit : Between world (Quit world) :=
  ⟨fun _ _ _ => .inl, fun _ _ _ => Quit.inHand⟩

end Stages

/-! ## A mapper in hand -/

section Cleanup

variable {world : World} {depth : ℕ}

/-- What `cleanup` does once the files are gone. -/
abbrev endingText (world : World) : Text := .block [
  .ifThen (.command 336 (.test fun state => state.get "DBUS_SESSION_BUS_PID" ≠ [])) <|
    .orTrue 337 (.command 337 (kill world fun state => state.get "DBUS_SESSION_BUS_PID")),
  .command 339 (echo world stoppedLine)]

/-- Once nothing is left, no command of `cleanup` changes that. -/
theorem tidy_tornDown : Stage.Tidy (TornDown world) where
  tmp _ _ _ htornDown := htornDown.files.tmp
  said _ _ _ _ _ htornDown := htornDown.append nofun
  terminated _ _ _ _ htornDown := htornDown.append nofun
  read _ _ _ _ htornDown := ⟨htornDown.files, htornDown.own, htornDown.input, htornDown.mapper⟩
  erased name _ _ _ htornDown :=
    ⟨htornDown.files.erase name, by simp [Tree.node_erase, htornDown.own],
      by simp [Tree.node_erase, htornDown.input], htornDown.mapper⟩

theorem tornDown_endingText : (endingText world).Each fun _ _ run =>
    Preserves (Stage.Of (TornDown world)) run :=
  ⟨⟨preserves_test, ⟨tidy_tornDown.kill _, preserves_skip⟩, trivial⟩, tidy_tornDown.echo _⟩

theorem survives_tornDown (depth : ℕ) :
    Survives (lookFor (handler world) depth) (At (TornDown world)) :=
  survives_lookFor ⟨fun _ _ hlive => hlive, fun _ _ hlive _ => hlive, fun _ _ hlive => hlive⟩
    (fun signal => (tidy_tornDown.handler signal).mono fun _ _ _ hrun => keeping_state hrun) depth

section Stagewise

variable (hsurvives : ∀ stage, Between world stage →
  SurvivesOr (lookFor (handler world) depth) (At stage) (At (Quit world)))
include hsurvives

theorem ensures_found :
    Ensures false (At (InHand world)) (among world depth (.command 330 (testF world inputPidFile)))
      ⟨At (Found world), At (Removed world), At (TornDown world), At (Quit world)⟩ := by
  refine ensures_test_or (fun live hlive hfile => ?_) (fun live hlive hfile => ?_)
    (hsurvives _ between_found) (hsurvives _ between_removed)
  · exact ⟨hlive, .inl (hlive.files.isFile_input.mp hfile)⟩
  · have hnone : live.state.tree.node inputPidPlace = none := by
      by_contra hsome
      rw [hlive.files.isFile_input.mpr hsome] at hfile
      cases hfile
    exact ⟨hlive.files, hlive.ended hnone, hnone⟩

/-- Where `cat` fails somebody else has removed the file, and that was `cleanup`. -/
theorem ensures_read :
    Ensures true (At (Found world))
      (among world depth (.command 331 (catInto world "INPUT_PID" inputPidFile)))
      ⟨At (Read world), At (Read world), At (TornDown world), At (Quit world)⟩ := by
  refine ensures_lift_or ?_ (hsurvives _ between_read) (hsurvives _ between_read)
    (hsurvives _ between_quit)
  rintro live ⟨hinHand, hfound⟩
  cases hdata : live.state.tree.contents world.cwd (.ofBytes inputPidFile) with
  | none =>
      have hfails : catInto world "INPUT_PID" inputPidFile true live.state =
          .exited 1 live.state := by simp [catInto, attempt, simple, hdata]
      rw [hfails]
      refine .inl (hfound.resolve_left fun hsome => ?_)
      rcases hinHand.files.input with hnone | ⟨data, hfile⟩
      · exact hsome hnone
      · rw [hinHand.files.contents_input.mpr hfile] at hdata
        cases hdata
  | some data =>
      have hfile := hinHand.files.contents_input.mp hdata
      have hread (hnames : NamesMapper world live.state.tree) :
          commandSubstitution data = world.mapperPid := by
        obtain ⟨other, hother, hpid⟩ := hnames
        obtain rfl : data = other := by simpa [hfile] using hother
        exact hpid
      rw [catInto, attempt_eq_done (by rw [hdata]; rfl)]
      refine ⟨hinHand.files, hinHand.mapper.imp_right fun hnames => ⟨hnames, ?_⟩⟩
      simpa [inputVar, Live.after, State.setVariable] using hread hnames

theorem ensures_killed :
    Ensures true (At (Read world)) (among world depth
        (.orTrue 332 (.command 332 (kill world fun state => state.get "INPUT_PID"))))
      ⟨At (Ended world), At (Ended world), At (TornDown world), At (Quit world)⟩ := by
  have hkill : Ensures false (At (Read world))
      (among world depth (.command 332 (kill world fun state => state.get "INPUT_PID")))
      ⟨At (Ended world), At (Ended world), At (TornDown world), At (Quit world)⟩ := by
    refine ensures_lift_or ?_ (hsurvives _ between_ended) (hsurvives _ between_ended)
      (hsurvives _ between_quit)
    intro live hlive
    rw [kill, simple_tested]
    split
    · next halive =>
        refine ⟨hlive.files, ?_⟩
        rcases hlive.mapper with hended | ⟨_, hpid⟩
        · exact hended.append nofun
        · intro _ _
          exact List.mem_append_right _
            (List.mem_singleton.mpr (congrArg Event.terminated hpid.symm))
    · next hdead =>
        refine ⟨hlive.files, ?_⟩
        rcases hlive.mapper with hended | ⟨_, hpid⟩
        · exact hended
        · intro _ halive
          rw [← hpid] at halive
          exact absurd halive hdead
  exact .orElse hkill (ensures_act_or (fun _ hlive => hlive) (hsurvives _ between_ended))

theorem ensures_removed :
    Ensures true (At (Ended world)) (among world depth (.command 333 (rmF world inputPidFile)))
      ⟨At (Removed world), At (Removed world), At (TornDown world), At (Quit world)⟩ := by
  refine ensures_lift_or ?_ (hsurvives _ between_removed) (hsurvives _ between_removed)
    (hsurvives _ between_quit)
  intro live hlive
  rw [rmF, attempt_eq_done (by rw [hlive.files.rmF_input]; rfl)]
  exact ⟨hlive.files.erase _, hlive.mapper, by simp [Live.after, State.setTree, Tree.node_erase]⟩

theorem ensures_tornDown :
    Ensures true (At (Removed world)) (among world depth (.command 335 (rmF world pidFile)))
      ⟨At (TornDown world), At (TornDown world), At (TornDown world), At (Quit world)⟩ := by
  have hdown := hsurvives _ between_tornDown
  refine ensures_lift_or ?_ hdown hdown (hsurvives _ between_quit)
  intro live hlive
  rw [rmF, attempt_eq_done (by rw [hlive.files.rmF_own]; rfl)]
  refine ⟨hlive.files.erase _, by simp [Live.after, State.setTree, Tree.node_erase], ?_,
    hlive.mapper⟩
  simp [Live.after, State.setTree, Tree.node_erase, hlive.input]

/-- The first line of `cleanup`. -/
theorem ensures_shuttingDown :
    Ensures true (At (InHand world))
      (among world depth (.command 329 (echo world shuttingDownLine)))
      ⟨At (InHand world), At (InHand world), At (TornDown world), At (Quit world)⟩ := by
  have hinHand := hsurvives _ between_inHand
  refine ensures_lift_or ?_ hinHand hinHand (hsurvives _ between_quit)
  intro live hlive
  cases htaken : world.logOk live.state.trace with
  | true =>
      rw [echo, say_of_taken _ htaken]
      exact hlive.append nofun
  | false =>
      rw [echo_refused _ htaken]
      exact .inr ⟨hlive.append nofun, by simp [CutShort, Live.after, htaken]⟩

/-- In whatever way `cleanup` is left, nothing is left behind, unless it is left at its first
line. -/
theorem ensures_cleanup :
    Ensures true (At (InHand world)) (among world depth (cleanupText world))
      ⟨At (TornDown world), At (TornDown world), At (TornDown world), At (Quit world)⟩ := by
  have hmissing : Ensures true (At (Removed world)) (among world depth .pass)
      ⟨At (Removed world), At (Removed world), At (TornDown world), At (Quit world)⟩ := by
    intro live hlive
    simp only [among, interrupted, skip_eq]
    exact hlive
  have hkilled := Ensures.seq (ensures_killed hsurvives) (ensures_removed hsurvives)
    (ensures_removed hsurvives)
  have hinput := Ensures.ifElse (ensures_found hsurvives)
    (.seq (ensures_read hsurvives) hkilled hkilled) hmissing
  have hkept : Preserves (At (TornDown world)) (among world depth (endingText world)) :=
    preserves_interrupted (survives_tornDown depth)
      (tornDown_endingText.mono fun _ _ _ hrun => keeping_state hrun)
  have hstays : Ensures true (At (TornDown world)) (among world depth (endingText world))
      ⟨At (TornDown world), At (TornDown world), At (TornDown world), At (Quit world)⟩ :=
    (Ensures.of_preserves hkept).mono (fun _ => id) (fun _ => id) (fun _ => id) (fun _ => id)
      fun _ => .inl
  have hremoved := Ensures.seq (ensures_tornDown hsurvives) hstays hstays
  have hboth := Ensures.seq hinput hremoved hremoved
  exact .seq (ensures_shuttingDown hsurvives) hboth hboth

theorem ensures_soberStopped {stage : Stage} (hstage : Between world stage) :
    Ensures true (At stage) (among world depth soberStopped)
      ⟨At stage, At stage, At stage, At (Quit world)⟩ :=
  ensures_act_or (fun _ hlive => hlive) (hsurvives stage hstage)

theorem kept_stage {stage : Stage} (hstage : Between world stage) :
    KeptByTrapsOr (lookFor (handler world) depth) (handler world) (At stage) (At (Quit world)) := by
  have hcleanup (live : Live State Signal) (line : ℕ) (hlive : At stage live) :
      (among world depth (cleanupText world) true live).Meets
        ⟨fun next => At stage (next.resume line), fun next => At stage (next.resume line),
          fun next => At stage (next.resume line), At (Quit world)⟩ :=
    (ensures_cleanup hsurvives live (hstage.most _ _ _ hlive)).mono
      (fun _ => hstage.least _ _ _) (fun _ => hstage.least _ _ _) (fun _ => hstage.least _ _ _)
      fun _ => id
  intro signal live hlive _
  cases signal with
  | int => exact hcleanup _ live.line hlive
  | term => exact hcleanup _ live.line hlive
  | usr1 => exact ensures_soberStopped hsurvives hstage (live.enter .usr1) hlive

end Stagewise

/-- The stages survive the traps. -/
theorem survives_stage {stage : Stage} (hstage : Between world stage) (depth : ℕ) :
    SurvivesOr (lookFor (handler world) depth) (At stage) (At (Quit world)) := by
  let properties (index : {stage : Stage // Between world stage}) := At index.1
  have hfamily : ∀ index, SurvivesOr (lookFor (handler world) depth) (properties index)
      (At (Quit world)) := by
    apply survivesOr_family
    · exact fun _ _ _ hlive => hlive
    · exact fun depth hsurvives index =>
        kept_stage (fun stage hstage => hsurvives ⟨stage, hstage⟩) index.2
  exact hfamily ⟨stage, hstage⟩

end Cleanup

/-! ## A mapper that is being recorded -/

section Moments

variable (world : World)

/-- `cleanup` cannot find a mapper that is running. -/
def Loose (state : State) : Prop :=
  ¬ (MapperEnded world state.trace ∨ NamesMapper world state.tree)

/-- If the mapper cannot be found when a trap starts, then `cleanup` has not just found
another file, and the log takes its first line. -/
def Orderly (moment : Moment State Signal) : Prop :=
  Loose world moment.state →
    (moment.line = 330 → moment.state.tree.node inputPidPlace = none) ∧
      world.logOk moment.state.trace = true

/-- The log has not taken the last line of `cleanup` while the mapper was running. -/
def Hindered : Stage := fun _ _ trace =>
  ∃ front back, trace = front ++ .said stoppedLine false :: back ∧ ¬ MapperEnded world front

/-- SIGUSR1 has no trap yet. -/
def NoFlag (live : Live State Signal) : Prop := .usr1 ∉ live.caught

/-- The mapper may have been started without being recorded. -/
structure Starting (live : Live State Signal) : Prop where
  files : PlainFiles live.state.tree
  noFlag : NoFlag live

/-- `cleanup` has found a file while the mapper is not in hand. -/
structure Exposed (live : Live State Signal) : Prop extends Starting live where
  line : live.line = 330
  found : live.state.tree.node inputPidPlace ≠ none
  loose : Loose world live.state

/-- A trap has started whose first line the log takes, if that matters. -/
structure Entered (live : Live State Signal) : Prop extends Starting live where
  heard : Loose world live.state → world.logOk live.state.trace = true

/-- Or else a trap has started at a moment that was not orderly, or the log has failed. -/
abbrev Barring (property : Live State Signal → Prop) (live : Live State Signal) : Prop :=
  At (Hindered world) live ∨ Missed (Orderly world) live ∨ property live

/-- The mapper is in hand. -/
abbrev Over : Live State Signal → Prop :=
  Barring world fun live => At (InHand world) live ∧ NoFlag live

/-- `cleanup` has found a file. -/
abbrev Gap : Live State Signal → Prop :=
  Barring world fun live => At (Found world) live ∧ NoFlag live ∨ Exposed world live

end Moments

section Recording

variable {world : World} {depth : ℕ}

/-! ### What is barred -/

theorem Mild.keeping_noFlag {line : ℕ} {signals : List Signal} {run : Command State}
    (hrun : Mild signals run) : Keeping NoFlag line signals run := by
  intro strict live hlive
  simpa [NoFlag, Live.after, hrun.untrapped] using hlive

theorem survives_noFlag (depth : ℕ) : Survives (lookFor (handler world) depth) NoFlag :=
  survives_lookFor ⟨fun _ _ hlive => hlive, fun _ _ hlive _ => hlive, fun _ _ hlive => hlive⟩
    (fun signal => (mild_handler signal).mono fun _ _ _ hrun => hrun.keeping_noFlag) depth

theorem Hindered.append {event : Event} {tree : Tree} {vars : String → Option Bytes}
    {trace : List Event} (hhindered : Hindered world tree vars trace) :
    Hindered world tree vars (trace ++ [event]) := by
  obtain ⟨front, back, rfl, hrunning⟩ := hhindered
  exact ⟨front, back ++ [event], by simp, hrunning⟩

theorem aloof_hindered : Aloof (Stage.Of (Hindered world)) where
  record _ _ _ hstate := hstate.append
  setTree _ _ hstate := hstate
  setVariable _ _ _ _ hstate := hstate
  trap _ hstate := hstate
  counters _ _ _ _ _ hstate := hstate

theorem survives_hindered (depth : ℕ) :
    Survives (lookFor (handler world) depth) (At (Hindered world)) :=
  survives_lookFor ⟨fun _ _ hlive => hlive, fun _ _ hlive _ => hlive, fun _ _ hlive => hlive⟩
    (fun signal => (mild_handler signal).mono fun _ _ _ hrun =>
      keeping_state (hrun.preserves _ aloof_hindered)) depth

/-- What is barred needs no more care. -/
theorem survives_barring {property ends : Live State Signal → Prop}
    (hsurvives : SurvivesOr (lookFor (handler world) depth) property ends) :
    SurvivesOr (lookFor (handler world) depth) (Barring world property) (Barring world ends) :=
  ((survives_hindered depth).or fun _ => .inl).either (hsurvives.missed_or.mono fun _ => .inr)

theorem ensures_barring {strict : Bool} {text : Text} (htext : text.Each fun _ => Mild)
    {before yes no out ends : Live State Signal → Prop}
    (hensures : Ensures strict before (among world depth text)
      ⟨Barring world yes, Barring world no, Barring world out, Barring world ends⟩) :
    Ensures strict (Barring world before) (among world depth text)
      ⟨Barring world yes, Barring world no, Barring world out, Barring world ends⟩ := by
  have hhindered : Preserves (At (Hindered world)) (among world depth text) :=
    preserves_interrupted (survives_hindered depth)
      (htext.mono fun _ _ _ hrun => keeping_state (hrun.preserves _ aloof_hindered))
  have hmissed : Preserves (Missed (Orderly world)) (among world depth text) :=
    preserves_missed depth text
  refine .either ((Ensures.of_preserves hhindered).mono (fun _ => id) (fun _ => .inl)
    (fun _ => .inl) (fun _ => .inl) fun _ => .inl) (.either ?_ hensures)
  exact (Ensures.of_preserves hmissed).mono (fun _ => id) (fun _ hlive => .inr (.inl hlive))
    (fun _ hlive => .inr (.inl hlive)) (fun _ hlive => .inr (.inl hlive))
    fun _ hlive => .inr (.inl hlive)

/-! ### The stages in between -/

theorem survives_inHand (depth : ℕ) :
    Survives (lookFor (handler world) depth) (At (InHand world)) :=
  (survives_stage between_inHand depth).mono fun _ => Quit.inHand

theorem survives_over (depth : ℕ) : Survives (lookFor (handler world) depth) (Over world) :=
  survives_barring (SurvivesOr.and (survives_inHand depth) (survives_noFlag depth))

/-- The moment after the test of `cleanup` is the only one that matters. -/
theorem survives_gap (depth : ℕ) :
    SurvivesOr (lookFor (handler world) depth) (Gap world) (Over world) := by
  have hfound : SurvivesOr (lookFor (handler world) depth)
      (Barring world fun live => At (Found world) live ∧ NoFlag live) (Over world) :=
    survives_barring (((survives_stage between_found depth).mono fun _ => Quit.inHand).and
      (survives_noFlag depth))
  have hexposed : SurvivesOr (lookFor (handler world) depth)
      (fun live => Missed (Orderly world) live ∨ Exposed world live) (Missed (Orderly world)) := by
    apply survivesOr_of_unfit
    · exact fun _ _ hlive =>
        ⟨⟨hlive.files, hlive.noFlag⟩, hlive.line, hlive.found, hlive.loose⟩
    · intro live signal hlive _ horderly
      exact hlive.found ((horderly hlive.loose).1 hlive.line)
  have heither := hfound.either (hexposed.mono fun _ hmissed => .inr (.inl hmissed))
  intro live hlive
  exact (heither live (by tauto)).mono (fun _ _ => by tauto) (fun _ => id) (fun _ => id) fun _ => id

section Stagewise

variable (hsurvives : SurvivesOr (lookFor (handler world) depth) (Barring world Starting)
  (Over world))
include hsurvives

/-- A command that leaves the files alone and does not end the script. -/
theorem ensures_starting {strict : Bool} {line : ℕ} {run : Command State} (hmild : Mild [] run)
    (hrun : ∀ state, PlainFiles state.tree → (run strict state).Meets
      ⟨fun next => PlainFiles next.tree, fun next => PlainFiles next.tree, fun _ => False,
        fun _ => False⟩) :
    Ensures strict (Barring world Starting) (among world depth (.command line run))
      ⟨Barring world Starting, Barring world Starting, Over world, Over world⟩ := by
  refine @ensures_barring world depth strict (.command line run) hmild _ _ _ _ _
    (ensures_lift_or ?_ hsurvives hsurvives (survives_over depth))
  intro live hlive
  exact (hrun live.state hlive.files).mono (fun _ hfiles => .inr (.inr ⟨hfiles, hlive.noFlag⟩))
    (fun _ hfiles => .inr (.inr ⟨hfiles, hlive.noFlag⟩)) (fun _ => False.elim) fun _ => False.elim

/-- A line after which the script goes on, unless the log does not take it. -/
theorem ensures_line {before : Live State Signal → Prop} {line : ℕ} {text : Bytes}
    (hstarting : ∀ live, before live → Starting live)
    (hrefused : ∀ live, before live → world.logOk live.state.trace = false →
      Over world (live.after line [] (live.state.say world text))) :
    Ensures true (Barring world before) (among world depth (.command line (echo world text)))
      ⟨Barring world Starting, Barring world Starting, Over world, Over world⟩ := by
  refine @ensures_barring world depth true (.command line (echo world text)) (mild_said _) _ _ _ _ _
    (ensures_lift_or ?_ hsurvives hsurvives (survives_over depth))
  intro live hlive
  have hafter := hstarting live hlive
  cases htaken : world.logOk live.state.trace with
  | true =>
      rw [echo, say_of_taken _ htaken]
      exact .inr (.inr ⟨hafter.files, hafter.noFlag⟩)
  | false =>
      rw [echo_refused _ htaken]
      exact hrefused live hlive htaken

theorem ensures_entered :
    Ensures true (Barring world (Entered world))
      (among world depth (.command 329 (echo world shuttingDownLine)))
      ⟨Barring world Starting, Barring world Starting, Over world, Over world⟩ := by
  refine ensures_line hsurvives (fun _ hlive => hlive.toStarting) fun live hlive hrefused => ?_
  have hmapper : MapperEnded world live.state.trace ∨ NamesMapper world live.state.tree := by
    by_contra hloose
    rw [hlive.heard hloose] at hrefused
    cases hrefused
  have hinHand : InHand world live.state.tree live.state.vars live.state.trace :=
    ⟨hlive.files, hmapper⟩
  exact .inr (.inr ⟨hinHand.append nofun, hlive.noFlag⟩)

theorem ensures_stopped :
    Ensures true (Barring world Starting)
      (among world depth (.command 339 (echo world stoppedLine)))
      ⟨Barring world Starting, Barring world Starting, Over world, Over world⟩ := by
  refine ensures_line hsurvives (fun _ => id) fun live hlive hrefused => ?_
  by_cases hended : MapperEnded world live.state.trace
  · exact .inr (.inr ⟨⟨hlive.files, .inl (hended.append nofun)⟩, hlive.noFlag⟩)
  · exact .inl ⟨live.state.trace, [], by simp [Live.after, hrefused], hended⟩

theorem ensures_tested (line : ℕ) (condition : State → Bool) :
    Ensures false (Barring world Starting) (among world depth (.command line (.test condition)))
      ⟨Barring world Starting, Barring world Starting, Over world, Over world⟩ := by
  apply ensures_starting hsurvives (mild_test _)
  intro state hfiles
  rw [test_tested]
  split <;> exact hfiles

theorem ensures_killedAny (line : ℕ) (pid : State → Bytes) :
    Ensures true (Barring world Starting)
      (among world depth (.orTrue line (.command line (kill world pid))))
      ⟨Barring world Starting, Barring world Starting, Over world, Over world⟩ := by
  have hkill : Ensures false (Barring world Starting)
      (among world depth (.command line (kill world pid)))
      ⟨Barring world Starting, Barring world Starting, Over world, Over world⟩ := by
    apply ensures_starting hsurvives (mild_kill _)
    intro state hfiles
    rw [kill, simple_tested]
    split <;> exact hfiles
  exact .orElse hkill (ensures_starting hsurvives mild_skip fun _ hfiles => hfiles)

theorem ensures_gap :
    Ensures false (Barring world Starting)
      (among world depth (.command 330 (testF world inputPidFile)))
      ⟨Gap world, Barring world Starting, Over world, Over world⟩ := by
  refine @ensures_barring world depth false (.command 330 (testF world inputPidFile))
    (mild_test _) _ _ _ _ _ (ensures_test_or (fun live hlive hfile => ?_)
      (fun live hlive _ => ?_) (survives_gap depth) hsurvives)
  · have hfound := hlive.files.isFile_input.mp hfile
    by_cases hmapper : MapperEnded world live.state.trace ∨ NamesMapper world live.state.tree
    · exact .inr (.inr (.inl ⟨⟨⟨hlive.files, hmapper⟩, .inl hfound⟩, hlive.noFlag⟩))
    · exact .inr (.inr (.inr ⟨⟨hlive.files, hlive.noFlag⟩, rfl, hfound, hmapper⟩))
  · exact .inr (.inr ⟨hlive.files, hlive.noFlag⟩)

/-- Where no trap has come in between the file is still there, and where the mapper was in
hand `cat` fails only when all is done. -/
theorem ensures_caught :
    Ensures true (Gap world)
      (among world depth (.command 331 (catInto world "INPUT_PID" inputPidFile)))
      ⟨Barring world Starting, Barring world Starting, Over world, Over world⟩ := by
  have hmild :
      (.command 331 (catInto world "INPUT_PID" inputPidFile) : Text).Each fun _ => Mild :=
    ⟨rfl, fun _ haloof => haloof.plain.catInto world _ _ (by decide)⟩
  have hkeeps : Preserves NoFlag
      (among world depth (.command 331 (catInto world "INPUT_PID" inputPidFile))) :=
    preserves_interrupted (survives_noFlag depth)
      (hmild.mono fun _ _ _ hrun => hrun.keeping_noFlag)
  have hread := (ensures_read fun stage hstage => survives_stage hstage depth).and_preserves hkeeps
  have hfound : Ensures true (fun live => At (Found world) live ∧ NoFlag live)
      (among world depth (.command 331 (catInto world "INPUT_PID" inputPidFile)))
      ⟨Barring world Starting, Barring world Starting, Over world, Over world⟩ :=
    hread.mono (fun _ => id) (fun _ hlive => .inr (.inr ⟨hlive.1.files, hlive.2⟩))
      (fun _ hlive => .inr (.inr ⟨hlive.1.files, hlive.2⟩))
      (fun _ hlive => .inr (.inr ⟨between_inHand.least _ _ _ hlive.1, hlive.2⟩))
      fun _ hlive => .inr (.inr ⟨hlive.1.inHand, hlive.2⟩)
  have hexposed : Ensures true (Exposed world)
      (among world depth (.command 331 (catInto world "INPUT_PID" inputPidFile)))
      ⟨Barring world Starting, Barring world Starting, Over world, Over world⟩ := by
    refine ensures_lift_or ?_ hsurvives hsurvives (survives_over depth)
    intro live hlive
    obtain ⟨data, hdata⟩ := hlive.files.input.resolve_left hlive.found
    have hcontents : live.state.tree.contents world.cwd (.ofBytes inputPidFile) = some data :=
      hlive.files.contents_input.mpr hdata
    rw [catInto, attempt_eq_done (by rw [hcontents]; rfl)]
    exact .inr (.inr ⟨hlive.files, hlive.noFlag⟩)
  exact ensures_barring hmild (.either hfound hexposed)

/-- While the mapper is being recorded `cleanup` ends the script only if it is in hand. -/
theorem ensures_cleanup_starting :
    Ensures true (Barring world (Entered world)) (among world depth (cleanupText world))
      ⟨Barring world Starting, Barring world Starting, Over world, Over world⟩ := by
  have hremoved : Ensures true (Barring world Starting)
      (among world depth (.command 333 (rmF world inputPidFile)))
      ⟨Barring world Starting, Barring world Starting, Over world, Over world⟩ := by
    apply ensures_starting hsurvives (mild_rmF _)
    intro state hfiles
    rw [rmF, attempt_eq_done (by rw [hfiles.rmF_input]; rfl)]
    exact hfiles.erase _
  have hown : Ensures true (Barring world Starting)
      (among world depth (.command 335 (rmF world pidFile)))
      ⟨Barring world Starting, Barring world Starting, Over world, Over world⟩ := by
    apply ensures_starting hsurvives (mild_rmF _)
    intro state hfiles
    rw [rmF, attempt_eq_done (by rw [hfiles.rmF_own]; rfl)]
    exact hfiles.erase _
  have hskip : Ensures true (Barring world Starting) (among world depth .pass)
      ⟨Barring world Starting, Barring world Starting, Over world, Over world⟩ := by
    intro live hlive
    simp only [among, interrupted, skip_eq]
    exact hlive
  have hlast := ensures_stopped hsurvives
  have hsession := Ensures.ifElse (ensures_tested hsurvives 336 fun state =>
    state.get "DBUS_SESSION_BUS_PID" ≠ [])
    (ensures_killedAny hsurvives 337 fun state => state.get "DBUS_SESSION_BUS_PID") hskip
  have hstopped := Ensures.seq hsession hlast hlast
  have hfiles := Ensures.seq hown hstopped hstopped
  have hkilled := Ensures.seq
    (ensures_killedAny hsurvives 332 fun state => state.get "INPUT_PID") hremoved hremoved
  have hinput := Ensures.ifElse (ensures_gap hsurvives)
    (.seq (ensures_caught hsurvives) hkilled hkilled) hskip
  have hboth := Ensures.seq hinput hfiles hfiles
  exact .seq (ensures_entered hsurvives) hboth hboth

end Stagewise

theorem Starting.barring (live : Live State Signal) {next : Live State Signal}
    (hstate : next.state = live.state) (hcaught : next.caught = live.caught)
    (hhandled : next.handled = live.handled) (hlive : Barring world Starting live) :
    Barring world Starting next := by
  refine hlive.imp (fun hhindered => ?_) (Or.imp (fun hmissed => ?_) fun hstarting => ?_)
  · rwa [At, hstate]
  · rwa [Missed, hhandled]
  · exact ⟨hstate ▸ hstarting.files, by rw [NoFlag, hcaught]; exact hstarting.noFlag⟩

theorem survives_starting (depth : ℕ) :
    SurvivesOr (lookFor (handler world) depth) (Barring world Starting) (Over world) := by
  have hresume (live : Live State Signal) (line : ℕ) (hlive : Barring world Starting live) :
      Barring world Starting (live.resume line) := Starting.barring live rfl rfl rfl hlive
  have hover (live : Live State Signal) (line : ℕ) (hlive : Over world live) :
      Barring world Starting (live.resume line) :=
    hresume live line (hlive.imp_right (Or.imp_right fun h => ⟨h.1.files, h.2⟩))
  refine survivesOr_of_handlers (fun live later hlive => Starting.barring live rfl rfl rfl hlive)
    (fun depth hsurvives signal live hlive hcaught => ?_) depth
  have hcleanup (hentered : Barring world (Entered world) (live.enter signal)) :
      (among world depth (cleanupText world) true (live.enter signal)).Meets
        ⟨fun next => Barring world Starting (next.resume live.line),
          fun next => Barring world Starting (next.resume live.line),
          fun next => Barring world Starting (next.resume live.line), Over world⟩ :=
    (ensures_cleanup_starting hsurvives _ hentered).mono (fun next => hresume next _)
      (fun next => hresume next _) (fun next => hover next _) fun _ => id
  have hentered : Barring world (Entered world) (live.enter signal) := by
    rcases hlive with hhindered | hmissed | hstarting
    · exact .inl hhindered
    · exact .inr (.inl (calm_missed.enter live signal hmissed hcaught))
    · by_cases horderly : Orderly world ⟨signal, live.line, live.state⟩
      · exact .inr (.inr ⟨⟨hstarting.files, hstarting.noFlag⟩, fun hloose => (horderly hloose).2⟩)
      · exact .inr (.inl (missed_enter horderly))
  cases signal with
  | int => exact hcleanup hentered
  | term => exact hcleanup hentered
  | usr1 =>
      -- The trap is not set yet, unless something has been barred already.
      have hnever : Ensures true (fun _ => False) (among world depth (handler world .usr1))
          ⟨Over world, Over world, Over world, Over world⟩ := fun _ => False.elim
      have hflag := ensures_barring (mild_handler .usr1) hnever (live.enter .usr1)
        (hlive.imp id (Or.imp (calm_missed.enter live .usr1 · hcaught) fun hstarting =>
          hstarting.noFlag hcaught))
      exact hflag.mono (fun next => hover next _) (fun next => hover next _)
        (fun next => hover next _) fun _ => id

end Recording

/-! ## The script -/

section Script

variable {world : World} (installDir : Bytes) (depth : ℕ)

/-- The mapper has not been started. -/
def NotStarted (live : Live State Signal) : Prop := .startedMapper ∉ live.state.trace

/-- The mapper is in hand. -/
abbrev Caught (world : World) : Live State Signal → Prop := Barring world (At (InHand world))

theorem survives_caught (depth : ℕ) : Survives (lookFor (handler world) depth) (Caught world) :=
  survives_barring (survives_inHand depth)

theorem Over.caught {live : Live State Signal} (hlive : Over world live) : Caught world live :=
  hlive.imp_right (Or.imp_right And.left)

/-- A command after which the mapper is in hand. -/
theorem ensures_caughtBy {line : ℕ} {run : Command State} {before : Live State Signal → Prop}
    (hmild : Mild [] run) (hrun : ∀ live, before live → Starting live →
      (run true live.state).Meets (.always (Stage.Of (InHand world)))) :
    Ensures true (fun live => Barring world Starting live ∧ before live)
      (among world depth (.command line run)) (.always (Caught world)) := by
  have hcaught := @survives_caught world depth
  have hlift : Ensures true (fun live => Starting live ∧ before live)
      (among world depth (.command line run)) (.always (Caught world)) := by
    refine ensures_lift ?_ hcaught hcaught hcaught (fun _ => id) fun _ => id
    rintro live ⟨hstarting, hbefore⟩
    exact (hrun live hbefore hstarting).mono (fun _ hinHand => .inr (.inr hinHand))
      (fun _ hinHand => .inr (.inr hinHand)) (fun _ hinHand => .inr (.inr hinHand))
      fun _ hinHand => .inr (.inr hinHand)
  rintro live ⟨hlive, hbefore⟩
  exact @ensures_barring world depth true (.command line run) hmild _ _ _ _ _ hlift live
    (hlive.imp_right (Or.imp_right fun hstarting => ⟨hstarting, hbefore⟩))

/-- What comes once the mapper is in hand. -/
theorem ensures_caught_text {text : Text}
    (hhindered : text.Each fun _ _ run => Preserves (Stage.Of (Hindered world)) run)
    (hinHand : text.Each fun _ _ run => Preserves (Stage.Of (InHand world)) run) :
    Ensures true (Caught world) (among world depth text) (.always (Caught world)) := by
  have hkept : Preserves (At (Hindered world)) (among world depth text) :=
    preserves_interrupted (survives_hindered depth) (hhindered.mono fun _ _ _ => keeping_state)
  have hcaught : Preserves (fun live => Missed (Orderly world) live ∨ At (InHand world) live)
      (among world depth text) :=
    preserves_interrupted (survives_inHand depth).missed_or
      (hinHand.mono fun _ _ _ hrun strict live hlive => Or.imp_right (hrun strict live.state) hlive)
  rintro live (hlive | hlive)
  · exact Outcome.meets_always.mpr (.inl (hkept true live hlive))
  · exact Outcome.meets_always.mpr (.inr (hcaught true live hlive))

theorem steady_hindered : Stage.Steady (Hindered world) where
  said _ _ _ _ _ hhindered := hhindered.append
  started _ _ _ _ _ _ hhindered := hhindered.append
  assigned _ _ _ _ hhindered := hhindered

theorem steady_inHand : Stage.Steady (InHand world) where
  said _ _ _ _ _ hinHand := hinHand.append nofun
  started _ _ _ _ _ _ hinHand := hinHand.append nofun
  assigned _ _ _ _ hinHand := ⟨hinHand.files, hinHand.mapper⟩

theorem inHand_writeTo (data : Bytes) :
    Preserves (Stage.Of (InHand world)) (writeTo world pidFile data) := by
  apply preserves_simple
  intro state hstate
  rw [written, hstate.files.write_own]
  simp only
  split
  · refine ⟨hstate.files.set _ _, hstate.mapper.imp_right ?_⟩
    rintro ⟨other, hother, hpid⟩
    exact ⟨other, (Tree.node_set_of_ne _ _ (by decide)).trans hother, hpid⟩
  · exact hstate

/-- The launcher starts its mapper nowhere else. -/
theorem plain_notStarted : Plain fun state : State => .startedMapper ∉ state.trace where
  said line taken state hstate := by simpa using hstate
  setTree _ _ hstate := hstate
  setVariable _ _ _ _ hstate := hstate

theorem notStarted_cleanupText : (cleanupText world).Each fun _ _ run =>
    Preserves (fun state => .startedMapper ∉ state.trace) run := by
  have hkill (pid : State → Bytes) :
      Preserves (fun state => .startedMapper ∉ state.trace) (kill world pid) := by
    apply preserves_simple
    intro state hstate
    split
    · simpa using hstate
    · exact hstate
  have hplain := plain_notStarted
  exact ⟨hplain.echo world _,
    ⟨preserves_test, ⟨hplain.catInto world _ _ (by decide), ⟨hkill _, preserves_skip⟩,
      hplain.rmF world _⟩, trivial⟩,
    hplain.rmF world _, ⟨preserves_test, ⟨hkill _, preserves_skip⟩, trivial⟩, hplain.echo world _⟩

theorem survives_notStarted (depth : ℕ) : Survives (lookFor (handler world) depth) NotStarted := by
  apply survives_lookFor
  · exact ⟨fun _ _ hlive => hlive, fun _ _ hlive _ => hlive, fun _ _ hlive => hlive⟩
  · intro signal
    cases signal with
    | int => exact notStarted_cleanupText.mono fun _ _ _ hrun => keeping_state hrun
    | term => exact notStarted_cleanupText.mono fun _ _ _ hrun => keeping_state hrun
    | usr1 =>
        have hset : Preserves (fun state : State => .startedMapper ∉ state.trace)
            (.act fun state => { state with stopRestart := 1 }) :=
          preserves_act fun _ hstate => hstate
        exact fun strict live hlive => hset strict live.state hlive

theorem ensures_mapperTest :
    Ensures false (fun live => Barring world Starting live ∧ NotStarted live)
      (among world depth (.command 343 (testF world (inputMapperBin installDir))))
      ⟨fun live => Barring world Starting live ∧ NotStarted live,
        fun live => Barring world Starting live ∧ NotStarted live, Caught world, Caught world⟩ := by
  have hkept : Preserves NotStarted
      (among world depth (.command 343 (testF world (inputMapperBin installDir)))) := by
    have htested : Preserves (fun state : State => .startedMapper ∉ state.trace)
        (testF world (inputMapperBin installDir)) := preserves_test
    have htext : (.command 343 (testF world (inputMapperBin installDir)) : Text).Each
        (Keeping NotStarted) := fun strict live hlive => htested strict live.state hlive
    exact preserves_interrupted (survives_notStarted depth) htext
  have htest : Ensures false (Barring world Starting)
      (among world depth (.command 343 (testF world (inputMapperBin installDir))))
      ⟨Barring world Starting, Barring world Starting, Over world, Over world⟩ :=
    ensures_tested (survives_starting depth) 343 _
  exact (htest.and_preserves hkept).mono (fun _ => id) (fun _ => id) (fun _ => id)
    (fun _ hlive => hlive.1.caught) fun _ hlive => hlive.1.caught

/-- A mapper that has not been started needs no end. -/
theorem NotStarted.inHand {live : Live State Signal} (hnot : NotStarted live)
    (hfiles : PlainFiles live.state.tree) : At (InHand world) live :=
  ⟨hfiles, .inl fun hstarted => absurd hstarted hnot⟩

theorem ensures_announced (line : ℕ) (text : Bytes) :
    Ensures true (fun live => Barring world Starting live ∧ NotStarted live)
      (among world depth (.command line (echo world text)))
      ⟨Barring world Starting, Barring world Starting, Caught world, Caught world⟩ := by
  have hsaid : Ensures true (Barring world fun live => Starting live ∧ NotStarted live)
      (among world depth (.command line (echo world text)))
      ⟨Barring world Starting, Barring world Starting, Over world, Over world⟩ := by
    refine ensures_line (survives_starting depth) (fun _ => And.left) fun live hlive _ => ?_
    exact .inr (.inr ⟨(hlive.2.inHand hlive.1.files).append nofun, hlive.1.noFlag⟩)
  exact hsaid.mono
    (fun _ hlive => hlive.1.imp_right (Or.imp_right fun hstarting => ⟨hstarting, hlive.2⟩))
    (fun _ => id) (fun _ => id) (fun _ hlive => hlive.caught) fun _ hlive => hlive.caught

/-- What comes before the mapper is recorded. -/
theorem ensures_before (line : ℕ) {run : Command State} (hmild : Mild [] run)
    (hrun : ∀ state, PlainFiles state.tree → (run true state).Meets
      ⟨fun next => PlainFiles next.tree, fun next => PlainFiles next.tree, fun _ => False,
        fun _ => False⟩) :
    Ensures true (Barring world Starting) (among world depth (.command line run))
      ⟨Barring world Starting, Barring world Starting, Caught world, Caught world⟩ :=
  (ensures_starting (survives_starting depth) hmild hrun).mono (fun _ => id) (fun _ => id)
    (fun _ => id) (fun _ hlive => hlive.caught) fun _ hlive => hlive.caught

/-- The mapper is recorded. -/
theorem ensures_recorded (hopen : world.openOk inputPidFile = true) (hnul : nul ∉ world.mapperPid)
    (hnewline : newline ∉ world.mapperPid) :
    Ensures true (Barring world Starting)
      (among world depth (.command 347 (writeTo world inputPidFile (world.mapperPid ++ [newline]))))
      (.always (Caught world)) := by
  have hrecorded : Ensures true (fun live => Barring world Starting live ∧ True)
      (among world depth (.command 347 (writeTo world inputPidFile (world.mapperPid ++ [newline]))))
      (.always (Caught world)) := by
    apply ensures_caughtBy depth (mild_writeTo _ _)
    intro live _ hlive
    simp only [writeTo, simple, written, hlive.files.write_input, hopen, if_true]
    refine ⟨hlive.files.set _ _, .inr ⟨_, Tree.node_set_self .., ?_⟩⟩
    exact commandSubstitution_echo hnul hnewline
  exact fun live hlive => hrecorded live ⟨hlive, trivial⟩

/-- The text that starts the mapper and records it, with a write that succeeds. -/
theorem ensures_started (hopen : world.openOk inputPidFile = true) (hnul : nul ∉ world.mapperPid)
    (hnewline : newline ∉ world.mapperPid) :
    Ensures true (fun live => Barring world Starting live ∧ NotStarted live)
      (among world depth (startInputMapperText world installDir)) (.always (Caught world)) := by
  obtain ⟨-, ⟨-, hmildStart, hmildAssign, -, -, -⟩, hmildMissing⟩ :=
    @mild_startInputMapperText world installDir
  have hlast : Ensures true (Caught world) (among world depth (.seq (.command 348 pause)
      (.command 349 (echo world (bytes "[launch] Input mapper PID: " ++ world.mapperPid))))) _ :=
    ensures_caught_text depth ⟨preserves_skip, steady_hindered.line _⟩
      ⟨preserves_skip, steady_inHand.line _⟩
  have hrecorded := Ensures.seq (ensures_recorded depth hopen hnul hnewline) hlast hlast
  have hassigned := Ensures.seq (ensures_before depth 346 hmildAssign fun _ hfiles => hfiles)
    hrecorded hrecorded
  have hstarted := Ensures.seq (ensures_before depth 345 hmildStart fun _ hfiles => hfiles)
    hassigned hassigned
  have hmissing : Ensures true (fun live => Barring world Starting live ∧ NotStarted live)
      (among world depth (.command 351 (echo world (bytes "WARNING: input_mapper not found at " ++
        inputMapperBin installDir ++ bytes " — gamepad won't work"))))
      (.always (Caught world)) := by
    apply ensures_caughtBy depth hmildMissing
    intro live hnot hlive
    exact Outcome.meets_always.mpr
      (steady_inHand.line _ true live.state (hnot.inHand hlive.files))
  exact .ifElse (ensures_mapperTest installDir depth)
    (.seq (ensures_announced depth _ _) hstarted hstarted) hmissing

/-- From the first trap on. -/
theorem ensures_caught_trappedText (hopen : world.openOk inputPidFile = true)
    (hnul : nul ∉ world.mapperPid) (hnewline : newline ∉ world.mapperPid) :
    Ensures true (fun live => PlainFiles live.state.tree ∧ live.caught = [] ∧ NotStarted live)
      (among world depth (trappedText world installDir)) (.always (Caught world)) := by
  have htrap : Ensures true
      (fun live => PlainFiles live.state.tree ∧ live.caught = [] ∧ NotStarted live)
      (among world depth (.trap 341 [.int, .term] installTrap))
      ⟨fun live => Barring world Starting live ∧ NotStarted live,
        fun live => Barring world Starting live ∧ NotStarted live, Caught world, Caught world⟩ := by
    refine ensures_act_or (fun live ⟨hfiles, hcaught, hnot⟩ => ⟨.inr (.inr ⟨hfiles, ?_⟩), hnot⟩)
      (((survives_starting depth).and (survives_notStarted depth)).mono fun _ hlive =>
        hlive.1.caught)
    simp [NoFlag, Live.after, hcaught]
  have hrest := ensures_caught_text depth
    ((@steady_hindered world).laterText installDir (aloof_hindered.plain.writeTo world _ _))
    ((@steady_inHand world).laterText installDir (inHand_writeTo _))
  have hmapper := Ensures.seq (ensures_started installDir depth hopen hnul hnewline) hrest hrest
  exact .seq htrap hmapper hmapper

/-- `cleanup` at the exit makes up for what has been missed before. -/
theorem quit_trappedRun (hopen : world.openOk inputPidFile = true)
    (hnul : nul ∉ world.mapperPid) (hnewline : newline ∉ world.mapperPid)
    {live : Live State Signal} (hfiles : PlainFiles live.state.tree) (hcaught : live.caught = [])
    (hnot : NotStarted live)
    (hends : ∀ last,
      execute (handler world) (trappedText world installDir) true live ≠ .blocked last) :
    Barring world (At (Quit world)) (trappedRun world installDir live) := by
  have htext := Outcome.meets_always.mp (ensures_caught_trappedText installDir
    live.arriving.length hopen hnul hnewline live ⟨hfiles, hcaught, hnot⟩)
  have hcleanup (next : Live State Signal) (hnext : Caught world next) :
      Barring world (At (Quit world))
        (execute (handler world) (cleanupText world) true next).state := by
    have hquit : Ensures true (At (InHand world))
        (among world next.arriving.length (cleanupText world))
        (.always (Barring world (At (Quit world)))) :=
      (ensures_cleanup fun _ hstage => survives_stage hstage next.arriving.length).mono
        (fun _ => id) (fun _ hlive => .inr (.inr (.inl hlive)))
        (fun _ hlive => .inr (.inr (.inl hlive))) (fun _ hlive => .inr (.inr (.inl hlive)))
        fun _ hlive => .inr (.inr hlive)
    exact Outcome.meets_always.mp (ensures_barring mild_cleanupText hquit next hnext)
  unfold trappedRun
  split
  · next hblocked => exact absurd hblocked (hends _)
  · exact hcleanup _ htext

end Script

/-! ## Runs -/

section Runs

variable (world : World)

/-- The launcher has set its trap and has ended. -/
def hasEnded (start : State) (arriving : List (List Signal)) : Bool :=
  match untrapped world (detectInstallDir world start) true start with
  | .done _ next =>
    match execute (handler world) (trappedText world (detectInstallDir world start)) true
        (uncaught arriving next) with
    | .blocked _ => false
    | _ => true
  | _ => false

/-- The PID files can be written, and they are no links when the launcher sets its trap. -/
structure TmpWorks (start : State) : Prop where
  opens : ∀ file ∈ [pidFile, inputPidFile], world.openOk file = true
  files : ∀ status next, untrapped world (detectInstallDir world start) true start =
    .done status next → PlainFiles next.tree

/-- No PID file is there, and a mapper that was started has been told to end, unless it had
ended by itself. -/
structure LeavesNothing (state : State) : Prop where
  own : state.tree.lstat world.cwd (.ofBytes pidFile) = none
  input : state.tree.lstat world.cwd (.ofBytes inputPidFile) = none
  mapper : MapperEnded world state.trace

variable {world} in
theorem TornDown.leavesNothing {state : State} (hdown : Stage.Of (TornDown world) state) :
    LeavesNothing world state where
  own := by
    rw [ofBytes_pidFile, Tree.lstat, hdown.files.tmp.entry_child (by decide)]
    exact hdown.own
  input := by
    rw [ofBytes_inputPidFile, Tree.lstat, hdown.files.tmp.entry_child (by decide)]
    exact hdown.input
  mapper := hdown.mapper

/-- The log has taken the last line of `cleanup` unless the mapper had ended, and the first
one in the run of `cleanup` that ended the launcher. -/
structure LinesTaken (state : State) : Prop where
  stopped : ¬ Stage.Of (Hindered world) state
  shuttingDown : ¬ CutShort state.trace

/-- A launcher that has ended leaves nothing behind, if every trap that starts while the
mapper cannot be found starts at an orderly moment, and the log takes the lines of `cleanup`
where it matters. -/
theorem leavesNothing_launchAmong (hnul : nul ∉ world.mapperPid)
    (hnewline : newline ∉ world.mapperPid) {start : State} (hfresh : start.trace = [])
    (htmp : TmpWorks world start) (arriving : List (List Signal))
    (hended : hasEnded world start arriving = true)
    (horderly : ∀ moment ∈ (launchAmong world start arriving).handled, Orderly world moment)
    (hlines : LinesTaken world (launchAmong world start arriving).state) :
    LeavesNothing world (launchAmong world start arriving).state := by
  have hnot := plain_notStarted.untrapped world (detectInstallDir world start)
    (fun _ _ hstate => hstate) (fun _ _ _ _ hstate _ => hstate) true start (by simp [hfresh])
  unfold hasEnded at hended
  unfold launchAmong at horderly hlines ⊢
  split at hended
  · next status next houtcome =>
      rw [houtcome] at hnot
      simp only [houtcome] at horderly hlines ⊢
      have hquit := quit_trappedRun (detectInstallDir world start)
        (htmp.opens inputPidFile (by simp)) hnul hnewline
        (show PlainFiles (uncaught arriving next).state.tree from htmp.files status next houtcome)
        rfl hnot (by
          intro last hblocked
          simp [hblocked] at hended)
      rcases hquit with hhindered | ⟨moment, hmoment, hmissed⟩ | hdown | ⟨-, hcut⟩
      · exact absurd hhindered hlines.stopped
      · exact absurd (horderly moment hmoment) hmissed
      · exact TornDown.leavesNothing hdown
      · exact absurd hcut hlines.shuttingDown
  · cases hended

/-! ### Examples of interrupted launchers -/

theorem terminated_mem_iff {trace : List Event} {pid : Bytes} :
    .terminated pid ∈ trace ↔ pid ∈ trace.filterMap Event.killed := by
  rw [List.mem_filterMap]
  constructor
  · exact fun hmem => ⟨_, hmem, rfl⟩
  · rintro ⟨event, hmem, hkilled⟩
    cases event with
    | terminated other => simpa [Event.killed] using Option.some.inj hkilled ▸ hmem
    | said line => cases hkilled
    | startedMapper => cases hkilled
    | startedSober program arguments vars => cases hkilled

instance (trace : List Event) : Decidable (MapperEnded world trace) :=
  decidable_of_iff (trace.any Event.isMapper = true → world.alive world.mapperPid = true →
      world.mapperPid ∈ trace.filterMap Event.killed) <| by
    unfold MapperEnded
    rw [startedMapper_mem_iff, terminated_mem_iff]

instance (tree : Tree) : Decidable (NamesMapper world tree) :=
  match hnode : tree.node inputPidPlace with
  | some (.file data) =>
      decidable_of_iff (commandSubstitution data = world.mapperPid) <| by simp [NamesMapper, hnode]
  | some .dir | some (.link _) | some .socket | some .charDevice | none =>
      isFalse <| by simp [NamesMapper, hnode]

instance (moment : Moment State Signal) : Decidable (Orderly world moment) :=
  inferInstanceAs (Decidable (¬ (_ ∨ _) → (_ → _) ∧ _))

/-- Whether an event is a line that the log has not taken. -/
def Event.isRefused : Event → Bool
  | .said _ taken => !taken
  | _ => false

/-- A log that has taken every line. -/
theorem linesTaken_of_any {state : State} (htaken : state.trace.any Event.isRefused = false) :
    LinesTaken world state := by
  have hnever (line : Bytes) : .said line false ∉ state.trace := by
    intro hsaid
    rw [List.any_eq_false] at htaken
    exact htaken _ hsaid rfl
  refine ⟨?_, fun hcut => hnever _ (List.mem_of_getLast? hcut)⟩
  rintro ⟨front, back, htrace, -⟩
  exact hnever stoppedLine (by simp [htrace])

/-- A TV whose log takes no lines once Sober has been started. -/
def fullWorld : World :=
  { busyWorld with logOk := fun trace => !trace.any Event.isSober }

/-- The files of another launcher that is gone do not stand in the way. -/
theorem tmpWorks_of_places {start : State} {data : Bytes}
    (hopen : ∀ file ∈ [pidFile, inputPidFile], world.openOk file = true)
    (hplaces : [[bytes "tmp"], pidPlace, inputPidPlace].map
      (untrapped world (detectInstallDir world start) true start).state.tree.node =
        [some .dir, none, some (.file data)]) : TmpWorks world start where
  opens := hopen
  files status next hnext := by
    rw [hnext] at hplaces
    simp only [List.map_cons, List.cons.injEq] at hplaces
    obtain ⟨htmp, hown, hinput, -⟩ := hplaces
    exact ⟨Tree.realDir_singleton (by decide) htmp, .inl hown, .inr ⟨_, hinput⟩⟩

theorem tmpWorks_staleTv : TmpWorks busyWorld staleTv :=
  have hplaces : [[bytes "tmp"], pidPlace, inputPidPlace].map
      (untrapped busyWorld (detectInstallDir busyWorld staleTv) true staleTv).state.tree.node =
        [some .dir, none, some (.file (bytes "7\n"))] := by decide +kernel
  tmpWorks_of_places busyWorld (fun _ _ => rfl) hplaces

theorem tmpWorks_fullWorld : TmpWorks fullWorld staleTv :=
  have hplaces : [[bytes "tmp"], pidPlace, inputPidPlace].map
      (untrapped fullWorld (detectInstallDir fullWorld staleTv) true staleTv).state.tree.node =
        [some .dir, none, some (.file (bytes "7\n"))] := by decide +kernel
  tmpWorks_of_places fullWorld (fun _ _ => rfl) hplaces

/-- Signals arrive before the mapper is recorded and when it is, and in the traps. -/
theorem leavesNothing_launchAmong_stale :
    LeavesNothing busyWorld
      (launchAmong busyWorld staleTv [[.int], [], [.term], [], [.int]]).state :=
  leavesNothing_launchAmong busyWorld (by decide) (by decide) rfl tmpWorks_staleTv _
    (by decide +kernel) (by decide +kernel) (linesTaken_of_any busyWorld (by decide +kernel))

/-- SIGINT arrives right after the mapper is started, and SIGTERM when `cleanup` has seen the
file that an earlier launcher has left, with a log that takes every line. Or the log takes no
lines once Sober has been started, and no signal arrives. -/
theorem not_leavesNothing_launchAmong :
    (¬ ∀ (world : World) (start : State) (arriving : List (List Signal)),
      nul ∉ world.mapperPid → newline ∉ world.mapperPid → start.trace = [] →
        TmpWorks world start → hasEnded world start arriving = true →
          (∀ trace, world.logOk trace = true) →
            LeavesNothing world (launchAmong world start arriving).state) ∧
      ¬ ∀ (world : World) (start : State),
        nul ∉ world.mapperPid → newline ∉ world.mapperPid → start.trace = [] →
          TmpWorks world start → hasEnded world start [] = true →
            LeavesNothing world (launchAmong world start []).state := by
  constructor
  · intro hall
    have hleaves := hall busyWorld staleTv [[], [], [], [.int], [], [.term]] (by decide) (by decide)
      rfl tmpWorks_staleTv (by decide +kernel) fun _ => rfl
    have hrunning : ¬ MapperEnded busyWorld
        (launchAmong busyWorld staleTv [[], [], [], [.int], [], [.term]]).state.trace := by
      decide +kernel
    exact hrunning hleaves.mapper
  · intro hall
    have hleaves := hall fullWorld staleTv (by decide) (by decide) rfl tmpWorks_fullWorld
      (by decide +kernel)
    have hrunning : ¬ MapperEnded fullWorld (launchAmong fullWorld staleTv []).state.trace := by
      decide +kernel
    exact hrunning hleaves.mapper

end Runs

end TizenRoblox.Launcher
