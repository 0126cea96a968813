/-
# The instance check as a run

What the instance check of the script does to the PID file is a run of the phases
in which several launchers are described, made by one launcher alone: the file is
tested, read, its owner probed and the file removed (`instanceCheck_run`). What
comes with the start of Sober is the write (`announce_step`), and what comes with
`cleanup`, unless that is cut short, is the removal (`cleanup_run`).
-/

import TizenRoblox.Launcher.Ownership
import TizenRoblox.Launcher.SingleInstance

namespace TizenRoblox.Launcher.SingleInstance

open TizenRoblox.Foundation TizenRoblox.Posix TizenRoblox.Shell TizenRoblox.Shell.Command

/-- The process id that a launcher reads from the PID file, if that exists. -/
def pidFileOf (world : World) (tree : Tree) : Option Bytes :=
  (tree.contents world.cwd (.ofBytes pidFile)).map commandSubstitution

/-- The launchers as one of them sees them: the PID file is the one in the tree, and
only processes that are gone do not answer. -/
structure Shown (world : World) (tree : Tree) (system : System Bytes) : Prop where
  file : system.pidFile = pidFileOf world tree
  dead : ∀ owner, world.alive owner = false → system.phase owner = .absent

section Phases

variable {system : System Bytes} {pid owner : Bytes}

private theorem move_move (first second : Phase Bytes) :
    (system.move pid first).move pid second = system.move pid second := by
  simp [System.move]

private theorem phase_move (next : Phase Bytes) : (system.move pid next).phase pid = next :=
  Function.update_self ..

/-- A launcher finds the PID file and reads it. -/
theorem reading_run (hphase : system.phase pid = .fresh) (hfile : system.pidFile = some owner) :
    Run Step system [(pid, .test), (pid, .read)] (system.move pid (.probing owner)) := by
  have htest : Step system (pid, .test) (system.move pid .found) := .testFound hphase hfile
  have hread : Step (system.move pid .found) (pid, .read)
      ((system.move pid .found).move pid (.probing owner)) := .read (phase_move _) hfile
  rw [move_move] at hread
  exact .extend (.extend (.start system) htest) hread

/-- A launcher finds the owner of the PID file alive and ends. -/
theorem refusal_step :
    Step (system.move pid (.probing owner)) (pid, .probe true) (system.move pid .absent) := by
  have hprobe : Step (system.move pid (.probing owner)) (pid, .probe true)
      ((system.move pid (.probing owner)).move pid .absent) := .probeAlive (phase_move _)
  rwa [move_move] at hprobe

/-- A launcher finds the owner of the PID file dead and removes the file. -/
theorem removal_run (hne : owner ≠ pid) (hdead : system.phase owner = .absent) :
    Run Step (system.move pid (.probing owner)) [(pid, .probe false), (pid, .remove)]
      ((system.move pid .setup).setPidFile none) := by
  have howner : (system.move pid (.probing owner)).phase owner = .absent :=
    (Function.update_of_ne hne ..).trans hdead
  have hprobe : Step (system.move pid (.probing owner)) (pid, .probe false)
      ((system.move pid (.probing owner)).move pid .stale) := .probeDead (phase_move _) howner
  rw [move_move] at hprobe
  have hremove : Step (system.move pid .stale) (pid, .remove)
      (((system.move pid .stale).move pid .setup).setPidFile none) := .remove (phase_move _)
  rw [move_move] at hremove
  exact .extend (.extend (.start _) hprobe) hremove

end Phases

section Simulation

variable {world : World} {state : State} {system : System Bytes} {pid : Bytes}

/-- A PID file that has been removed is not there. -/
theorem pidFileOf_removed {next : Tree} (hreal : state.tree.RealDir [bytes "tmp"])
    (hnext : state.tree.rmF world.cwd (.ofBytes pidFile) = some next) :
    pidFileOf world next = none := by
  rw [ofBytes_pidFile] at hnext
  rw [pidFileOf, ofBytes_pidFile, hreal.contents_rmF (by decide) hnext]
  rfl

/-- The instance check of one launcher is a run of its phases: up to its setup where
the script goes on, and to its end where the script ends. -/
theorem instanceCheck_run (hreal : state.tree.RealDir [bytes "tmp"])
    (hshown : Shown world state.tree system) (hphase : system.phase pid = .fresh) :
    ∃ next labels target, Run Step system labels target ∧
      target.pidFile = pidFileOf world next.tree ∧
      ((instanceCheck world true state = .done 0 next ∧
          target.phase = Function.update system.phase pid .setup) ∨
        ((∃ status, instanceCheck world true state = .exited status next) ∧
          target.phase = Function.update system.phase pid .absent)) := by
  have hcheck := instanceCheck_eq world state
  have hfile := hshown.file
  unfold pidFileOf at hfile
  cases hdata : state.tree.contents world.cwd (.ofBytes pidFile) with
  | none =>
      rw [hdata] at hcheck hfile
      refine ⟨state, _, _, .extend (.start system) (.testMissing hphase hfile), ?_,
        Or.inl ⟨hcheck, rfl⟩⟩
      exact hshown.file
  | some data =>
      rw [hdata] at hcheck hfile
      have hrun := reading_run hphase hfile
      cases halive : world.alive (commandSubstitution data) with
      | true =>
          simp only [halive, if_true] at hcheck
          refine ⟨_, _, _, hrun.extend refusal_step, ?_, Or.inr ⟨⟨_, hcheck⟩, rfl⟩⟩
          exact hshown.file
      | false =>
          simp only [halive, Bool.false_eq_true, if_false] at hcheck
          have hdead := hshown.dead _ halive
          have hne : commandSubstitution data ≠ pid := by
            intro heq
            rw [heq, hphase] at hdead
            cases hdead
          obtain ⟨tree, htree⟩ := Tree.rmF_of_isFile
            ((state.tree.isFile_eq_isSome_contents world.cwd (.ofBytes pidFile)).trans
              (by rw [hdata]; rfl))
          refine ⟨_, _, _, hrun.append (removal_run hne hdead), ?_, Or.inl ⟨hcheck, rfl⟩⟩
          simp [htree, pidFileOf_removed hreal htree, System.setPidFile]

/-- A process id that stands in the PID file as one word on one line is read back. -/
theorem pidFileOf_written {next : Tree} (hnul : nul ∉ pid) (hnewline : newline ∉ pid)
    (hnext : next.contents world.cwd (.ofBytes pidFile) = some (pid ++ [newline])) :
    pidFileOf world next = some pid := by
  rw [pidFileOf, hnext, Option.map_some, commandSubstitution_echo hnul hnewline]

/-- Before its last lines for the log a launcher writes the PID file, whether or not the
log takes them. -/
theorem announce_step (installDir : Bytes) (hreal : state.tree.RealDir [bytes "tmp"])
    (hwritable : state.tree.Writable [bytes "tmp", bytes "tizenroblox.pid"])
    (hopen : world.openOk pidFile = true) (hnul : nul ∉ world.pid)
    (hnewline : newline ∉ world.pid) (hphase : system.phase world.pid = .trapped) :
    ∃ next target,
      (announce world installDir true state = .done 0 next ∨
        announce world installDir true state = .exited 1 next) ∧
      Step system (world.pid, .write) target ∧
      target.pidFile = pidFileOf world next.tree := by
  have hwritten : ∃ tree,
      state.tree.write world.cwd (.ofBytes pidFile) (world.pid ++ [newline]) = some tree ∧
        tree.contents world.cwd (.ofBytes pidFile) = some (world.pid ++ [newline]) := by
    rw [ofBytes_pidFile]
    exact hreal.contents_write _ (by decide) hwritable
  obtain ⟨tree, hwrite, hcontents⟩ := hwritten
  have hfile : Passes (writeTo world pidFile (world.pid ++ [newline])) true state
      (state.setTree tree) := ⟨0, by simp [writeTo, written, hwrite, hopen, simple]⟩
  have hread := pidFileOf_written hnul hnewline hcontents
  rw [announce, block_cons_of_passes _ (by simp) hfile]
  cases hfirst : world.logOk (state.setTree tree).trace with
  | false =>
      have hexits := block_cons_of_exited [echo world (bytes "[launch] Binary: " ++
        soberBin installDir)] (echo_refused (bytes "[launch] Launching Sober runtime...") hfirst)
      exact ⟨_, _, .inr hexits, .write hphase, hread.symm⟩
  | true =>
      rw [block_cons_of_passes _ (by simp) (passes_echo _ (.inr hfirst)), block, echo]
      cases hsecond : world.logOk ((state.setTree tree).say world
          (bytes "[launch] Launching Sober runtime...")).trace with
      | false =>
          have hexits := say_refused (fun _ => bytes "[launch] Binary: " ++ soberBin installDir)
            hsecond
          exact ⟨_, _, .inr hexits, .write hphase, hread.symm⟩
      | true =>
          have hgoesOn := @say_of_taken world true _
            (fun _ => bytes "[launch] Binary: " ++ soberBin installDir) hsecond
          exact ⟨_, _, .inl hgoesOn, .write hphase, hread.symm⟩

/-- What lies where the PID file belongs. -/
def Lying (node : Option Node) (state : State) : Prop :=
  state.tree.RealDir [bytes "tmp"] ∧ state.tree.node pidPlace = node

/-- The process id in what lies there. -/
def pidIn : Option Node → Option Bytes
  | some (.file data) => some (commandSubstitution data)
  | _ => none

theorem Lying.pidFileOf {node : Option Node} (hlying : Lying node state)
    (hlink : ∀ target, node ≠ some (.link target)) :
    pidFileOf world state.tree = pidIn node := by
  obtain ⟨hreal, rfl⟩ := hlying
  have hlocate : state.tree.locate [bytes "tmp"] (.here (bytes "tizenroblox.pid")) =
      some pidPlace := Tree.locate_here hreal.isDir (by decide) hlink
  have hstat : state.tree.stat [bytes "tmp"] (.here (bytes "tizenroblox.pid")) =
      state.tree.node pidPlace := by
    rw [Tree.stat, hlocate]
    rfl
  rw [SingleInstance.pidFileOf, ofBytes_pidFile, hreal.contents_child, Tree.contents, hstat]
  cases state.tree.node pidPlace with
  | none => rfl
  | some found => cases found <;> rfl

theorem lying_kill {node : Option Node} (owner : State → Bytes) :
    Preserves (Lying node) (kill world owner) := by
  apply preserves_simple
  intro state hstate
  split <;> exact hstate

theorem lying_echo {node : Option Node} (line : Bytes) : Preserves (Lying node) (echo world line) :=
  preserves_echo line fun _ _ _ hstate => hstate

/-- The end of the input mapper does nothing to the PID file. -/
theorem lying_killInput {node : Option Node} : Preserves (Lying node)
    (.ifThen (testF world inputPidFile) <| .block [
      catInto world "INPUT_PID" inputPidFile,
      .orTrue (kill world fun state => state.get "INPUT_PID"),
      rmF world inputPidFile]) := by
  have hcat : Preserves (Lying node) (catInto world "INPUT_PID" inputPidFile) := by
    apply preserves_attempt
    intro state next hstate hnext
    obtain ⟨data, -, rfl⟩ := Option.map_eq_some_iff.mp hnext
    exact hstate
  have hremove : Preserves (Lying node) (rmF world inputPidFile) := by
    apply preserves_attempt
    intro state next ⟨hreal, hnode⟩ hnext
    obtain ⟨tree, htree, rfl⟩ := Option.map_eq_some_iff.mp hnext
    rw [ofBytes_inputPidFile] at htree
    obtain rfl := hreal.rmF_child_eq (by decide) htree
    refine ⟨hreal.erase _, ?_⟩
    rw [State.setTree, Tree.node_erase, if_neg (by decide), hnode]
  exact preserves_ifThen preserves_test
    (preserves_block ⟨hcat, (lying_kill _).orTrue, hremove⟩)

/-- What comes of the PID file in `cleanup`, which may be cut short. -/
def cleaned (node : Option Node) : Goal State :=
  ⟨Lying none, Lying none, fun state => Lying node state ∨ Lying none state,
    fun state => Lying node state ∨ Lying none state⟩

theorem ensures_remove {node : Option Node} :
    Ensures true (Lying node) (rmF world pidFile) (cleaned node) := by
  intro state hstate
  cases htree : state.tree.rmF world.cwd (.ofBytes pidFile) with
  | none =>
      have hfails : rmF world pidFile true state = .exited 1 state := by
        simp [rmF, attempt, simple, htree]
      rw [hfails]
      exact .inl hstate
  | some tree =>
      rw [rmF, attempt_eq_done (by rw [htree]; rfl)]
      rw [ofBytes_pidFile] at htree
      obtain rfl := hstate.1.rmF_child_eq (by decide) htree
      exact ⟨hstate.1.erase _, by simp [State.setTree, Tree.node_erase, pidPlace]⟩

theorem ensures_cleaned {node : Option Node} :
    Ensures true (Lying node) (cleanup world) (cleaned node) := by
  have hrest : Preserves (Lying none) (.seq
      (.ifThen (.test fun state => state.get "DBUS_SESSION_BUS_PID" ≠ []) <|
        .orTrue (kill world fun state => state.get "DBUS_SESSION_BUS_PID"))
      (echo world stoppedLine)) :=
    (preserves_ifThen preserves_test (lying_kill _).orTrue).seq (lying_echo _)
  have hlast : Ensures true (Lying none) _ (cleaned node) :=
    (Ensures.of_preserves hrest).mono (fun _ => id) (fun _ => id) (fun _ => id)
      (fun _ => .inr) fun _ => .inr
  exact .seq_always (.of_preserves (lying_echo _)) (fun _ => .inl) (fun _ => .inl)
    (.seq_always (.of_preserves lying_killInput) (fun _ => .inl) (fun _ => .inl)
      (.seq ensures_remove hlast hlast))

/-- `cleanup` of one launcher is the removal of the PID file, or nothing where it is cut
short before. -/
theorem cleanup_run {wrote : Bool} (hreal : state.tree.RealDir [bytes "tmp"])
    (hlink : ∀ target, state.tree.node pidPlace ≠ some (.link target))
    (hfile : system.pidFile = pidFileOf world state.tree)
    (hphase : system.phase pid = .cleaning wrote) :
    ∃ labels target, Run Step system labels target ∧
      target.pidFile = pidFileOf world (cleanup world true state).state.tree ∧
      (labels = [(pid, .clean)] ∨
        labels = [] ∧ ∀ status next, cleanup world true state ≠ .done status next) := by
  have hmeets : (cleanup world true state).Meets (cleaned _) :=
    ensures_cleaned state ⟨hreal, rfl⟩
  have hgone {next : State} (hnext : Lying none next) : none = pidFileOf world next.tree :=
    (hnext.pidFileOf nofun).symm
  have hclean : Run Step system [(pid, .clean)]
      ((system.move pid (.leaving wrote)).setPidFile none) :=
    .extend (.start system) (.clean hphase)
  have hkept {next : State} (hnext : Lying (state.tree.node pidPlace) next) :
      system.pidFile = pidFileOf world next.tree := by
    rw [hfile, Lying.pidFileOf ⟨hreal, rfl⟩ hlink, hnext.pidFileOf hlink]
  match houtcome : cleanup world true state, hmeets with
  | .done 0 next, hmeets => exact ⟨_, _, hclean, hgone hmeets, .inl rfl⟩
  | .done (_ + 1) next, hmeets => exact ⟨_, _, hclean, hgone hmeets, .inl rfl⟩
  | .broken _ next, hmeets | .returned _ next, hmeets | .exited _ next, hmeets
  | .blocked next, hmeets =>
      rcases hmeets with hnext | hnext
      · exact ⟨_, _, .start system, hkept hnext, .inr ⟨rfl, nofun⟩⟩
      · exact ⟨_, _, hclean, hgone hnext, .inl rfl⟩

end Simulation

end TizenRoblox.Launcher.SingleInstance
