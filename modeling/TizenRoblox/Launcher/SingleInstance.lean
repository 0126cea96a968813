/-
# Several launchers at once

Any number of launcher processes, each somewhere between its start and its end,
share one PID file. A step is one command of one of them: the test of the PID
file, the reading of it, `kill -0`, `rm -f`, the trap, the write, the end of
Sober, the removal in `cleanup`, and what a launcher goes on with when a signal
has run its `cleanup`. Processes may start at any time and may be gone at any
time; process ids are used again.

The test and the write are separate commands with the whole setup between them,
and `cleanup` removes the file without looking whose it is. So two launchers can
both be running (`two_running`). They cannot when no launcher tests the file while
another one is between its test and its write, or has yet to end after giving up
the file (`exclusive_of_unhurried`).
-/

import Mathlib.Logic.Function.Basic
import TizenRoblox.Foundation.Runs

namespace TizenRoblox.Launcher.SingleInstance

open TizenRoblox.Foundation

universe u

/-- Where a launcher stands in the script. -/
inductive Phase (Pid : Type u)
  /-- There is no launcher with this process id. -/
  | absent
  /-- It has yet to test the PID file. -/
  | fresh
  /-- `[ -f "${PID_FILE}" ]` was true; `cat` comes next. -/
  | found
  /-- It has read a process id; `kill -0` comes next. -/
  | probing (owner : Pid)
  /-- The owner is dead; `rm -f` comes next. -/
  | stale
  /-- The check is passed; it prepares the environment and the libraries. -/
  | setup
  /-- The trap is installed; the PID file is yet to be written. -/
  | trapped
  /-- It has written the PID file and runs Sober. -/
  | running
  /-- Its `cleanup` runs and has yet to remove the PID file; `wrote` tells whether
  it had written the file. -/
  | cleaning (wrote : Bool)
  /-- Its `cleanup` has removed the PID file; the process has yet to end. -/
  | leaving (wrote : Bool)
  /-- A signal has run its `cleanup`, and it goes on without its PID file; it may
  be in `cleanup` again. -/
  | bare
  deriving DecidableEq

/-- One command of a launcher. -/
inductive Move
  | start
  | test
  | read
  | probe (alive : Bool)
  | remove
  | trap
  | write
  /-- The script exits into its trap, or a signal starts it. -/
  | finish
  /-- The removal in `cleanup`. -/
  | clean
  /-- The script goes on after `cleanup`, which a signal has run. -/
  | goOn
  /-- The process ends, by itself or not. -/
  | stop
  deriving DecidableEq

/-- All launchers, and what the PID file contains if it exists. -/
structure System (Pid : Type u) where
  phase : Pid → Phase Pid
  pidFile : Option Pid

variable {Pid : Type u} [DecidableEq Pid]

namespace System

/-- One launcher moves on. -/
def move (system : System Pid) (pid : Pid) (next : Phase Pid) : System Pid :=
  { system with phase := Function.update system.phase pid next }

/-- The PID file changes. -/
def setPidFile (system : System Pid) (file : Option Pid) : System Pid :=
  { system with pidFile := file }

end System

/-- The commands of the launchers, in any order. What `kill -0` answers is forced
only for the process id of a launcher; any other process may have a stale one. -/
inductive Step : System Pid → Pid × Move → System Pid → Prop
  | start {system : System Pid} {pid : Pid} (hphase : system.phase pid = .absent) :
      Step system (pid, .start) (system.move pid .fresh)
  | testMissing {system : System Pid} {pid : Pid} (hphase : system.phase pid = .fresh)
      (hfile : system.pidFile = none) :
      Step system (pid, .test) (system.move pid .setup)
  | testFound {system : System Pid} {pid owner : Pid} (hphase : system.phase pid = .fresh)
      (hfile : system.pidFile = some owner) :
      Step system (pid, .test) (system.move pid .found)
  | read {system : System Pid} {pid owner : Pid} (hphase : system.phase pid = .found)
      (hfile : system.pidFile = some owner) :
      Step system (pid, .read) (system.move pid (.probing owner))
  /-- `cat` fails, and `set -e` ends the script. -/
  | readMissing {system : System Pid} {pid : Pid} (hphase : system.phase pid = .found)
      (hfile : system.pidFile = none) :
      Step system (pid, .read) (system.move pid .absent)
  /-- `TizenRoblox already running` -/
  | probeAlive {system : System Pid} {pid owner : Pid}
      (hphase : system.phase pid = .probing owner) :
      Step system (pid, .probe true) (system.move pid .absent)
  | probeDead {system : System Pid} {pid owner : Pid}
      (hphase : system.phase pid = .probing owner) (hdead : system.phase owner = .absent) :
      Step system (pid, .probe false) (system.move pid .stale)
  | remove {system : System Pid} {pid : Pid} (hphase : system.phase pid = .stale) :
      Step system (pid, .remove) ((system.move pid .setup).setPidFile none)
  | trap {system : System Pid} {pid : Pid} (hphase : system.phase pid = .setup) :
      Step system (pid, .trap) (system.move pid .trapped)
  | write {system : System Pid} {pid : Pid} (hphase : system.phase pid = .trapped) :
      Step system (pid, .write) ((system.move pid .running).setPidFile (some pid))
  /-- A command fails between the trap and the write, or a signal arrives. -/
  | finishTrapped {system : System Pid} {pid : Pid} (hphase : system.phase pid = .trapped) :
      Step system (pid, .finish) (system.move pid (.cleaning false))
  | finishRunning {system : System Pid} {pid : Pid} (hphase : system.phase pid = .running) :
      Step system (pid, .finish) (system.move pid (.cleaning true))
  | clean {system : System Pid} {pid : Pid} {wrote : Bool}
      (hphase : system.phase pid = .cleaning wrote) :
      Step system (pid, .clean) ((system.move pid (.leaving wrote)).setPidFile none)
  /-- The PID file is yet to be written. -/
  | goOnTrapped {system : System Pid} {pid : Pid} (hphase : system.phase pid = .leaving false) :
      Step system (pid, .goOn) (system.move pid .trapped)
  | goOnRunning {system : System Pid} {pid : Pid} (hphase : system.phase pid = .leaving true) :
      Step system (pid, .goOn) (system.move pid .bare)
  | cleanAgain {system : System Pid} {pid : Pid} (hphase : system.phase pid = .bare) :
      Step system (pid, .clean) ((system.move pid (.leaving true)).setPidFile none)
  | stop {system : System Pid} {pid : Pid} :
      Step system (pid, .stop) (system.move pid .absent)

namespace Phase

/-- Between the write of the PID file and the end of the process. -/
def engaged : Phase Pid → Bool
  | .running | .cleaning true | .leaving true | .bare => true
  | _ => false

/-- No such process, or one that has yet to test the PID file. -/
def idle : Phase Pid → Bool
  | .absent | .fresh => true
  | _ => false

/-- It has seen a PID file, and read that process id from it if it has read it. -/
def seeks (owner : Pid) : Phase Pid → Bool
  | .found => true
  | .probing read => read = owner
  | _ => false

/-- Another launcher may test the PID file meanwhile: this one has yet to test it,
or its own process id is in the file. -/
def calm : Phase Pid → Bool
  | .absent | .fresh | .running | .cleaning true => true
  | _ => false

end Phase

namespace System

/-- At most one launcher is between its write and its end. -/
def Exclusive (system : System Pid) : Prop :=
  ∀ first second, (system.phase first).engaged = true → (system.phase second).engaged = true →
    first = second

/-- No launcher has been started; the PID file may be there or not. -/
def Idle (system : System Pid) : Prop := ∀ pid, system.phase pid = .absent

/-- A launcher tests the PID file only while all the others are calm. -/
def Unhurried (system : System Pid) (label : Pid × Move) : Prop :=
  label.2 = .test → ∀ other, other ≠ label.1 → (system.phase other).calm = true

end System

/-! ## The invariant -/

/-- Two launchers can be in these phases together: one of them is idle, or one is
engaged and the other has at most read its process id. -/
def Coexist (first second : Pid) (one other : Phase Pid) : Prop :=
  one.idle = true ∨ other.idle = true ∨
    (one.engaged = true ∧ other.seeks first = true) ∨
    (other.engaged = true ∧ one.seeks second = true)

/-- What a launcher in this phase knows about the PID file. -/
def FileAgrees (file : Option Pid) (pid : Pid) : Phase Pid → Prop
  | .running | .cleaning true => file = some pid
  | .leaving true | .bare => file = none
  | _ => True

structure Invariant (system : System Pid) : Prop where
  coexist : ∀ first second, first ≠ second →
    Coexist first second (system.phase first) (system.phase second)
  agrees : ∀ pid, FileAgrees system.pidFile pid (system.phase pid)

theorem Coexist.symm {first second : Pid} {one other : Phase Pid}
    (hcoexist : Coexist first second one other) : Coexist second first other one := by
  rcases hcoexist with hone | hother | hfirst | hsecond
  · exact Or.inr (Or.inl hone)
  · exact Or.inl hother
  · exact Or.inr (Or.inr (Or.inr hfirst))
  · exact Or.inr (Or.inr (Or.inl hsecond))

/-- No two launchers that can be there together are both engaged. -/
theorem Coexist.not_both_engaged {first second : Pid} {one other : Phase Pid}
    (hcoexist : Coexist first second one other) (hone : one.engaged = true) :
    other.engaged = false := by
  rcases hcoexist with h | h | ⟨_, h⟩ | ⟨_, h⟩
  · cases one <;> simp_all [Phase.idle, Phase.engaged]
  · cases other <;> simp_all [Phase.idle, Phase.engaged]
  · cases other <;> simp_all [Phase.seeks, Phase.engaged]
  · cases one <;> simp_all [Phase.seeks, Phase.engaged]

theorem Invariant.exclusive {system : System Pid} (hinvariant : Invariant system) :
    system.Exclusive := by
  intro first second hfirst hsecond
  by_contra hne
  have hnot := (hinvariant.coexist first second hne).not_both_engaged hfirst
  simp [hsecond] at hnot

omit [DecidableEq Pid] in
theorem FileAgrees.of_idle {file : Option Pid} {pid : Pid} {phase : Phase Pid}
    (hidle : phase.idle = true) : FileAgrees file pid phase := by
  cases phase <;> simp_all [Phase.idle, FileAgrees]

theorem FileAgrees.of_seeks {file : Option Pid} {pid owner : Pid} {phase : Phase Pid}
    (hseeks : phase.seeks owner = true) : FileAgrees file pid phase := by
  cases phase <;> simp_all [Phase.seeks, FileAgrees]

section Steps

variable {system : System Pid} {pid : Pid}

/-- One launcher moves, perhaps with the PID file: the others have to get along
with its new phase, and everyone with the new file. -/
theorem Invariant.move (hinvariant : Invariant system) {next : Phase Pid} {file : Option Pid}
    (hothers : ∀ other, other ≠ pid → Coexist pid other next (system.phase other))
    (hself : FileAgrees file pid next)
    (hrest : ∀ other, other ≠ pid → FileAgrees file other (system.phase other)) :
    Invariant ((system.move pid next).setPidFile file) where
  coexist first second hne := by
    simp only [System.setPidFile, System.move]
    by_cases hfirst : first = pid
    · subst hfirst
      rw [Function.update_self, Function.update_of_ne hne.symm]
      exact hothers second hne.symm
    · rw [Function.update_of_ne hfirst]
      by_cases hsecond : second = pid
      · subst hsecond
        rw [Function.update_self]
        exact (hothers first hfirst).symm
      · rw [Function.update_of_ne hsecond]
        exact hinvariant.coexist first second hne
  agrees other := by
    simp only [System.setPidFile, System.move]
    by_cases hother : other = pid
    · subst hother
      rwa [Function.update_self]
    · rw [Function.update_of_ne hother]
      exact hrest other hother

/-- A launcher that becomes idle is in nobody's way. -/
theorem Invariant.move_idle (hinvariant : Invariant system) {next : Phase Pid}
    (hidle : next.idle = true) : Invariant (system.move pid next) :=
  hinvariant.move (fun _ _ => Or.inl hidle) (.of_idle hidle) fun other _ => hinvariant.agrees other

/-- A launcher that has all the others idle may do anything. -/
theorem Invariant.move_alone (hinvariant : Invariant system) {next : Phase Pid}
    {file : Option Pid} (halone : ∀ other, other ≠ pid → (system.phase other).idle = true)
    (hself : FileAgrees file pid next) : Invariant ((system.move pid next).setPidFile file) :=
  hinvariant.move (fun other hother => Or.inr (Or.inl (halone other hother))) hself
    fun other hother => .of_idle (halone other hother)

/-- Next to a launcher that is neither idle nor engaged nor seeking another one,
all the others are idle. -/
theorem Invariant.others_idle (hinvariant : Invariant system)
    (hidle : (system.phase pid).idle = false) (hengaged : (system.phase pid).engaged = false)
    (hseeks : ∀ other, (system.phase other).engaged = true →
      (system.phase pid).seeks other = false) :
    ∀ other, other ≠ pid → (system.phase other).idle = true := by
  intro other hother
  rcases hinvariant.coexist pid other hother.symm with h | h | ⟨h, _⟩ | ⟨h, h'⟩
  · simp [hidle] at h
  · exact h
  · simp [hengaged] at h
  · simp [hseeks other h] at h'

/-- Next to one that seeks nobody, too. So it may do anything. -/
theorem Invariant.move_solitary (hinvariant : Invariant system) {phase next : Phase Pid}
    {file : Option Pid} (hphase : system.phase pid = phase) (hidle : phase.idle = false)
    (hengaged : phase.engaged = false) (hseeks : ∀ other, phase.seeks other = false)
    (hself : FileAgrees file pid next) : Invariant ((system.move pid next).setPidFile file) := by
  subst hphase
  exact hinvariant.move_alone
    (hinvariant.others_idle hidle hengaged fun other _ => hseeks other) hself

/-- Next to an engaged launcher the others are idle or about to find it alive. -/
theorem Invariant.others_of_engaged (hinvariant : Invariant system)
    (hengaged : (system.phase pid).engaged = true) :
    ∀ other, other ≠ pid →
      (system.phase other).idle = true ∨ (system.phase other).seeks pid = true := by
  intro other hother
  have hcoexist := hinvariant.coexist pid other hother.symm
  have hnot := hcoexist.not_both_engaged hengaged
  rcases hcoexist with h | h | ⟨_, h⟩ | ⟨h, _⟩
  · cases hphase : system.phase pid <;> simp_all [Phase.idle, Phase.engaged]
  · exact Or.inl h
  · exact Or.inr h
  · simp [hnot] at h

/-- An engaged launcher stays engaged, whatever becomes of the file. -/
theorem Invariant.move_engaged (hinvariant : Invariant system) {next : Phase Pid}
    {file : Option Pid} (hengaged : (system.phase pid).engaged = true)
    (hnext : next.engaged = true) (hself : FileAgrees file pid next) :
    Invariant ((system.move pid next).setPidFile file) := by
  have hothers := hinvariant.others_of_engaged hengaged
  refine hinvariant.move (fun other hother => ?_) hself fun other hother => ?_
  · rcases hothers other hother with hidle | hseeks
    · exact Or.inr (Or.inl hidle)
    · exact Or.inr (Or.inr (Or.inl ⟨hnext, hseeks⟩))
  · rcases hothers other hother with hidle | hseeks
    · exact .of_idle hidle
    · exact .of_seeks hseeks

/-- The engaged launcher next to one that is to read the file is in the file, or
the file is gone. -/
theorem Invariant.file_of_engaged (hinvariant : Invariant system)
    (hengaged : (system.phase pid).engaged = true) {owner : Pid}
    (hfile : system.pidFile = some owner) : owner = pid := by
  have hagrees := hinvariant.agrees pid
  cases hphase : system.phase pid with
  | running => simpa [hphase, FileAgrees, hfile] using hagrees
  | cleaning wrote =>
      cases wrote with
      | true => simpa [hphase, FileAgrees, hfile] using hagrees
      | false => simp [hphase, Phase.engaged] at hengaged
  | leaving wrote =>
      cases wrote with
      | true => simp [hphase, FileAgrees, hfile] at hagrees
      | false => simp [hphase, Phase.engaged] at hengaged
  | bare => simp [hphase, FileAgrees, hfile] at hagrees
  | absent => simp [hphase, Phase.engaged] at hengaged
  | fresh => simp [hphase, Phase.engaged] at hengaged
  | found => simp [hphase, Phase.engaged] at hengaged
  | probing read => simp [hphase, Phase.engaged] at hengaged
  | stale => simp [hphase, Phase.engaged] at hengaged
  | setup => simp [hphase, Phase.engaged] at hengaged
  | trapped => simp [hphase, Phase.engaged] at hengaged

/-- A calm launcher is idle, or engaged with its process id in the file. -/
theorem Invariant.of_calm (hinvariant : Invariant system)
    (hcalm : (system.phase pid).calm = true) :
    (system.phase pid).idle = true ∨
      (system.phase pid).engaged = true ∧ system.pidFile = some pid := by
  have hagrees := hinvariant.agrees pid
  cases hphase : system.phase pid with
  | absent => exact Or.inl rfl
  | fresh => exact Or.inl rfl
  | running => exact Or.inr ⟨rfl, by simpa [hphase, FileAgrees] using hagrees⟩
  | cleaning wrote =>
      cases wrote with
      | true => exact Or.inr ⟨rfl, by simpa [hphase, FileAgrees] using hagrees⟩
      | false => simp [hphase, Phase.calm] at hcalm
  | found => simp [hphase, Phase.calm] at hcalm
  | probing read => simp [hphase, Phase.calm] at hcalm
  | stale => simp [hphase, Phase.calm] at hcalm
  | setup => simp [hphase, Phase.calm] at hcalm
  | trapped => simp [hphase, Phase.calm] at hcalm
  | leaving wrote => simp [hphase, Phase.calm] at hcalm
  | bare => simp [hphase, Phase.calm] at hcalm

end Steps

/-- Every step of an unhurried launcher keeps the invariant. -/
theorem Invariant.step {source target : System Pid} {label : Pid × Move}
    (hinvariant : Invariant source) (hunhurried : source.Unhurried label)
    (hstep : Step source label target) : Invariant target := by
  cases hstep with
  | start hphase => exact hinvariant.move_idle rfl
  | stop => exact hinvariant.move_idle rfl
  | readMissing hphase hfile => exact hinvariant.move_idle rfl
  | probeAlive hphase => exact hinvariant.move_idle rfl
  | @testMissing pid hphase hfile =>
      refine hinvariant.move_alone (fun other hother => ?_) trivial
      rcases hinvariant.of_calm (hunhurried rfl other hother) with hidle | ⟨_, howns⟩
      · exact hidle
      · simp [hfile] at howns
  | @testFound pid owner hphase hfile =>
      refine hinvariant.move (fun other hother => ?_) trivial fun other _ => hinvariant.agrees other
      rcases hinvariant.of_calm (hunhurried rfl other hother) with hidle | ⟨hengaged, _⟩
      · exact Or.inr (Or.inl hidle)
      · exact Or.inr (Or.inr (Or.inr ⟨hengaged, rfl⟩))
  | @read pid owner hphase hfile =>
      refine hinvariant.move (fun other hother => ?_) trivial fun other _ => hinvariant.agrees other
      have hcoexist := hinvariant.coexist pid other hother.symm
      rw [hphase] at hcoexist
      rcases hcoexist with h | hidle | ⟨h, _⟩ | ⟨hengaged, _⟩
      · simp [Phase.idle] at h
      · exact Or.inr (Or.inl hidle)
      · simp [Phase.engaged] at h
      · have howner := hinvariant.file_of_engaged hengaged hfile
        exact Or.inr (Or.inr (Or.inr ⟨hengaged, by simp [Phase.seeks, howner]⟩))
  | @probeDead pid owner hphase hdead =>
      refine hinvariant.move_alone (hinvariant.others_idle ?_ ?_ fun other hengaged => ?_) trivial
      · simp [hphase, Phase.idle]
      · simp [hphase, Phase.engaged]
      · have hne : owner ≠ other := by
          rintro rfl
          simp [hdead, Phase.engaged] at hengaged
        simp [hphase, Phase.seeks, hne]
  | remove hphase => exact hinvariant.move_solitary hphase rfl rfl (fun _ => rfl) trivial
  | trap hphase => exact hinvariant.move_solitary hphase rfl rfl (fun _ => rfl) trivial
  | write hphase => exact hinvariant.move_solitary hphase rfl rfl (fun _ => rfl) rfl
  | finishTrapped hphase => exact hinvariant.move_solitary hphase rfl rfl (fun _ => rfl) trivial
  | @finishRunning pid hphase =>
      have hagrees := hinvariant.agrees pid
      rw [hphase] at hagrees
      exact hinvariant.move_engaged (by simp [hphase, Phase.engaged]) rfl hagrees
  | @clean pid wrote hphase =>
      cases wrote with
      | true => exact hinvariant.move_engaged (by simp [hphase, Phase.engaged]) rfl rfl
      | false => exact hinvariant.move_solitary hphase rfl rfl (fun _ => rfl) trivial
  | goOnTrapped hphase => exact hinvariant.move_solitary hphase rfl rfl (fun _ => rfl) trivial
  | @goOnRunning pid hphase =>
      have hagrees := hinvariant.agrees pid
      rw [hphase] at hagrees
      exact hinvariant.move_engaged (by simp [hphase, Phase.engaged]) rfl hagrees
  | @cleanAgain pid hphase =>
      exact hinvariant.move_engaged (by simp [hphase, Phase.engaged]) rfl rfl

theorem invariant_of_idle {system : System Pid} (hidle : system.Idle) : Invariant system where
  coexist first second _ := Or.inl (by rw [hidle first]; rfl)
  agrees pid := .of_idle (by rw [hidle pid]; rfl)

/-- In every run in which each launcher tests the PID file while all the others
are calm, at most one launcher at a time is between its write and its end. -/
theorem exclusive_of_unhurried {source target : System Pid} {labels : List (Pid × Move)}
    (hidle : source.Idle) (hrun : Run (Guarded System.Unhurried Step) source labels target) :
    target.Exclusive :=
  (hrun.invariant (fun _ _ _ hinvariant hstep => hinvariant.step hstep.1 hstep.2)
    (invariant_of_idle hidle)).exclusive

/-! ## Two launchers -/

/-- No launcher and no PID file. -/
def nothing : System ℕ := ⟨fun _ => .absent, none⟩

/-- One launcher, up to its write. -/
def oneStarted : System ℕ :=
  ((((nothing.move 1 .fresh).move 1 .setup).move 1 .trapped).move 1 .running).setPidFile (some 1)

/-- A second launcher has found it alive. -/
def twoRefused : System ℕ :=
  (((oneStarted.move 2 .fresh).move 2 .found).move 2 (.probing 1)).move 2 .absent

/-- The first launcher was killed; a third one has found its PID file. -/
def oneKilled : System ℕ :=
  (((twoRefused.move 1 .absent).move 3 .fresh).move 3 .found).move 3 (.probing 1)

/-- It has taken over. -/
def threeStarted : System ℕ :=
  (((((oneKilled.move 3 .stale).move 3 .setup).setPidFile none).move 3 .trapped).move 3
    .running).setPidFile (some 3)

/-- Only the tests of the PID file have to wait. -/
theorem guarded_of_ne {source target : System Pid} {label : Pid × Move} (hmove : label.2 ≠ .test)
    (hstep : Step source label target) : Guarded System.Unhurried Step source label target :=
  ⟨fun htest => absurd htest hmove, hstep⟩

theorem run_oneStarted : Run (Guarded System.Unhurried Step) nothing
    [(1, .start), (1, .test), (1, .trap), (1, .write)] oneStarted := by
  have htest : Guarded System.Unhurried Step (nothing.move 1 .fresh) (1, .test)
      ((nothing.move 1 .fresh).move 1 .setup) := by
    refine ⟨fun _ other hother => ?_, .testMissing rfl rfl⟩
    simp only [System.move, Function.update_of_ne hother]
    rfl
  exact .extend (.extend (.extend (.extend (.start _) (guarded_of_ne (by decide) (.start rfl)))
    htest) (guarded_of_ne (by decide) (.trap rfl))) (guarded_of_ne (by decide) (.write rfl))

theorem run_twoRefused : Run (Guarded System.Unhurried Step) oneStarted
    [(2, .start), (2, .test), (2, .read), (2, .probe true)] twoRefused := by
  have htest : Guarded System.Unhurried Step (oneStarted.move 2 .fresh) (2, .test)
      ((oneStarted.move 2 .fresh).move 2 .found) := by
    refine ⟨fun _ other hother => ?_, .testFound rfl rfl⟩
    simp only [System.move, Function.update_of_ne hother]
    by_cases hone : other = 1
    · rw [hone]
      rfl
    · simp [oneStarted, nothing, System.move, System.setPidFile, hone, Phase.calm]
  exact .extend (.extend (.extend (.extend (.start _) (guarded_of_ne (by decide) (.start rfl)))
    htest) (guarded_of_ne (by decide) (.read rfl rfl)))
    (guarded_of_ne (by decide) (.probeAlive rfl))

theorem run_threeStarted : Run (Guarded System.Unhurried Step) twoRefused
    ([(1, .stop), (3, .start), (3, .test), (3, .read)] ++
      [(3, .probe false), (3, .remove), (3, .trap), (3, .write)]) threeStarted := by
  have hnone (other : ℕ) : (twoRefused.move 1 .absent).phase other = .absent := by
    simp only [twoRefused, oneStarted, nothing, System.move, System.setPidFile,
      Function.update_apply]
    grind
  have htest : Guarded System.Unhurried Step ((twoRefused.move 1 .absent).move 3 .fresh)
      (3, .test) (((twoRefused.move 1 .absent).move 3 .fresh).move 3 .found) := by
    refine ⟨fun _ other hother => ?_, .testFound rfl rfl⟩
    have hcalm : (((twoRefused.move 1 .absent).move 3 .fresh).phase other) = .absent :=
      (Function.update_of_ne hother ..).trans (hnone other)
    rw [hcalm]
    rfl
  have hkilled : Run (Guarded System.Unhurried Step) twoRefused
      [(1, .stop), (3, .start), (3, .test), (3, .read)] oneKilled :=
    .extend (.extend (.extend (.extend (.start _) (guarded_of_ne (by decide) .stop))
      (guarded_of_ne (by decide) (.start rfl))) htest) (guarded_of_ne (by decide) (.read rfl rfl))
  exact hkilled.append (.extend (.extend (.extend (.extend (.start _)
    (guarded_of_ne (by decide) (.probeDead rfl rfl))) (guarded_of_ne (by decide) (.remove rfl)))
    (guarded_of_ne (by decide) (.trap rfl))) (guarded_of_ne (by decide) (.write rfl)))

theorem exclusive_threeStarted : threeStarted.Exclusive :=
  exclusive_of_unhurried (fun _ => rfl)
    ((run_oneStarted.append run_twoRefused).append run_threeStarted)

/-- Two launchers that both test the PID file before either of them writes it. -/
def twoTested : System ℕ :=
  (((nothing.move 1 .fresh).move 2 .fresh).move 1 .setup).move 2 .setup

/-- Both have written it. -/
def twoWritten : System ℕ :=
  ((((twoTested.move 1 .trapped).move 1 .running).setPidFile (some 1)).move 2 .trapped
    |>.move 2 .running).setPidFile (some 2)

/-- Two launchers can be running at once. -/
theorem two_running :
    ∃ labels, Run Step nothing labels twoWritten ∧ ¬ twoWritten.Exclusive := by
  have htested : Run Step nothing
      [(1, .start), (2, .start), (1, .test), (2, .test)] twoTested :=
    .extend (.extend (.extend (.extend (.start nothing) (.start rfl)) (.start rfl))
      (.testMissing rfl rfl)) (.testMissing rfl rfl)
  have hwritten : Run Step nothing
      ([(1, .start), (2, .start), (1, .test), (2, .test)] ++ [(1, .trap)] ++ [(1, .write)] ++
        [(2, .trap)] ++ [(2, .write)]) twoWritten :=
    .extend (.extend (.extend (.extend htested (.trap rfl)) (.write rfl)) (.trap rfl)) (.write rfl)
  refine ⟨_, hwritten, fun hexclusive => ?_⟩
  have hsame := hexclusive 1 2 rfl rfl
  omega

end TizenRoblox.Launcher.SingleInstance
