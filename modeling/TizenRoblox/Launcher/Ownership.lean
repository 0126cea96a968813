/-
# The processes a launcher ends

`cleanup` ends the input mapper and the session bus. It takes their process ids from
`INPUT_PID_FILE` and from `DBUS_SESSION_BUS_PID`, and so from whoever wrote them last: an
earlier launcher, or the environment. If the file names no live process of somebody else's
whenever `cleanup` starts, and no session bus is inherited, then every process that is ever
ended, at whatever points signals run `cleanup`, was started by the launcher itself
(`ownKills_launchAmong`).

Between its commands the script keeps what is `Lawful`. The invariant of `cleanup` is about
what it will read, and it keeps it only as a whole: `kill` is harmless because of the command
before it. So the parts of `cleanup` are followed with what is known there (`Known`), and
every trap that comes in between keeps what is known.

A launcher that finds no live process in the file when it sets its trap writes nothing there
but the process id of its own mapper (`noForeignMapper_of_findsNone`).
-/

import TizenRoblox.Launcher.Stopping
import TizenRoblox.Posix.Directories

namespace TizenRoblox.Launcher

open TizenRoblox.Foundation TizenRoblox.Posix TizenRoblox.Shell TizenRoblox.Shell.Command

/-! ## Own processes -/

/-- The launcher starts a session bus of its own, and this is its process id. -/
def OwnBus (world : World) (state : State) (pid : Bytes) : Prop :=
  state.get "DBUS_SESSION_BUS_ADDRESS" = [] ∧
    ∃ address, world.dbusLaunch = some (address, pid)

section Kills

variable (world : World) (bus : Bytes → Prop)

/-- Of the processes started by the launcher: the input mapper, once it is started, and
its session bus. -/
def Own (trace : List Event) (pid : Bytes) : Prop :=
  .startedMapper ∈ trace ∧ pid = world.mapperPid ∨ bus pid

/-- Every process that was ended had been started by the launcher. -/
def OwnKills (trace : List Event) : Prop :=
  ∀ earlier pid later, trace = earlier ++ .terminated pid :: later → Own world bus earlier pid

variable {world bus}

theorem Own.append {trace : List Event} {pid : Bytes} (hown : Own world bus trace pid)
    (event : Event) : Own world bus (trace ++ [event]) pid :=
  hown.imp_left fun hmapper => ⟨List.mem_append_left _ hmapper.1, hmapper.2⟩

/-- A process may be ended that is not there or was started by the launcher. -/
def Safe (world : World) (bus : Bytes → Prop) (trace : List Event) (pid : Bytes) : Prop :=
  world.alive pid = true → Own world bus trace pid

theorem Safe.append {trace : List Event} {pid : Bytes} (hsafe : Safe world bus trace pid)
    (event : Event) : Safe world bus (trace ++ [event]) pid :=
  fun halive => (hsafe halive).append event

theorem OwnKills.append {trace : List Event} {event : Event} (hkills : OwnKills world bus trace)
    (hevent : ∀ pid, event = .terminated pid → Own world bus trace pid) :
    OwnKills world bus (trace ++ [event]) := by
  intro earlier pid later hsplit
  rcases List.eq_nil_or_concat later with rfl | ⟨rest, last, rfl⟩
  · obtain ⟨rfl, hlast⟩ := List.append_inj' hsplit rfl
    exact hevent pid (List.singleton_inj.mp hlast)
  · rw [List.concat_eq_append, ← List.cons_append, ← List.append_assoc] at hsplit
    exact hkills earlier pid rest (List.append_inj' hsplit rfl).1

end Kills

/-! ## The files of the process ids -/

def pidPlace : Path := [bytes "tmp", bytes "tizenroblox.pid"]

def inputPidPlace : Path := [bytes "tmp", bytes "tizenroblox_input.pid"]

/-- The files lie in a directory of their own right, and are no links. -/
structure PidFiles (tree : Tree) : Prop where
  tmp : tree.RealDir [bytes "tmp"]
  own : ∀ target, tree.node pidPlace ≠ some (.link target)
  input : ∀ target, tree.node inputPidPlace ≠ some (.link target)

section Files

variable {tree next : Tree} {cwd : Path} {data : Bytes}

theorem ofBytes_pidFile :
    Pathname.ofBytes pidFile = (Pathname.ofPath [bytes "tmp"]).child (bytes "tizenroblox.pid") := by
  decide

theorem ofBytes_inputPidFile :
    Pathname.ofBytes inputPidFile =
      (Pathname.ofPath [bytes "tmp"]).child (bytes "tizenroblox_input.pid") := by
  decide

theorem PidFiles.set (hfiles : PidFiles tree) (name : Name) :
    PidFiles (tree.set ([bytes "tmp"] ++ [name]) (.file data)) where
  tmp := hfiles.tmp.set name _
  own target := by
    rw [Tree.node_set]
    split
    · simp
    · exact hfiles.own target
  input target := by
    rw [Tree.node_set]
    split
    · simp
    · exact hfiles.input target

theorem PidFiles.erase (hfiles : PidFiles tree) (name : Name) :
    PidFiles (tree.erase ([bytes "tmp"] ++ [name])) where
  tmp := hfiles.tmp.erase name
  own target := by
    rw [Tree.node_erase]
    split
    · simp
    · exact hfiles.own target
  input target := by
    rw [Tree.node_erase]
    split
    · simp
    · exact hfiles.input target

end Files

/-! ## What each command of `cleanup` keeps -/

/-- A stage that every command of `cleanup` keeps, whatever it finds. -/
structure Stage.Tidy (stage : Stage) : Prop where
  tmp : ∀ tree vars trace, stage tree vars trace → tree.RealDir [bytes "tmp"]
  said : ∀ line taken tree vars trace, stage tree vars trace →
    stage tree vars (trace ++ [.said line taken])
  terminated : ∀ pid tree vars trace, stage tree vars trace →
    stage tree vars (trace ++ [.terminated pid])
  read : ∀ pid tree vars trace, stage tree vars trace →
    stage tree (Function.update vars "INPUT_PID" (some pid)) trace
  erased : ∀ name tree vars trace, stage tree vars trace →
    stage (tree.erase ([bytes "tmp"] ++ [name])) vars trace

section Tidy

variable {stage : Stage} (htidy : stage.Tidy) {world : World}
include htidy

theorem Stage.Tidy.echo (line : Bytes) : Preserves stage.Of (echo world line) :=
  preserves_echo line fun _ _ _ hstate => htidy.said _ _ _ _ _ hstate

theorem Stage.Tidy.kill (pid : State → Bytes) : Preserves stage.Of (kill world pid) := by
  apply preserves_simple
  intro state hstate
  split
  · exact htidy.terminated _ _ _ _ hstate
  · exact hstate

theorem Stage.Tidy.rmF {file : Bytes} {name : Name}
    (hfile : Pathname.ofBytes file = (Pathname.ofPath [bytes "tmp"]).child name)
    (hdots : ¬ IsDots name) : Preserves stage.Of (rmF world file) := by
  apply preserves_attempt
  intro state next hstate hnext
  obtain ⟨tree, htree, rfl⟩ := Option.map_eq_some_iff.mp hnext
  rw [hfile] at htree
  obtain rfl := (htidy.tmp _ _ _ hstate).rmF_child_eq hdots htree
  exact htidy.erased _ _ _ _ hstate

theorem Stage.Tidy.cleanupText :
    (cleanupText world).Each fun _ _ run => Preserves stage.Of run := by
  have hcat : Preserves stage.Of (catInto world "INPUT_PID" inputPidFile) := by
    apply preserves_attempt
    intro state next hstate hnext
    obtain ⟨data, -, rfl⟩ := Option.map_eq_some_iff.mp hnext
    exact htidy.read _ _ _ _ hstate
  exact ⟨htidy.echo _,
    ⟨preserves_test, ⟨hcat, ⟨htidy.kill _, preserves_skip⟩,
      htidy.rmF ofBytes_inputPidFile (by decide)⟩, trivial⟩,
    htidy.rmF ofBytes_pidFile (by decide),
    ⟨preserves_test, ⟨htidy.kill _, preserves_skip⟩, trivial⟩, htidy.echo _⟩

theorem Stage.Tidy.handler (signal : Signal) :
    (handler world signal).Each fun _ _ run => Preserves stage.Of run := by
  cases signal with
  | int => exact htidy.cleanupText
  | term => exact htidy.cleanupText
  | usr1 => exact preserves_act fun _ hstate => hstate

end Tidy

/-! ## What is known -/

/-- What is known at a place of `cleanup`: that `INPUT_PID` may be ended, that
`DBUS_SESSION_BUS_PID` is not empty. -/
structure Known where
  input : Bool
  session : Bool

def nothingKnown : Known := ⟨false, false⟩

def inputVar (vars : String → Option Bytes) : Bytes := (vars "INPUT_PID").getD []

def sessionVar (vars : String → Option Bytes) : Bytes := (vars "DBUS_SESSION_BUS_PID").getD []

section Sound

variable (world : World) (bus : Bytes → Prop)

/-- `INPUT_PID_FILE` names no live process that the launcher has not started. -/
def NamesOwn (tree : Tree) (trace : List Event) : Prop :=
  ∀ data, tree.node inputPidPlace = some (.file data) →
    Safe world bus trace (commandSubstitution data)

/-- No process was ended but own ones, and the session bus may be. -/
structure Lawful (tree : Tree) (vars : String → Option Bytes) (trace : List Event) : Prop where
  files : PidFiles tree
  session : sessionVar vars = [] ∨ Safe world bus trace (sessionVar vars)
  kills : OwnKills world bus trace

/-- Whatever `cleanup` will read may be ended, too. -/
structure Sound (known : Known) (tree : Tree) (vars : String → Option Bytes)
    (trace : List Event) : Prop extends Lawful world bus tree vars trace where
  file : NamesOwn world bus tree trace
  knownInput : known.input = true → Safe world bus trace (inputVar vars)
  knownSession : known.session = true → sessionVar vars ≠ []

/-- The invariant of `cleanup`. -/
abbrev Holds (known : Known) (state : State) : Prop :=
  Sound world bus known state.tree state.vars state.trace

variable {world bus} {known : Known} {tree : Tree} {vars : String → Option Bytes}
  {trace : List Event}

theorem NamesOwn.append {event : Event} (hown : NamesOwn world bus tree trace) :
    NamesOwn world bus tree (trace ++ [event]) :=
  fun data hdata => (hown data hdata).append event

/-- A file may be replaced by one whose process id may be ended, if that is ever read. -/
theorem NamesOwn.set {name : Name} {data : Bytes} (hown : NamesOwn world bus tree trace)
    (hdata : [bytes "tmp"] ++ [name] = inputPidPlace →
      Safe world bus trace (commandSubstitution data)) :
    NamesOwn world bus (tree.set ([bytes "tmp"] ++ [name]) (.file data)) trace := by
  intro other hother
  rw [Tree.node_set] at hother
  split at hother
  · next hplace =>
      obtain rfl : data = other := by simpa using hother
      exact hdata hplace.symm
  · exact hown other hother

theorem NamesOwn.erase (name : Name) (hown : NamesOwn world bus tree trace) :
    NamesOwn world bus (tree.erase ([bytes "tmp"] ++ [name])) trace := by
  intro other hother
  rw [Tree.node_erase] at hother
  split at hother
  · cases hother
  · exact hown other hother

theorem Lawful.append {event : Event} (hlawful : Lawful world bus tree vars trace)
    (hevent : ∀ pid, event = .terminated pid → Own world bus trace pid) :
    Lawful world bus tree vars (trace ++ [event]) where
  files := hlawful.files
  session := hlawful.session.imp_right fun hsafe => hsafe.append event
  kills := hlawful.kills.append hevent

theorem Lawful.update {name : String} {value : Bytes}
    (hlawful : Lawful world bus tree vars trace) (hsession : name ≠ "DBUS_SESSION_BUS_PID") :
    Lawful world bus tree (Function.update vars name (some value)) trace := by
  have hsessionVar : sessionVar (Function.update vars name (some value)) = sessionVar vars := by
    rw [sessionVar, Function.update_of_ne hsession.symm]
    rfl
  exact { hlawful with session := hsessionVar ▸ hlawful.session }

theorem Lawful.set {name : Name} {data : Bytes} (hlawful : Lawful world bus tree vars trace) :
    Lawful world bus (tree.set ([bytes "tmp"] ++ [name]) (.file data)) vars trace :=
  { hlawful with files := hlawful.files.set name }

/-- Where the file names own processes, `cleanup` may start. -/
theorem Lawful.sound (hlawful : Lawful world bus tree vars trace)
    (hown : NamesOwn world bus tree trace) : Sound world bus nothingKnown tree vars trace :=
  { hlawful with file := hown, knownInput := nofun, knownSession := nofun }

theorem Sound.append {event : Event} (hsound : Sound world bus known tree vars trace)
    (hevent : ∀ pid, event = .terminated pid → Own world bus trace pid) :
    Sound world bus known tree vars (trace ++ [event]) :=
  { hsound.toLawful.append hevent with
    file := hsound.file.append
    knownInput := fun hknown => (hsound.knownInput hknown).append event
    knownSession := hsound.knownSession }

/-- The process id that was read may be ended. -/
theorem Sound.read {data : Bytes} (hsound : Sound world bus known tree vars trace)
    (hdata : tree.node inputPidPlace = some (.file data)) :
    Sound world bus { known with input := true } tree
      (Function.update vars "INPUT_PID" (some (commandSubstitution data))) trace := by
  have hsessionVar : sessionVar (Function.update vars "INPUT_PID"
      (some (commandSubstitution data))) = sessionVar vars := by
    rw [sessionVar, Function.update_of_ne (by decide)]
    rfl
  have hinputVar : inputVar (Function.update vars "INPUT_PID"
      (some (commandSubstitution data))) = commandSubstitution data := by
    rw [inputVar, Function.update_self]
    rfl
  exact {
    hsound.toLawful.update (by decide) with
    file := hsound.file
    knownInput := fun _ => hinputVar ▸ hsound.file data hdata
    knownSession := hsessionVar ▸ hsound.knownSession }

theorem Sound.erase (name : Name) (hsound : Sound world bus known tree vars trace) :
    Sound world bus known (tree.erase ([bytes "tmp"] ++ [name])) vars trace :=
  { hsound with files := hsound.files.erase name, file := hsound.file.erase name }

/-- What is known may be forgotten. -/
theorem Sound.forget {more : Known} (hsound : Sound world bus more tree vars trace)
    (hinput : known.input = true → more.input = true)
    (hsession : known.session = true → more.session = true) :
    Sound world bus known tree vars trace :=
  { hsound with
    knownInput := fun hknown => hsound.knownInput (hinput hknown)
    knownSession := fun hknown => hsound.knownSession (hsession hknown) }

end Sound

/-! ## What the commands keep -/

section Commands

variable {world : World} {bus : Bytes → Prop} {known : Known}

theorem holds_said (line : State → Bytes) :
    Preserves (Holds world bus known) (say world line) :=
  preserves_say line fun _ _ _ hstate => hstate.append fun _ hevent => by cases hevent

theorem holds_kill {pid : State → Bytes}
    (hpid : ∀ state, Holds world bus known state → Safe world bus state.trace (pid state)) :
    Preserves (Holds world bus known) (kill world pid) := by
  apply preserves_simple
  intro state hstate
  split
  · next halive =>
      refine hstate.append fun killed hkilled => ?_
      obtain rfl : pid state = killed := by simpa using hkilled
      exact hpid state hstate halive
  · exact hstate

theorem holds_rmF {file : Bytes} {name : Name}
    (hfile : Pathname.ofBytes file = (Pathname.ofPath [bytes "tmp"]).child name)
    (hdots : ¬ IsDots name) : Preserves (Holds world bus known) (rmF world file) := by
  apply preserves_attempt
  intro state next hstate hnext
  obtain ⟨tree, htree, rfl⟩ := Option.map_eq_some_iff.mp hnext
  rw [hfile] at htree
  obtain rfl := hstate.files.tmp.rmF_child_eq hdots htree
  exact hstate.erase name

/-- A PID file is written where it lies, or not at all. -/
theorem preserves_pidFile {stage : Stage} {file data : Bytes} {name : Name}
    (hfile : Pathname.ofBytes file = (Pathname.ofPath [bytes "tmp"]).child name)
    (hdots : ¬ IsDots name)
    (hplain : ∀ tree vars trace, stage tree vars trace → tree.RealDir [bytes "tmp"] ∧
      ∀ target, tree.node ([bytes "tmp"] ++ [name]) ≠ some (.link target))
    (hset : ∀ tree vars trace, stage tree vars trace →
      stage (tree.set ([bytes "tmp"] ++ [name]) (.file data)) vars trace) :
    Preserves stage.Of (writeTo world file data) := by
  apply preserves_simple
  intro state hstate
  obtain ⟨htmp, hlink⟩ := hplain _ _ _ hstate
  unfold written
  split
  · next tree htree =>
      rw [hfile] at htree
      split
      · obtain rfl | rfl := htmp.write_child_eq hdots hlink htree
        · exact hstate
        · exact hset _ _ _ hstate
      · exact hstate
  · exact hstate

end Commands

/-! ## What `cleanup` keeps -/

section Cleanup

variable {world : World} {bus : Bytes → Prop} {depth : ℕ}

/-- What holds of a script among signals. -/
abbrev HoldsAmong (world : World) (bus : Bytes → Prop) (known : Known)
    (live : Live State Signal) : Prop := Holds world bus known live.state

variable (hsurvives : ∀ known,
  Survives (lookFor (handler world) depth) (HoldsAmong world bus known))
include hsurvives

/-- A text each of whose commands keeps what is known. -/
theorem ensures_holds {strict : Bool} {known : Known} {text : Text}
    (htext : text.Each fun _ _ run => Preserves (Holds world bus known) run) :
    Ensures strict (HoldsAmong world bus known) (among world depth text)
      (.always (HoldsAmong world bus known)) :=
  .of_preserves (preserves_interrupted (hsurvives known)
    (htext.mono fun _ _ _ hrun => keeping_state hrun))

/-- Where `cat` fails the script ends, so `kill` finds what has been read. -/
theorem ensures_cat (known : Known) :
    Ensures true (HoldsAmong world bus known)
      (among world depth (.command 331 (catInto world "INPUT_PID" inputPidFile)))
      ⟨HoldsAmong world bus { known with input := true },
        HoldsAmong world bus { known with input := true },
        HoldsAmong world bus known, HoldsAmong world bus known⟩ := by
  have hforget (live : Live State Signal)
      (hlive : HoldsAmong world bus { known with input := true } live) :
      HoldsAmong world bus known live := hlive.forget (fun _ => rfl) id
  refine ensures_lift ?_ (hsurvives _) (hsurvives _) (hsurvives _) hforget hforget
  intro live hlive
  cases hdata : live.state.tree.contents world.cwd (.ofBytes inputPidFile) with
  | none =>
      have hfails : catInto world "INPUT_PID" inputPidFile true live.state =
          .exited 1 live.state := by simp [catInto, attempt, simple, hdata]
      rw [hfails]
      exact hlive
  | some data =>
      rw [catInto, attempt_eq_done (by rw [hdata]; rfl)]
      rw [ofBytes_inputPidFile] at hdata
      exact hlive.read (hlive.files.tmp.node_of_contents (by decide) hlive.files.input hdata)

/-- The mapper is ended if what has been read may be. -/
theorem ensures_killInput (known : Known) :
    Ensures true (HoldsAmong world bus known)
      (among world depth (.ifThen (.command 330 (testF world inputPidFile)) <| .block [
        .command 331 (catInto world "INPUT_PID" inputPidFile),
        .orTrue 332 (.command 332 (kill world fun state => state.get "INPUT_PID")),
        .command 333 (rmF world inputPidFile)])) (.always (HoldsAmong world bus known)) := by
  have hforget (live : Live State Signal)
      (hlive : HoldsAmong world bus { known with input := true } live) :
      HoldsAmong world bus known live := hlive.forget (fun _ => rfl) id
  have hkill : Ensures true (HoldsAmong world bus { known with input := true })
      (among world depth (.seq
        (.orTrue 332 (.command 332 (kill world fun state => state.get "INPUT_PID")))
        (.command 333 (rmF world inputPidFile)))) (.always (HoldsAmong world bus known)) := by
    have htext : (Program.seq
        (.orTrue 332 (.command 332 (kill world fun state => state.get "INPUT_PID")))
        (.command 333 (rmF world inputPidFile)) : Text).Each fun _ _ run =>
          Preserves (Holds world bus { known with input := true }) run :=
      ⟨⟨holds_kill fun _ hstate => hstate.knownInput rfl, preserves_skip⟩,
        holds_rmF ofBytes_inputPidFile (by decide)⟩
    exact (ensures_holds hsurvives htext).mono (fun _ => id) hforget hforget hforget hforget
  exact .ifElse (ensures_holds hsurvives preserves_test)
    (.seq (ensures_cat hsurvives known) hkill hkill) (ensures_holds hsurvives trivial)

/-- The session bus is ended if there is one. -/
theorem ensures_killSession (known : Known) :
    Ensures true (HoldsAmong world bus known)
      (among world depth
        (.ifThen (.command 336 (.test fun state => state.get "DBUS_SESSION_BUS_PID" ≠ [])) <|
          .orTrue 337 (.command 337 (kill world fun state => state.get "DBUS_SESSION_BUS_PID"))))
      (.always (HoldsAmong world bus known)) := by
  have hforget (live : Live State Signal)
      (hlive : HoldsAmong world bus { known with session := true } live) :
      HoldsAmong world bus known live := hlive.forget id (fun _ => rfl)
  have htest : Ensures false (HoldsAmong world bus known)
      (among world depth
        (.command 336 (.test fun state => state.get "DBUS_SESSION_BUS_PID" ≠ [])))
      ⟨HoldsAmong world bus { known with session := true }, HoldsAmong world bus known,
        HoldsAmong world bus known, HoldsAmong world bus known⟩ := by
    refine ensures_test (fun live hlive hset => ?_) (fun _ hlive _ => hlive) (hsurvives _)
      (hsurvives _) hforget fun _ => id
    exact { hlive with knownSession := fun _ => of_decide_eq_true hset }
  have hkill : Ensures true (HoldsAmong world bus { known with session := true })
      (among world depth
        (.orTrue 337 (.command 337 (kill world fun state => state.get "DBUS_SESSION_BUS_PID"))))
      (.always (HoldsAmong world bus known)) := by
    have htext : (.orTrue 337 (.command 337
        (kill world fun state => state.get "DBUS_SESSION_BUS_PID")) : Text).Each fun _ _ run =>
          Preserves (Holds world bus { known with session := true }) run :=
      ⟨holds_kill fun _ hstate => hstate.session.resolve_left (hstate.knownSession rfl),
        preserves_skip⟩
    exact (ensures_holds hsurvives htext).mono (fun _ => id) hforget hforget hforget hforget
  exact .ifElse htest hkill (ensures_holds hsurvives trivial)

/-- `cleanup` keeps what is known if the traps do that interrupt it. -/
theorem ensures_cleanupText (known : Known) :
    Ensures true (HoldsAmong world bus known) (among world depth (cleanupText world))
      (.always (HoldsAmong world bus known)) := by
  have hfirst : (.command 329 (echo world shuttingDownLine) :
      Text).Each fun _ _ run => Preserves (Holds world bus known) run := holds_said _
  have hpid : (.command 335 (rmF world pidFile) : Text).Each fun _ _ run =>
      Preserves (Holds world bus known) run := holds_rmF ofBytes_pidFile (by decide)
  have hlast : (.command 339 (echo world stoppedLine) : Text).Each fun _ _ run =>
      Preserves (Holds world bus known) run := holds_said _
  have hstopped : Ensures true (HoldsAmong world bus known) _ _ := ensures_holds hsurvives hlast
  have hsession := Ensures.seq (ensures_killSession hsurvives known) hstopped hstopped
  have hremoved := Ensures.seq (ensures_holds hsurvives hpid) hsession hsession
  have hinput := Ensures.seq (ensures_killInput hsurvives known) hremoved hremoved
  exact .seq (ensures_holds hsurvives hfirst) hinput hinput

theorem ensures_handler (signal : Signal) (known : Known) :
    Ensures true (HoldsAmong world bus known) (among world depth (handler world signal))
      (.always (HoldsAmong world bus known)) := by
  cases signal with
  | int => exact ensures_cleanupText hsurvives known
  | term => exact ensures_cleanupText hsurvives known
  | usr1 => exact ensures_holds hsurvives (preserves_act fun _ hstate => hstate)

omit hsurvives

/-- What is known survives the traps. -/
theorem survives_holds (depth : ℕ) (known : Known) :
    Survives (lookFor (handler world) depth) (HoldsAmong world bus known) := by
  apply survives_family
  · exact fun _ _ _ hlive => hlive
  · intro depth hsurvives known signal live hlive _
    have hkept := Outcome.meets_always.mp
      (ensures_handler hsurvives signal known (live.enter signal) hlive)
    exact ⟨hkept, hkept⟩

end Cleanup

/-! ## What the script keeps -/

section Script

variable {world : World} {bus : Bytes → Prop} (installDir : Bytes)

/-- A trap may start: if it runs `cleanup`, `INPUT_PID_FILE` names no live process of
somebody else's. -/
def Fair (world : World) (bus : Bytes → Prop) (moment : Moment State Signal) : Prop :=
  moment.signal = .usr1 ∨ NamesOwn world bus moment.state.tree moment.state.trace

/-- Or else a trap has started that may not. -/
abbrev LawfulAmong (world : World) (bus : Bytes → Prop) (live : Live State Signal) : Prop :=
  Missed (Fair world bus) live ∨ At (Lawful world bus) live

theorem steady_lawful : Stage.Steady (Lawful world bus) where
  said _ _ _ _ _ hlawful := hlawful.append nofun
  started _ _ _ _ _ _ hlawful := hlawful.append nofun
  assigned _ _ _ _ hlawful := hlawful.update (by decide)

theorem keeping_lawful {line : ℕ} {signals : List Signal} {run : Command State}
    (hrun : Preserves (Stage.Of (Lawful world bus)) run) :
    Keeping (LawfulAmong world bus) line signals run :=
  fun strict live hlive => Or.imp_right (hrun strict live.state) hlive

/-- A trap starts where the script is lawful. -/
theorem lawful_handler {depth : ℕ}
    (hsurvives : Survives (lookFor (handler world) depth) (LawfulAmong world bus))
    {signal : Signal} {live : Live State Signal} (hlive : At (Lawful world bus) live)
    (hfair : Fair world bus ⟨signal, live.line, live.state⟩) :
    LawfulAmong world bus
      (among world depth (handler world signal) true (live.enter signal)).state := by
  have hcleanup (hown : NamesOwn world bus live.state.tree live.state.trace) :
      At (Lawful world bus)
        (among world depth (cleanupText world) true (live.enter signal)).state := by
    have hsound : HoldsAmong world bus nothingKnown (live.enter signal) := hlive.sound hown
    exact (Outcome.meets_always.mp
      (ensures_cleanupText (survives_holds depth) nothingKnown _ hsound)).toLawful
  cases signal with
  | int => exact .inr (hcleanup (hfair.resolve_left nofun))
  | term => exact .inr (hcleanup (hfair.resolve_left nofun))
  | usr1 =>
      have hflag : soberStopped.Each (Keeping (LawfulAmong world bus)) :=
        keeping_lawful (preserves_act fun _ hstate => hstate)
      exact preserves_interrupted hsurvives hflag true _ (.inr hlive)

theorem survives_lawful (depth : ℕ) :
    Survives (lookFor (handler world) depth) (LawfulAmong world bus) := by
  apply survives_of_handlers
  · exact fun _ _ hlive => hlive
  intro depth hsurvives signal live hlive hcaught
  have hmissed (henter : Missed (Fair world bus) (live.enter signal)) :
      LawfulAmong world bus
        (among world depth (handler world signal) true (live.enter signal)).state :=
    .inl (preserves_missed depth (handler world signal) true _ henter)
  suffices hends : LawfulAmong world bus
      (among world depth (handler world signal) true (live.enter signal)).state from
    ⟨hends, hends⟩
  rcases hlive with hlive | hlive
  · exact hmissed (calm_missed.enter live signal hlive hcaught)
  · by_cases hfair : Fair world bus ⟨signal, live.line, live.state⟩
    · exact lawful_handler hsurvives hlive hfair
    · exact hmissed (missed_enter hfair)

/-- The script itself ends no process. -/
theorem lawful_trappedText : (trappedText world installDir).Each fun _ _ run =>
    Preserves (Stage.Of (Lawful world bus)) run := by
  have hsteady := @steady_lawful world bus
  have hset (data : Bytes) (name : Name) (tree : Tree) (vars : String → Option Bytes)
      (trace : List Event) (hlawful : Lawful world bus tree vars trace) :
      Lawful world bus (tree.set ([bytes "tmp"] ++ [name]) (.file data)) vars trace := hlawful.set
  have hinput : Preserves (Stage.Of (Lawful world bus))
      (writeTo world inputPidFile (world.mapperPid ++ [newline])) :=
    preserves_pidFile ofBytes_inputPidFile (by decide)
      (fun _ _ _ hlawful => ⟨hlawful.files.tmp, hlawful.files.input⟩) (hset _ _)
  have hown : Preserves (Stage.Of (Lawful world bus))
      (writeTo world pidFile (world.pid ++ [newline])) :=
    preserves_pidFile ofBytes_pidFile (by decide)
      (fun _ _ _ hlawful => ⟨hlawful.files.tmp, hlawful.files.own⟩) (hset _ _)
  refine ⟨preserves_act fun _ hstate => hstate, ?_, hsteady.laterText installDir hown⟩
  exact ⟨preserves_test,
    ⟨hsteady.line _, preserves_act fun _ hstate => hstate.append nofun,
      preserves_act fun _ hstate => hstate.update (by decide), hinput, preserves_skip,
      hsteady.line _⟩,
    hsteady.line _⟩

/-- The state in which the trap of the exit starts, if the script ends. -/
def exitState (world : World) (installDir : Bytes) (live : Live State Signal) : Option State :=
  match execute (handler world) (trappedText world installDir) true live with
  | .blocked _ => none
  | outcome => some outcome.state.state

theorem lawful_trappedRun {live : Live State Signal} (hlive : At (Lawful world bus) live)
    (hexit : ∀ state ∈ exitState world installDir live,
      NamesOwn world bus state.tree state.trace) :
    LawfulAmong world bus (trappedRun world installDir live) := by
  have htext : LawfulAmong world bus
      (execute (handler world) (trappedText world installDir) true live).state :=
    preserves_interrupted (survives_lawful _)
      ((lawful_trappedText installDir).mono fun _ _ _ hrun => keeping_lawful hrun) true live
      (.inr hlive)
  have hcleanup (next : Live State Signal) (hnext : LawfulAmong world bus next)
      (hown : NamesOwn world bus next.state.tree next.state.trace) :
      LawfulAmong world bus (execute (handler world) (cleanupText world) true next).state := by
    rcases hnext with hmissed | hlawful
    · exact .inl (preserves_missed _ (cleanupText world) true next hmissed)
    · have hsound : HoldsAmong world bus nothingKnown next := hlawful.sound hown
      exact .inr (Outcome.meets_always.mp
        (ensures_cleanupText (survives_holds _) nothingKnown next hsound)).toLawful
  unfold trappedRun
  unfold exitState at hexit
  split
  · next hblocked =>
      exact (congrArg (fun outcome => LawfulAmong world bus outcome.state) hblocked).mp htext
  · next hends =>
      refine hcleanup _ htext (hexit _ ?_)
      split
      · next hblocked => exact absurd hblocked (hends _)
      · rfl

end Script

/-! ## The mapper's own file -/

section Mapper

variable {world : World} {bus : Bytes → Prop} (installDir : Bytes)

/-- What the file names is the launcher's own, and the mapper has been started if that is
what is known. -/
structure Recorded (world : World) (bus : Bytes → Prop) (started : Bool) (tree : Tree)
    (_vars : String → Option Bytes) (trace : List Event) : Prop where
  files : PidFiles tree
  own : NamesOwn world bus tree trace
  mapper : started = true → .startedMapper ∈ trace

/-- Every trap has started at a moment that was fair. -/
abbrev FairAmong (world : World) (bus : Bytes → Prop) (started : Bool)
    (live : Live State Signal) : Prop :=
  (∀ moment ∈ live.handled, Fair world bus moment) ∧ At (Recorded world bus started) live

variable {started : Bool}

theorem Recorded.append {event : Event} {tree : Tree} {vars : String → Option Bytes}
    {trace : List Event} (hrecorded : Recorded world bus started tree vars trace) :
    Recorded world bus started tree vars (trace ++ [event]) where
  files := hrecorded.files
  own := hrecorded.own.append
  mapper hstarted := List.mem_append_left _ (hrecorded.mapper hstarted)

theorem steady_recorded : Stage.Steady (Recorded world bus started) where
  said _ _ _ _ _ hrecorded := hrecorded.append
  started _ _ _ _ _ _ hrecorded := hrecorded.append
  assigned _ _ _ _ hrecorded := ⟨hrecorded.files, hrecorded.own, hrecorded.mapper⟩

theorem tidy_recorded : Stage.Tidy (Recorded world bus started) where
  tmp _ _ _ hrecorded := hrecorded.files.tmp
  said _ _ _ _ _ hrecorded := hrecorded.append
  terminated _ _ _ _ hrecorded := hrecorded.append
  read _ _ _ _ hrecorded := ⟨hrecorded.files, hrecorded.own, hrecorded.mapper⟩
  erased name _ _ _ hrecorded :=
    ⟨hrecorded.files.erase name, hrecorded.own.erase name, hrecorded.mapper⟩

theorem keeping_fair {line : ℕ} {signals : List Signal} {run : Command State}
    (hrun : Preserves (Stage.Of (Recorded world bus started)) run) :
    Keeping (FairAmong world bus started) line signals run :=
  fun strict live hlive => ⟨hlive.1, hrun strict live.state hlive.2⟩

theorem survives_fair (depth : ℕ) (started : Bool) :
    Survives (lookFor (handler world) depth) (FairAmong world bus started) := by
  refine survives_lookFor ⟨fun _ _ hlive => hlive, fun live signal hlive _ => ?_,
    fun _ _ hlive => hlive⟩ (fun signal => (tidy_recorded.handler signal).mono
      fun _ _ _ hrun => keeping_fair hrun) depth
  refine ⟨fun moment hmoment => ?_, hlive.2⟩
  rcases List.mem_append.mp hmoment with hold | hnew
  · exact hlive.1 moment hold
  · rw [List.mem_singleton.mp hnew]
    exact .inr hlive.2.own

theorem ensures_fair {strict : Bool} {text : Text} (depth : ℕ)
    (htext : text.Each fun _ _ run => Preserves (Stage.Of (Recorded world bus started)) run) :
    Ensures strict (FairAmong world bus started) (among world depth text)
      (.always (FairAmong world bus started)) :=
  .of_preserves (preserves_interrupted (survives_fair depth started)
    (htext.mono fun _ _ _ hrun => keeping_fair hrun))

/-- The process id that is written is the one of the mapper that has been started. -/
theorem ensures_startInputMapperText (depth : ℕ) (hnul : nul ∉ world.mapperPid)
    (hnewline : newline ∉ world.mapperPid) :
    Ensures true (FairAmong world bus false)
      (among world depth (startInputMapperText world installDir))
      (.always (FairAmong world bus false)) := by
  have hforget (live : Live State Signal) (hlive : FairAmong world bus true live) :
      FairAmong world bus false live := ⟨hlive.1, hlive.2.files, hlive.2.own, nofun⟩
  have hstart : Ensures true (FairAmong world bus false)
      (among world depth (.command 345 (.act (State.record .startedMapper))))
      ⟨FairAmong world bus true, FairAmong world bus true, FairAmong world bus false,
        FairAmong world bus false⟩ := by
    refine ensures_act (fun live hlive => ⟨hlive.1, ?_⟩) (survives_fair depth true) hforget
    exact ⟨hlive.2.files, hlive.2.own.append,
      fun _ => List.mem_append_right _ (List.mem_singleton_self _)⟩
  have hwrite : Preserves (Stage.Of (Recorded world bus true))
      (writeTo world inputPidFile (world.mapperPid ++ [newline])) := by
    refine preserves_pidFile ofBytes_inputPidFile (by decide)
      (fun _ _ _ hrecorded => ⟨hrecorded.files.tmp, hrecorded.files.input⟩)
      fun _ _ _ hrecorded => ⟨hrecorded.files.set _, hrecorded.own.set fun _ _ => ?_,
        hrecorded.mapper⟩
    exact .inl ⟨hrecorded.mapper rfl, commandSubstitution_echo hnul hnewline⟩
  have hwritten : (Program.block [
      .command 346 (assign "INPUT_MAPPER_PID" fun _ => world.mapperPid),
      .command 347 (writeTo world inputPidFile (world.mapperPid ++ [newline])),
      .command 348 pause,
      .command 349 (echo world (bytes "[launch] Input mapper PID: " ++ world.mapperPid))] :
      Text).Each fun _ _ run => Preserves (Stage.Of (Recorded world bus true)) run :=
    ⟨preserves_act fun _ hstate => ⟨hstate.files, hstate.own, hstate.mapper⟩, hwrite,
      preserves_skip, steady_recorded.line _⟩
  have hrest : Ensures true (FairAmong world bus true) _ (.always (FairAmong world bus false)) :=
    (ensures_fair depth hwritten).mono (fun _ => id) hforget hforget hforget hforget
  have hsaid : (.command 344 (echo world (bytes "[launch] Starting Samsung TV input mapper...")) :
      Text).Each fun _ _ run => Preserves (Stage.Of (Recorded world bus false)) run :=
    steady_recorded.line _
  have hmissing : (.command 351 (echo world (bytes "WARNING: input_mapper not found at " ++
      inputMapperBin installDir ++ bytes " — gamepad won't work")) :
      Text).Each fun _ _ run => Preserves (Stage.Of (Recorded world bus false)) run :=
    steady_recorded.line _
  have hstarted := Ensures.seq hstart hrest hrest
  exact .ifElse (ensures_fair depth preserves_test)
    (.seq (ensures_fair depth hsaid) hstarted hstarted) (ensures_fair depth hmissing)

theorem fair_trappedText (depth : ℕ) (hnul : nul ∉ world.mapperPid)
    (hnewline : newline ∉ world.mapperPid) :
    Ensures true (FairAmong world bus false) (among world depth (trappedText world installDir))
      (.always (FairAmong world bus false)) := by
  have htrap : (.trap 341 [.int, .term] installTrap : Text).Each fun _ _ run =>
      Preserves (Stage.Of (Recorded world bus false)) run := preserves_act fun _ hstate => hstate
  have hwrite : Preserves (Stage.Of (Recorded world bus false))
      (writeTo world pidFile (world.pid ++ [newline])) :=
    preserves_pidFile ofBytes_pidFile (by decide)
      (fun _ _ _ hrecorded => ⟨hrecorded.files.tmp, hrecorded.files.own⟩)
      fun _ _ _ hrecorded => ⟨hrecorded.files.set _,
        hrecorded.own.set fun hplace => absurd hplace (by decide), hrecorded.mapper⟩
  have hlater : Ensures true (FairAmong world bus false) _ _ :=
    ensures_fair depth (steady_recorded.laterText installDir hwrite)
  have hmapper := Ensures.seq
    (ensures_startInputMapperText installDir depth hnul hnewline) hlater hlater
  exact .seq (ensures_fair depth htrap) hmapper hmapper

theorem fair_trappedRun (hnul : nul ∉ world.mapperPid) (hnewline : newline ∉ world.mapperPid)
    {live : Live State Signal} (hlive : FairAmong world bus false live) :
    FairAmong world bus false (trappedRun world installDir live) := by
  have htext := Outcome.meets_always.mp
    (fair_trappedText installDir live.arriving.length hnul hnewline live hlive)
  exact trappedRun_of htext fun next hnext =>
    Outcome.meets_always.mp (ensures_fair next.arriving.length tidy_recorded.cleanupText next hnext)

end Mapper

/-! ## What the launcher inherits -/

section Inherited

variable (world : World) (installDir : Bytes)

/-- Until it sets its trap the launcher ends no process, and the session bus is the one it
has inherited or one of its own. -/
structure Inherits (start state : State) : Prop where
  kills : ∀ pid, .terminated pid ∉ state.trace
  session : sessionVar state.vars = sessionVar start.vars ∧
      state.get "DBUS_SESSION_BUS_ADDRESS" = start.get "DBUS_SESSION_BUS_ADDRESS" ∨
    OwnBus world start (sessionVar state.vars)

theorem inherits_setVariable {start state : State} {name : String} {value : Bytes}
    (haddress : name ≠ "DBUS_SESSION_BUS_ADDRESS") (hpid : name ≠ "DBUS_SESSION_BUS_PID")
    (hstate : Inherits world start state) :
    Inherits world start (state.setVariable name value) := by
  have hsession : sessionVar (state.setVariable name value).vars = sessionVar state.vars := by
    simp [sessionVar, State.setVariable, Function.update_of_ne hpid.symm]
  have hget : (state.setVariable name value).get "DBUS_SESSION_BUS_ADDRESS" =
      state.get "DBUS_SESSION_BUS_ADDRESS" := by
    simp [State.get, State.setVariable, Function.update_of_ne haddress.symm]
  refine ⟨hstate.kills, ?_⟩
  rw [hsession, hget]
  exact hstate.session

theorem plain_inherits (start : State) : Plain (Inherits world start) where
  said line taken state hstate := by
    refine ⟨fun pid hpid => ?_, hstate.session⟩
    rcases List.mem_append.mp hpid with hold | hnew
    · exact hstate.kills pid hold
    · cases List.mem_singleton.mp hnew
  setTree _ _ hstate := ⟨hstate.kills, hstate.session⟩
  setVariable name value state hname hstate := by
    simp only [guarded, List.mem_cons, List.not_mem_nil, not_or] at hname
    exact inherits_setVariable world hname.2.1 hname.2.2.1 hstate

theorem preserves_inherits (start : State) :
    Preserves (Inherits world start) (untrapped world installDir) := by
  refine (plain_inherits world start).untrapped world installDir
    (fun _ _ hstate => inherits_setVariable world (by decide) (by decide) hstate)
    fun address pid hlaunch state hstate hnone => ⟨hstate.kills, .inr ?_⟩
  have hsession : sessionVar ((state.setVariable "DBUS_SESSION_BUS_ADDRESS" address).setVariable
      "DBUS_SESSION_BUS_PID" pid).vars = pid := by
    simp [sessionVar, State.setVariable]
  rw [hsession]
  rcases hstate.session with ⟨_, haddress⟩ | hown
  · exact ⟨haddress ▸ hnone, address, hlaunch⟩
  · exact ⟨hown.1, address, hlaunch⟩

/-- Where no session bus is announced, it is because none can be started. -/
def Announced (state : State) : Prop :=
  state.get "DBUS_SESSION_BUS_ADDRESS" = [] →
    ∀ launched, world.dbusLaunch = some launched → sessionVar state.vars = launched.2

theorem plain_announced : Plain (Announced world) where
  said _ _ _ hstate := hstate
  setTree _ _ hstate := hstate
  setVariable name value state hname hstate := by
    simp only [guarded, List.mem_cons, List.not_mem_nil, not_or] at hname
    have hsession : sessionVar (state.setVariable name value).vars = sessionVar state.vars := by
      simp [sessionVar, State.setVariable, Function.update_of_ne (Ne.symm hname.2.2.1)]
    have hget : (state.setVariable name value).get "DBUS_SESSION_BUS_ADDRESS" =
        state.get "DBUS_SESSION_BUS_ADDRESS" := by
      simp [State.get, State.setVariable, Function.update_of_ne (Ne.symm hname.2.1)]
    unfold Announced
    rwa [hsession, hget]

theorem establishes_announced : Establishes (Announced world) (untrapped world installDir) := by
  have hbus : Establishes (Announced world) (dbusSession world) := by
    intro strict source status target houtcome
    simp only [dbusSession, ifThen, ifElse, test_tested] at houtcome
    by_cases haddress : source.get "DBUS_SESSION_BUS_ADDRESS" = []
    · cases hlaunch : world.dbusLaunch with
      | none => exact fun _ launched hsome => by simp [hlaunch] at hsome
      | some launched =>
          simp [haddress, hlaunch, orTrue, orElse, evalDbusLaunch] at houtcome
          intro _ other hother
          obtain rfl : launched = other := by simpa [hlaunch] using hother
          simp [← houtcome.2, sessionVar, State.setVariable]
    · simp [haddress] at houtcome
      exact fun hnone => absurd (houtcome.2 ▸ hnone) haddress
  exact (hbus.keep ((plain_announced world).uinputModule world)).seq.seq.seq.seq.seq

/-- The session bus that `cleanup` will find may be ended if it is the launcher's own, and
if the one it was told of is not there. -/
theorem session_untrapped {start next : State} {status : ℕ} (hfresh : start.trace = [])
    (houtcome : untrapped world installDir true start = .done status next)
    (hinherited : start.get "DBUS_SESSION_BUS_ADDRESS" = [] ∧ world.dbusLaunch.isSome = true ∨
      sessionVar start.vars = [] ∨ world.alive (sessionVar start.vars) = false) :
    (∀ pid, .terminated pid ∉ next.trace) ∧
      (sessionVar next.vars = [] ∨
        Safe world (OwnBus world start) next.trace (sessionVar next.vars)) := by
  have hinherits := preserves_inherits world installDir start true start
    ⟨by simp [hfresh], .inl ⟨rfl, rfl⟩⟩
  rw [houtcome] at hinherits
  refine ⟨hinherits.kills, ?_⟩
  rcases hinherits.session with ⟨hsession, haddress⟩ | hown
  · change sessionVar next.vars = _ at hsession
    change next.get _ = _ at haddress
    rcases hinherited with ⟨hnone, hsome⟩ | hnone | hdead
    · obtain ⟨launched, hlaunch⟩ := Option.isSome_iff_exists.mp hsome
      have hannounced := establishes_announced world installDir true start status next houtcome
        (haddress.trans hnone) launched hlaunch
      exact .inr fun _ => .inr ⟨hnone, launched.1, hannounced ▸ hlaunch⟩
    · exact .inl (hsession.trans hnone)
    · exact .inr fun halive => by simp [hsession, hdead] at halive
  · exact .inr fun _ => .inr hown

end Inherited

/-! ## Runs -/

section Runs

variable (world : World)

/-- The launcher inherits no live session bus, unless it starts its own. -/
def NoForeignSession (start : State) : Prop :=
  start.get "DBUS_SESSION_BUS_ADDRESS" = [] ∧ world.dbusLaunch.isSome = true ∨
    sessionVar start.vars = [] ∨ world.alive (sessionVar start.vars) = false

/-- Whenever `cleanup` starts, by a signal or at the exit, `INPUT_PID_FILE` names no live
process that the launcher has not started. -/
structure NoForeignMapper (start : State) (arriving : List (List Signal)) : Prop where
  files : ∀ status next, untrapped world (detectInstallDir world start) true start =
    .done status next → PidFiles next.tree
  signals : ∀ moment ∈ (launchAmong world start arriving).handled,
    Fair world (OwnBus world start) moment
  exit : ∀ status next, untrapped world (detectInstallDir world start) true start =
    .done status next →
      ∀ state ∈ exitState world (detectInstallDir world start) (uncaught arriving next),
        NamesOwn world (OwnBus world start) state.tree state.trace

/-- A launcher that finds no live session bus, and no live process of somebody else's in
`INPUT_PID_FILE` when `cleanup` starts, ends no process but its own, whatever signals
arrive. -/
theorem ownKills_launchAmong {start : State} (hfresh : start.trace = [])
    (hsession : NoForeignSession world start) (arriving : List (List Signal))
    (hmapper : NoForeignMapper world start arriving) :
    OwnKills world (OwnBus world start) (launchAmong world start arriving).state.trace := by
  have hnone {trace : List Event} (htrace : ∀ pid, .terminated pid ∉ trace) :
      OwnKills world (OwnBus world start) trace := by
    rintro earlier pid later rfl
    exact absurd (by simp) (htrace pid)
  have hsignals := hmapper.signals
  unfold launchAmong at hsignals ⊢
  split at hsignals
  · next status next houtcome =>
      obtain ⟨htrace, hsafe⟩ := session_untrapped world _ hfresh houtcome hsession
      have hnext : At (Lawful world (OwnBus world start)) (uncaught arriving next) :=
        ⟨hmapper.files status next houtcome, hsafe, hnone htrace⟩
      rcases lawful_trappedRun _ hnext (hmapper.exit status next houtcome) with
        ⟨moment, hmoment, hmissed⟩ | hlawful
      · exact absurd (hsignals moment hmoment) hmissed
      · exact hlawful.kills
  · have hinherits := preserves_inherits world (detectInstallDir world start) start true start
      ⟨by simp [hfresh], .inl ⟨rfl, rfl⟩⟩
    exact hnone hinherits.kills

/-- When the launcher sets its trap, `INPUT_PID_FILE` names no live process. -/
def FindsNone (start : State) : Prop :=
  ∀ status next, untrapped world (detectInstallDir world start) true start = .done status next →
    PidFiles next.tree ∧ ∀ data, next.tree.node inputPidPlace = some (.file data) →
      world.alive (commandSubstitution data) = false

/-- A launcher that finds no live process in the file at first never does but its own. -/
theorem noForeignMapper_of_findsNone (hnul : nul ∉ world.mapperPid)
    (hnewline : newline ∉ world.mapperPid) {start : State} (hfinds : FindsNone world start)
    (arriving : List (List Signal)) : NoForeignMapper world start arriving := by
  have hstart {status : ℕ} {next : State}
      (houtcome : untrapped world (detectInstallDir world start) true start =
        .done status next) :
      FairAmong world (OwnBus world start) false (uncaught arriving next) := by
    obtain ⟨hfiles, hdead⟩ := hfinds status next houtcome
    exact ⟨nofun, hfiles, fun data hdata halive => by simp [hdead data hdata] at halive, nofun⟩
  have htext {live : Live State Signal} (hlive : FairAmong world (OwnBus world start) false live) :
      FairAmong world (OwnBus world start) false
        (execute (handler world) (trappedText world (detectInstallDir world start)) true
          live).state :=
    Outcome.meets_always.mp (fair_trappedText _ live.arriving.length hnul hnewline live hlive)
  refine ⟨fun status next houtcome => (hfinds status next houtcome).1, ?_, ?_⟩
  · unfold launchAmong
    split
    · next status next houtcome =>
        exact (fair_trappedRun _ hnul hnewline (hstart houtcome)).1
    · nofun
  · intro status next houtcome state hstate
    unfold exitState at hstate
    split at hstate
    · cases hstate
    · obtain rfl := Option.some.inj hstate
      exact (htext (hstart houtcome)).2.own

/-! ### Examples of launchers -/

/-- The process that an event ended. -/
def Event.killed : Event → Option Bytes
  | .terminated pid => some pid
  | _ => none

variable {world} in
theorem not_ownKills_of_killed {bus : Bytes → Prop} {trace : List Event} {pid : Bytes}
    (hkilled : pid ∈ trace.filterMap Event.killed) (hmapper : pid ≠ world.mapperPid)
    (hbus : ¬ bus pid) : ¬ OwnKills world bus trace := by
  intro hkills
  obtain ⟨event, hevent, hpid⟩ := List.mem_filterMap.mp hkilled
  cases event with
  | terminated other =>
      obtain rfl : other = pid := by simpa [Event.killed] using hpid
      obtain ⟨earlier, later, rfl⟩ := List.append_of_mem hevent
      rcases hkills earlier other later rfl with ⟨_, heq⟩ | hown
      · exact hmapper heq
      · exact hbus hown
  | said line taken => cases hpid
  | startedMapper => cases hpid
  | startedSober program arguments vars => cases hpid

/-- A TV on which the input mapper is process 101, and process 4242 is another one. -/
def busyWorld : World :=
  { quietWorld with alive := fun pid => pid = bytes "101" || pid = bytes "4242" }

/-- The input mapper of an installation. -/
def mapperFile : List (Path × Node) :=
  [([bytes "opt", bytes "tizenroblox", bytes "bin", bytes "input_mapper"], .file [])]

/-- A TV on which an earlier launcher has left `INPUT_PID_FILE`. -/
def leftTv (content : Bytes) (mapper : List (Path × Node)) (vars : String → Option Bytes) : State :=
  .initial ⟨installed ++ systemLibraries ++ mapper ++ [([bytes "tmp"], .dir),
    (inputPidPlace, .file content)]⟩ vars 0 [⟨0, 5⟩]

/-- An environment that names a session bus. -/
def sessionVars (name : String) : Option Bytes :=
  if name = "DBUS_SESSION_BUS_ADDRESS" then some (bytes "unix:path=/run/bus")
  else if name = "DBUS_SESSION_BUS_PID" then some (bytes "4242")
  else none

/-- A TV on which the process that the file names is gone. -/
def staleTv : State := leftTv (bytes "7\n") mapperFile fun _ => none

/-- Whether an event is the start of the mapper. -/
def Event.isMapper : Event → Bool
  | .startedMapper => true
  | _ => false

theorem startedMapper_mem_iff {trace : List Event} :
    .startedMapper ∈ trace ↔ trace.any Event.isMapper = true := by
  rw [List.any_eq_true]
  constructor
  · exact fun hmem => ⟨_, hmem, rfl⟩
  · rintro ⟨event, hmem, hmapper⟩
    cases event with
    | startedMapper => exact hmem
    | said line => cases hmapper
    | startedSober program arguments vars => cases hmapper
    | terminated pid => cases hmapper

instance {bus : Bytes → Prop} [DecidablePred bus] (tree : Tree) (trace : List Event) :
    Decidable (NamesOwn world bus tree trace) :=
  match hnode : tree.node inputPidPlace with
  | some (.file data) =>
      decidable_of_iff (world.alive (commandSubstitution data) = true →
        trace.any Event.isMapper = true ∧ commandSubstitution data = world.mapperPid ∨
          bus (commandSubstitution data)) <| by
        simp [NamesOwn, Safe, Own, hnode, startedMapper_mem_iff]
  | some .dir | some (.link _) | some .socket | some .charDevice | none =>
      isTrue <| by simp [NamesOwn, hnode]

instance (state : State) : DecidablePred (OwnBus world state) := fun pid =>
  decidable_of_iff (state.get "DBUS_SESSION_BUS_ADDRESS" = [] ∧
    world.dbusLaunch.map Prod.snd = some pid) <| by simp [OwnBus]

instance {bus : Bytes → Prop} [DecidablePred bus] (moment : Moment State Signal) :
    Decidable (Fair world bus moment) :=
  inferInstanceAs (Decidable (_ ∨ _))

/-- A TV on which a launcher was killed, and its input mapper still runs. -/
def orphanTv : State := leftTv (bytes "4242\n") mapperFile fun _ => none

/-- The state in which the next launcher sets its trap. -/
def trapStart : State :=
  (untrapped busyWorld (detectInstallDir busyWorld orphanTv) true orphanTv).state

/-- Signals arrive once the launcher has recorded its own mapper, in the trap and at the
exit. -/
theorem ownKills_launchAmong_orphan :
    OwnKills busyWorld (OwnBus busyWorld orphanTv)
      (launchAmong busyWorld orphanTv (arrivingAfter 5 [.int, .term] ++ [[.int]])).state.trace := by
  have hstart {status : ℕ} {next : State}
      (houtcome : untrapped busyWorld (detectInstallDir busyWorld orphanTv) true orphanTv =
        .done status next) : next = trapStart := by
    unfold trapStart
    rw [houtcome]
    rfl
  refine ownKills_launchAmong busyWorld rfl (.inr (.inl rfl)) _
    ⟨fun status next houtcome => ?_, by decide +kernel, fun status next houtcome => ?_⟩
  · have hplaces : trapStart.tree.node [bytes "tmp"] = some .dir ∧
        trapStart.tree.node pidPlace = none ∧
          trapStart.tree.node inputPidPlace = some (.file (bytes "4242\n")) := by
      decide +kernel
    obtain ⟨htmp, hown, hinput⟩ := hstart houtcome ▸ hplaces
    exact ⟨Tree.realDir_singleton (by decide) htmp, by simp [hown], by simp [hinput]⟩
  · rw [hstart houtcome]
    decide +kernel

/-- A stale `INPUT_PID_FILE` and an inherited session bus name processes that the launcher
has not started, and `cleanup` ends them. -/
theorem not_ownKills_launchAmong :
    ¬ OwnKills busyWorld (OwnBus busyWorld (leftTv (bytes "4242\n") [] fun _ => none))
        (launchAmong busyWorld (leftTv (bytes "4242\n") [] fun _ => none) []).state.trace ∧
      ¬ OwnKills busyWorld (OwnBus busyWorld (leftTv (bytes "7\n") [] sessionVars))
        (launchAmong busyWorld (leftTv (bytes "7\n") [] sessionVars) []).state.trace := by
  have hbus (start : State) : ¬ OwnBus busyWorld start (bytes "4242") := nofun
  exact ⟨not_ownKills_of_killed (by decide +kernel) (by decide) (hbus _),
    not_ownKills_of_killed (by decide +kernel) (by decide) (hbus _)⟩

end Runs

end TizenRoblox.Launcher
