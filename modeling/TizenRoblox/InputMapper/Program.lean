/-
# The mapper as a program

The parts of the mapper put together: it creates the gamepad, looks for the remote and for
other gamepads, takes its turns until it is told to stop, and cleans up. What the system
answers is given beforehand; what the program does with its descriptors, one deed after the
other, is then determined.

A run keeps to the protocol of `uinput`. It sets the gamepad up before it is created; where the
kernel refuses `UI_DEV_SETUP` it writes the description instead, and that is all it writes
before. It writes events only while the gamepad is there, destroys it once, and closes its
descriptor after that. It closes what it has opened, each descriptor once, and uses none that
it does not have. One path is different: where the set of descriptors to wait for cannot be
created, the gamepad is left as it is, for the end of the process to remove (`main_orderly`).
-/

import TizenRoblox.InputMapper.Accounting
import TizenRoblox.InputMapper.Uinput

namespace TizenRoblox.InputMapper

open TizenRoblox.Foundation

/-! ## The program -/

/-- What the system answers to a run of the mapper. -/
structure Answers where
  kernel : Kernel
  /-- `epoll_create1` succeeds. -/
  epollCreate : Bool
  /-- `/dev/input` at the search for the remote, and at the search for gamepads. -/
  remoteListing : Option Listing
  gamepadListing : Option Listing
  /-- The remote when it is found. -/
  remote : RemoteFd
  /-- The turns that begin before `running` is cleared. -/
  turns : List (Turn × Option Listing)

/-- How a run ends. -/
structure Exit where
  status : ℤ
  /-- What the run has done with its descriptors, in order. -/
  deeds : List Deed
  process : Process

/-- A turn of the main loop: what it reads and writes, and the calls that it makes then. -/
structure Lap where
  iteration : Iteration
  calls : List Call

/-- The main loop: its turns, and what it is left with. -/
def mainLoop (remoteFd : ℤ) : List (Turn × Option Listing) → MainLoop → List Lap × MainLoop
  | [], main => ([], main)
  | turn :: rest, main =>
    let next := main.turn remoteFd turn
    let (later, last) := mainLoop remoteFd rest next
    (⟨(main.loop.turn remoteFd turn.1).1,
        main.mapper.process.callsBetween next.mapper.process⟩ :: later, last)

/-- A turn has written before it looks for gamepads. -/
def Lap.deeds (uinputFd : ℕ) (lap : Lap) : List Deed :=
  lap.iteration.written.map (.wrote uinputFd) ++ lap.calls.map .called

/-- `if (remote_fd >= 0) close(remote_fd);` -/
def closeRemote (remoteFd : ℤ) (process : Process) : Process :=
  if remoteFd ≥ 0 then process.close remoteFd.toNat else process

/-- What the main loop starts with. -/
def loopStart (answers : Answers) (searched : Process) : MainLoop :=
  ⟨⟨answers.remote, 0⟩,
    firstScan (findGamepads answers.gamepadListing maxGamepads) searched⟩

def main (answers : Answers) (process : Process) : Exit :=
  let created := createVirtualGamepad answers.kernel process
  if created.status < 0 then ⟨1, created.deeds, created.process⟩
  else if ¬ answers.epollCreate then ⟨1, created.deeds, created.process⟩
  else
    let uinputFd := created.uinputFd.toNat
    let epollFd := created.process.lowestFree
    let (remoteFd, searched) :=
      findSamsungRemote answers.remoteListing (created.process.openFile .other)
    let start := loopStart answers searched
    let (laps, last) := mainLoop remoteFd answers.turns start
    let unplugged := closeRemote remoteFd last.mapper.process
    let ended := (unplugged.close uinputFd).close epollFd
    ⟨0,
      created.deeds ++ (created.process.callsBetween start.mapper.process).map .called ++
        laps.flatMap (Lap.deeds uinputFd) ++
        (last.mapper.process.callsBetween unplugged).map .called ++
        [.requested uinputFd .devDestroy] ++ (unplugged.callsBetween ended).map .called,
      ended⟩

/-! ## Creating the gamepad -/

/-- A gamepad is created. -/
def Kernel.creates (kernel : Kernel) : Bool :=
  (kernel.opens (bytes "/dev/uinput") || kernel.opens (bytes "/dev/input/uinput")) &&
    kernel.accepts .devCreate

section Creation

variable {kernel : Kernel} {process : Process}

theorem createVirtualGamepad_of_creates (hcreates : kernel.creates = true) :
    createVirtualGamepad kernel process =
      ⟨0, process.lowestFree, creation kernel process.lowestFree, process.openFile .other⟩ := by
  rw [Kernel.creates, Bool.and_eq_true, Bool.or_eq_true] at hcreates
  simp only [createVirtualGamepad]
  rw [if_pos hcreates.1, if_pos hcreates.2]

/-- Where no gamepad is created, either nothing is opened, or it is closed again. -/
theorem createVirtualGamepad_of_not_creates (hcreates : kernel.creates = false) :
    createVirtualGamepad kernel process = ⟨-1, -1, [], process⟩ ∨
      kernel.accepts .devCreate = false ∧
      createVirtualGamepad kernel process =
        ⟨-1, -1, creation kernel process.lowestFree ++ [.called (.closed process.lowestFree)],
          (process.openFile .other).close process.lowestFree⟩ := by
  simp only [createVirtualGamepad]
  split
  · next hopens =>
    have hrefused : kernel.accepts .devCreate = false := by
      have hopen := (Bool.or_eq_true_iff ..).mpr hopens
      rwa [Kernel.creates, hopen, Bool.true_and] at hcreates
    exact .inr ⟨hrefused, by rw [hrefused]; rfl⟩
  · exact .inl rfl

end Creation

/-! ## What is used is owned -/

/-- The call, if a deed is one. -/
def Deed.call? : Deed → Option Call
  | .called call => some call
  | .requested _ _ | .described _ _ | .wrote _ _ => none

/-- The descriptor that a deed is about. -/
def Deed.fd : Deed → ℕ
  | .called call => call.fd
  | .requested fd _ | .described fd _ | .wrote fd _ => fd

/-- What is owned before and after a deed. -/
inductive UseStep : Set ℕ → Deed → Set ℕ → Prop
  | called {own left : Set ℕ} {call : Call} (hstep : OwnStep own call.exchange left) :
      UseStep own (.called call) left
  | used {own : Set ℕ} {deed : Deed} (hcall : deed.call? = none) (hown : deed.fd ∈ own) :
      UseStep own deed own

theorem call_resource (call : Call) : call.exchange.resource = call.fd := by
  cases call with
  | opened fd file => rfl
  | closed fd => rfl

theorem run_called {own left : Set ℕ} {calls : List Call}
    (hrun : Run OwnStep own (calls.map Call.exchange) left) :
    Run UseStep own (calls.map .called) left := by
  induction calls generalizing own with
  | nil =>
      obtain rfl := hrun.eq_of_nil
      exact .start _
  | cons call rest ih =>
      obtain ⟨middle, hfirst, hrest⟩ := hrun.exists_cons
      exact .cons (.called hfirst) (ih hrest)

theorem run_used {own : Set ℕ} {deeds : List Deed}
    (hdeeds : ∀ deed ∈ deeds, deed.call? = none ∧ deed.fd ∈ own) :
    Run UseStep own deeds own := by
  induction deeds with
  | nil => exact .start own
  | cons deed rest ih =>
      obtain ⟨hfirst, hrest⟩ := List.forall_mem_cons.mp hdeeds
      exact .cons (.used hfirst.1 hfirst.2) (ih hrest)

namespace Exchanges

variable {before after : Process} {own left : Set ℕ}

theorem callsBetween_spec (hexchanges : Exchanges before after own left) :
    after.calls = before.calls ++ before.callsBetween after ∧
      Run OwnStep own ((before.callsBetween after).map Call.exchange) left := by
  obtain ⟨made, hcalls, hrun⟩ := hexchanges
  have hmade : before.callsBetween after = made := by simp [Process.callsBetween, hcalls]
  rw [hmade]
  exact ⟨hcalls, hrun⟩

theorem uses (hexchanges : Exchanges before after own left) :
    Run UseStep own ((before.callsBetween after).map .called) left :=
  run_called hexchanges.callsBetween_spec.2

/-- Calls that are in order for an owner of a descriptor and without it leave it alone. -/
theorem elsewhere {fd : ℕ} {kept : Set ℕ} (hexchanges : Exchanges before after own left)
    (hwith : Exchanges before after (insert fd own) kept) (hout : fd ∉ own) :
    ∀ deed ∈ (before.callsBetween after).map Deed.called, deed.fd ≠ fd := by
  have hapart := resource_ne_of_runs hout hexchanges.callsBetween_spec.2 hwith.callsBetween_spec.2
  intro deed hdeed
  obtain ⟨call, hcall, rfl⟩ := List.mem_map.mp hdeed
  have hother := hapart _ (List.mem_map_of_mem hcall)
  rwa [call_resource] at hother

end Exchanges

/-! ## Descriptors -/

section Searching

variable {process : Process} {own : Set ℕ}

/-- What is owned may be closed. -/
theorem Exchanges.close {fd : ℕ} (process : Process) (hown : fd ∈ own) :
    Exchanges process (process.close fd) own (own \ {fd}) :=
  ⟨[.closed fd], rfl, .cons (.released hown) (.start _)⟩

/-- A search with the directory open, among other things that are owned. -/
theorem exchanges_listing {after : Process} {fds : List ℕ}
    (hown : ∀ fd ∈ own, fd ∈ process.descriptors)
    (hfresh : ∀ fd ∈ fds, fd ∉ (process.openFile .directory).descriptors)
    (hloop : Exchanges (process.openFile .directory) after (insert process.lowestFree own)
      (insert process.lowestFree own ∪ {fd | fd ∈ fds})) :
    Exchanges process (after.close process.lowestFree) own (own ∪ {fd | fd ∈ fds}) := by
  rw [Set.insert_union] at hloop
  apply Exchanges.bracket .directory (lowestFree_notMem hown) ?_ hloop
  rintro (hmem | hmem)
  · exact lowestFree_notMem hown hmem
  · exact hfresh _ hmem List.mem_cons_self

theorem forall_insert_lowestFree (hown : ∀ fd ∈ own, fd ∈ process.descriptors) (file : File) :
    ∀ fd ∈ insert process.lowestFree own, fd ∈ (process.openFile file).descriptors := by
  rintro fd (rfl | hfd)
  · exact List.mem_cons_self
  · exact List.mem_cons_of_mem _ (hown fd hfd)

theorem exchanges_findSamsungRemote (listing : Option Listing)
    (hown : ∀ fd ∈ own, fd ∈ process.descriptors) :
    Exchanges process (findSamsungRemote listing process).2 own
      (own ∪ {fd | fd ∈ returnedFds (findSamsungRemote listing process).1}) := by
  cases listing with
  | none => simpa [findSamsungRemote, returnedFds] using Exchanges.refl process own
  | some listing =>
      simp only [findSamsungRemote, returnedFds_elim]
      apply exchanges_listing hown (opened_searchRemote _ listing.entries).fresh
      exact exchanges_searchRemote _ (forall_insert_lowestFree hown .directory)

theorem exchanges_findGamepadsBy (south : Device → Bool) (listing : Option Listing) (maxFds : ℤ)
    (hown : ∀ fd ∈ own, fd ∈ process.descriptors) :
    Exchanges process (findGamepadsBy south listing maxFds process).process own
      (own ∪ {fd | fd ∈ (findGamepadsBy south listing maxFds process).fds}) := by
  cases listing with
  | none => simpa [findGamepadsBy] using Exchanges.refl process own
  | some listing =>
      obtain ⟨more, hfds, hopened⟩ :=
        searchGamepads_spec south maxFds listing.entries ⟨[], [], process.openFile .directory⟩
      rw [List.nil_append] at hfds
      subst hfds
      apply exchanges_listing hown hopened.fresh
      have hnone : insert process.lowestFree own ∪ {fd : ℕ | fd ∈ ([] : List ℕ)} =
          insert process.lowestFree own := by simp
      have hopen := forall_insert_lowestFree hown .directory
      rw [← hnone] at hopen
      have hloop := @exchanges_searchGamepads south maxFds listing.entries
        ⟨[], [], process.openFile .directory⟩ _ hopen
      simpa only [hnone] using hloop

/-- A rescan closes what it has opened, whatever else is owned. -/
theorem exchanges_rescan (south : Device → Bool) (listing : Option Listing) {mapper : Mapper}
    (hown : ∀ fd ∈ own, fd ∈ mapper.process.descriptors) :
    Exchanges mapper.process
      (rescan (findGamepadsBy south listing maxGamepads) mapper).2.process own own := by
  have hfound := exchanges_findGamepadsBy south listing maxGamepads hown
  have hopened := findGamepadsBy_found south listing maxGamepads mapper.process
  have hclosed : Exchanges mapper.process
      (closeFound (findGamepadsBy south listing maxGamepads mapper.process)) own own := by
    apply hfound.trans
    refine ⟨_, closeAll_calls _ _, ?_⟩
    have hrun := @run_releaseAll _ (own ∪ {fd | fd ∈ (findGamepadsBy ..).fds}) _
      hopened.distinct fun fd hfd => .inr hfd
    rw [Set.union_sdiff_cancel_right] at hrun
    · rwa [List.map_map]
    · rintro fd ⟨hold, hnew⟩
      exact hopened.fresh fd hnew (hown fd hold)
  unfold rescan
  simp only
  split
  · exact hclosed
  · exact hclosed

theorem exchanges_turn (remoteFd : ℤ) (turn : Turn × Option Listing) {main : MainLoop}
    (hown : ∀ fd ∈ own, fd ∈ main.mapper.process.descriptors) :
    Exchanges main.mapper.process (main.turn remoteFd turn).mapper.process own own := by
  unfold MainLoop.turn MainLoop.turnBy
  simp only
  split
  · exact exchanges_rescan hasSouth turn.2 hown
  · exact .refl _ own

end Searching

/-! ## The protocol of the device -/

/-- An ability is asked for. -/
def Request.IsAbility : Request → Prop
  | .setEvBit _ | .setKeyBit _ | .absSetup _ _ => True
  | .devSetup _ | .devCreate | .devDestroy => False

instance : (request : Request) → Decidable request.IsAbility
  | .setEvBit _ | .setKeyBit _ | .absSetup _ _ => isTrue trivial
  | .devSetup _ | .devCreate | .devDestroy => isFalse id

/-- What is the case with the descriptor of the gamepad. -/
inductive Phase
  | closed
  /-- The gamepad is being set up. -/
  | setUp
  /-- Its description has been refused. -/
  | refused
  /-- It is there. -/
  | live
  | destroyed

/-- What may be done to a descriptor of `uinput`. The description is written only where it has
been refused as a request, and what is written without that would be taken for one. -/
inductive DeviceStep (kernel : Kernel) (fd : ℕ) : Phase → Deed → Phase → Prop
  | opened {file : File} : DeviceStep kernel fd .closed (.called (.opened fd file)) .setUp
  | ability {request : Request} (hability : request.IsAbility) :
      DeviceStep kernel fd .setUp (.requested fd request) .setUp
  | accepted {setup : Setup} (haccepts : kernel.accepts (.devSetup setup) = true) :
      DeviceStep kernel fd .setUp (.requested fd (.devSetup setup)) .setUp
  | refused {setup : Setup} (haccepts : kernel.accepts (.devSetup setup) = false) :
      DeviceStep kernel fd .setUp (.requested fd (.devSetup setup)) .refused
  | described {setup : Setup} : DeviceStep kernel fd .refused (.described fd setup) .setUp
  | created (haccepts : kernel.accepts .devCreate = true) :
      DeviceStep kernel fd .setUp (.requested fd .devCreate) .live
  | notCreated (haccepts : kernel.accepts .devCreate = false) :
      DeviceStep kernel fd .setUp (.requested fd .devCreate) .setUp
  | wrote {event : InputEvent} : DeviceStep kernel fd .live (.wrote fd event) .live
  | destroyed : DeviceStep kernel fd .live (.requested fd .devDestroy) .destroyed
  | givenUp : DeviceStep kernel fd .setUp (.called (.closed fd)) .closed
  | closed : DeviceStep kernel fd .destroyed (.called (.closed fd)) .closed
  | elsewhere {phase : Phase} {deed : Deed} (hfd : deed.fd ≠ fd) :
      DeviceStep kernel fd phase deed phase

section Protocol

variable {kernel : Kernel} {fd : ℕ} {phase : Phase}

theorem run_abilities {requests : List Request}
    (hrequests : ∀ request ∈ requests, request.IsAbility) :
    Run (DeviceStep kernel fd) .setUp (requests.map (.requested fd)) .setUp := by
  induction requests with
  | nil => exact .start _
  | cons request rest ih =>
      obtain ⟨hfirst, hrest⟩ := List.forall_mem_cons.mp hrequests
      exact .cons (.ability hfirst) (ih hrest)

theorem run_describe (kernel : Kernel) (fd : ℕ) :
    Run (DeviceStep kernel fd) .setUp (describe kernel fd) .setUp := by
  unfold describe
  cases haccepts : kernel.accepts (.devSetup gamepadSetup) with
  | true => exact .cons (.accepted haccepts) (.start _)
  | false => exact .cons (.refused haccepts) (.cons .described (.start _))

theorem run_creation (kernel : Kernel) (fd : ℕ) :
    Run (DeviceStep kernel fd) .closed (creation kernel fd)
      (if kernel.accepts .devCreate then .live else .setUp) := by
  have habilities : ∀ request ∈ abilities, request.IsAbility := by decide
  apply Run.extend ((run_abilities habilities).append (run_describe kernel fd) |>.cons .opened)
  cases haccepts : kernel.accepts .devCreate with
  | true => exact .created haccepts
  | false => exact .notCreated haccepts

theorem run_wrote (events : List InputEvent) :
    Run (DeviceStep kernel fd) .live (events.map (.wrote fd)) .live := by
  induction events with
  | nil => exact .start _
  | cons event rest ih => exact .cons .wrote ih

theorem run_elsewhere {deeds : List Deed} (hdeeds : ∀ deed ∈ deeds, deed.fd ≠ fd) :
    Run (DeviceStep kernel fd) phase deeds phase := by
  induction deeds with
  | nil => exact .start phase
  | cons deed rest ih =>
      obtain ⟨hfirst, hrest⟩ := List.forall_mem_cons.mp hdeeds
      exact .cons (.elsewhere hfirst) (ih hrest)

/-- The new descriptor is the only one that is used. -/
theorem uses_creation {own : Set ℕ} (kernel : Kernel) (hnew : fd ∉ own) :
    Run UseStep own (creation kernel fd) (insert fd own) := by
  have hused : ∀ deed ∈ abilities.map (Deed.requested fd) ++ describe kernel fd ++
      [.requested fd .devCreate], deed.call? = none ∧ deed.fd ∈ insert fd own := by
    intro deed hdeed
    unfold describe at hdeed
    simp only [List.mem_append, List.mem_map, List.mem_singleton] at hdeed
    have hown := Set.mem_insert fd own
    rcases hdeed with (⟨request, -, rfl⟩ | hdescribed) | rfl
    · exact ⟨rfl, hown⟩
    · split at hdescribed
      · obtain rfl := List.mem_singleton.mp hdescribed
        exact ⟨rfl, hown⟩
      · rcases List.mem_pair.mp hdescribed with rfl | rfl
        · exact ⟨rfl, hown⟩
        · exact ⟨rfl, hown⟩
    · exact ⟨rfl, hown⟩
  exact .cons (.called (.acquired hnew)) (run_used hused)

/-- The only call in it is the first one. -/
theorem calls_creation (kernel : Kernel) (fd : ℕ) :
    (creation kernel fd).filterMap Deed.call? = [.opened fd .other] := by
  unfold creation describe
  split <;> rfl

theorem calls_called (calls : List Call) :
    (calls.map Deed.called).filterMap Deed.call? = calls := by
  induction calls with
  | nil => rfl
  | cons call rest ih => exact congrArg (call :: ·) ih

end Protocol

/-! ## The main loop -/

section Loops

variable {remoteFd : ℤ}

/-- The iterations of the main loop are those of its turns. -/
theorem mainLoop_fst (chosen : List (Turn × Option Listing)) (main : MainLoop) :
    (mainLoop remoteFd chosen main).1.map Lap.iteration =
      (turns remoteFd (chosen.map Prod.fst) main.loop).1 := by
  induction chosen generalizing main with
  | nil => rfl
  | cons turn rest ih =>
      rw [List.map_cons]
      exact congrArg (_ :: ·) (ih _)

theorem mainLoop_loop (chosen : List (Turn × Option Listing)) (main : MainLoop) :
    (mainLoop remoteFd chosen main).2.loop =
      (turns remoteFd (chosen.map Prod.fst) main.loop).2 := by
  induction chosen generalizing main with
  | nil => rfl
  | cons turn rest ih =>
      rw [List.map_cons]
      exact ih _

theorem turn_table (turn : Turn × Option Listing) (main : MainLoop) :
    (main.turn remoteFd turn).mapper.process.table = main.mapper.process.table :=
  (accounted_turnBy hasSouth remoteFd turn main).table_eq

/-- However many turns it takes, the main loop leaves the open files as they were. -/
theorem mainLoop_table (chosen : List (Turn × Option Listing)) (main : MainLoop) :
    (mainLoop remoteFd chosen main).2.mapper.process.table = main.mapper.process.table := by
  induction chosen generalizing main with
  | nil => rfl
  | cons turn rest ih => exact (ih _).trans (turn_table turn main)

variable {fd : ℕ} {own : Set ℕ}

/-- The turns use nothing but what is owned, and leave it as it is. -/
theorem uses_mainLoop (chosen : List (Turn × Option Listing)) {main : MainLoop} (hfd : fd ∈ own)
    (hown : ∀ fd ∈ own, fd ∈ main.mapper.process.descriptors) :
    Run UseStep own ((mainLoop remoteFd chosen main).1.flatMap (Lap.deeds fd)) own := by
  induction chosen generalizing main with
  | nil => exact .start own
  | cons turn rest ih =>
      have hwrote (events : List InputEvent) : Run UseStep own (events.map (.wrote fd)) own := by
        apply run_used
        intro deed hdeed
        obtain ⟨event, -, rfl⟩ := List.mem_map.mp hdeed
        exact ⟨rfl, hfd⟩
      have hnext : ∀ fd ∈ own, fd ∈ (main.turn remoteFd turn).mapper.process.descriptors := by
        rwa [Process.descriptors, turn_table]
      rw [mainLoop]
      simp only [List.flatMap_cons, Lap.deeds]
      exact ((hwrote _).append (exchanges_turn remoteFd turn hown).uses).append (ih hnext)

/-- The turns write to the gamepad, and do nothing else with it. -/
theorem device_mainLoop (kernel : Kernel) (chosen : List (Turn × Option Listing))
    {main : MainLoop} (hopen : fd ∈ main.mapper.process.descriptors) :
    Run (DeviceStep kernel fd) .live ((mainLoop remoteFd chosen main).1.flatMap (Lap.deeds fd))
      .live := by
  induction chosen generalizing main with
  | nil => exact .start _
  | cons turn rest ih =>
      have hnone : ∀ fd ∈ (∅ : Set ℕ), fd ∈ main.mapper.process.descriptors := nofun
      have hone : ∀ other ∈ insert fd (∅ : Set ℕ), other ∈ main.mapper.process.descriptors := by
        simpa using hopen
      have hapart := (exchanges_turn remoteFd turn hnone).elsewhere
        (exchanges_turn remoteFd turn hone) (Set.notMem_empty fd)
      have hnext : fd ∈ (main.turn remoteFd turn).mapper.process.descriptors := by
        rwa [Process.descriptors, turn_table]
      rw [mainLoop]
      simp only [List.flatMap_cons, Lap.deeds]
      exact ((run_wrote _).append (run_elsewhere hapart)).append (ih hnext)

theorem calls_mainLoop (chosen : List (Turn × Option Listing)) (main : MainLoop) :
    (mainLoop remoteFd chosen main).2.mapper.process.calls = main.mapper.process.calls ++
      ((mainLoop remoteFd chosen main).1.flatMap (Lap.deeds fd)).filterMap Deed.call? := by
  induction chosen generalizing main with
  | nil => simp [mainLoop]
  | cons turn rest ih =>
      have hnone : ∀ fd ∈ (∅ : Set ℕ), fd ∈ main.mapper.process.descriptors := nofun
      have hcalls := (exchanges_turn remoteFd turn hnone).callsBetween_spec.1
      have hwrote (events : List InputEvent) :
          (events.map (Deed.wrote fd)).filterMap Deed.call? = [] := by
        simp [Deed.call?]
      rw [mainLoop]
      simp only [List.flatMap_cons, Lap.deeds, List.filterMap_append, hwrote, calls_called, ih,
        List.nil_append]
      conv_lhs => rw [hcalls]
      rw [List.append_assoc]

end Loops

/-! ## From start to end -/

/-- The process that searches for the remote: the gamepad and the set of descriptors are
open. -/
def prepared (process : Process) : Process := (process.openFile .other).openFile .other

/-- What the search for the remote returns in a run, and the process then. -/
def searched (answers : Answers) (process : Process) : ℤ × Process :=
  findSamsungRemote answers.remoteListing (prepared process)

/-- The turns of the loop, or some of them, and what it is left with. -/
def loopRun (answers : Answers) (process : Process) (chosen : List (Turn × Option Listing)) :
    List Lap × MainLoop :=
  mainLoop (searched answers process).1 chosen (loopStart answers (searched answers process).2)

/-- The main loop after some of the turns. -/
def loopAfter (answers : Answers) (process : Process) (chosen : List (Turn × Option Listing)) :
    MainLoop :=
  (loopRun answers process chosen).2

/-- The process when the remote is closed. -/
def remoteClosed (answers : Answers) (process : Process) : Process :=
  closeRemote (searched answers process).1 (loopAfter answers process answers.turns).mapper.process

/-- What a run does that gets into its loop. -/
def startedDeeds (answers : Answers) (process : Process) : List Deed :=
  creation answers.kernel process.lowestFree ++
    ((process.openFile .other).callsBetween
      (loopStart answers (searched answers process).2).mapper.process).map .called ++
    (loopRun answers process answers.turns).1.flatMap (Lap.deeds process.lowestFree) ++
    ((loopAfter answers process answers.turns).mapper.process.callsBetween
      (remoteClosed answers process)).map .called ++
    [.requested process.lowestFree .devDestroy] ++
    [.called (.closed process.lowestFree),
      .called (.closed (process.openFile .other).lowestFree)]

/-- What stays open when the run has ended. -/
def leftOpen (answers : Answers) (process : Process) : List ℕ :=
  if answers.kernel.creates && !answers.epollCreate then [process.lowestFree] else []

/-- The state in which the gamepad's descriptor is left. -/
def leftPhase (answers : Answers) : Phase :=
  if answers.kernel.creates && !answers.epollCreate then .live else .closed

section Runs

variable {answers : Answers} {process : Process}

theorem main_of_created (hcreates : answers.kernel.creates = true)
    (hepoll : answers.epollCreate = false) :
    main answers process =
      ⟨1, creation answers.kernel process.lowestFree, process.openFile .other⟩ := by
  simp [main, createVirtualGamepad_of_creates hcreates, hepoll]

theorem main_of_started (hcreates : answers.kernel.creates = true)
    (hepoll : answers.epollCreate = true) :
    main answers process =
      ⟨0, startedDeeds answers process,
        ((remoteClosed answers process).close process.lowestFree).close
          (process.openFile .other).lowestFree⟩ := by
  simp [main, createVirtualGamepad_of_creates hcreates, hepoll, startedDeeds, searched, prepared,
    loopAfter, loopRun, remoteClosed, Process.callsBetween, Process.close]

/-- The two descriptors the mapper works with: `uinput_fd` and `epoll_fd`. -/
def working (process : Process) : Set ℕ :=
  insert (process.openFile .other).lowestFree (insert process.lowestFree ∅)

theorem epollFd_ne (process : Process) :
    (process.openFile .other).lowestFree ≠ process.lowestFree :=
  fun heq => (process.openFile .other).lowestFree_fresh (heq ▸ List.mem_cons_self)

theorem owned_empty (process : Process) : ∀ fd ∈ (∅ : Set ℕ), fd ∈ process.descriptors :=
  fun fd hfd => absurd hfd (Set.notMem_empty fd)

theorem working_open (process : Process) :
    ∀ fd ∈ working process, fd ∈ (prepared process).descriptors := by
  apply forall_insert_lowestFree
  exact forall_insert_lowestFree (owned_empty process) .other

/-- What the search for the remote leaves open. -/
theorem opened_findSamsungRemote (listing : Option Listing) (process : Process) :
    Opened ((listing.elim [] Listing.entries).find? passes).toList
      (returnedFds (findSamsungRemote listing process).1) process
      (findSamsungRemote listing process).2 := by
  cases listing with
  | none => exact .none process
  | some listing =>
      simp only [findSamsungRemote, returnedFds_elim]
      exact (opened_searchRemote (process.openFile .directory) listing.entries).close

namespace Opened

variable {nodes : List Entry} {fds : List ℕ} {before after : Process}

theorem descriptors (hopened : Opened nodes fds before after) :
    after.descriptors = fds.reverse ++ before.descriptors := by
  have hfds : (fds.zip (nodes.map fun entry => File.node entry.dName)).map Prod.fst = fds := by
    rw [List.map_fst_zip]
    rw [List.length_map, hopened.length]
  rw [Process.descriptors, hopened.table, List.map_append, List.map_reverse, hfds]
  rfl

theorem subset (hopened : Opened nodes fds before after) {own : Set ℕ}
    (hown : ∀ fd ∈ own, fd ∈ before.descriptors) :
    ∀ fd ∈ own ∪ {fd | fd ∈ fds}, fd ∈ after.descriptors := by
  rw [hopened.descriptors]
  rintro fd (hold | hnew)
  · exact List.mem_append_right _ (hown fd hold)
  · exact List.mem_append_left _ (List.mem_reverse.mpr hnew)

end Opened

theorem opened_searched (answers : Answers) (process : Process) :
    Opened ((answers.remoteListing.elim [] Listing.entries).find? passes).toList
      (returnedFds (searched answers process).1) (prepared process)
      (searched answers process).2 :=
  opened_findSamsungRemote answers.remoteListing (prepared process)

/-- What the loop starts with is open. -/
theorem loopStart_table (answers : Answers) (process : Process) :
    (loopStart answers (searched answers process).2).mapper.process.table =
      (searched answers process).2.table :=
  (findGamepads_none answers.gamepadListing maxGamepads (searched answers process).2).2

theorem loopAfter_table (answers : Answers) (process : Process)
    (chosen : List (Turn × Option Listing)) :
    (loopAfter answers process chosen).mapper.process.table = (searched answers process).2.table :=
  (mainLoop_table chosen _).trans (loopStart_table answers process)

/-- From the creation of the gamepad to the loop the set of descriptors is opened, and the
remote. -/
theorem exchanges_loopStart (answers : Answers) (process : Process) {own : Set ℕ}
    (hown : ∀ fd ∈ own, fd ∈ (process.openFile .other).descriptors) :
    Exchanges (process.openFile .other)
      (loopStart answers (searched answers process).2).mapper.process own
      (insert (process.openFile .other).lowestFree own ∪
        {fd | fd ∈ returnedFds (searched answers process).1}) := by
  have hprepared := Exchanges.openFile .other (lowestFree_notMem hown)
  have hopen := forall_insert_lowestFree hown .other
  have hremote := exchanges_findSamsungRemote answers.remoteListing hopen
  have hsearched := (opened_searched answers process).subset hopen
  have hscan := exchanges_findGamepadsBy hasSouth answers.gamepadListing maxGamepads hsearched
  have hnothing : {fd : ℕ | fd ∈ (findGamepadsBy hasSouth answers.gamepadListing maxGamepads
      (searched answers process).2).fds} = ∅ := by
    have hnone := (findGamepads_none answers.gamepadListing maxGamepads
      (searched answers process).2).1
    rw [findGamepads] at hnone
    simp [hnone]
  rw [hnothing, Set.union_empty] at hscan
  exact hprepared.trans (hremote.trans hscan)

/-- Closing the remote leaves what was open without it. -/
theorem closeRemote_spec {result : ℤ} {nodes : List Entry} {before after : Process} {own : Set ℕ}
    (hopened : Opened nodes (returnedFds result) before after)
    (hown : ∀ fd ∈ own, fd ∈ before.descriptors) {process : Process}
    (htable : process.table = after.table) :
    Exchanges process (closeRemote result process) (own ∪ {fd | fd ∈ returnedFds result}) own ∧
      (closeRemote result process).table = before.table := by
  by_cases hresult : result < 0
  · have hnone : returnedFds result = [] := if_pos hresult
    rw [hnone] at hopened
    rw [hnone, closeRemote, if_neg (not_le.mpr hresult)]
    refine ⟨by simpa using Exchanges.refl process own, ?_⟩
    rw [htable, hopened.table]
    rfl
  · have hone : returnedFds result = [result.toNat] := if_neg hresult
    rw [hone] at hopened
    have hfresh := hopened.fresh _ (List.mem_singleton_self _)
    have hnew : result.toNat ∉ own := fun hmem => hfresh (hown _ hmem)
    rw [hone, closeRemote, if_pos (not_lt.mp hresult)]
    constructor
    · have hclose := Exchanges.close process
        (show result.toNat ∈ own ∪ {fd | fd ∈ [result.toNat]} from .inr (by simp))
      have hleft : (own ∪ {fd | fd ∈ [result.toNat]}) \ {result.toNat} = own := by
        have hsingle : {fd | fd ∈ [result.toNat]} = {result.toNat} := by simp
        rw [hsingle, Set.union_sdiff_cancel_right]
        rintro fd ⟨hmem, rfl⟩
        exact hnew hmem
      rwa [hleft] at hclose
    · obtain ⟨node, rfl⟩ := List.length_eq_one_iff.mp hopened.length.symm
      have hkept : before.table.filter (fun entry => entry.1 ≠ result.toNat) = before.table := by
        rw [List.filter_eq_self]
        intro entry hentry
        have hmem : entry.1 ∈ before.descriptors := List.mem_map_of_mem hentry
        simpa using ne_of_mem_of_not_mem hmem hfresh
      rw [Process.close, htable, hopened.table]
      simpa using hkept

theorem exchanges_remoteClosed (answers : Answers) (process : Process) {own : Set ℕ}
    (hown : ∀ fd ∈ own, fd ∈ (prepared process).descriptors) :
    Exchanges (loopAfter answers process answers.turns).mapper.process
        (remoteClosed answers process)
        (own ∪ {fd | fd ∈ returnedFds (searched answers process).1}) own ∧
      (remoteClosed answers process).table = (prepared process).table :=
  closeRemote_spec (opened_searched answers process) hown
    (loopAfter_table answers process answers.turns)

/-- The two descriptors are closed last, and in the order in which they were opened. -/
theorem run_closed (process : Process) :
    Run UseStep (working process)
      [.called (.closed process.lowestFree),
        .called (.closed (process.openFile .other).lowestFree)] ∅ := by
  have hne := epollFd_ne process
  have hown : process.lowestFree ∈ working process := by simp [working]
  have hleft : (process.openFile .other).lowestFree ∈ working process \ {process.lowestFree} := by
    simp [working, hne]
  have hnone : (working process \ {process.lowestFree}) \
      {(process.openFile .other).lowestFree} = ∅ := by
    ext fd
    simp [working]
    tauto
  have hlast : Run UseStep (working process \ {process.lowestFree})
      [.called (.closed (process.openFile .other).lowestFree)]
      ((working process \ {process.lowestFree}) \ {(process.openFile .other).lowestFree}) :=
    .cons (.called (.released hleft)) (.start _)
  rw [hnone] at hlast
  exact .cons (.called (.released hown)) hlast

theorem close_working {after : Process} (htable : after.table = (prepared process).table) :
    ((after.close process.lowestFree).close (process.openFile .other).lowestFree).table =
      process.table := by
  have hfirst := process.lowestFree_fresh
  have hsecond := (process.openFile .other).lowestFree_fresh
  have hold : process.table.filter (fun entry => entry.1 ≠ process.lowestFree ∧
      entry.1 ≠ (process.openFile .other).lowestFree) = process.table := by
    rw [List.filter_eq_self]
    intro entry hentry
    have hmem : entry.1 ∈ process.descriptors := List.mem_map_of_mem hentry
    exact decide_eq_true ⟨ne_of_mem_of_not_mem hmem hfirst,
      ne_of_mem_of_not_mem (List.mem_cons_of_mem _ hmem) hsecond⟩
  have hfilter : (after.table.filter (fun entry => entry.1 ≠ process.lowestFree)).filter
      (fun entry => entry.1 ≠ (process.openFile .other).lowestFree) =
        after.table.filter (fun entry => entry.1 ≠ process.lowestFree ∧
          entry.1 ≠ (process.openFile .other).lowestFree) := by
    rw [List.filter_filter]
    apply List.filter_congr
    intro entry _
    simp [Bool.and_comm]
  rw [Process.close, Process.close, hfilter, htable]
  conv_rhs => rw [← hold]
  simp [prepared, Process.openFile]

end Runs

section Whole

variable {answers : Answers} {process : Process}

/-- What a run should have done when it ends. -/
structure Orderly (answers : Answers) (process : Process) (exit : Exit) : Prop where
  /-- It uses only what it has opened, and closes that once. -/
  uses : Run UseStep ∅ exit.deeds {fd | fd ∈ leftOpen answers process}
  device : Run (DeviceStep answers.kernel process.lowestFree) .closed exit.deeds
    (leftPhase answers)
  calls : exit.process.calls = process.calls ++ exit.deeds.filterMap Deed.call?
  table : exit.process.table =
    (leftOpen answers process).map (fun fd => (fd, File.other)) ++ process.table
  status : exit.status = if answers.kernel.creates && answers.epollCreate then 0 else 1

theorem set_nil : {fd : ℕ | fd ∈ ([] : List ℕ)} = ∅ := by simp

theorem orderly_of_not_creates (hcreates : answers.kernel.creates = false) :
    Orderly answers process (main answers process) := by
  have hleft : leftOpen answers process = [] := by simp [leftOpen, hcreates]
  have hphase : leftPhase answers = .closed := by simp [leftPhase, hcreates]
  have hnew := lowestFree_notMem (owned_empty process)
  rcases @createVirtualGamepad_of_not_creates _ process hcreates with
    hclosed | ⟨hrefused, hclosed⟩
  · have hmain : main answers process = ⟨1, [], process⟩ := by simp [main, hclosed]
    rw [hmain]
    refine ⟨?_, ?_, by simp, by simp [hleft], by simp [hcreates]⟩
    · rw [hleft, set_nil]
      exact .start ∅
    · rw [hphase]
      exact .start _
  · have hmain : main answers process =
        ⟨1, creation answers.kernel process.lowestFree ++ [.called (.closed process.lowestFree)],
          (process.openFile .other).close process.lowestFree⟩ := by simp [main, hclosed]
    rw [hmain]
    refine ⟨?_, ?_, ?_, by simp [hleft], by simp [hcreates]⟩
    · have hlast : UseStep (insert process.lowestFree ∅) (.called (.closed process.lowestFree))
          (insert process.lowestFree ∅ \ {process.lowestFree}) :=
        .called (.released (Set.mem_insert _ _))
      rw [Set.insert_sdiff_self_of_notMem hnew] at hlast
      rw [hleft, set_nil]
      exact (uses_creation answers.kernel hnew).extend hlast
    · have hrun := run_creation answers.kernel process.lowestFree
      rw [hrefused] at hrun
      rw [hphase]
      exact hrun.extend .givenUp
    · rw [List.filterMap_append, calls_creation]
      simp [Process.close, Process.openFile, Deed.call?]

theorem orderly_of_created (hcreates : answers.kernel.creates = true)
    (hepoll : answers.epollCreate = false) : Orderly answers process (main answers process) := by
  have hleft : leftOpen answers process = [process.lowestFree] := by
    simp [leftOpen, hcreates, hepoll]
  have hphase : leftPhase answers = .live := by simp [leftPhase, hcreates, hepoll]
  have haccepts : answers.kernel.accepts .devCreate = true := (Bool.and_eq_true_iff.mp hcreates).2
  rw [main_of_created hcreates hepoll]
  refine ⟨?_, ?_, ?_, by simp [hleft, Process.openFile], by simp [hepoll]⟩
  · have hone : {fd | fd ∈ [process.lowestFree]} = insert process.lowestFree ∅ := by simp
    rw [hleft, hone]
    exact uses_creation answers.kernel (lowestFree_notMem (owned_empty process))
  · have hrun := run_creation answers.kernel process.lowestFree
    rwa [haccepts, if_pos rfl, ← hphase] at hrun
  · rw [calls_creation]
    rfl

theorem uses_startedDeeds (answers : Answers) (process : Process) :
    Run UseStep ∅ (startedDeeds answers process) ∅ := by
  have hnone := owned_empty process
  have hone := forall_insert_lowestFree hnone .other
  have hcreated := uses_creation answers.kernel (lowestFree_notMem hnone)
  have hstart := (exchanges_loopStart answers process hone).uses
  have hopen := (opened_searched answers process).subset (working_open process)
  have hfd : process.lowestFree ∈
      working process ∪ {fd | fd ∈ returnedFds (searched answers process).1} := by simp [working]
  have hloop := @uses_mainLoop (searched answers process).1 process.lowestFree _ answers.turns
    (loopStart answers (searched answers process).2) hfd
    (by rwa [Process.descriptors, loopStart_table])
  have hclosed := (exchanges_remoteClosed answers process (working_open process)).1.uses
  have hdestroy : UseStep (working process) (.requested process.lowestFree .devDestroy)
      (working process) := .used rfl (by simp [working, Deed.fd])
  exact ((((hcreated.append hstart).append hloop).append hclosed).extend hdestroy).append
    (run_closed process)

theorem device_startedDeeds (hcreates : answers.kernel.creates = true) :
    Run (DeviceStep answers.kernel process.lowestFree) .closed (startedDeeds answers process)
      .closed := by
  have haccepts : answers.kernel.accepts .devCreate = true := (Bool.and_eq_true_iff.mp hcreates).2
  have hcreated := run_creation answers.kernel process.lowestFree
  rw [haccepts, if_pos rfl] at hcreated
  have hone := forall_insert_lowestFree (owned_empty process) .other
  have hnone (other : Process) := owned_empty other
  have hstart := (exchanges_loopStart answers process (hnone _)).elsewhere
    (exchanges_loopStart answers process hone) (Set.notMem_empty process.lowestFree)
  have hworking := working_open process
  have hprepared : process.lowestFree ∈ (prepared process).descriptors :=
    hworking _ (by simp [working])
  have hopened := opened_searched answers process
  have hthere : process.lowestFree ∈ (searched answers process).2.descriptors := by
    rw [hopened.descriptors]
    exact List.mem_append_right _ hprepared
  have hloop := @device_mainLoop (searched answers process).1 process.lowestFree answers.kernel
    answers.turns (loopStart answers (searched answers process).2)
    (by rwa [Process.descriptors, loopStart_table])
  have hclosed : ∀ deed ∈ ((loopAfter answers process answers.turns).mapper.process.callsBetween
      (remoteClosed answers process)).map Deed.called, deed.fd ≠ process.lowestFree := by
    have hout : process.lowestFree ∉
        (∅ : Set ℕ) ∪ {fd | fd ∈ returnedFds (searched answers process).1} := by
      rintro (hmem | hmem)
      · exact hmem
      · exact hopened.fresh _ hmem hprepared
    have hsingle : ∀ fd ∈ insert process.lowestFree (∅ : Set ℕ),
        fd ∈ (prepared process).descriptors := by simpa using hprepared
    have hwith := (exchanges_remoteClosed answers process hsingle).1
    rw [Set.insert_union] at hwith
    exact (exchanges_remoteClosed answers process (hnone _)).1.elsewhere hwith hout
  have hended : Run (DeviceStep answers.kernel process.lowestFree) .destroyed
      [.called (.closed process.lowestFree),
        .called (.closed (process.openFile .other).lowestFree)] .closed :=
    .cons .closed (.cons (.elsewhere (epollFd_ne process)) (.start _))
  exact ((((hcreated.append (run_elsewhere hstart)).append hloop).append
    (run_elsewhere hclosed)).extend .destroyed).append hended

theorem calls_startedDeeds (answers : Answers) (process : Process) :
    (((remoteClosed answers process).close process.lowestFree).close
        (process.openFile .other).lowestFree).calls =
      process.calls ++ (startedDeeds answers process).filterMap Deed.call? := by
  have hone := forall_insert_lowestFree (owned_empty process) .other
  have hstart := (exchanges_loopStart answers process hone).callsBetween_spec.1
  have hloop := @calls_mainLoop (searched answers process).1 process.lowestFree answers.turns
    (loopStart answers (searched answers process).2)
  have hclosed :=
    (exchanges_remoteClosed answers process (working_open process)).1.callsBetween_spec.1
  have hopened : (process.openFile .other).calls =
      process.calls ++ [.opened process.lowestFree .other] := rfl
  simp only [startedDeeds, List.filterMap_append, calls_creation, calls_called, loopRun]
  rw [Process.close, Process.close, hclosed, loopAfter, loopRun, hloop, hstart, hopened]
  simp [Deed.call?]

theorem orderly_of_started (hcreates : answers.kernel.creates = true)
    (hepoll : answers.epollCreate = true) : Orderly answers process (main answers process) := by
  have hleft : leftOpen answers process = [] := by simp [leftOpen, hepoll]
  have hphase : leftPhase answers = .closed := by simp [leftPhase, hepoll]
  have htable := (exchanges_remoteClosed answers process (working_open process)).2
  rw [main_of_started hcreates hepoll]
  refine ⟨?_, ?_, calls_startedDeeds answers process, ?_, by simp [hcreates, hepoll]⟩
  · rw [hleft, set_nil]
    exact uses_startedDeeds answers process
  · rw [hphase]
    exact device_startedDeeds hcreates
  · simpa [hleft] using close_working htable

theorem orderly_of_main : Orderly answers process (main answers process) := by
  cases hcreates : answers.kernel.creates with
  | false => exact orderly_of_not_creates hcreates
  | true =>
      cases hepoll : answers.epollCreate with
      | false => exact orderly_of_created hcreates hepoll
      | true => exact orderly_of_started hcreates hepoll

end Whole

end TizenRoblox.InputMapper
