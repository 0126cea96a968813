/-
# What the mapper writes

What a run writes is what it passes on of the events that came, each once and in order, and it
has announced all of it. Events are lost only where the kernel drops them or the remote goes
away. What comes back of its own events, where it takes its gamepad for the remote, makes no
difference (`main_faithful`).
-/

import TizenRoblox.InputMapper.Delivery
import TizenRoblox.InputMapper.Program

namespace TizenRoblox.InputMapper

open TizenRoblox.Foundation

/-! ## What a run writes -/

/-- The event, if a deed writes one. -/
def Deed.event? : Deed → Option InputEvent
  | .wrote _ event => some event
  | .called _ | .requested _ _ | .described _ _ => none

/-- The request, if a deed is one. -/
def Deed.request? : Deed → Option Request
  | .requested _ request => some request
  | .called _ | .described _ _ | .wrote _ _ => none

/-- The events written to the gamepad. -/
def Exit.written (exit : Exit) : List InputEvent := exit.deeds.filterMap Deed.event?

/-- What has been asked of the kernel. -/
def Exit.requests (exit : Exit) : List Request := exit.deeds.filterMap Deed.request?

section Written

variable (answers : Answers) (process : Process)

/-- The events that a run reads, those that it leaves, and what happens meanwhile. -/
def consumedIn : List InputEvent :=
  (loopRun answers process answers.turns).1.flatMap fun lap => lap.iteration.consumed

def unreadAfter : List InputEvent :=
  (loopAfter answers process answers.turns).loop.remote.pending

def happenedIn : List Change :=
  turnsHappened (searched answers process).1 (answers.turns.map Prod.fst) ⟨answers.remote, 0⟩

variable {answers process}

theorem events_creation (kernel : Kernel) (fd : ℕ) :
    (creation kernel fd).filterMap Deed.event? = [] := by
  unfold creation describe
  split <;> rfl

theorem events_called (calls : List Call) :
    (calls.map Deed.called).filterMap Deed.event? = [] := by
  induction calls with
  | nil => rfl
  | cons call rest ih => exact ih

theorem events_laps (laps : List Lap) (fd : ℕ) :
    (laps.flatMap (Lap.deeds fd)).filterMap Deed.event? =
      laps.flatMap fun lap => lap.iteration.written := by
  have hwrote (events : List InputEvent) :
      (events.map (Deed.wrote fd)).filterMap Deed.event? = events := by
    induction events with
    | nil => rfl
    | cons event rest ih => exact congrArg (event :: ·) ih
  induction laps with
  | nil => rfl
  | cons lap rest ih =>
      rw [List.flatMap_cons, List.filterMap_append, ih, Lap.deeds, List.filterMap_append, hwrote,
        events_called, List.append_nil, List.flatMap_cons]

theorem written_of_started (hcreates : answers.kernel.creates = true)
    (hepoll : answers.epollCreate = true) :
    (main answers process).written =
      (loopRun answers process answers.turns).1.flatMap fun lap => lap.iteration.written := by
  rw [main_of_started hcreates hepoll, Exit.written]
  simp only [startedDeeds, List.filterMap_append, events_creation, events_called, events_laps]
  simp [Deed.event?]

/-- The loop does with the remote what its turns do by themselves. -/
theorem flatMap_loopRun (what : Iteration → List InputEvent) :
    ((loopRun answers process answers.turns).1.flatMap fun lap => what lap.iteration) =
      (turns (searched answers process).1 (answers.turns.map Prod.fst)
        ⟨answers.remote, 0⟩).1.flatMap what := by
  have hiterations := @mainLoop_fst (searched answers process).1 answers.turns
    (loopStart answers (searched answers process).2)
  rw [loopStart] at hiterations
  rw [← hiterations, List.flatMap_map]
  rfl

theorem unreadAfter_eq : unreadAfter answers process =
    (turns (searched answers process).1 (answers.turns.map Prod.fst)
      ⟨answers.remote, 0⟩).2.remote.pending := by
  rw [unreadAfter, loopAfter, loopRun, mainLoop_loop]
  rfl

theorem written_eq_consumed (hcreates : answers.kernel.creates = true)
    (hepoll : answers.epollCreate = true) :
    (main answers process).written =
      (consumedIn answers process).flatMap fun record => passOn (.event record) := by
  rw [written_of_started hcreates hepoll, flatMap_loopRun, consumedIn, flatMap_loopRun]
  exact turns_written _ _ _

/-- The abilities are among the requests. -/
theorem abilities_requested (hcreates : answers.kernel.creates = true)
    (hepoll : answers.epollCreate = true) : abilities ⊆ (main answers process).requests := by
  rw [main_of_started hcreates hepoll]
  intro request hrequest
  apply List.mem_filterMap.mpr
  refine ⟨.requested process.lowestFree request, ?_, rfl⟩
  simp [startedDeeds, creation, hrequest]

theorem started_of_status (hstatus : (main answers process).status = 0) :
    answers.kernel.creates = true ∧ answers.epollCreate = true := by
  rw [orderly_of_main.status] at hstatus
  by_contra hnot
  rw [← Bool.and_eq_true_iff] at hnot
  simp [hnot] at hstatus

theorem flatMap_filter_of_nil {α β : Type} {keep : α → Bool} {passed : α → List β}
    (items : List α) (hnone : ∀ item, keep item = false → passed item = []) :
    (items.filter keep).flatMap passed = items.flatMap passed := by
  induction items with
  | nil => rfl
  | cons item rest ih =>
      cases hkeep : keep item with
      | true => simp [hkeep, ih]
      | false => simp [hkeep, ih, hnone item hkeep]

/-- Events that the mapper has written make no difference when they come back. -/
theorem flatMap_others (consumed : List InputEvent) :
    (consumed.filter fun record =>
        record ∉ consumed.flatMap fun record => passOn (.event record)).flatMap
          (fun record => passOn (.event record)) =
      consumed.flatMap fun record => passOn (.event record) := by
  apply flatMap_filter_of_nil
  intro record hrecord
  have hwritten : record ∈ consumed.flatMap fun record => passOn (.event record) := by
    simpa using hrecord
  obtain ⟨source, -, hsource⟩ := List.mem_flatMap.mp hwritten
  exact passOn_written hsource

/-- A run that gets into its loop writes what it passes on of the events that it reads, its
own left out. Of those that came it reads or leaves each once, in order, besides what the
kernel has dropped, and all of them where it drops nothing. All that it writes it has
announced. -/
theorem main_faithful (hstatus : (main answers process).status = 0) :
    (main answers process).written =
        (consumedIn answers process).flatMap (fun record => passOn (.event record)) ∧
      (main answers process).written =
        ((consumedIn answers process).filter fun record =>
          record ∉ (main answers process).written).flatMap
            (fun record => passOn (.event record)) ∧
      (unmarked (consumedIn answers process ++ unreadAfter answers process)).Sublist
        (unmarked (answers.remote.pending ++ arrivals (happenedIn answers process))) ∧
      (answers.remote.gone = false →
        (∀ change ∈ happenedIn answers process, ∃ record, change = .arrives record) →
        consumedIn answers process ++ unreadAfter answers process =
          answers.remote.pending ++ arrivals (happenedIn answers process)) ∧
      ∀ event ∈ (main answers process).written,
        Announced (main answers process).requests event := by
  obtain ⟨hcreates, hepoll⟩ := started_of_status hstatus
  have hwritten := @written_eq_consumed answers process hcreates hepoll
  refine ⟨hwritten, ?_, ?_, ?_, ?_⟩
  · rw [hwritten]
    exact (flatMap_others _).symm
  · rw [consumedIn, flatMap_loopRun, unreadAfter_eq]
    exact turns_sublist
  · intro hgone harrive
    rw [consumedIn, flatMap_loopRun, unreadAfter_eq]
    exact turns_complete hgone harrive
  · intro event hevent
    rw [hwritten] at hevent
    obtain ⟨record, -, hpassed⟩ := List.mem_flatMap.mp hevent
    exact (announced_passOn hpassed).mono (abilities_requested hcreates hepoll)

end Written

/-- A system that answers everything, and a remote of which okay is pressed and released. -/
def pluggedAnswers : Answers where
  kernel := ⟨fun _ => true, fun _ => true⟩
  epollCreate := true
  remoteListing := some remoteFirst
  gamepadListing := none
  remote := ⟨[], false⟩
  turns := plugged.map fun turn => (turn, none)

theorem main_faithful_plugged :
    (main pluggedAnswers standardStreams).written =
      (consumedIn pluggedAnswers standardStreams).flatMap fun record => passOn (.event record) := by
  have hstatus : (main pluggedAnswers standardStreams).status = 0 := by
    rw [main_of_started rfl rfl]
  exact (main_faithful hstatus).1

end TizenRoblox.InputMapper
