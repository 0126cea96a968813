/-
# Waking up for nothing

Each turn of the main loop waits for the remote, for a second at most, and then reads
what there is. The descriptor is reported for as long as it has something to say: events,
or that its device is gone. A remote that is there is therefore never reported without an
event to read. One that has gone is reported in every turn, at once, with nothing to read
and for good, because nothing takes its descriptor out of the set: from then on the loop
runs without a pause, and searches for gamepads in every tenth turn of it.

So the loop wakes up for events exactly as long as it does not wake up for a remote that
is gone (`wakesForEvents_iff`).
-/

import TizenRoblox.InputMapper.EventLoop

namespace TizenRoblox.InputMapper

open TizenRoblox.Foundation

/-! ## The remote's descriptor -/

/-- The descriptor of the remote, as the kernel keeps it. -/
structure RemoteFd where
  /-- The events that have not been read. -/
  pending : List InputEvent
  gone : Bool

/-- What happens to the remote without the mapper. -/
inductive Change
  | arrives (record : InputEvent)
  /-- The queue overflows: what was in it is dropped, and the reader is told so. -/
  | overflows (record : InputEvent)
  | removed

namespace RemoteFd

def change (remote : RemoteFd) (change : Change) : RemoteFd :=
  if remote.gone then remote
  else
    match change with
    | .arrives record => { remote with pending := remote.pending ++ [record] }
    | .overflows record => { remote with pending := [⟨evSyn, synDropped, 0⟩, record] }
    | .removed => ⟨[], true⟩

def changes (remote : RemoteFd) (happened : List Change) : RemoteFd :=
  happened.foldl change remote

/-- `epoll` has the descriptor to report. -/
def ready (remote : RemoteFd) : Bool := remote.gone || remote.pending ≠ []

/-- `read`, which fails once the remote is gone. -/
def read : RemoteFd → Reading × RemoteFd
  | ⟨record :: rest, false⟩ => (.event record, ⟨rest, false⟩)
  | remote => (.short, remote)

/-- The readings up to the first that is short, while more happens between them. -/
def readings : List (List Change) → RemoteFd → List Reading × RemoteFd
  | [], remote =>
    if remote.gone then ([.short], remote)
    else (remote.pending.map .event ++ [.short], { remote with pending := [] })
  | happened :: rest, remote =>
    match remote.read with
    | (.short, next) => ([.short], next)
    | (.event record, next) =>
      let (more, last) := readings rest (next.changes happened)
      (.event record :: more, last)

end RemoteFd

/-! ## The turns of the loop -/

/-- Why `epoll_wait` returns. -/
inductive Wake
  | ready
  | timeout
  | signal
  deriving DecidableEq

/-- What the kernel decides of a turn: what happens during the wait, how that ends, what
happens before the first reading, and what between the readings. -/
structure Turn where
  waiting : List Change
  wake : Wake
  woken : List Change
  between : List (List Change)

/-- The main loop: the remote, and `scan_counter`. -/
structure Loop where
  remote : RemoteFd
  scanCounter : ℕ

/-- What can be seen of a turn. -/
structure Iteration where
  wake : Wake
  /-- The remote was gone when the wait had ended. -/
  gone : Bool
  /-- The events that were read. -/
  consumed : List InputEvent
  /-- What was written to the virtual gamepad. -/
  written : List InputEvent
  /-- The turn has searched for gamepads. -/
  rescanned : Bool

/-- The wait ends as a wait for this remote can end. -/
def Wake.Fits (watched : Bool) (remote : RemoteFd) : Wake → Prop
  | .ready => watched = true ∧ remote.ready = true
  | .timeout => watched = true → remote.ready = false
  | .signal => True

instance (watched : Bool) (remote : RemoteFd) : (wake : Wake) →
    Decidable (wake.Fits watched remote)
  | .ready => inferInstanceAs (Decidable (_ ∧ _))
  | .timeout => inferInstanceAs (Decidable (_ → _))
  | .signal => inferInstanceAs (Decidable True)

/-- The events among readings. -/
def eventsOf (readings : List Reading) : List InputEvent :=
  readings.filterMap fun reading =>
    match reading with
    | .event record => some record
    | .short => none

/-- A turn of the loop on descriptor `remoteFd`: the iteration, and what the loop is
left with. -/
def Loop.turn (remoteFd : ℤ) (turn : Turn) (loop : Loop) : Iteration × Loop :=
  let found := (loop.remote.changes turn.waiting).changes turn.woken
  let (readings, remote) :=
    if turn.wake = .ready then found.readings turn.between else ([], found)
  let rescans := loop.scanCounter + 1 ≥ 10
  (⟨turn.wake, found.gone, eventsOf readings,
      (handleReady remoteFd (if turn.wake = .ready then [remoteFd] else []) readings).1, rescans⟩,
    ⟨remote, if rescans then 0 else loop.scanCounter + 1⟩)

/-- Steps of the loop; the descriptor is watched if the remote was found. -/
inductive LoopStep (remoteFd : ℤ) (watched : Bool) : Loop → Iteration → Loop → Prop
  | turn {loop : Loop} (turn : Turn)
      (hwake : turn.wake.Fits watched (loop.remote.changes turn.waiting)) :
      LoopStep remoteFd watched loop (loop.turn remoteFd turn).1 (loop.turn remoteFd turn).2

/-- A turn of the loop that wakes up before its time and is not interrupted has read an
event. -/
def WakesForEvents (iterations : List Iteration) : Prop :=
  ∀ iteration ∈ iterations, iteration.wake = .ready → iteration.consumed ≠ []

instance (iterations : List Iteration) : Decidable (WakesForEvents iterations) :=
  inferInstanceAs (Decidable (∀ _ ∈ _, _ → _ ≠ _))

/-- The turn has woken up for nothing. -/
def Iteration.idle (iteration : Iteration) : Bool :=
  iteration.wake = .ready && iteration.consumed.isEmpty

/-! ## What there is to read -/

section Readings

variable {remote : RemoteFd}

theorem ready_change (hready : remote.ready = true) (change : Change) :
    (remote.change change).ready = true := by
  cases hgone : remote.gone with
  | true => simpa [RemoteFd.change, hgone] using hready
  | false => cases change <;> simp [RemoteFd.change, RemoteFd.ready, hgone]

theorem ready_changes (hready : remote.ready = true) (happened : List Change) :
    (remote.changes happened).ready = true := by
  unfold RemoteFd.changes
  induction happened generalizing remote with
  | nil => exact hready
  | cons change rest ih => exact ih (ready_change hready change)

theorem readings_of_gone (hgone : remote.gone = true) (between : List (List Change)) :
    (remote.readings between).1 = [.short] := by
  obtain ⟨pending, gone⟩ := remote
  obtain rfl : gone = true := hgone
  cases between <;> simp [RemoteFd.readings, RemoteFd.read]

/-- A descriptor that is ready has an event to read, unless its device is gone. -/
theorem eventsOf_readings (hready : remote.ready = true) (hgone : remote.gone = false)
    (between : List (List Change)) : eventsOf (remote.readings between).1 ≠ [] := by
  obtain ⟨pending, gone⟩ := remote
  obtain rfl : gone = false := hgone
  cases pending with
  | nil => cases hready
  | cons record rest =>
      cases between <;> simp [RemoteFd.readings, RemoteFd.read, eventsOf]

/-- The loop reads just up to the first reading that is short. -/
theorem drain_readings (remote : RemoteFd) (between : List (List Change)) :
    (drain (remote.readings between).1).2 = [] := by
  induction between generalizing remote with
  | nil =>
      cases hgone : remote.gone with
      | true => simp [RemoteFd.readings, hgone, drain]
      | false =>
          have hpending : ∀ pending : List InputEvent,
              (drain (pending.map .event ++ [.short])).2 = [] := by
            intro pending
            induction pending with
            | nil => rfl
            | cons record rest ih => exact ih
          simpa [RemoteFd.readings, hgone] using hpending remote.pending
  | cons happened rest ih =>
      obtain ⟨pending, gone⟩ := remote
      cases gone with
      | true => simp [RemoteFd.readings, RemoteFd.read, drain]
      | false =>
          cases pending with
          | nil => simp [RemoteFd.readings, RemoteFd.read, drain]
          | cons record pending => exact ih _

end Readings

/-! ## When the loop wakes up for events -/

section Runs

variable {remoteFd : ℤ} {watched : Bool} {source target : Loop} {iteration : Iteration}

/-- A turn that wakes up for a remote that is there has read an event, and one that wakes
up for a remote that is gone has not. -/
theorem LoopStep.consumed_iff (hstep : LoopStep remoteFd watched source iteration target)
    (hwake : iteration.wake = .ready) : iteration.consumed ≠ [] ↔ iteration.gone = false := by
  obtain ⟨turn, hfits⟩ := hstep
  have hready : turn.wake = .ready := hwake
  rw [hready] at hfits
  have hfound := ready_changes hfits.2 turn.woken
  simp only [Loop.turn, hready, if_true]
  cases hgone : ((source.remote.changes turn.waiting).changes turn.woken).gone with
  | true => simp [readings_of_gone hgone, eventsOf]
  | false => exact iff_of_true (eventsOf_readings hfound hgone turn.between) rfl

theorem LoopStep.scanCounter (hstep : LoopStep remoteFd watched source iteration target)
    (hsource : source.scanCounter < 10) :
    target.scanCounter < 10 ∧
      10 * (if iteration.rescanned then 1 else 0) + target.scanCounter =
        source.scanCounter + 1 := by
  obtain ⟨turn, hfits⟩ := hstep
  by_cases hscan : source.scanCounter + 1 ≥ 10
  · simp [Loop.turn, hscan]
    omega
  · simp [Loop.turn, hscan]
    omega

variable {remote : RemoteFd} {iterations : List Iteration} {loop : Loop}

/-- Every tenth turn searches for gamepads. -/
theorem rescans_run (hrun : Run (LoopStep remoteFd watched) ⟨remote, 0⟩ iterations loop) :
    loop.scanCounter < 10 ∧
      10 * iterations.countP Iteration.rescanned + loop.scanCounter = iterations.length := by
  induction hrun with
  | start => simp
  | extend _ hlast ih =>
      obtain ⟨hbound, hcount⟩ := ih
      obtain ⟨hbound, hlast⟩ := hlast.scanCounter hbound
      refine ⟨hbound, ?_⟩
      rw [List.countP_append, List.countP_singleton, List.length_append, List.length_singleton,
        Nat.mul_add]
      omega

/-- The loop wakes up for events exactly as long as it does not wake up for a remote that
is gone. Where it does so, the searches for gamepads are due to turns that have waited,
were interrupted or have read something. -/
theorem wakesForEvents_iff
    (hrun : Run (LoopStep remoteFd watched) ⟨remote, 0⟩ iterations loop) :
    (WakesForEvents iterations ↔
      ∀ iteration ∈ iterations, iteration.wake = .ready → iteration.gone = false) ∧
    (WakesForEvents iterations →
      10 * iterations.countP Iteration.rescanned ≤
        iterations.countP fun iteration => !iteration.idle) := by
  have hsteps : ∀ iteration ∈ iterations, iteration.wake = .ready →
      (iteration.consumed ≠ [] ↔ iteration.gone = false) := by
    intro iteration hmem
    obtain ⟨before, after, hstep⟩ := hrun.exists_step hmem
    exact hstep.consumed_iff
  refine ⟨forall₃_congr hsteps, fun hwakes => ?_⟩
  have hbusy : iterations.countP (fun iteration => !iteration.idle) = iterations.length := by
    rw [List.countP_eq_length]
    intro iteration hmem
    have hread := hwakes iteration hmem
    simpa [Iteration.idle, imp_iff_not_or] using hread
  rw [hbusy]
  exact Nat.le.intro (rescans_run hrun).2

end Runs

/-! ## A remote that is unplugged -/

/-- The iterations of some turns, and what the loop is left with. -/
def turns (remoteFd : ℤ) : List Turn → Loop → List Iteration × Loop
  | [], loop => ([], loop)
  | turn :: rest, loop =>
    let (iteration, next) := loop.turn remoteFd turn
    let (later, last) := turns remoteFd rest next
    (iteration :: later, last)

/-- Every wait of some turns ends as it can end. -/
def WaitsFit (remoteFd : ℤ) : List Turn → Loop → Prop
  | [], _ => True
  | turn :: rest, loop =>
    turn.wake.Fits true (loop.remote.changes turn.waiting) ∧
      WaitsFit remoteFd rest (loop.turn remoteFd turn).2

instance instDecidableWaitsFit (remoteFd : ℤ) : (chosen : List Turn) → (loop : Loop) →
    Decidable (WaitsFit remoteFd chosen loop)
  | [], _ => inferInstanceAs (Decidable True)
  | turn :: rest, loop =>
    have : Decidable (WaitsFit remoteFd rest (loop.turn remoteFd turn).2) :=
      instDecidableWaitsFit remoteFd rest _
    inferInstanceAs (Decidable (_ ∧ _))

theorem run_turns {remoteFd : ℤ} {chosen : List Turn} {loop : Loop}
    (hfit : WaitsFit remoteFd chosen loop) :
    Run (LoopStep remoteFd true) loop (turns remoteFd chosen loop).1
      (turns remoteFd chosen loop).2 := by
  induction chosen generalizing loop with
  | nil => exact .start loop
  | cons turn rest ih => exact .cons (.turn turn hfit.1) (ih hfit.2)

/-- The loop waits in vain for a second, and then the remote sends two events. -/
def plugged : List Turn := [
  ⟨[], .timeout, [], []⟩,
  ⟨[.arrives ⟨evKey, samsungKeyOk, 1⟩], .ready, [], [[.arrives ⟨evKey, samsungKeyOk, 0⟩]]⟩]

/-- The remote is unplugged while the loop waits for it. -/
def unplugged : List Turn :=
  ⟨[.removed], .ready, [], []⟩ :: List.replicate 9 ⟨[], .ready, [], []⟩

/-- The loop with a remote that has sent nothing. -/
def silent : Loop := ⟨⟨[], false⟩, 0⟩

theorem wakesForEvents_plugged : WakesForEvents (turns 5 plugged silent).1 := by
  have hfit : WaitsFit 5 plugged silent := by decide
  apply (wakesForEvents_iff (run_turns hfit)).1.mpr
  decide

/-- From then on the loop runs without a pause, and reads nothing. -/
theorem not_wakesForEvents_unplugged :
    Run (LoopStep 5 true) silent (turns 5 unplugged silent).1 (turns 5 unplugged silent).2 ∧
      ¬ WakesForEvents (turns 5 unplugged silent).1 ∧
      (turns 5 unplugged silent).1.map Iteration.idle = List.replicate 10 true ∧
      (turns 5 unplugged silent).1.map Iteration.rescanned = List.replicate 9 false ++ [true] := by
  have hfit : WaitsFit 5 unplugged silent := by decide
  exact ⟨run_turns hfit, by decide, by decide, by decide⟩

end TizenRoblox.InputMapper
