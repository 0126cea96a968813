/-
# What becomes of the events of the remote

Events arrive at the remote's descriptor while the mapper waits, before it reads and
between its readings. Two laws hold over any number of turns. Whatever happens, what has
been read and what is still to be read came in that order, nothing of it twice: the kernel
may drop events, and then puts a mark of its own in their place (`turns_sublist`). And as
long as nothing is dropped and the remote is there, it is all that came (`turns_complete`).

Both say that something is kept by each change of the descriptor. How that carries over to
the readings, a turn and the turns is proved once, for a law of delivery.
-/

import TizenRoblox.InputMapper.Waking

namespace TizenRoblox.InputMapper

open TizenRoblox.Foundation

/-! ## Arrivals -/

/-- The events that arrive with some changes. -/
def arrivals (happened : List Change) : List InputEvent :=
  happened.filterMap fun change =>
    match change with
    | .arrives record | .overflows record => some record
    | .removed => none

/-- The changes between readings that come before the last reading. -/
def RemoteFd.happens : List (List Change) → RemoteFd → List Change
  | [], _ => []
  | happened :: rest, remote =>
    match remote.read with
    | (.short, _) => []
    | (.event _, next) => happened ++ happens rest (next.changes happened)

/-- The changes during a turn. -/
def Turn.happened (turn : Turn) (loop : Loop) : List Change :=
  turn.waiting ++ turn.woken ++
    if turn.wake = .ready then
      RemoteFd.happens turn.between ((loop.remote.changes turn.waiting).changes turn.woken)
    else []

/-- The changes during some turns. -/
def turnsHappened (remoteFd : ℤ) : List Turn → Loop → List Change
  | [], _ => []
  | turn :: rest, loop =>
    turn.happened loop ++ turnsHappened remoteFd rest (loop.turn remoteFd turn).2

theorem arrivals_append (front back : List Change) :
    arrivals (front ++ back) = arrivals front ++ arrivals back :=
  List.filterMap_append

/-! ## Laws of delivery -/

/-- A relation between what is delivered and what came, in a descriptor that is as it
should be, as long as only certain changes happen. -/
structure DeliveryLaw where
  rel : List InputEvent → List InputEvent → Prop
  refl : ∀ events, rel events events
  trans : ∀ {delivered middle came}, rel delivered middle → rel middle came → rel delivered came
  append : ∀ {delivered came} (front back), rel delivered came →
    rel (front ++ delivered ++ back) (front ++ came ++ back)
  sound : Bool → Prop
  allowed : Change → Prop
  change : ∀ {remote : RemoteFd} {change : Change}, sound remote.gone → allowed change →
    rel (remote.change change).pending (remote.pending ++ arrivals [change]) ∧
      sound (remote.change change).gone

namespace DeliveryLaw

variable (law : DeliveryLaw)

/-- What a descriptor holds after some changes. -/
theorem changes {happened : List Change} {remote : RemoteFd} (hsound : law.sound remote.gone)
    (hallowed : ∀ change ∈ happened, law.allowed change) :
    law.rel (remote.changes happened).pending (remote.pending ++ arrivals happened) ∧
      law.sound (remote.changes happened).gone := by
  induction happened generalizing remote with
  | nil => exact ⟨by simpa [arrivals, RemoteFd.changes] using law.refl _, hsound⟩
  | cons change rest ih =>
      obtain ⟨hfirst, hrest⟩ := List.forall_mem_cons.mp hallowed
      obtain ⟨hchange, hnext⟩ := law.change hsound hfirst
      obtain ⟨hlater, hlast⟩ := ih hnext hrest
      refine ⟨law.trans hlater ?_, hlast⟩
      have hmore := law.append [] (arrivals rest) hchange
      rw [← List.singleton_append, arrivals_append]
      simpa using hmore

/-- The readings of a descriptor, and what it holds after them. -/
theorem readings {between : List (List Change)} {remote : RemoteFd}
    (hsound : law.sound remote.gone)
    (hallowed : ∀ change ∈ RemoteFd.happens between remote, law.allowed change) :
    law.rel (eventsOf (remote.readings between).1 ++ (remote.readings between).2.pending)
        (remote.pending ++ arrivals (RemoteFd.happens between remote)) ∧
      law.sound (remote.readings between).2.gone := by
  induction between generalizing remote with
  | nil =>
      have hall (pending : List InputEvent) :
          eventsOf (pending.map Reading.event ++ [.short]) = pending := by
        simp [eventsOf, List.filterMap_map]
      simp only [RemoteFd.readings]
      split
      · exact ⟨by simpa [eventsOf, RemoteFd.happens, arrivals] using law.refl _, hsound⟩
      · exact ⟨by simpa [hall, RemoteFd.happens, arrivals] using law.refl _, hsound⟩
  | cons happened rest ih =>
      obtain ⟨pending, gone⟩ := remote
      cases gone with
      | true =>
          have hread : (RemoteFd.mk pending true).read = (.short, ⟨pending, true⟩) := by
            cases pending <;> rfl
          simp only [RemoteFd.happens, RemoteFd.readings, hread]
          exact ⟨by simpa [eventsOf, arrivals] using law.refl pending, hsound⟩
      | false =>
          cases pending with
          | nil =>
              refine ⟨?_, hsound⟩
              simpa [RemoteFd.happens, RemoteFd.read, RemoteFd.readings, eventsOf, arrivals]
                using law.refl []
          | cons record pending =>
              simp only [RemoteFd.happens, RemoteFd.read, List.forall_mem_append] at hallowed
              have hrest : law.sound (RemoteFd.mk pending false).gone := hsound
              obtain ⟨hchanges, hnext⟩ := law.changes hrest hallowed.1
              obtain ⟨hlater, hlast⟩ := ih hnext hallowed.2
              refine ⟨?_, hlast⟩
              have hmore := law.append [] (arrivals (RemoteFd.happens rest
                ((RemoteFd.mk pending false).changes happened))) hchanges
              have hread := law.append [record] [] (law.trans hlater (by simpa using hmore))
              simpa [RemoteFd.happens, RemoteFd.read, RemoteFd.readings, arrivals_append, eventsOf]
                using hread

/-- A turn reads what came, in so far as it does not leave it. -/
theorem turn {remoteFd : ℤ} {turn : Turn} {loop : Loop} (hsound : law.sound loop.remote.gone)
    (hallowed : ∀ change ∈ turn.happened loop, law.allowed change) :
    law.rel ((loop.turn remoteFd turn).1.consumed ++ (loop.turn remoteFd turn).2.remote.pending)
        (loop.remote.pending ++ arrivals (turn.happened loop)) ∧
      law.sound (loop.turn remoteFd turn).2.remote.gone := by
  rw [Turn.happened, List.forall_mem_append, List.forall_mem_append] at hallowed
  obtain ⟨hwaiting, hready⟩ := law.changes hsound hallowed.1.1
  obtain ⟨hwoken, hfound⟩ := law.changes hready hallowed.1.2
  have hcame := law.append [] (arrivals turn.woken) hwaiting
  simp only [List.nil_append] at hcame
  have hchanges := law.trans hwoken hcame
  by_cases hwake : turn.wake = .ready
  · rw [if_pos hwake] at hallowed
    obtain ⟨hread, hlast⟩ := law.readings hfound hallowed.2
    have hall := law.append [] (arrivals (RemoteFd.happens turn.between
      ((loop.remote.changes turn.waiting).changes turn.woken))) hchanges
    simp only [Loop.turn, hwake, if_true, Turn.happened, arrivals_append]
    refine ⟨law.trans hread ?_, hlast⟩
    simpa using hall
  · simp only [Loop.turn, hwake, if_false, Turn.happened, arrivals_append]
    refine ⟨?_, hfound⟩
    simpa [eventsOf, arrivals] using hchanges

/-- So do any number of turns. -/
theorem turns {remoteFd : ℤ} {chosen : List Turn} {loop : Loop}
    (hsound : law.sound loop.remote.gone)
    (hallowed : ∀ change ∈ turnsHappened remoteFd chosen loop, law.allowed change) :
    law.rel ((turns remoteFd chosen loop).1.flatMap Iteration.consumed ++
          (turns remoteFd chosen loop).2.remote.pending)
        (loop.remote.pending ++ arrivals (turnsHappened remoteFd chosen loop)) ∧
      law.sound (turns remoteFd chosen loop).2.remote.gone := by
  induction chosen generalizing loop with
  | nil => exact ⟨by simpa [InputMapper.turns, turnsHappened, arrivals] using law.refl _, hsound⟩
  | cons turn rest ih =>
      rw [turnsHappened, List.forall_mem_append] at hallowed
      obtain ⟨hfirst, hnext⟩ := law.turn hsound hallowed.1
      obtain ⟨hlater, hlast⟩ := ih hnext hallowed.2
      refine ⟨?_, hlast⟩
      have hread := law.append (loop.turn remoteFd turn).1.consumed [] hlater
      have hcame := law.append [] (arrivals (turnsHappened remoteFd rest
        (loop.turn remoteFd turn).2)) hfirst
      simp only [List.append_nil, List.nil_append, List.append_assoc] at hread hcame
      simpa [InputMapper.turns, turnsHappened, arrivals_append] using law.trans hread hcame

end DeliveryLaw

/-! ## The two laws -/

/-- The kernel's mark for events that were dropped. -/
def marker : InputEvent := ⟨evSyn, synDropped, 0⟩

/-- The events without the marks. -/
def unmarked (events : List InputEvent) : List InputEvent := events.filter (· ≠ marker)

/-- In order, and nothing twice. -/
def orderedLaw : DeliveryLaw where
  rel delivered came := (unmarked delivered).Sublist (unmarked came)
  refl events := List.Sublist.refl _
  trans hfirst hsecond := hfirst.trans hsecond
  append front back hrel := by
    simp only [unmarked, List.filter_append]
    exact ((List.Sublist.refl _).append hrel).append (List.Sublist.refl _)
  sound _ := True
  allowed _ := True
  change := by
    intro remote change _ _
    refine ⟨?_, trivial⟩
    obtain ⟨pending, gone⟩ := remote
    cases gone with
    | true => simp [RemoteFd.change, unmarked]
    | false =>
        cases change with
        | arrives record => exact List.Sublist.refl _
        | overflows record =>
            simp only [RemoteFd.change, Bool.false_eq_true, if_false, unmarked, arrivals,
              List.filterMap_cons, List.filterMap_nil, List.filter_append]
            have hmarked : List.filter (· ≠ marker) [marker, record] =
                List.filter (· ≠ marker) [record] := by simp
            rw [show InputEvent.mk evSyn synDropped 0 = marker from rfl, hmarked]
            exact List.sublist_append_right _ _
        | removed => exact List.nil_sublist _

/-- Everything, in order. -/
def completeLaw : DeliveryLaw where
  rel delivered came := delivered = came
  refl _ := rfl
  trans hfirst hsecond := hfirst.trans hsecond
  append front back hrel := by rw [hrel]
  sound gone := gone = false
  allowed change := ∃ record, change = .arrives record
  change := by
    rintro remote _ hgone ⟨record, rfl⟩
    have hthere : remote.gone = false := hgone
    simp [RemoteFd.change, hthere, arrivals]

section Turns

variable {remoteFd : ℤ} {chosen : List Turn} {loop : Loop}

theorem turns_sublist :
    (unmarked ((turns remoteFd chosen loop).1.flatMap Iteration.consumed ++
        (turns remoteFd chosen loop).2.remote.pending)).Sublist
      (unmarked (loop.remote.pending ++ arrivals (turnsHappened remoteFd chosen loop))) :=
  (orderedLaw.turns trivial fun _ _ => trivial).1

theorem turns_complete (hgone : loop.remote.gone = false)
    (harrive : ∀ change ∈ turnsHappened remoteFd chosen loop, ∃ record, change = .arrives record) :
    (turns remoteFd chosen loop).1.flatMap Iteration.consumed ++
        (turns remoteFd chosen loop).2.remote.pending =
      loop.remote.pending ++ arrivals (turnsHappened remoteFd chosen loop) :=
  (completeLaw.turns hgone harrive).1

theorem flatMap_passOn (readings : List Reading) :
    readings.flatMap passOn =
      (eventsOf readings).flatMap fun record => passOn (.event record) := by
  induction readings with
  | nil => rfl
  | cons reading rest ih =>
      cases reading with
      | short => simpa [eventsOf, passOn] using ih
      | event record => simpa [eventsOf] using ih

/-- What a turn writes is what it passes on of what it has read. -/
theorem turn_written (remoteFd : ℤ) (turn : Turn) (loop : Loop) :
    (loop.turn remoteFd turn).1.written =
      (loop.turn remoteFd turn).1.consumed.flatMap fun record => passOn (.event record) := by
  by_cases hwake : turn.wake = .ready
  · simp only [Loop.turn, hwake, if_true]
    have hdrained := drain_readings ((loop.remote.changes turn.waiting).changes turn.woken)
      turn.between
    obtain ⟨consumed, hreadings, hwritten⟩ := handleReady_consumes remoteFd [remoteFd]
      (((loop.remote.changes turn.waiting).changes turn.woken).readings turn.between).1
    have hleft : (handleReady remoteFd [remoteFd]
        (((loop.remote.changes turn.waiting).changes turn.woken).readings turn.between).1).2 =
          [] := by
      simpa [handleReady] using hdrained
    rw [hleft, List.append_nil] at hreadings
    rw [hwritten, ← hreadings]
    exact flatMap_passOn _
  · simp [Loop.turn, hwake, handleReady, eventsOf]

theorem turns_written (remoteFd : ℤ) (chosen : List Turn) (loop : Loop) :
    (turns remoteFd chosen loop).1.flatMap Iteration.written =
      ((turns remoteFd chosen loop).1.flatMap Iteration.consumed).flatMap
        fun record => passOn (.event record) := by
  induction chosen generalizing loop with
  | nil => rfl
  | cons turn rest ih =>
      have hfirst := turn_written remoteFd turn loop
      simp only [turns, List.flatMap_cons, List.flatMap_append, hfirst, ih]

end Turns

end TizenRoblox.InputMapper
