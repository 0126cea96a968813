/-
# Reading the remote

The main loop of the mapper waits until a descriptor is ready and then reads the
remote until a read is short. It passes on the key events it has read and nothing
else, whatever the wake-ups were (`eventLoop_consumes`).

What it reads need not be all that happened. Where the reader is too slow the kernel
drops events and says so with an event of its own, and when the remote goes away what
is still to come is lost. The loop neither asks the remote for its keys after a drop nor
releases anything when the remote is gone: an output is neutral exactly when the last
event that was delivered of its keys is a release, or there was none, and so it may stay
pressed for good (`drained_neutral`).
-/

import TizenRoblox.InputMapper.Remote

namespace TizenRoblox.InputMapper

open TizenRoblox.Foundation

/-! ## The loop -/

/-- What `read` of the remote's descriptor gives: a whole event, or less than that
because there is nothing to read or the device is gone. -/
inductive Reading
  | event (record : InputEvent)
  | short
  deriving DecidableEq

/-- What is written for an event that was read. -/
def passOn : Reading → List InputEvent
  | .event record => if record.type = evKey then handleRemoteKey record.code record.value else []
  | .short => []

/-- Reads until a read is short. -/
def drain : List Reading → List InputEvent × List Reading
  | [] => ([], [])
  | .short :: rest => ([], rest)
  | .event record :: rest =>
    let (written, left) := drain rest
    (passOn (.event record) ++ written, left)

/-- The descriptors that one `epoll_wait` has reported. -/
def handleReady (remoteFd : ℤ) : List ℤ → List Reading → List InputEvent × List Reading
  | [], readings => ([], readings)
  | fd :: rest, readings =>
    if fd = remoteFd then
      let (written, left) := drain readings
      let (later, last) := handleReady remoteFd rest left
      (written ++ later, last)
    else handleReady remoteFd rest readings

/-- The main loop over what the calls of `epoll_wait` report, one list for each turn; a
call that times out or is interrupted reports nothing. The rescan for gamepads, which
neither reads the remote nor writes an event, is left out. -/
def eventLoop (remoteFd : ℤ) : List (List ℤ) → List Reading → List InputEvent × List Reading
  | [], readings => ([], readings)
  | ready :: rest, readings =>
    let (written, left) := handleReady remoteFd ready readings
    let (later, last) := eventLoop remoteFd rest left
    (written ++ later, last)

/-- The outcome of a part of the loop is what it has read, passed on, and the rest. -/
def Consumes (readings : List Reading) (outcome : List InputEvent × List Reading) : Prop :=
  ∃ consumed, readings = consumed ++ outcome.2 ∧ outcome.1 = consumed.flatMap passOn

theorem Consumes.trans {readings left : List Reading} {written : List InputEvent}
    {outcome : List InputEvent × List Reading} (hfirst : Consumes readings (written, left))
    (hsecond : Consumes left outcome) :
    Consumes readings (written ++ outcome.1, outcome.2) := by
  obtain ⟨front, rfl, rfl⟩ := hfirst
  obtain ⟨back, hback, hwritten⟩ := hsecond
  refine ⟨front ++ back, ?_, ?_⟩
  · rw [List.append_assoc, ← hback]
  · rw [List.flatMap_append, hwritten]

theorem drain_consumes (readings : List Reading) : Consumes readings (drain readings) := by
  induction readings with
  | nil => exact ⟨[], rfl, rfl⟩
  | cons reading rest ih =>
      cases reading with
      | short => exact ⟨[.short], rfl, rfl⟩
      | event record =>
          have hhead : Consumes (.event record :: rest) (passOn (.event record), rest) :=
            ⟨[.event record], rfl, by simp⟩
          exact hhead.trans ih

theorem handleReady_consumes (remoteFd : ℤ) (ready : List ℤ) (readings : List Reading) :
    Consumes readings (handleReady remoteFd ready readings) := by
  induction ready generalizing readings with
  | nil => exact ⟨[], rfl, rfl⟩
  | cons fd rest ih =>
      rw [handleReady]
      split
      · exact (drain_consumes readings).trans (ih (drain readings).2)
      · exact ih readings

/-- However it is woken up, the loop passes on what it reads, in order. -/
theorem eventLoop_consumes (remoteFd : ℤ) (turns : List (List ℤ)) (readings : List Reading) :
    Consumes readings (eventLoop remoteFd turns readings) := by
  induction turns generalizing readings with
  | nil => exact ⟨[], rfl, rfl⟩
  | cons ready rest ih =>
      exact (handleReady_consumes remoteFd ready readings).trans (ih _)

/-- A loop that has read everything has passed on everything. -/
theorem eventLoop_of_drained {remoteFd : ℤ} {turns : List (List ℤ)} {readings : List Reading}
    (hdrained : (eventLoop remoteFd turns readings).2 = []) :
    (eventLoop remoteFd turns readings).1 = readings.flatMap passOn := by
  obtain ⟨consumed, hreadings, hwritten⟩ := eventLoop_consumes remoteFd turns readings
  rw [hdrained, List.append_nil] at hreadings
  rw [hwritten, ← hreadings]

/-! ## What the kernel delivers -/

def synDropped : ℤ := 3

/-- What happens to the remote, as far as the reader can be concerned. -/
inductive Incident
  /-- A key event is delivered. -/
  | delivered (event : KeyEvent)
  /-- An event of another type is delivered. -/
  | other (record : InputEvent)
  /-- There is nothing to read. -/
  | pause
  /-- Key events are dropped, and the reader is told so. -/
  | dropped (lost : List KeyEvent)
  /-- The remote goes away, after key events that are lost. -/
  | removed (lost : List KeyEvent)
  /-- The remote that has gone is read. -/
  | refused

/-- What the reader reads. -/
def Incident.reading : Incident → Reading
  | .delivered event => .event ⟨evKey, event.code, event.stroke.value⟩
  | .other record => .event record
  | .dropped _ => .event ⟨evSyn, synDropped, 0⟩
  | .pause | .removed _ | .refused => .short

/-- What happens to the keys. -/
def Incident.physical : Incident → List KeyEvent
  | .delivered event => [event]
  | .dropped lost | .removed lost => lost
  | .other _ | .pause | .refused => []

/-- What the reader learns of it. -/
def Incident.told : Incident → List KeyEvent
  | .delivered event => [event]
  | _ => []

/-- The keys that are held, and whether the remote has gone. -/
structure Remote where
  held : Held
  gone : Bool

/-- What may happen: as long as the remote is there, its keys do what keys do. -/
inductive IncidentStep : Remote → Incident → Remote → Prop
  | delivered {held later : Held} {event : KeyEvent} (hstep : RemoteStep held event later) :
      IncidentStep ⟨held, false⟩ (.delivered event) ⟨later, false⟩
  | other {held : Held} {record : InputEvent} (htype : record.type ≠ evKey) :
      IncidentStep ⟨held, false⟩ (.other record) ⟨held, false⟩
  | pause {held : Held} : IncidentStep ⟨held, false⟩ .pause ⟨held, false⟩
  | dropped {held later : Held} {lost : List KeyEvent} (hrun : Run RemoteStep held lost later) :
      IncidentStep ⟨held, false⟩ (.dropped lost) ⟨later, false⟩
  | removed {held later : Held} {lost : List KeyEvent} (hrun : Run RemoteStep held lost later) :
      IncidentStep ⟨held, false⟩ (.removed lost) ⟨later, true⟩
  | refused {held : Held} : IncidentStep ⟨held, true⟩ .refused ⟨held, true⟩

/-- A remote that is there and has no key held. -/
def fresh : Remote := ⟨noneHeld, false⟩

theorem IncidentStep.physical_run {source target : Remote} {incident : Incident}
    (hstep : IncidentStep source incident target) :
    Run RemoteStep source.held incident.physical target.held := by
  cases hstep with
  | delivered hkey => exact .extend (.start _) hkey
  | other => exact .start _
  | pause => exact .start _
  | dropped hlost => exact hlost
  | removed hlost => exact hlost
  | refused => exact .start _

/-- All that happens to the keys is a run of the remote, delivered or not. -/
theorem physical_run {source target : Remote} {incidents : List Incident}
    (hrun : Run IncidentStep source incidents target) :
    Run RemoteStep source.held (incidents.flatMap Incident.physical) target.held := by
  induction hrun with
  | start => exact .start _
  | extend _ hlast ih =>
      rw [List.flatMap_append, List.flatMap_singleton]
      exact ih.append hlast.physical_run

theorem IncidentStep.passOn_reading {source target : Remote} {incident : Incident}
    (hstep : IncidentStep source incident target) :
    passOn incident.reading = handleAll incident.told := by
  cases hstep with
  | @delivered held later event hkey =>
      simp only [passOn, Incident.reading, Incident.told, handleAll_singleton, if_true]
  | other htype => exact if_neg htype
  | pause => rfl
  | dropped => rfl
  | removed => rfl
  | refused => rfl

/-- What is passed on of what is read is what is written for the events delivered. -/
theorem passOn_readings {source target : Remote} {incidents : List Incident}
    (hrun : Run IncidentStep source incidents target) :
    (incidents.map Incident.reading).flatMap passOn =
      handleAll (incidents.flatMap Incident.told) := by
  induction hrun with
  | start => rfl
  | extend _ hlast ih =>
      simp only [List.map_append, List.flatMap_append, List.map_singleton,
        List.flatMap_singleton, handleAll_append, ih, hlast.passOn_reading]

/-! ## What stays pressed -/

theorem pressedValue_ne_zero : ∀ entry ∈ keyMapping, entry.pressedValue ≠ 0 := by decide

theorem drives_of_lastEvent {output : Output} {events : List KeyEvent} {last : KeyEvent}
    (hlast : lastEvent output events = some last) : Drives last.code output :=
  of_decide_eq_true (List.mem_filter.mp (List.mem_of_getLast? hlast)).2

/-- An output is neutral exactly when the last event of its keys that was passed on is a
release, or there was none. -/
theorem neutral_handleAll_iff (output : Output) (events : List KeyEvent) :
    Neutral output (handleAll events) ↔
      ∀ last ∈ lastEvent output events, last.stroke = .release := by
  by_cases houtput : evSyn = output.type
  · refine ⟨fun _ last hlast => ?_, fun _ => neutral_of_sync houtput events⟩
    obtain ⟨entry, hentry, _, rfl⟩ := drives_of_lastEvent hlast
    exact absurd houtput (output_type_ne hentry)
  · unfold Neutral
    rw [lastValue_handleAll houtput]
    cases hlast : lastEvent output events with
    | none => simp
    | some last =>
        obtain ⟨entry, hentry, hkey, rfl⟩ := drives_of_lastEvent hlast
        rw [Option.bind_some, ← hkey, lastValue_handleRemoteKey hentry]
        have hpressed := pressedValue_ne_zero entry hentry
        cases hstroke : last.stroke <;> simp [Stroke.value, hstroke, hpressed]

section Drained

variable {remoteFd : ℤ} {turns : List (List ℤ)} {incidents : List Incident}
  {start remote : Remote}

/-- Once all that was delivered has been read, an output is neutral exactly when the last
event delivered of its keys is a release, or there was none. So it is neutral where none
of its keys is held and the last event of them was not among those that were lost. That is
so whatever keys were held when the mapper began to read. -/
theorem drained_neutral (hrun : Run IncidentStep start incidents remote)
    (hdrained : (eventLoop remoteFd turns (incidents.map Incident.reading)).2 = []) :
    (∀ output, Neutral output (eventLoop remoteFd turns (incidents.map Incident.reading)).1 ↔
      ∀ last ∈ lastEvent output (incidents.flatMap Incident.told), last.stroke = .release) ∧
    ∀ output, (∀ code, Drives code output → remote.held code = false) →
      lastEvent output (incidents.flatMap Incident.told) =
        lastEvent output (incidents.flatMap Incident.physical) →
      Neutral output (eventLoop remoteFd turns (incidents.map Incident.reading)).1 := by
  have hwritten : (eventLoop remoteFd turns (incidents.map Incident.reading)).1 =
      handleAll (incidents.flatMap Incident.told) :=
    (eventLoop_of_drained hdrained).trans (passOn_readings hrun)
  rw [hwritten]
  refine ⟨fun output => neutral_handleAll_iff output _, fun output hfree htold => ?_⟩
  rw [neutral_handleAll_iff, htold]
  intro last hlast
  have htells := lastEventTells_of_run (physical_run hrun) output
  rw [LastEventTells, Option.mem_def.mp hlast] at htells
  have hheld := hfree last.code htells.1
  rw [htells.2] at hheld
  simpa using hheld

end Drained

/-- Okay is pressed, its release is dropped, and it is pressed and released again. -/
def droppedOnce : List Incident := [
  .delivered ⟨samsungKeyOk, .press⟩, .pause,
  .dropped [⟨samsungKeyOk, .release⟩],
  .delivered ⟨samsungKeyOk, .press⟩, .delivered ⟨samsungKeyOk, .release⟩]

/-- Okay after a press and a release. -/
def okayUp : Held :=
  Function.update (Function.update noneHeld samsungKeyOk true) samsungKeyOk false

theorem run_droppedOnce :
    Run IncidentStep fresh droppedOnce
      ⟨Function.update (Function.update okayUp samsungKeyOk true) samsungKeyOk false, false⟩ :=
  .extend (.extend (.extend (.extend (.extend (.start fresh) (.delivered (.press rfl))) .pause)
    (.dropped (.extend (.start _) (.release rfl)))) (.delivered (.press rfl)))
    (.delivered (.release rfl))

/-- In the end its button is neutral. -/
theorem drained_neutral_droppedOnce :
    Neutral ⟨evKey, btnSouth⟩
      (eventLoop 5 [[5], [], [5]] (droppedOnce.map Incident.reading)).1 :=
  ((drained_neutral run_droppedOnce (by decide)).1 ⟨evKey, btnSouth⟩).mpr (by decide)

/-- Okay is pressed and its release is dropped. -/
def releaseDropped : List Incident :=
  [.delivered ⟨samsungKeyOk, .press⟩, .pause, .dropped [⟨samsungKeyOk, .release⟩]]

/-- Okay is pressed, and the remote goes away. -/
def removedPressed : List Incident :=
  [.delivered ⟨samsungKeyOk, .press⟩, .removed []]

/-- With no key held, or the remote gone, the button stays pressed. -/
theorem south_stays_pressed :
    (Run IncidentStep fresh releaseDropped ⟨okayUp, false⟩ ∧
      (eventLoop 5 [[5], [5]] (releaseDropped.map Incident.reading)).2 = [] ∧
      (∀ code, okayUp code = false) ∧
      ¬ Neutral ⟨evKey, btnSouth⟩
        (eventLoop 5 [[5], [5]] (releaseDropped.map Incident.reading)).1) ∧
    Run IncidentStep fresh removedPressed ⟨Function.update noneHeld samsungKeyOk true, true⟩ ∧
      (eventLoop 5 [[5]] (removedPressed.map Incident.reading)).2 = [] ∧
      ¬ Neutral ⟨evKey, btnSouth⟩
        (eventLoop 5 [[5]] (removedPressed.map Incident.reading)).1 := by
  refine ⟨⟨?_, by decide, ?_, ?_⟩, ?_, by decide, ?_⟩
  · exact .extend (.extend (.extend (.start fresh) (.delivered (.press rfl))) .pause)
      (.dropped (.extend (.start _) (.release rfl)))
  · intro code
    by_cases hcode : code = samsungKeyOk <;> simp [okayUp, noneHeld, hcode]
  · intro hneutral
    exact absurd (hneutral 1 (by decide)) (by decide)
  · exact .extend (.extend (.start fresh) (.delivered (.press rfl))) (.removed (.start _))
  · intro hneutral
    exact absurd (hneutral 1 (by decide)) (by decide)

end TizenRoblox.InputMapper
