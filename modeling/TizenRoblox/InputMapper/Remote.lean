/-
# Keys held on the remote

A remote reports presses, releases and repeats; which keys are held is the state
of the remote, and a sequence of reports is a run of it. The mapper keeps no such
state: each report overwrites the output of its key. So what an output shows is
the last report of any of its keys (`lastValue_handleAll`), and where a single
key of an output is held, the output shows it exactly when that last report is
the key's own (`lastValue_of_only_held`). What an output shows is in any case a key
that is held, or nothing (`neutral_unless_held`).
-/

import Mathlib.Data.List.Induction
import Mathlib.Logic.Function.Basic
import TizenRoblox.Foundation.Runs
import TizenRoblox.InputMapper.KeyMap

namespace TizenRoblox.InputMapper

open TizenRoblox.Foundation

/-- What a key event reports. -/
inductive Stroke
  | release
  | press
  | repeat
  deriving DecidableEq

/-- The value of the event: 0, 1 or 2. -/
def Stroke.value : Stroke → ℤ
  | .release => 0
  | .press => 1
  | .repeat => 2

theorem Stroke.value_pos_iff (stroke : Stroke) : stroke.value > 0 ↔ stroke ≠ .release := by
  cases stroke <;> decide

/-- A key event of the remote. -/
structure KeyEvent where
  code : ℤ
  stroke : Stroke
  deriving DecidableEq

/-- Which keys are held. -/
abbrev Held := ℤ → Bool

/-- What the remote may report in a state, and the state it is in then. -/
inductive RemoteStep : Held → KeyEvent → Held → Prop
  | press {held : Held} {code : ℤ} (hfree : held code = false) :
      RemoteStep held ⟨code, .press⟩ (Function.update held code true)
  | release {held : Held} {code : ℤ} (hheld : held code = true) :
      RemoteStep held ⟨code, .release⟩ (Function.update held code false)
  | repeat {held : Held} {code : ℤ} (hheld : held code = true) :
      RemoteStep held ⟨code, .repeat⟩ held

/-- No key is held. -/
def noneHeld : Held := fun _ => false

/-- What the mapper writes for the events of the remote, in order. -/
def handleAll (events : List KeyEvent) : List InputEvent :=
  events.flatMap fun event => handleRemoteKey event.code event.stroke.value

/-- The last value written for an output. -/
def lastValue (output : Output) (written : List InputEvent) : Option ℤ :=
  ((written.filter fun event => event.type = output.type ∧ event.code = output.code).getLast?).map
    InputEvent.value

/-- The key has an entry for the output. -/
def Drives (code : ℤ) (output : Output) : Prop :=
  ∃ entry ∈ keyMapping, entry.srcKey = code ∧ entry.output = output

instance (code : ℤ) (output : Output) : Decidable (Drives code output) :=
  inferInstanceAs (Decidable (∃ entry ∈ keyMapping, _))

/-- The last event of a key that drives the output. -/
def lastEvent (output : Output) (events : List KeyEvent) : Option KeyEvent :=
  (events.filter fun event => Drives event.code output).getLast?

/-! ## What an output shows -/

theorem lastValue_append (output : Output) (front back : List InputEvent) :
    lastValue output (front ++ back) = (lastValue output back).or (lastValue output front) := by
  simp only [lastValue, List.filter_append, List.getLast?_append]
  cases (back.filter fun event =>
    decide (event.type = output.type ∧ event.code = output.code)).getLast? <;> rfl

theorem handleAll_append (front back : List KeyEvent) :
    handleAll (front ++ back) = handleAll front ++ handleAll back :=
  List.flatMap_append

theorem handleAll_singleton (event : KeyEvent) :
    handleAll [event] = handleRemoteKey event.code event.stroke.value := by
  simp [handleAll]

/-- A key event sets the output of its key. -/
theorem lastValue_handleRemoteKey {entry : KeyMap} (hentry : entry ∈ keyMapping)
    (keyValue : ℤ) :
    lastValue entry.output (handleRemoteKey entry.srcKey keyValue) =
      some (if keyValue > 0 then entry.pressedValue else 0) := by
  have hsync : evSyn ≠ entry.dstType := output_type_ne hentry
  simp [handleRemoteKey_of_mem hentry, lastValue, KeyMap.output, syncEvent, hsync]

/-- And no other output. -/
theorem lastValue_of_not_drives {code : ℤ} {output : Output} (keyValue : ℤ)
    (houtput : evSyn ≠ output.type) (hdrives : ¬ Drives code output) :
    lastValue output (handleRemoteKey code keyValue) = none := by
  by_cases hmapped : ∃ entry ∈ keyMapping, entry.srcKey = code
  · obtain ⟨entry, hentry, rfl⟩ := hmapped
    have hother : entry.dstType = output.type → entry.dstCode ≠ output.code := by
      intro htype hcode
      exact hdrives ⟨entry, hentry, rfl, congrArg₂ Output.mk htype hcode⟩
    simpa [handleRemoteKey_of_mem hentry, lastValue, syncEvent, houtput] using hother
  · rw [handleRemoteKey_of_unmapped keyValue fun entry hentry hkey =>
      hmapped ⟨entry, hentry, hkey⟩]
    rfl

theorem lastEvent_append_singleton (output : Output) (events : List KeyEvent)
    (event : KeyEvent) :
    lastEvent output (events ++ [event]) =
      if Drives event.code output then some event else lastEvent output events := by
  by_cases hdrives : Drives event.code output
  · simp [lastEvent, hdrives]
  · simp [lastEvent, hdrives]

/-- An output shows what the last event of its keys has set. -/
theorem lastValue_handleAll {output : Output} (houtput : evSyn ≠ output.type)
    (events : List KeyEvent) :
    lastValue output (handleAll events) =
      (lastEvent output events).bind fun event =>
        lastValue output (handleRemoteKey event.code event.stroke.value) := by
  induction events using List.reverseRecOn with
  | nil => rfl
  | append_singleton events event ih =>
      rw [handleAll_append, handleAll_singleton, lastValue_append, lastEvent_append_singleton]
      by_cases hdrives : Drives event.code output
      · obtain ⟨entry, hentry, hkey, rfl⟩ := hdrives
        rw [if_pos ⟨entry, hentry, hkey, rfl⟩, ← hkey, lastValue_handleRemoteKey hentry]
        simp [← hkey, lastValue_handleRemoteKey hentry]
      · rw [lastValue_of_not_drives _ houtput hdrives, if_neg hdrives, ih]
        rfl

/-! ## What the last event says about the keys -/

/-- The last event of an output's keys is a press or repeat of a held key, or the
release of one that is not; without an event the keys are as they were. -/
def LastEventTells (start : Held) (output : Output) (events : List KeyEvent) (held : Held) :
    Prop :=
  match lastEvent output events with
  | none => ∀ code, Drives code output → held code = start code
  | some event => Drives event.code output ∧ held event.code = decide (event.stroke ≠ .release)

theorem RemoteStep.held_self {source target : Held} {event : KeyEvent}
    (hstep : RemoteStep source event target) :
    target event.code = decide (event.stroke ≠ .release) := by
  cases hstep with
  | press hfree => simp
  | release hheld => simp
  | «repeat» hheld => simpa using hheld

theorem RemoteStep.held_of_ne {source target : Held} {event : KeyEvent}
    (hstep : RemoteStep source event target) {code : ℤ} (hcode : code ≠ event.code) :
    target code = source code := by
  cases hstep with
  | press hfree => exact Function.update_of_ne hcode _ _
  | release hheld => exact Function.update_of_ne hcode _ _
  | «repeat» hheld => rfl

theorem lastEventTells_of_run {events : List KeyEvent} {start held : Held}
    (hrun : Run RemoteStep start events held) (output : Output) :
    LastEventTells start output events held := by
  induction hrun with
  | start => exact fun _ _ => rfl
  | @extend middle target events event hfirst hlast hbefore =>
      unfold LastEventTells at hbefore ⊢
      rw [lastEvent_append_singleton]
      by_cases hdrives : Drives event.code output
      · rw [if_pos hdrives]
        exact ⟨hdrives, hlast.held_self⟩
      · rw [if_neg hdrives]
        have hne : ∀ code, Drives code output → code ≠ event.code :=
          fun code hcode heq => hdrives (heq ▸ hcode)
        cases hevent : lastEvent output events with
        | none =>
            rw [hevent] at hbefore
            intro code hcode
            rw [hlast.held_of_ne (hne code hcode)]
            exact hbefore code hcode
        | some last =>
            rw [hevent] at hbefore
            refine ⟨hbefore.1, ?_⟩
            rw [hlast.held_of_ne (hne last.code hbefore.1)]
            exact hbefore.2

/-- The output shows nothing: it was set to 0 last, or never set. -/
def Neutral (output : Output) (written : List InputEvent) : Prop :=
  ∀ value ∈ lastValue output written, value = 0

/-- Of the synchronisation events only the empty report is written. -/
private theorem value_of_sync {keyCode keyValue : ℤ} {event : InputEvent}
    (hevent : event ∈ handleRemoteKey keyCode keyValue) (htype : event.type = evSyn) :
    event.value = 0 := by
  by_cases hmapped : ∃ entry ∈ keyMapping, entry.srcKey = keyCode
  · obtain ⟨entry, hentry, rfl⟩ := hmapped
    rw [handleRemoteKey_of_mem hentry] at hevent
    rcases List.mem_pair.mp hevent with rfl | rfl
    · exact absurd htype.symm (output_type_ne hentry)
    · rfl
  · rw [handleRemoteKey_of_unmapped keyValue fun entry hentry hkey =>
      hmapped ⟨entry, hentry, hkey⟩] at hevent
    cases hevent

/-- Nothing is held by an output of synchronisation events. -/
theorem neutral_of_sync {output : Output} (houtput : evSyn = output.type)
    (events : List KeyEvent) : Neutral output (handleAll events) := by
  intro value hvalue
  obtain ⟨written, hlast, rfl⟩ := Option.map_eq_some_iff.mp hvalue
  obtain ⟨hmem, hsame⟩ := List.mem_filter.mp (List.mem_of_getLast? hlast)
  obtain ⟨event, _, hwritten⟩ := List.mem_flatMap.mp hmem
  have htype : written.type = output.type := (of_decide_eq_true hsame).1
  exact value_of_sync hwritten (htype.trans houtput.symm)

/-- Without a source key of its own held, an output is neutral; it shows the value of
a key that is held otherwise. -/
theorem neutral_or_held {events : List KeyEvent} {held : Held}
    (hrun : Run RemoteStep noneHeld events held) (output : Output) :
    Neutral output (handleAll events) ∨
      ∃ entry ∈ keyMapping, entry.output = output ∧ held entry.srcKey = true ∧
        lastValue output (handleAll events) = some entry.pressedValue := by
  by_cases houtput : evSyn = output.type
  · exact Or.inl (neutral_of_sync houtput events)
  have htells := lastEventTells_of_run hrun output
  unfold LastEventTells at htells
  have hvalue := lastValue_handleAll houtput events
  cases hlast : lastEvent output events with
  | none =>
      refine Or.inl fun value hshown => ?_
      simp [hvalue, hlast] at hshown
  | some last =>
      rw [hlast] at htells hvalue
      obtain ⟨⟨entry, hentry, hkey, rfl⟩, hstroke⟩ := htells
      rw [Option.bind_some, ← hkey, lastValue_handleRemoteKey hentry] at hvalue
      by_cases hreleased : last.stroke = .release
      · refine Or.inl fun value hshown => ?_
        simpa [hvalue, hreleased, Stroke.value, eq_comm] using hshown
      · rw [if_pos ((Stroke.value_pos_iff last.stroke).mpr hreleased)] at hvalue
        refine Or.inr ⟨entry, hentry, rfl, ?_, hvalue⟩
        rw [hkey, hstroke]
        exact decide_eq_true hreleased

/-- Every output is neutral or shows the value of one of its keys that is held; where
no key of the table is held, every output is neutral. -/
theorem neutral_unless_held {events : List KeyEvent} {held : Held}
    (hrun : Run RemoteStep noneHeld events held) :
    (∀ output, Neutral output (handleAll events) ∨
      ∃ entry ∈ keyMapping, entry.output = output ∧ held entry.srcKey = true ∧
        lastValue output (handleAll events) = some entry.pressedValue) ∧
    ((∀ entry ∈ keyMapping, held entry.srcKey = false) →
      ∀ output, Neutral output (handleAll events)) := by
  refine ⟨neutral_or_held hrun, fun hfree output => ?_⟩
  rcases neutral_or_held hrun output with hneutral | ⟨entry, hentry, _, hheld, _⟩
  · exact hneutral
  · rw [hfree entry hentry] at hheld
    cases hheld

/-- Where exactly one of the keys of an output is held, the output shows the value
of that key if the last event of its keys was the key's own, and is neutral if it
was the release of another one. -/
theorem lastValue_of_only_held {events : List KeyEvent} {held : Held} {entry : KeyMap}
    (hrun : Run RemoteStep noneHeld events held) (hentry : entry ∈ keyMapping)
    (hheld : held entry.srcKey = true)
    (honly : ∀ code, Drives code entry.output → held code = true → code = entry.srcKey) :
    ∃ last, lastEvent entry.output events = some last ∧
      (last.code = entry.srcKey →
        lastValue entry.output (handleAll events) = some entry.pressedValue) ∧
      (last.code ≠ entry.srcKey → last.stroke = .release ∧
        lastValue entry.output (handleAll events) = some 0) := by
  have htells := lastEventTells_of_run hrun entry.output
  have hdrives : Drives entry.srcKey entry.output := ⟨entry, hentry, rfl, rfl⟩
  rw [lastValue_handleAll (output_type_ne hentry)]
  unfold LastEventTells at htells
  cases hlast : lastEvent entry.output events with
  | none =>
      rw [hlast] at htells
      simp [htells entry.srcKey hdrives, noneHeld] at hheld
  | some last =>
      rw [hlast] at htells
      obtain ⟨⟨other, hother, hkey, houtput⟩, hstroke⟩ := htells
      have hvalue := lastValue_handleRemoteKey hother last.stroke.value
      simp only [hkey, houtput, Stroke.value_pos_iff] at hvalue
      refine ⟨last, rfl, fun hsame => ?_, fun hdiffer => ?_⟩
      · obtain rfl := keyMapping_injective other hother entry hentry (hkey.trans hsame)
        have hpressed : last.stroke ≠ .release := by simpa [hsame, hheld] using hstroke
        rw [Option.bind_some, hvalue, if_pos hpressed]
      · have hreleased : last.stroke = .release := by
          by_contra hpressed
          exact hdiffer
            (honly last.code ⟨other, hother, hkey, houtput⟩ (by simp [hstroke, hpressed]))
        exact ⟨hreleased, by rw [Option.bind_some, hvalue, if_neg (not_not.mpr hreleased)]⟩

/-- Left and right are pressed, then left is released. -/
def overlap : List KeyEvent :=
  [⟨samsungKeyLeft, .press⟩, ⟨samsungKeyRight, .press⟩, ⟨samsungKeyLeft, .release⟩]

/-- The keys held after that: right only. -/
def rightHeld : Held :=
  Function.update (Function.update (Function.update noneHeld samsungKeyLeft true)
    samsungKeyRight true) samsungKeyLeft false

private theorem run_overlap : Run RemoteStep noneHeld overlap rightHeld :=
  .extend (.extend (.extend (.start noneHeld) (.press rfl)) (.press rfl)) (.release rfl)

private theorem only_right (code : ℤ) (hdrives : Drives code ⟨evAbs, absHat0X⟩)
    (hheld : rightHeld code = true) : code = samsungKeyRight := by
  obtain ⟨entry, hentry, rfl, houtput⟩ := hdrives
  have hall : ∀ entry ∈ keyMapping, entry.output = ⟨evAbs, absHat0X⟩ →
      rightHeld entry.srcKey = true → entry.srcKey = samsungKeyRight := by decide
  exact hall entry hentry houtput hheld

/-- With right held after the overlap, every output is neutral or shows a held key. -/
theorem neutral_unless_held_overlap :
    (∀ output, Neutral output (handleAll overlap) ∨
      ∃ entry ∈ keyMapping, entry.output = output ∧ rightHeld entry.srcKey = true ∧
        lastValue output (handleAll overlap) = some entry.pressedValue) ∧
    ((∀ entry ∈ keyMapping, rightHeld entry.srcKey = false) →
      ∀ output, Neutral output (handleAll overlap)) :=
  neutral_unless_held run_overlap

/-- The release of left makes the axis neutral while right is held. -/
theorem neutral_while_right_held :
    Run RemoteStep noneHeld overlap rightHeld ∧ rightHeld samsungKeyRight = true ∧
      (∀ code, Drives code ⟨evAbs, absHat0X⟩ → rightHeld code = true →
        code = samsungKeyRight) ∧
      lastValue ⟨evAbs, absHat0X⟩ (handleAll overlap) = some 0 :=
  ⟨run_overlap, by decide, only_right, by decide⟩

/-- The next repeat of right turns the axis again. -/
theorem right_after_repeat :
    ∃ last, lastEvent ⟨evAbs, absHat0X⟩ (overlap ++ [⟨samsungKeyRight, .repeat⟩]) = some last ∧
      (last.code = samsungKeyRight →
        lastValue ⟨evAbs, absHat0X⟩ (handleAll (overlap ++ [⟨samsungKeyRight, .repeat⟩])) =
          some 32767) ∧
      (last.code ≠ samsungKeyRight → last.stroke = .release ∧
        lastValue ⟨evAbs, absHat0X⟩ (handleAll (overlap ++ [⟨samsungKeyRight, .repeat⟩])) =
          some 0) :=
  @lastValue_of_only_held _ _ ⟨samsungKeyRight, evAbs, absHat0X, 32767⟩
    (.extend run_overlap (.repeat rfl)) (by decide) (by decide) only_right

end TizenRoblox.InputMapper
