/-
# Scripts that copy

What a script of copies does to the files that it is about is a list of copies between
slots. Each takes what its source has at that time, and the first without a source ends the
script. So whatever happens, some first copies have been made, and a script that goes on has
made all of them (`Delivers`).
-/

import Mathlib.Logic.Function.Basic
import TizenRoblox.Shell.Logic

namespace TizenRoblox.Shell

universe u v w

/-- What is in each slot. -/
abbrev Store (Slot : Type v) (Value : Type w) := Slot → Option Value

structure Copy (Slot : Type v) (Value : Type w) where
  source : Store Slot Value → Option Value
  target : Slot

section Copies

variable {Slot : Type v} {Value : Type w} [DecidableEq Slot]

/-- The copies one after the other, up to the first that has no source, and whether all have
been made. -/
def copied : List (Copy Slot Value) → Store Slot Value → Store Slot Value × Bool
  | [], store => (store, true)
  | copy :: rest, store =>
    match copy.source store with
    | none => (store, false)
    | some value => copied rest (Function.update store copy.target (some value))

/-- A source whose value does not depend on the targets of some copies. -/
def Copy.Apart (copy : Copy Slot Value) (copies : List (Copy Slot Value)) : Prop :=
  ∀ store target value, target ∈ copies.map Copy.target →
    copy.source (Function.update store target value) = copy.source store

variable {copies more : List (Copy Slot Value)} {copy : Copy Slot Value}
  {store : Store Slot Value} {slot : Slot}

theorem copied_append :
    copied (copies ++ more) store =
      if (copied copies store).2 then copied more (copied copies store).1
      else copied copies store := by
  induction copies generalizing store with
  | nil => rfl
  | cons copy rest ih =>
      cases hsource : copy.source store with
      | none => simp [copied, hsource]
      | some value => simp only [List.cons_append, copied, hsource, ih]

/-- What is no target stays. -/
theorem copied_of_notMem (hslot : slot ∉ copies.map Copy.target) :
    (copied copies store).1 slot = store slot := by
  induction copies generalizing store with
  | nil => rfl
  | cons copy rest ih =>
      obtain ⟨hhere, hrest⟩ := not_or.mp (mt List.mem_cons.mpr hslot)
      cases hsource : copy.source store with
      | none => simp [copied, hsource]
      | some value =>
          simp only [copied, hsource]
          rw [ih hrest, Function.update_of_ne hhere]

/-- The first copy without a source is where it ends. -/
theorem copied_of_blocked (hnone : copy.source (copied copies store).1 = none) :
    copied (copies ++ copy :: more) store = ((copied copies store).1, false) := by
  rw [copied_append]
  split
  · simp [copied, hnone]
  · next hstopped => exact Prod.ext rfl (eq_false_of_ne_true hstopped)

/-- What the copies keep if each of them keeps it. -/
theorem copied_keeps {property : Slot → Value → Prop}
    (hcopies : ∀ copy ∈ copies, ∀ store : Store Slot Value,
      (∀ slot value, store slot = some value → property slot value) →
        ∀ value, copy.source store = some value → property copy.target value)
    (hstore : ∀ slot value, store slot = some value → property slot value) {value : Value}
    (hvalue : (copied copies store).1 slot = some value) : property slot value := by
  induction copies generalizing store with
  | nil => exact hstore slot value hvalue
  | cons copy rest ih =>
      cases hsource : copy.source store with
      | none =>
          simp only [copied, hsource] at hvalue
          exact hstore slot value hvalue
      | some found =>
          simp only [copied, hsource] at hvalue
          refine ih (fun later hlater => hcopies later (List.mem_cons_of_mem _ hlater)) ?_ hvalue
          intro target data hdata
          by_cases htarget : target = copy.target
          · subst htarget
            rw [Function.update_self] at hdata
            exact Option.some.inj hdata ▸ hcopies copy List.mem_cons_self store hstore found hsource
          · rw [Function.update_of_ne htarget] at hdata
            exact hstore target data hdata

/-- No slot is emptied. -/
theorem copied_isSome (hthere : (store slot).isSome) : ((copied copies store).1 slot).isSome := by
  induction copies generalizing store with
  | nil => exact hthere
  | cons copy rest ih =>
      cases hsource : copy.source store with
      | none => simpa only [copied, hsource] using hthere
      | some value =>
          simp only [copied, hsource]
          apply ih
          by_cases htarget : slot = copy.target
          · rw [htarget, Function.update_self]
            rfl
          · rwa [Function.update_of_ne htarget]

/-- When all copies have been made each target has what its source had at the start. -/
theorem copied_of_mem (hnodup : (copies.map Copy.target).Nodup)
    (haparts : ∀ copy ∈ copies, copy.Apart copies) (hall : (copied copies store).2 = true)
    (hcopy : copy ∈ copies) :
    (copy.source store).isSome ∧ (copied copies store).1 copy.target = copy.source store := by
  induction copies generalizing store with
  | nil => cases hcopy
  | cons first rest ih =>
      obtain ⟨hfirst, hnodup⟩ := List.nodup_cons.mp hnodup
      have hrest : ∀ copy ∈ rest, copy.Apart rest := fun copy hcopy store target value htarget =>
        haparts copy (List.mem_cons_of_mem _ hcopy) store target value
          (List.mem_cons_of_mem _ htarget)
      cases hsource : first.source store with
      | none => simp [copied, hsource] at hall
      | some value =>
          simp only [copied, hsource] at hall ⊢
          rcases List.mem_cons.mp hcopy with rfl | hlater
          · rw [copied_of_notMem hfirst, Function.update_self, hsource]
            exact ⟨rfl, rfl⟩
          · have hsame : copy.source (Function.update store first.target (some value)) =
                copy.source store :=
              haparts copy hcopy store first.target (some value) (by simp)
            have hmade := ih hnodup hrest hall hlater
            rwa [hsame] at hmade

end Copies

/-! ## Commands that make the copies -/

section Delivers

variable {State : Type u} {Slot : Type v} {Value : Type w} [DecidableEq Slot]

/-- All copies have been made, from this store. -/
def Finished (held : State → Store Slot Value) (copies : List (Copy Slot Value))
    (store : Store Slot Value) (state : State) : Prop :=
  held state = (copied copies store).1 ∧ (copied copies store).2 = true

/-- Some first copies have been made. -/
def Begun (held : State → Store Slot Value) (copies : List (Copy Slot Value))
    (store : Store Slot Value) (state : State) : Prop :=
  ∃ count, held state = (copied (copies.take count) store).1

/-- All copies have been made where a script goes on, and some first ones where it ends. -/
def Goal.copies (held : State → Store Slot Value) (invariant : State → Prop)
    (copies : List (Copy Slot Value)) (store : Store Slot Value) : Goal State :=
  ⟨fun state => invariant state ∧ Finished held copies store state,
    fun state => invariant state ∧ Finished held copies store state,
    fun state => invariant state ∧ Begun held copies store state,
    fun state => invariant state ∧ Begun held copies store state⟩

/-- A command under `set -e` makes these copies, or some first of them and ends the script. -/
def Delivers (held : State → Store Slot Value) (invariant before after : State → Prop)
    (command : Command State) (copies : List (Copy Slot Value)) : Prop :=
  ∀ store, Ensures true (fun state => (invariant state ∧ before state) ∧ held state = store)
    command
    ⟨fun state => (invariant state ∧ after state) ∧ Finished held copies store state,
      fun state => (invariant state ∧ after state) ∧ Finished held copies store state,
      fun state => invariant state ∧ Begun held copies store state,
      fun state => invariant state ∧ Begun held copies store state⟩

variable {held : State → Store Slot Value} {invariant before middle after : State → Prop}
  {first second : Command State} {copies more : List (Copy Slot Value)}
  {store : Store Slot Value} {state : State}

theorem begun_of_finished (hfinished : Finished held copies store state) :
    Begun held copies store state :=
  ⟨copies.length, by rw [List.take_length, hfinished.1]⟩

theorem begun_append_left (hbegun : Begun held copies store state) :
    Begun held (copies ++ more) store state := by
  obtain ⟨count, hheld⟩ := hbegun
  rcases Nat.le_total count copies.length with hle | hle
  · exact ⟨count, by rw [List.take_append_of_le_length hle, hheld]⟩
  · rw [List.take_of_length_le hle] at hheld
    refine ⟨copies.length, ?_⟩
    rw [List.take_append_of_le_length (Nat.le_refl _), List.take_length, hheld]

/-- Further copies after all of the first. -/
theorem finished_append (hall : (copied copies store).2 = true)
    (hfinished : Finished held more (copied copies store).1 state) :
    Finished held (copies ++ more) store state := by
  rwa [Finished, copied_append, if_pos hall]

theorem begun_append (hall : (copied copies store).2 = true)
    (hbegun : Begun held more (copied copies store).1 state) :
    Begun held (copies ++ more) store state := by
  obtain ⟨count, hheld⟩ := hbegun
  refine ⟨copies.length + count, ?_⟩
  rw [List.take_length_add_append, copied_append, if_pos hall, hheld]

/-- Copies that come after one without a source are not made. -/
theorem Begun.of_blocked {copy : Copy Slot Value} {slot : Slot}
    (hbegun : Begun held (copies ++ copy :: more) store state)
    (hnone : copy.source (copied copies store).1 = none)
    (hslot : slot ∉ copies.map Copy.target) : held state slot = store slot := by
  obtain ⟨count, hheld⟩ := hbegun
  rw [hheld]
  rcases Nat.le_total count copies.length with hle | hle
  · rw [List.take_append_of_le_length hle]
    apply copied_of_notMem
    intro hmem
    rw [List.map_take] at hmem
    exact hslot (List.mem_of_mem_take hmem)
  · obtain ⟨past, rfl⟩ := Nat.exists_eq_add_of_le hle
    rw [List.take_length_add_append]
    cases past with
    | zero => rw [List.take_zero, List.append_nil, copied_of_notMem hslot]
    | succ past => rw [List.take_succ_cons, copied_of_blocked hnone, copied_of_notMem hslot]

theorem Delivers.seq (hfirst : Delivers held invariant before middle first copies)
    (hsecond : Delivers held invariant middle after second more) :
    Delivers held invariant before after (.seq first second) (copies ++ more) := by
  intro store
  have hnext : Ensures true (fun state => (invariant state ∧ middle state) ∧
      Finished held copies store state) second
      ⟨fun state => (invariant state ∧ after state) ∧ Finished held (copies ++ more) store state,
        fun state => (invariant state ∧ after state) ∧ Finished held (copies ++ more) store state,
        fun state => invariant state ∧ Begun held (copies ++ more) store state,
        fun state => invariant state ∧ Begun held (copies ++ more) store state⟩ := by
    intro state ⟨hmiddle, hheld, hall⟩
    exact (hsecond _ state ⟨hmiddle, hheld⟩).mono
      (fun _ hdone => hdone.imp_right (finished_append hall))
      (fun _ hdone => hdone.imp_right (finished_append hall))
      (fun _ hends => hends.imp_right (begun_append hall))
      (fun _ hends => hends.imp_right (begun_append hall))
  apply Ensures.seq _ hnext hnext
  exact (hfirst store).mono (fun _ hstate => hstate) (fun _ hdone => hdone) (fun _ hdone => hdone)
    (fun _ hends => hends.imp_right begun_append_left)
    (fun _ hends => hends.imp_right begun_append_left)

/-- A command that copies nothing of what it is about. -/
theorem delivers_of_preserves {command : Command State}
    (hpreserves : ∀ store, Command.Preserves
      (fun state => (invariant state ∧ before state) ∧ held state = store) command) :
    Delivers held invariant before before command [] := by
  intro store
  have hmade : ∀ state, (invariant state ∧ before state) ∧ held state = store →
      (invariant state ∧ before state) ∧ Finished held [] store state :=
    fun _ hstate => ⟨hstate.1, hstate.2, rfl⟩
  have hbegun : ∀ state, (invariant state ∧ before state) ∧ held state = store →
      invariant state ∧ Begun held [] store state :=
    fun _ hstate => ⟨hstate.1.1, 0, hstate.2⟩
  exact (Ensures.of_preserves (hpreserves store)).mono (fun _ hstate => hstate) hmade hmade
    hbegun hbegun

/-- A command that makes one copy or fails. -/
theorem delivers_attempt {run : State → Option State} {copy : Copy Slot Value}
    (hrun : ∀ state, invariant state → before state → ∀ next, run state = some next →
      ∃ value, copy.source (held state) = some value ∧ (invariant next ∧ after next) ∧
        held next = Function.update (held state) copy.target (some value)) :
    Delivers held invariant before after (.attempt run) [copy] := by
  rintro store state ⟨⟨hinvariant, hbefore⟩, rfl⟩
  cases hnext : run state with
  | none =>
      have hfails : Command.attempt run true state = .exited 1 state := by
        simp [Command.attempt, Command.simple, hnext]
      rw [hfails]
      exact ⟨hinvariant, 0, rfl⟩
  | some next =>
      obtain ⟨value, hsource, hkept, hheld⟩ := hrun state hinvariant hbefore next hnext
      rw [Command.attempt_eq_done hnext]
      refine ⟨hkept, ?_, ?_⟩
      · rw [hheld]
        simp [copied, hsource]
      · simp [copied, hsource]

theorem Delivers.meets (hdelivers : Delivers held invariant before after first copies)
    (hinvariant : invariant state) (hbefore : before state) :
    (first true state).Meets (.copies held invariant copies (held state)) :=
  (hdelivers _ state ⟨⟨hinvariant, hbefore⟩, rfl⟩).mono
    (fun _ hdone => hdone.imp_left And.left) (fun _ hdone => hdone.imp_left And.left)
    (fun _ hends => hends) (fun _ hends => hends)

/-- A command after which more is known. -/
theorem Delivers.mono {stronger weaker : State → Prop}
    (hdelivers : Delivers held invariant before after first copies)
    (hbefore : ∀ state, stronger state → before state)
    (hafter : ∀ state, after state → weaker state) :
    Delivers held invariant stronger weaker first copies := fun store =>
  (hdelivers store).mono (fun _ hstate => ⟨hstate.1.imp_right (hbefore _), hstate.2⟩)
    (fun _ hdone => ⟨hdone.1.imp_right (hafter _), hdone.2⟩)
    (fun _ hdone => ⟨hdone.1.imp_right (hafter _), hdone.2⟩) (fun _ hends => hends)
    (fun _ hends => hends)

end Delivers

end TizenRoblox.Shell
