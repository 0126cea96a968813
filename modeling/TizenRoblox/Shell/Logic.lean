/-
# Rules for commands

Two ways to argue about a command from its parts. What it ensures is said by a goal,
which has a condition for each way in which a command may leave the shell, and there is
a rule for each compound command (`Ensures`). And a command may do to a part of its
state what another one does, which holds of a compound command if it holds of its parts
(`Simulates`).
-/

import TizenRoblox.Shell.Command

namespace TizenRoblox.Shell

universe u v

/-! ## Pre- and postconditions -/

/-- What is wanted where a command goes on with the status 0, where it goes on with
another one, where it leaves loops or a function, and where it ends the script. -/
structure Goal (State : Type u) where
  yes : State → Prop
  no : State → Prop
  out : State → Prop
  ends : State → Prop

section Goals

variable {State : Type u}

/-- One condition for all ways. -/
def Goal.always (property : State → Prop) : Goal State := ⟨property, property, property, property⟩

def Outcome.Meets (goal : Goal State) : Outcome State → Prop
  | .done 0 state => goal.yes state
  | .done (_ + 1) state => goal.no state
  | .broken _ state | .returned _ state => goal.out state
  | .exited _ state | .blocked state => goal.ends state

theorem Outcome.Meets.mono {goal wider : Goal State} {outcome : Outcome State}
    (hmeets : outcome.Meets goal) (hyes : ∀ state, goal.yes state → wider.yes state)
    (hno : ∀ state, goal.no state → wider.no state)
    (hout : ∀ state, goal.out state → wider.out state)
    (hends : ∀ state, goal.ends state → wider.ends state) : outcome.Meets wider := by
  match outcome, hmeets with
  | .done 0 state, hmeets => exact hyes state hmeets
  | .done (_ + 1) state, hmeets => exact hno state hmeets
  | .broken _ state, hmeets => exact hout state hmeets
  | .returned _ state, hmeets => exact hout state hmeets
  | .exited _ state, hmeets => exact hends state hmeets
  | .blocked state, hmeets => exact hends state hmeets

@[simp]
theorem Outcome.meets_always {property : State → Prop} {outcome : Outcome State} :
    outcome.Meets (.always property) ↔ property outcome.state := by
  match outcome with
  | .done 0 _ | .done (_ + 1) _ | .broken _ _ | .returned _ _ | .exited _ _ | .blocked _ =>
      exact Iff.rfl

/-- What holds of the state anyway can be added to a goal. -/
theorem Outcome.Meets.and {goal : Goal State} {property : State → Prop} {outcome : Outcome State}
    (hmeets : outcome.Meets goal) (hstate : property outcome.state) :
    outcome.Meets ⟨fun state => goal.yes state ∧ property state,
      fun state => goal.no state ∧ property state, fun state => goal.out state ∧ property state,
      fun state => goal.ends state ∧ property state⟩ := by
  match outcome, hmeets, hstate with
  | .done 0 _, hmeets, hstate => exact ⟨hmeets, hstate⟩
  | .done (_ + 1) _, hmeets, hstate => exact ⟨hmeets, hstate⟩
  | .broken _ _, hmeets, hstate => exact ⟨hmeets, hstate⟩
  | .returned _ _, hmeets, hstate => exact ⟨hmeets, hstate⟩
  | .exited _ _, hmeets, hstate => exact ⟨hmeets, hstate⟩
  | .blocked _, hmeets, hstate => exact ⟨hmeets, hstate⟩

/-- However the outcome meets the goal, its state meets one of the conditions. -/
theorem Outcome.Meets.state {goal : Goal State} {property : State → Prop}
    {outcome : Outcome State} (hmeets : outcome.Meets goal)
    (hyes : ∀ state, goal.yes state → property state)
    (hno : ∀ state, goal.no state → property state)
    (hout : ∀ state, goal.out state → property state)
    (hends : ∀ state, goal.ends state → property state) : property outcome.state :=
  Outcome.meets_always.mp (hmeets.mono hyes hno hout hends)

/-- From the condition the command meets the goal. -/
def Ensures (strict : Bool) (condition : State → Prop) (command : Command State)
    (goal : Goal State) : Prop :=
  ∀ state, condition state → (command strict state).Meets goal

namespace Ensures

variable {strict : Bool} {before middle other : State → Prop} {goal : Goal State}
  {first second condition yes no body : Command State}

theorem mono {wider : Goal State} {stronger : State → Prop}
    (hensures : Ensures strict before first goal)
    (hbefore : ∀ state, stronger state → before state)
    (hyes : ∀ state, goal.yes state → wider.yes state)
    (hno : ∀ state, goal.no state → wider.no state)
    (hout : ∀ state, goal.out state → wider.out state)
    (hends : ∀ state, goal.ends state → wider.ends state) :
    Ensures strict stronger first wider :=
  fun state hstate => (hensures state (hbefore state hstate)).mono hyes hno hout hends

theorem of_preserves {property : State → Prop} (hpreserves : Command.Preserves property first) :
    Ensures strict property first (.always property) :=
  fun state hstate => Outcome.meets_always.mpr (hpreserves strict state hstate)

/-- What the command preserves can be added. -/
theorem and_preserves {property : State → Prop} (hensures : Ensures strict before first goal)
    (hpreserves : Command.Preserves property first) :
    Ensures strict (fun state => before state ∧ property state) first
      ⟨fun state => goal.yes state ∧ property state, fun state => goal.no state ∧ property state,
        fun state => goal.out state ∧ property state,
        fun state => goal.ends state ∧ property state⟩ :=
  fun state hstate => (hensures state hstate.1).and (hpreserves strict state hstate.2)

theorem either (hbefore : Ensures strict before first goal)
    (hother : Ensures strict other first goal) :
    Ensures strict (fun state => before state ∨ other state) first goal :=
  fun state hstate => hstate.elim (hbefore state) (hother state)

theorem seq (hfirst : Ensures strict before first ⟨middle, other, goal.out, goal.ends⟩)
    (hyes : Ensures strict middle second goal) (hno : Ensures strict other second goal) :
    Ensures strict before (.seq first second) goal := by
  intro state hstate
  have hmeets := hfirst state hstate
  unfold Command.seq
  match houtcome : first strict state, hmeets with
  | .done 0 next, hmeets => exact hyes next hmeets
  | .done (_ + 1) next, hmeets => exact hno next hmeets
  | .broken _ next, hmeets => exact hmeets
  | .returned _ next, hmeets => exact hmeets
  | .exited _ next, hmeets => exact hmeets
  | .blocked next, hmeets => exact hmeets

/-- A first command after which the same holds however it ends. -/
theorem seq_always (hfirst : Ensures strict before first (.always middle))
    (hout : ∀ state, middle state → goal.out state)
    (hends : ∀ state, middle state → goal.ends state)
    (hsecond : Ensures strict middle second goal) :
    Ensures strict before (.seq first second) goal :=
  .seq (hfirst.mono (fun _ hstate => hstate) (fun _ hyes => hyes) (fun _ hno => hno) hout hends)
    hsecond hsecond

theorem of_state (hstate : ∀ state, before state → middle (first strict state).state) :
    Ensures strict before first (.always middle) :=
  fun state hbefore => Outcome.meets_always.mpr (hstate state hbefore)

theorem ifElse (hcondition : Ensures false before condition ⟨middle, other, goal.out, goal.ends⟩)
    (hyes : Ensures strict middle yes goal) (hno : Ensures strict other no goal) :
    Ensures strict before (.ifElse condition yes no) goal := by
  intro state hstate
  have hmeets := hcondition state hstate
  unfold Command.ifElse
  match houtcome : condition false state, hmeets with
  | .done 0 next, hmeets => exact hyes next hmeets
  | .done (_ + 1) next, hmeets => exact hno next hmeets
  | .broken _ next, hmeets => exact hmeets
  | .returned _ next, hmeets => exact hmeets
  | .exited _ next, hmeets => exact hmeets
  | .blocked next, hmeets => exact hmeets

theorem orElse (hfirst : Ensures false before first ⟨goal.yes, middle, goal.out, goal.ends⟩)
    (hsecond : Ensures strict middle second goal) :
    Ensures strict before (.orElse first second) goal := by
  intro state hstate
  have hmeets := hfirst state hstate
  unfold Command.orElse
  match houtcome : first false state, hmeets with
  | .done 0 next, hmeets => exact hmeets
  | .done (_ + 1) next, hmeets => exact hsecond next hmeets
  | .broken _ next, hmeets => exact hmeets
  | .returned _ next, hmeets => exact hmeets
  | .exited _ next, hmeets => exact hmeets
  | .blocked next, hmeets => exact hmeets

/-- The condition before the loop is its invariant; a loop that is left goes on with the
status 0, unless more loops are left with it. -/
theorem whileDo {fuel : ℕ} {left : State → Prop}
    (hcondition : Ensures false before condition ⟨middle, goal.yes, goal.out, goal.ends⟩)
    (hbody : Ensures strict middle body ⟨before, before, left, goal.ends⟩)
    (hleft : ∀ state, left state → goal.yes state)
    (hfurther : ∀ state, left state → goal.out state)
    (hbefore : ∀ state, before state → goal.ends state) :
    Ensures strict before (.whileDo condition body fuel) goal := by
  induction fuel with
  | zero => exact hbefore
  | succ fuel ih =>
      intro state hstate
      have hmeets := hcondition state hstate
      unfold Command.whileDo
      cases houtcome : condition false state with
      | done status next =>
          rw [houtcome] at hmeets
          cases status with
          | zero =>
              have hturn := hbody next hmeets
              simp only
              cases hend : body strict next with
              | done status later =>
                  rw [hend] at hturn
                  cases status with
                  | zero => exact ih later hturn
                  | succ status => exact ih later hturn
              | broken levels later =>
                  rw [hend] at hturn
                  rcases levels with _ | _ | levels
                  · exact hleft later hturn
                  · exact hleft later hturn
                  · exact hfurther later hturn
              | returned status later =>
                  rw [hend] at hturn
                  exact hfurther later hturn
              | exited status later => rwa [hend] at hturn
              | blocked later => rwa [hend] at hturn
          | succ status => exact hmeets
      | broken levels next => rwa [houtcome] at hmeets
      | returned status next => rwa [houtcome] at hmeets
      | exited status next => rwa [houtcome] at hmeets
      | blocked next => rwa [houtcome] at hmeets

end Ensures

end Goals

/-! ## Running like another command -/

section Simulation

variable {Big : Type u} {Small : Type v}

/-- The outcome with a part of its state. -/
def Outcome.map (project : Big → Small) : Outcome Big → Outcome Small
  | .done status state => .done status (project state)
  | .returned status state => .returned status (project state)
  | .broken levels state => .broken levels (project state)
  | .exited status state => .exited status (project state)
  | .blocked state => .blocked (project state)

@[simp]
theorem Outcome.map_id (outcome : Outcome Big) : outcome.map id = outcome := by
  cases outcome <;> rfl

/-- A goal for a part of the state. -/
theorem Outcome.Meets.map {project : Big → Small} {goal : Goal Small} {outcome : Outcome Big}
    (hmeets : outcome.Meets ⟨fun state => goal.yes (project state),
      fun state => goal.no (project state), fun state => goal.out (project state),
      fun state => goal.ends (project state)⟩) : (outcome.map project).Meets goal := by
  match outcome, hmeets with
  | .done 0 _, hmeets => exact hmeets
  | .done (_ + 1) _, hmeets => exact hmeets
  | .broken _ _, hmeets => exact hmeets
  | .returned _ _, hmeets => exact hmeets
  | .exited _ _, hmeets => exact hmeets
  | .blocked _, hmeets => exact hmeets

@[simp]
theorem Outcome.map_state (project : Big → Small) (outcome : Outcome Big) :
    (outcome.map project).state = project outcome.state := by
  cases outcome <;> rfl

/-- From every state with the property the command does to a part of its state what the
other one does, and keeps the property. -/
def Simulates (project : Big → Small) (property : Big → Prop) (command : Command Big)
    (other : Command Small) : Prop :=
  ∀ strict state, property state →
    (command strict state).map project = other strict (project state) ∧
      property (command strict state).state

namespace Simulates

variable {project : Big → Small} {property : Big → Prop}
  {first second condition yes no body : Command Big}
  {otherFirst otherSecond otherCondition otherYes otherNo otherBody : Command Small}

theorem skip : Simulates project property Command.skip Command.skip := by
  intro strict state hstate
  rw [Command.skip_eq, Command.skip_eq]
  exact ⟨rfl, hstate⟩

theorem seq (hfirst : Simulates project property first otherFirst)
    (hsecond : Simulates project property second otherSecond) :
    Simulates project property (.seq first second) (.seq otherFirst otherSecond) := by
  intro strict state hstate
  obtain ⟨hsame, hnext⟩ := hfirst strict state hstate
  simp only [Command.seq, ← hsame]
  cases houtcome : first strict state with
  | done status next =>
      rw [houtcome] at hnext
      exact hsecond strict next hnext
  | _ =>
      rw [houtcome] at hnext
      exact ⟨rfl, hnext⟩

theorem ifElse (hcondition : Simulates project property condition otherCondition)
    (hyes : Simulates project property yes otherYes)
    (hno : Simulates project property no otherNo) :
    Simulates project property (.ifElse condition yes no)
      (.ifElse otherCondition otherYes otherNo) := by
  intro strict state hstate
  obtain ⟨hsame, hnext⟩ := hcondition false state hstate
  simp only [Command.ifElse, ← hsame]
  cases houtcome : condition false state with
  | done status next =>
      rw [houtcome] at hnext
      cases status with
      | zero => exact hyes strict next hnext
      | succ status => exact hno strict next hnext
  | _ =>
      rw [houtcome] at hnext
      exact ⟨rfl, hnext⟩

theorem andThen (hfirst : Simulates project property first otherFirst)
    (hsecond : Simulates project property second otherSecond) :
    Simulates project property (.andThen first second) (.andThen otherFirst otherSecond) := by
  intro strict state hstate
  obtain ⟨hsame, hnext⟩ := hfirst false state hstate
  simp only [Command.andThen, ← hsame]
  cases houtcome : first false state with
  | done status next =>
      rw [houtcome] at hnext
      cases status with
      | zero => exact hsecond strict next hnext
      | succ status => exact ⟨rfl, hnext⟩
  | _ =>
      rw [houtcome] at hnext
      exact ⟨rfl, hnext⟩

theorem orElse (hfirst : Simulates project property first otherFirst)
    (hsecond : Simulates project property second otherSecond) :
    Simulates project property (.orElse first second) (.orElse otherFirst otherSecond) := by
  intro strict state hstate
  obtain ⟨hsame, hnext⟩ := hfirst false state hstate
  simp only [Command.orElse, ← hsame]
  cases houtcome : first false state with
  | done status next =>
      rw [houtcome] at hnext
      cases status with
      | zero => exact ⟨rfl, hnext⟩
      | succ status => exact hsecond strict next hnext
  | _ =>
      rw [houtcome] at hnext
      exact ⟨rfl, hnext⟩

theorem whileDo (hcondition : Simulates project property condition otherCondition)
    (hbody : Simulates project property body otherBody) (fuel : ℕ) :
    Simulates project property (.whileDo condition body fuel)
      (.whileDo otherCondition otherBody fuel) := by
  induction fuel with
  | zero => exact fun strict state hstate => ⟨rfl, hstate⟩
  | succ fuel ih =>
      intro strict state hstate
      obtain ⟨hsame, hnext⟩ := hcondition false state hstate
      simp only [Command.whileDo, ← hsame]
      cases houtcome : condition false state with
      | done status next =>
          rw [houtcome] at hnext
          cases status with
          | succ status => exact ⟨rfl, hnext⟩
          | zero =>
              obtain ⟨hsame, hlater⟩ := hbody strict next hnext
              simp only [Outcome.map, ← hsame]
              cases hturn : body strict next with
              | done status later =>
                  rw [hturn] at hlater
                  exact ih strict later hlater
              | broken levels later =>
                  rw [hturn] at hlater
                  rcases levels with _ | _ | levels <;> exact ⟨rfl, hlater⟩
              | _ =>
                  rw [hturn] at hlater
                  exact ⟨rfl, hlater⟩
      | _ =>
          rw [houtcome] at hnext
          exact ⟨rfl, hnext⟩

end Simulates

end Simulation

end TizenRoblox.Shell
