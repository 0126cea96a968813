/-
# Scripts that signals interrupt

The text of a script, with the line of each of its commands. Run by itself it is the
command its text says (`Program.run`). Run while signals arrive, the shell lets each
command end, runs the traps of the signals that have arrived, and goes on where it was,
unless a trap has ended the script; a trap is a script that signals interrupt as well,
and a signal without a trap is taken to be kept away. The signals that arrive are a list
with one entry for each time the shell looks, so a script meets every placement of
signals as some list.

With no signals the two ways to run a script agree (`interrupted_quiet`). What a script
keeps while signals arrive is what its commands and its traps keep: a property that
every command keeps (`preserves_interrupted`) survives every trap made of such commands
(`survives_lookFor`), and one that a trap keeps only as a whole survives if the trap
keeps it whenever the traps that interrupt it do (`survives_of_handlers`).
-/

import TizenRoblox.Shell.Logic

namespace TizenRoblox.Shell

universe u v

/-- The text of a script over some signals; a loop is given the fuel it needs. -/
inductive Program (State : Type u) (Signal : Type v)
  /-- No command at all. -/
  | pass
  /-- A command that the shell waits for. -/
  | command (line : ℕ) (run : Command State)
  /-- A command that sets the traps of some signals. -/
  | trap (line : ℕ) (signals : List Signal) (run : Command State)
  | seq (first second : Program State Signal)
  | ifElse (condition yes no : Program State Signal)
  | andThen (first second : Program State Signal)
  | orElse (first second : Program State Signal)
  | whileDo (fuel : State → ℕ) (condition body : Program State Signal)

/-- A signal whose trap runs, with the line of the last command before it and the state
in which it finds the script. -/
structure Moment (State : Type u) (Signal : Type v) where
  signal : Signal
  line : ℕ
  state : State

/-- A script while signals arrive. -/
structure Live (State : Type u) (Signal : Type v) where
  state : State
  /-- The signals that have traps. -/
  caught : List Signal
  /-- The line of the last command. -/
  line : ℕ
  /-- The signals that arrive up to each time that the shell looks for them. -/
  arriving : List (List Signal)
  /-- The signals whose traps have run or are running. -/
  handled : List (Moment State Signal)

variable {State : Type u} {Signal : Type v}

namespace Program

/-- One after the other. -/
def block : List (Program State Signal) → Program State Signal
  | [] => pass
  | [program] => program
  | program :: rest => seq program (block rest)

/-- `if condition; then yes; fi` -/
def ifThen (condition yes : Program State Signal) : Program State Signal :=
  ifElse condition yes pass

/-- `program || true` -/
def orTrue (line : ℕ) (program : Program State Signal) : Program State Signal :=
  orElse program (command line Command.skip)

/-- What the text says where no signal arrives. -/
def run : Program State Signal → Command State
  | .pass => Command.skip
  | .command _ run => run
  | .trap _ _ run => run
  | .seq first second => .seq first.run second.run
  | .ifElse condition yes no => .ifElse condition.run yes.run no.run
  | .andThen first second => .andThen first.run second.run
  | .orElse first second => .orElse first.run second.run
  | .whileDo fuel condition body => fun strict state =>
    Command.whileDo condition.run body.run (fuel state) strict state

/-- Every command of the text, with its line and the signals it sets the traps of, has
the property. -/
def Each (property : ℕ → List Signal → Command State → Prop) : Program State Signal → Prop
  | .pass => True
  | .command line run => property line [] run
  | .trap line signals run => property line signals run
  | .seq first second => first.Each property ∧ second.Each property
  | .ifElse condition yes no =>
    condition.Each property ∧ yes.Each property ∧ no.Each property
  | .andThen first second => first.Each property ∧ second.Each property
  | .orElse first second => first.Each property ∧ second.Each property
  | .whileDo _ condition body => condition.Each property ∧ body.Each property

theorem Each.of_forall {property : ℕ → List Signal → Command State → Prop}
    (hproperty : ∀ line signals run, property line signals run)
    (program : Program State Signal) : program.Each property := by
  induction program with
  | pass => trivial
  | command line run => exact hproperty line [] run
  | trap line signals run => exact hproperty line signals run
  | seq first second hfirst hsecond => exact ⟨hfirst, hsecond⟩
  | ifElse condition yes no hcondition hyes hno => exact ⟨hcondition, hyes, hno⟩
  | andThen first second hfirst hsecond => exact ⟨hfirst, hsecond⟩
  | orElse first second hfirst hsecond => exact ⟨hfirst, hsecond⟩
  | whileDo fuel condition body hcondition hbody => exact ⟨hcondition, hbody⟩

theorem Each.mono {property other : ℕ → List Signal → Command State → Prop}
    (hother : ∀ line signals run, property line signals run → other line signals run)
    {program : Program State Signal} (hprogram : program.Each property) :
    program.Each other := by
  induction program with
  | pass => trivial
  | command line run => exact hother line [] run hprogram
  | trap line signals run => exact hother line signals run hprogram
  | seq first second hfirst hsecond => exact ⟨hfirst hprogram.1, hsecond hprogram.2⟩
  | ifElse condition yes no hcondition hyes hno =>
      exact ⟨hcondition hprogram.1, hyes hprogram.2.1, hno hprogram.2.2⟩
  | andThen first second hfirst hsecond => exact ⟨hfirst hprogram.1, hsecond hprogram.2⟩
  | orElse first second hfirst hsecond => exact ⟨hfirst hprogram.1, hsecond hprogram.2⟩
  | whileDo fuel condition body hcondition hbody =>
      exact ⟨hcondition hprogram.1, hbody hprogram.2⟩

/-- What every command of a text preserves, the text preserves. -/
theorem preserves_run {property : State → Prop} {program : Program State Signal}
    (hprogram : program.Each fun _ _ run => Command.Preserves property run) :
    Command.Preserves property program.run := by
  induction program with
  | pass => exact Command.preserves_skip
  | command line run => exact hprogram
  | trap line signals run => exact hprogram
  | seq first second hfirst hsecond => exact (hfirst hprogram.1).seq (hsecond hprogram.2)
  | ifElse condition yes no hcondition hyes hno =>
      exact Command.preserves_ifElse (hcondition hprogram.1) (hyes hprogram.2.1)
        (hno hprogram.2.2)
  | andThen first second hfirst hsecond =>
      exact (hfirst hprogram.1).andThen (hsecond hprogram.2)
  | orElse first second hfirst hsecond => exact (hfirst hprogram.1).orElse (hsecond hprogram.2)
  | whileDo fuel condition body hcondition hbody =>
      exact fun strict state hstate => Command.preserves_whileDo (hcondition hprogram.1)
        (hbody hprogram.2) (fuel state) strict state hstate

end Program

/-! ## Looking for signals -/

section Signals

variable [DecidableEq Signal]

/-- The trap of a signal starts. -/
def Live.enter (signal : Signal) (live : Live State Signal) : Live State Signal :=
  { live with handled := live.handled ++ [⟨signal, live.line, live.state⟩] }

/-- The shell goes on after the command that a trap has followed. -/
def Live.resume (line : ℕ) (live : Live State Signal) : Live State Signal :=
  { live with line := line }

/-- A command has ended. -/
def Live.after (line : ℕ) (caught : List Signal) (live : Live State Signal) (next : State) :
    Live State Signal :=
  { live with state := next, line := line, caught := caught ++ live.caught }

/-- Runs the traps of signals, one after the other. -/
def answerAll (answer : Signal → Live State Signal → Outcome (Live State Signal)) :
    List Signal → Live State Signal → Outcome (Live State Signal)
  | [], live => .done 0 live
  | signal :: rest, live =>
    if signal ∈ live.caught then
      match answer signal (live.enter signal) with
      | .done _ next | .returned _ next | .broken _ next =>
        answerAll answer rest (next.resume live.line)
      | other => other
    else answerAll answer rest live

/-- The shell looks for signals and then goes on as it would have, unless a trap has ended
the script. -/
def lookThen (look : Live State Signal → Outcome (Live State Signal))
    (ending : Live State Signal → Outcome (Live State Signal)) (live : Live State Signal) :
    Outcome (Live State Signal) :=
  match look live with
  | .done _ later => ending later
  | other => other

/-- A command of the script: when it has ended, also when it has failed, the shell looks
for signals. -/
def lift (look : Live State Signal → Outcome (Live State Signal)) (line : ℕ)
    (caught : List Signal) (run : Command State) : Command (Live State Signal) :=
  fun strict live =>
    let after := live.after line caught
    match run strict live.state with
    | .done status next => lookThen look (.done status) (after next)
    | .exited status next => lookThen look (.exited status) (after next)
    | .returned status next => .returned status (after next)
    | .broken levels next => .broken levels (after next)
    | .blocked next => .blocked (after next)

/-- A script whose shell looks for signals in a given way. -/
def interrupted (look : Live State Signal → Outcome (Live State Signal)) :
    Program State Signal → Command (Live State Signal)
  | .pass => Command.skip
  | .command line run => lift look line [] run
  | .trap line signals run => lift look line signals run
  | .seq first second => .seq (interrupted look first) (interrupted look second)
  | .ifElse condition yes no =>
    .ifElse (interrupted look condition) (interrupted look yes) (interrupted look no)
  | .andThen first second => .andThen (interrupted look first) (interrupted look second)
  | .orElse first second => .orElse (interrupted look first) (interrupted look second)
  | .whileDo fuel condition body => fun strict live =>
    Command.whileDo (interrupted look condition) (interrupted look body)
      (fuel live.state) strict live

/-- Looks for signals and runs their traps, which signals interrupt in their turn, to
some depth. -/
def lookFor (handler : Signal → Program State Signal) :
    ℕ → Live State Signal → Outcome (Live State Signal)
  | 0, live => .done 0 live
  | depth + 1, live =>
    match live.arriving with
    | [] => .done 0 live
    | signals :: later =>
      answerAll (fun signal => interrupted (lookFor handler depth) (handler signal) true)
        signals { live with arriving := later }

/-- A script with its traps. They are not nested deeper than there are times at which
signals arrive. -/
def execute (handler : Signal → Program State Signal) (program : Program State Signal) :
    Command (Live State Signal) := fun strict live =>
  interrupted (lookFor handler live.arriving.length) program strict live

end Signals

/-! ## Without signals -/

section Quiet

variable [DecidableEq Signal]

/-- With no signal to come a script does what its text says. -/
theorem interrupted_quiet (handler : Signal → Program State Signal) (depth : ℕ)
    (handled : List (Moment State Signal)) (program : Program State Signal) :
    Simulates Live.state (fun live => live.arriving = [] ∧ live.handled = handled)
      (interrupted (lookFor handler depth) program) program.run := by
  have hlift : ∀ line caught run,
      Simulates Live.state (fun live => live.arriving = [] ∧ live.handled = handled)
        (lift (lookFor handler depth) line caught run) run := by
    intro line caught run strict live ⟨harriving, hhandled⟩
    have hlook : ∀ next, lookFor handler depth (live.after line caught next) =
        .done 0 (live.after line caught next) := by
      intro next
      have hnone : (live.after line caught next).arriving = [] := harriving
      cases depth with
      | zero => rfl
      | succ depth => simp only [lookFor, hnone]
    simp only [lift, lookThen, hlook]
    cases run strict live.state <;> exact ⟨rfl, harriving, hhandled⟩
  induction program with
  | pass => exact Simulates.skip
  | command line run => exact hlift line [] run
  | trap line signals run => exact hlift line signals run
  | seq first second hfirst hsecond => exact hfirst.seq hsecond
  | ifElse condition yes no hcondition hyes hno => exact hcondition.ifElse hyes hno
  | andThen first second hfirst hsecond => exact hfirst.andThen hsecond
  | orElse first second hfirst hsecond => exact hfirst.orElse hsecond
  | whileDo fuel condition body hcondition hbody =>
      exact fun strict live hlive =>
        hcondition.whileDo hbody (fuel live.state) strict live hlive

end Quiet

/-! ## The depth of the traps -/

section Depth

variable {look other : Live State Signal → Outcome (Live State Signal)} {bound : ℕ}

/-- Two ways to look for signals that do the same as long as no more than that is to
arrive. -/
def Agree (look other : Live State Signal → Outcome (Live State Signal)) (bound : ℕ) : Prop :=
  ∀ live, live.arriving.length ≤ bound →
    look live = other live ∧ (look live).state.arriving.length ≤ bound

theorem lookThen_agree (hagree : Agree look other bound)
    (ending : Live State Signal → Outcome (Live State Signal))
    (hending : ∀ later, (ending later).state = later) (live : Live State Signal)
    (hlive : live.arriving.length ≤ bound) :
    lookThen look ending live = lookThen other ending live ∧
      (lookThen look ending live).state.arriving.length ≤ bound := by
  obtain ⟨hsame, hlength⟩ := hagree live hlive
  unfold lookThen
  rw [← hsame]
  refine ⟨rfl, ?_⟩
  split
  · next hdone =>
      rw [hdone] at hlength
      rwa [hending]
  · exact hlength

theorem interrupted_agree (hagree : Agree look other bound) (program : Program State Signal) :
    Simulates id (fun live => live.arriving.length ≤ bound) (interrupted look program)
      (interrupted other program) := by
  have hlift : ∀ line caught run,
      Simulates id (fun live => live.arriving.length ≤ bound) (lift look line caught run)
        (lift other line caught run) := by
    intro line caught run strict live hlive
    simp only [lift, Outcome.map_id, id]
    cases run strict live.state with
    | done status next => exact lookThen_agree hagree (.done status) (fun _ => rfl) _ hlive
    | exited status next => exact lookThen_agree hagree (.exited status) (fun _ => rfl) _ hlive
    | _ => exact ⟨rfl, hlive⟩
  induction program with
  | pass => exact Simulates.skip
  | command line run => exact hlift line [] run
  | trap line signals run => exact hlift line signals run
  | seq first second hfirst hsecond => exact hfirst.seq hsecond
  | ifElse condition yes no hcondition hyes hno => exact hcondition.ifElse hyes hno
  | andThen first second hfirst hsecond => exact hfirst.andThen hsecond
  | orElse first second hfirst hsecond => exact hfirst.orElse hsecond
  | whileDo fuel condition body hcondition hbody =>
      exact fun strict live hlive =>
        hcondition.whileDo hbody (fuel live.state) strict live hlive

variable [DecidableEq Signal]

theorem answerAll_agree {answer others : Signal → Live State Signal → Outcome (Live State Signal)}
    (hagree : ∀ signal, Agree (answer signal) (others signal) bound) (signals : List Signal) :
    Agree (answerAll answer signals) (answerAll others signals) bound := by
  induction signals with
  | nil => exact fun live hlive => ⟨rfl, hlive⟩
  | cons signal rest ih =>
      intro live hlive
      obtain ⟨hsame, hlength⟩ := hagree signal (live.enter signal) hlive
      unfold answerAll
      rw [← hsame]
      split
      · cases houtcome : answer signal (live.enter signal) with
        | done status next => exact ih _ (by rwa [houtcome] at hlength)
        | returned status next => exact ih _ (by rwa [houtcome] at hlength)
        | broken levels next => exact ih _ (by rwa [houtcome] at hlength)
        | _ => exact ⟨rfl, by rwa [houtcome] at hlength⟩
      · exact ih live hlive

/-- The shell finds the same at every depth that what is to arrive can reach. -/
theorem lookFor_agree (handler : Signal → Program State Signal) {one two : ℕ}
    (hone : bound ≤ one) (htwo : bound ≤ two) :
    Agree (lookFor handler one) (lookFor handler two) bound := by
  induction bound generalizing one two with
  | zero =>
      intro live hlive
      have hnone : live.arriving = [] := List.length_eq_zero_iff.mp (Nat.le_zero.mp hlive)
      cases one <;> cases two <;> simp [lookFor, hnone, Outcome.state]
  | succ bound ih =>
      obtain ⟨one, rfl⟩ := Nat.exists_eq_add_of_lt hone
      obtain ⟨two, rfl⟩ := Nat.exists_eq_add_of_lt htwo
      intro live hlive
      simp only [lookFor]
      cases harriving : live.arriving with
      | nil => exact ⟨rfl, hlive⟩
      | cons signals later =>
          have hlater : later.length ≤ bound := by
            rw [harriving, List.length_cons] at hlive
            omega
          have hhandlers : ∀ signal,
              Agree (interrupted (lookFor handler (bound + one)) (handler signal) true)
                (interrupted (lookFor handler (bound + two)) (handler signal) true) bound := by
            intro signal live hlive
            have hsame := interrupted_agree
              (@ih (bound + one) (bound + two) (by omega) (by omega)) (handler signal) true live
              hlive
            rwa [Outcome.map_id] at hsame
          obtain ⟨hsame, hlength⟩ := answerAll_agree hhandlers signals
            { live with arriving := later } hlater
          exact ⟨hsame, Nat.le_succ_of_le hlength⟩

/-- A script is not cut short by the depth to which its traps are nested. -/
theorem interrupted_eq_execute (handler : Signal → Program State Signal)
    (program : Program State Signal) (strict : Bool) (live : Live State Signal) {depth : ℕ}
    (hdepth : live.arriving.length ≤ depth) :
    interrupted (lookFor handler depth) program strict live =
      execute handler program strict live := by
  have hsame := interrupted_agree (lookFor_agree handler hdepth (Nat.le_refl _)) program strict live
    (Nat.le_refl _)
  rw [Outcome.map_id] at hsame
  exact hsame.1

end Depth

/-! ## What survives the traps -/

section Survival

variable {look : Live State Signal → Outcome (Live State Signal)}
  {handler : Signal → Program State Signal} {property : Live State Signal → Prop}

/-- The property still holds when the shell has looked for signals, and the other one if a
trap has ended the script. -/
def SurvivesOr (look : Live State Signal → Outcome (Live State Signal))
    (property ends : Live State Signal → Prop) : Prop :=
  ∀ live, property live → (look live).Meets ⟨property, fun _ => False, fun _ => False, ends⟩

/-- The property still holds when the shell has looked for signals, whether or not a trap
has ended the script. -/
def Survives (look : Live State Signal → Outcome (Live State Signal))
    (property : Live State Signal → Prop) : Prop :=
  ∀ live, property live → (look live).Meets ⟨property, fun _ => False, fun _ => False, property⟩

theorem SurvivesOr.mono {ends further : Live State Signal → Prop}
    (hsurvives : SurvivesOr look property ends) (hends : ∀ live, ends live → further live) :
    SurvivesOr look property further := fun live hlive =>
  (hsurvives live hlive).mono (fun _ => id) (fun _ => id) (fun _ => id) hends

theorem Survives.or {ends : Live State Signal → Prop} (hsurvives : Survives look property)
    (hends : ∀ live, property live → ends live) : SurvivesOr look property ends :=
  SurvivesOr.mono hsurvives hends

theorem SurvivesOr.and {ends other : Live State Signal → Prop}
    (hsurvives : SurvivesOr look property ends) (hother : Survives look other) :
    SurvivesOr look (fun live => property live ∧ other live)
      fun live => ends live ∧ other live := by
  intro live hlive
  have hstate : other (look live).state :=
    (hother live hlive.2).state (fun _ => id) (fun _ => False.elim) (fun _ => False.elim)
      fun _ => id
  exact ((hsurvives live hlive.1).and hstate).mono (fun _ => id) (fun _ => And.left)
    (fun _ => And.left) fun _ => id

theorem SurvivesOr.either {ends other : Live State Signal → Prop}
    (hsurvives : SurvivesOr look property ends) (hother : SurvivesOr look other ends) :
    SurvivesOr look (fun live => property live ∨ other live) ends := by
  rintro live (hproperty | hother')
  · exact (hsurvives live hproperty).mono (fun _ => .inl) (fun _ => id) (fun _ => id) fun _ => id
  · exact (hother live hother').mono (fun _ => .inr) (fun _ => id) (fun _ => id) fun _ => id

/-- The property does not depend on what is still to arrive. -/
def Unforeseeing (property : Live State Signal → Prop) : Prop :=
  ∀ live later, property live → property { live with arriving := later }

/-- A property that does not depend on where the script is and what has arrived. -/
structure Calm (property : Live State Signal → Prop) : Prop where
  arrive : Unforeseeing property
  enter : ∀ live signal, property live → signal ∈ live.caught → property (live.enter signal)
  resume : ∀ live line, property live → property (live.resume line)

/-- What a command of the script does, it does with the property kept. -/
def Keeping (property : Live State Signal → Prop) (line : ℕ) (caught : List Signal)
    (run : Command State) : Prop :=
  ∀ strict live, property live → property (live.after line caught (run strict live.state).state)

theorem meets_lookThen {goal : Goal (Live State Signal)}
    {ending : Live State Signal → Outcome (Live State Signal)}
    (hsurvives : SurvivesOr look property goal.ends)
    (hending : ∀ later, property later → (ending later).Meets goal) (live : Live State Signal)
    (hlive : property live) : (lookThen look ending live).Meets goal := by
  have hlook := hsurvives live hlive
  unfold lookThen
  match hlooked : look live, hlook with
  | .done 0 later, hlook => exact hending later hlook
  | .broken _ _, hlook => exact hlook.elim
  | .returned _ _, hlook => exact hlook.elim
  | .exited _ later, hlook => exact hlook
  | .blocked later, hlook => exact hlook

theorem preserves_lift {line : ℕ} {caught : List Signal} {run : Command State}
    (hsurvives : Survives look property) (hrun : Keeping property line caught run) :
    Command.Preserves property (lift look line caught run) := by
  intro strict live hlive
  have hafter := hrun strict live hlive
  have hlook : ∀ ending : Live State Signal → Outcome (Live State Signal),
      (∀ later, (ending later).state = later) →
      property (lookThen look ending (live.after line caught (run strict live.state).state)).state
      := by
    intro ending hending
    unfold lookThen
    have hsurvived := (hsurvives _ hafter).state (fun _ h => h) (fun _ h => h.elim)
      (fun _ h => h.elim) (fun _ h => h)
    split
    · next hdone =>
        rw [hdone] at hsurvived
        rwa [hending]
    · exact hsurvived
  unfold lift
  cases houtcome : run strict live.state with
  | done status next => simpa only [houtcome, Outcome.state] using hlook (.done status) fun _ => rfl
  | exited status next =>
      simpa only [houtcome, Outcome.state] using hlook (.exited status) fun _ => rfl
  | returned status next => rwa [houtcome] at hafter
  | broken levels next => rwa [houtcome] at hafter
  | blocked next => rwa [houtcome] at hafter

/-- What survives the traps and is kept by every command is kept by the script. -/
theorem preserves_interrupted (hsurvives : Survives look property)
    {program : Program State Signal} (hprogram : program.Each (Keeping property)) :
    Command.Preserves property (interrupted look program) := by
  induction program with
  | pass => exact Command.preserves_skip
  | command line run => exact preserves_lift hsurvives hprogram
  | trap line signals run => exact preserves_lift hsurvives hprogram
  | seq first second hfirst hsecond => exact (hfirst hprogram.1).seq (hsecond hprogram.2)
  | ifElse condition yes no hcondition hyes hno =>
      exact Command.preserves_ifElse (hcondition hprogram.1) (hyes hprogram.2.1)
        (hno hprogram.2.2)
  | andThen first second hfirst hsecond =>
      exact (hfirst hprogram.1).andThen (hsecond hprogram.2)
  | orElse first second hfirst hsecond => exact (hfirst hprogram.1).orElse (hsecond hprogram.2)
  | whileDo fuel condition body hcondition hbody =>
      exact fun strict live hlive => Command.preserves_whileDo (hcondition hprogram.1)
        (hbody hprogram.2) (fuel live.state) strict live hlive

/-! ### Properties of the state -/

variable {invariant : State → Prop}

theorem keeping_state {line : ℕ} {caught : List Signal} {run : Command State}
    (hrun : Command.Preserves invariant run) :
    Keeping (fun live : Live State Signal => invariant live.state) line caught run :=
  fun strict live hlive => hrun strict live.state hlive

/-- Goals of a command of the script that is interrupted: what it ensures by itself, and
what then survives the traps. -/
theorem ensures_lift_or {strict : Bool} {before : Live State Signal → Prop}
    {goal : Goal (Live State Signal)} {line : ℕ} {caught : List Signal} {run : Command State}
    (hrun : ∀ live, before live → (run strict live.state).Meets
      ⟨fun next => goal.yes (live.after line caught next),
        fun next => goal.no (live.after line caught next),
        fun next => goal.out (live.after line caught next),
        fun next => goal.ends (live.after line caught next)⟩)
    (hyes : SurvivesOr look goal.yes goal.ends) (hno : SurvivesOr look goal.no goal.ends)
    (hends : Survives look goal.ends) :
    Ensures strict before (lift look line caught run) goal := by
  intro live hlive
  have hafter := hrun live hlive
  unfold lift
  match houtcome : run strict live.state, hafter with
  | .done 0 next, hafter =>
      refine meets_lookThen hyes ?_ _ hafter
      exact fun _ hlater => hlater
  | .done (_ + 1) next, hafter =>
      refine meets_lookThen hno ?_ _ hafter
      exact fun _ hlater => hlater
  | .exited _ next, hafter =>
      refine meets_lookThen hends ?_ _ hafter
      exact fun _ hlater => hlater
  | .broken _ next, hafter => exact hafter
  | .returned _ next, hafter => exact hafter
  | .blocked next, hafter => exact hafter

theorem ensures_lift {strict : Bool} {before : Live State Signal → Prop}
    {goal : Goal (Live State Signal)} {line : ℕ} {caught : List Signal} {run : Command State}
    (hrun : ∀ live, before live → (run strict live.state).Meets
      ⟨fun next => goal.yes (live.after line caught next),
        fun next => goal.no (live.after line caught next),
        fun next => goal.out (live.after line caught next),
        fun next => goal.ends (live.after line caught next)⟩)
    (hyes : Survives look goal.yes) (hno : Survives look goal.no)
    (hends : Survives look goal.ends) (hyesEnds : ∀ live, goal.yes live → goal.ends live)
    (hnoEnds : ∀ live, goal.no live → goal.ends live) :
    Ensures strict before (lift look line caught run) goal :=
  ensures_lift_or hrun (hyes.or hyesEnds) (hno.or hnoEnds) hends

theorem ensures_act_or {strict : Bool} {before : Live State Signal → Prop}
    {goal : Goal (Live State Signal)} {line : ℕ} {caught : List Signal} {update : State → State}
    (hupdate : ∀ live, before live → goal.yes (live.after line caught (update live.state)))
    (hyes : SurvivesOr look goal.yes goal.ends) :
    Ensures strict before (lift look line caught (.act update)) goal := by
  intro live hlive
  simp only [lift, Command.act_eq]
  refine meets_lookThen hyes ?_ _ (hupdate live hlive)
  exact fun _ hlater => hlater

theorem ensures_act {strict : Bool} {before : Live State Signal → Prop}
    {goal : Goal (Live State Signal)} {line : ℕ} {caught : List Signal} {update : State → State}
    (hupdate : ∀ live, before live → goal.yes (live.after line caught (update live.state)))
    (hyes : Survives look goal.yes) (hends : ∀ live, goal.yes live → goal.ends live) :
    Ensures strict before (lift look line caught (.act update)) goal :=
  ensures_act_or hupdate (hyes.or hends)

/-- A test that is a condition. -/
theorem ensures_test_or {before : Live State Signal → Prop} {goal : Goal (Live State Signal)}
    {line : ℕ} {caught : List Signal} {condition : State → Bool}
    (htrue : ∀ live, before live → condition live.state = true →
      goal.yes (live.after line caught live.state))
    (hfalse : ∀ live, before live → condition live.state = false →
      goal.no (live.after line caught live.state))
    (hyes : SurvivesOr look goal.yes goal.ends) (hno : SurvivesOr look goal.no goal.ends) :
    Ensures false before (lift look line caught (.test condition)) goal := by
  intro live hlive
  simp only [lift, Command.test_tested]
  cases hcondition : condition live.state with
  | true =>
      refine meets_lookThen hyes ?_ _ (htrue live hlive hcondition)
      exact fun _ hlater => hlater
  | false =>
      refine meets_lookThen hno ?_ _ (hfalse live hlive hcondition)
      exact fun _ hlater => hlater

theorem ensures_test {before : Live State Signal → Prop} {goal : Goal (Live State Signal)}
    {line : ℕ} {caught : List Signal} {condition : State → Bool}
    (htrue : ∀ live, before live → condition live.state = true →
      goal.yes (live.after line caught live.state))
    (hfalse : ∀ live, before live → condition live.state = false →
      goal.no (live.after line caught live.state))
    (hyes : Survives look goal.yes) (hno : Survives look goal.no)
    (hyesEnds : ∀ live, goal.yes live → goal.ends live)
    (hnoEnds : ∀ live, goal.no live → goal.ends live) :
    Ensures false before (lift look line caught (.test condition)) goal :=
  ensures_test_or htrue hfalse (hyes.or hyesEnds) (hno.or hnoEnds)

/-! ### Missed moments -/

/-- Some trap has run at a moment that does not fit. -/
def Missed (fits : Moment State Signal → Prop) (live : Live State Signal) : Prop :=
  ∃ moment ∈ live.handled, ¬ fits moment

variable {fits : Moment State Signal → Prop}

theorem missed_enter {live : Live State Signal} {signal : Signal}
    (hmoment : ¬ fits ⟨signal, live.line, live.state⟩) : Missed fits (live.enter signal) :=
  ⟨_, List.mem_append_right _ (List.mem_singleton_self _), hmoment⟩

theorem calm_missed : Calm (Missed fits : Live State Signal → Prop) where
  arrive _ _ hlive := hlive
  enter _ _ hlive _ := hlive.imp fun _ hmoment => ⟨List.mem_append_left _ hmoment.1, hmoment.2⟩
  resume _ _ hlive := hlive

/-! ### What the traps keep -/

variable [DecidableEq Signal]

/-- The traps keep the property for a script that goes on, and ensure the other one where
they end the script. -/
def KeptByTrapsOr (look : Live State Signal → Outcome (Live State Signal))
    (handler : Signal → Program State Signal) (property ends : Live State Signal → Prop) : Prop :=
  ∀ signal live, property live → signal ∈ live.caught →
    (interrupted look (handler signal) true (live.enter signal)).Meets
      ⟨fun next => property (next.resume live.line), fun next => property (next.resume live.line),
        fun next => property (next.resume live.line), ends⟩

/-- The traps keep the property: the script is left with it, or goes on with it. -/
def KeptByTraps (look : Live State Signal → Outcome (Live State Signal))
    (handler : Signal → Program State Signal) (property : Live State Signal → Prop) : Prop :=
  ∀ signal live, property live → signal ∈ live.caught →
    property (interrupted look (handler signal) true (live.enter signal)).state ∧
      property ((interrupted look (handler signal) true (live.enter signal)).state.resume
        live.line)

omit [DecidableEq Signal] in
theorem KeptByTraps.or (hkept : KeptByTraps look handler property) :
    KeptByTrapsOr look handler property property := by
  intro signal live hlive hcaught
  have hmeets : (interrupted look (handler signal) true (live.enter signal)).Meets
      (.always fun next => property next ∧ property (next.resume live.line)) :=
    Outcome.meets_always.mpr (hkept signal live hlive hcaught)
  exact hmeets.mono (fun _ => And.right) (fun _ => And.right) (fun _ => And.right)
    fun _ => And.left

theorem survivesOr_answerAll {ends : Live State Signal → Prop}
    (hkept : KeptByTrapsOr look handler property ends) (signals : List Signal)
    (live : Live State Signal) (hlive : property live) :
    (answerAll (fun signal => interrupted look (handler signal) true) signals live).Meets
      ⟨property, fun _ => False, fun _ => False, ends⟩ := by
  induction signals generalizing live with
  | nil => exact hlive
  | cons signal rest ih =>
      unfold answerAll
      by_cases hcaught : signal ∈ live.caught
      · have hanswer := hkept signal live hlive hcaught
        rw [if_pos hcaught]
        cases houtcome : interrupted look (handler signal) true (live.enter signal) with
        | done status next =>
            rw [houtcome] at hanswer
            cases status with
            | zero => exact ih _ hanswer
            | succ status => exact ih _ hanswer
        | returned status next => exact ih _ (by rw [houtcome] at hanswer; exact hanswer)
        | broken levels next => exact ih _ (by rw [houtcome] at hanswer; exact hanswer)
        | exited status next => rw [houtcome] at hanswer; exact hanswer
        | blocked next => rw [houtcome] at hanswer; exact hanswer
      · rw [if_neg hcaught]
        exact ih live hlive

/-- Properties survive the traps, or others hold where a trap ends the script, if the traps
see to that whenever it is so with the traps that interrupt them. -/
theorem survivesOr_family {ι : Type*} {properties ends : ι → Live State Signal → Prop}
    (harrive : ∀ index, Unforeseeing (properties index))
    (hhandlers : ∀ depth,
      (∀ index, SurvivesOr (lookFor handler depth) (properties index) (ends index)) →
      ∀ index, KeptByTrapsOr (lookFor handler depth) handler (properties index) (ends index))
    (depth : ℕ) (index : ι) :
    SurvivesOr (lookFor handler depth) (properties index) (ends index) := by
  induction depth generalizing index with
  | zero => exact fun _ hlive => hlive
  | succ depth ih =>
      intro live hlive
      cases harriving : live.arriving with
      | nil =>
          simp only [lookFor, harriving]
          exact hlive
      | cons signals later =>
          simp only [lookFor, harriving]
          exact survivesOr_answerAll (hhandlers depth ih index) signals _
            (harrive index live later hlive)

/-- Properties survive the traps if these keep each of them whenever all survive the traps
that interrupt them. -/
theorem survives_family {ι : Type*} {properties : ι → Live State Signal → Prop}
    (harrive : ∀ index, Unforeseeing (properties index))
    (hhandlers : ∀ depth, (∀ index, Survives (lookFor handler depth) (properties index)) →
      ∀ index, KeptByTraps (lookFor handler depth) handler (properties index))
    (depth : ℕ) (index : ι) : Survives (lookFor handler depth) (properties index) :=
  survivesOr_family harrive (fun depth hsurvives index => (hhandlers depth hsurvives index).or)
    depth index

theorem survivesOr_of_handlers {ends : Live State Signal → Prop} (harrive : Unforeseeing property)
    (hhandlers : ∀ depth, SurvivesOr (lookFor handler depth) property ends →
      KeptByTrapsOr (lookFor handler depth) handler property ends) (depth : ℕ) :
    SurvivesOr (lookFor handler depth) property ends := by
  have hfamily : ∀ _ : Unit, SurvivesOr (lookFor handler depth) property ends :=
    survivesOr_family (fun _ => harrive)
      (fun depth hsurvives _ => hhandlers depth (hsurvives ())) depth
  exact hfamily ()

theorem survives_of_handlers (harrive : Unforeseeing property)
    (hhandlers : ∀ depth, Survives (lookFor handler depth) property →
      KeptByTraps (lookFor handler depth) handler property) (depth : ℕ) :
    Survives (lookFor handler depth) property :=
  survivesOr_of_handlers harrive (fun depth hsurvives => (hhandlers depth hsurvives).or) depth

/-- A calm property that every command of the traps keeps survives them. -/
theorem survives_lookFor (hcalm : Calm property)
    (hhandlers : ∀ signal, (handler signal).Each (Keeping property)) (depth : ℕ) :
    Survives (lookFor handler depth) property := by
  refine survives_of_handlers hcalm.arrive (fun depth hsurvives signal live hlive hcaught => ?_)
    depth
  have hkept := preserves_interrupted hsurvives (hhandlers signal) true _
    (hcalm.enter live signal hlive hcaught)
  exact ⟨hkept, hcalm.resume _ _ hkept⟩

/-! ### Traps that miss their moment -/

theorem survives_missed (depth : ℕ) : Survives (lookFor handler depth) (Missed fits) :=
  survives_lookFor calm_missed
    (fun _ => Program.Each.of_forall (fun _ _ _ _ _ hlive => hlive) _) depth

/-- What has been missed stays missed. -/
theorem preserves_missed (depth : ℕ) (program : Program State Signal) :
    Command.Preserves (Missed fits) (interrupted (lookFor handler depth) program) :=
  preserves_interrupted (survives_missed depth)
    (Program.Each.of_forall (fun _ _ _ _ _ hlive => hlive) program)

/-- Where no moment fits, nothing needs to survive the traps. -/
theorem survivesOr_of_unfit (harrive : Unforeseeing property)
    (hunfit : ∀ live signal, property live → signal ∈ live.caught →
      ¬ fits ⟨signal, live.line, live.state⟩) (depth : ℕ) :
    SurvivesOr (lookFor handler depth) (fun live => Missed fits live ∨ property live)
      (Missed fits) := by
  have hunforeseeing : Unforeseeing fun live => Missed fits live ∨ property live :=
    fun live later hlive => Or.imp_right (harrive live later) hlive
  refine survivesOr_of_handlers hunforeseeing (fun depth _ signal live hlive hcaught => ?_) depth
  have henter : Missed fits (live.enter signal) := by
    rcases hlive with hmissed | hproperty
    · exact calm_missed.enter live signal hmissed hcaught
    · exact missed_enter (hunfit live signal hproperty hcaught)
  have hkept : Missed fits
      (interrupted (lookFor handler depth) (handler signal) true (live.enter signal)).state :=
    preserves_missed depth (handler signal) true _ henter
  exact (Outcome.meets_always.mpr hkept).mono (fun _ => .inl) (fun _ => .inl) (fun _ => .inl)
    fun _ => id

theorem survives_of_unfit (harrive : Unforeseeing property)
    (hunfit : ∀ live signal, property live → signal ∈ live.caught →
      ¬ fits ⟨signal, live.line, live.state⟩) (depth : ℕ) :
    Survives (lookFor handler depth) fun live => Missed fits live ∨ property live :=
  (survivesOr_of_unfit harrive hunfit depth).mono fun _ => .inl

/-- Where a moment has been missed, nothing more is wanted. -/
theorem SurvivesOr.missed_or {depth : ℕ} {ends : Live State Signal → Prop}
    (hsurvives : SurvivesOr (lookFor handler depth) property ends) :
    SurvivesOr (lookFor handler depth) (fun live => Missed fits live ∨ property live)
      fun live => Missed fits live ∨ ends live := by
  rintro live (hmissed | hproperty)
  · exact (survives_missed depth live hmissed).mono (fun _ => .inl) (fun _ => id) (fun _ => id)
      fun _ => .inl
  · exact (hsurvives live hproperty).mono (fun _ => .inr) (fun _ => id) (fun _ => id)
      fun _ => .inr

theorem Survives.missed_or {depth : ℕ} (hsurvives : Survives (lookFor handler depth) property) :
    Survives (lookFor handler depth) fun live => Missed fits live ∨ property live :=
  SurvivesOr.missed_or hsurvives

end Survival

end TizenRoblox.Shell
