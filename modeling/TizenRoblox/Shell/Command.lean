/-
# Shell commands under `set -e`

A command runs in one of two contexts. Where its status is tested (a condition,
a non-final part of a `&&` or `||` list) a failure is just a status. Everywhere
else the shell runs under `set -e` and a simple command or a function call that
fails ends the script. The context is the Boolean every command receives; the
compound commands below pass it on, or switch it off for the parts they test.

`return`, `break` and `exit` travel outwards as outcomes of their own until the
function call, the loop or the script they concern takes them up. A foreground
program that never ends blocks the script.

The rules at the end say when a command *passes*, that is, lets the script go on
in a given state; they are all that a proof about a long script needs, since
what a script does up to a failing command is what its passing commands did.
-/

import Mathlib.Data.List.Basic

namespace TizenRoblox.Shell

universe u v

/-- How a command leaves the shell. -/
inductive Outcome (State : Type u)
  | done (status : ℕ) (state : State)
  | returned (status : ℕ) (state : State)
  | broken (levels : ℕ) (state : State)
  | exited (status : ℕ) (state : State)
  | blocked (state : State)

variable {State : Type u} {α : Type v}

/-- The state an outcome carries. -/
def Outcome.state : Outcome State → State
  | .done _ state => state
  | .returned _ state => state
  | .broken _ state => state
  | .exited _ state => state
  | .blocked state => state

/-- The script goes on, at most that many loops further out, with the property. -/
def Outcome.Within (levels : ℕ) (property : State → Prop) : Outcome State → Prop
  | .done _ state => property state
  | .broken left state => 1 ≤ left ∧ left ≤ levels ∧ property state
  | _ => False

/-- The script goes on in one of two ways. -/
theorem Outcome.Within.cases {levels : ℕ} {property : State → Prop} {outcome : Outcome State}
    (hwithin : outcome.Within levels property) :
    (∃ status state, outcome = .done status state ∧ property state) ∨
      ∃ left state, outcome = .broken left state ∧ 1 ≤ left ∧ left ≤ levels ∧ property state := by
  cases outcome with
  | done status state => exact Or.inl ⟨status, state, rfl, hwithin⟩
  | broken left state => exact Or.inr ⟨left, state, rfl, hwithin⟩
  | returned status state => exact hwithin.elim
  | exited status state => exact hwithin.elim
  | blocked state => exact hwithin.elim

/-- A command: `true` is the context in which a failure ends the script. -/
abbrev Command (State : Type u) := Bool → State → Outcome State

namespace Command

/-- A simple command, from its effect and its status. -/
def simple (run : State → State × ℕ) : Command State := fun strict state =>
  let (next, status) := run state
  if strict ∧ status ≠ 0 then .exited status next else .done status next

/-- A simple command that cannot fail. -/
def act (run : State → State) : Command State := simple fun state => (run state, 0)

/-- A simple command that may fail, leaving the state as it was. -/
def attempt (run : State → Option State) : Command State := simple fun state =>
  match run state with
  | some next => (next, 0)
  | none => (state, 1)

/-- `[ condition ]` -/
def test (condition : State → Bool) : Command State := simple fun state =>
  (state, if condition state then 0 else 1)

/-- `:` -/
def skip : Command State := act id

/-- `exit status` -/
def exit (status : ℕ) : Command State := fun _ state => .exited status state

/-- `return status` -/
def ret (status : ℕ) : Command State := fun _ state => .returned status state

/-- `break levels` -/
def brk (levels : ℕ) : Command State := fun _ state => .broken levels state

/-- `first; second` -/
def seq (first second : Command State) : Command State := fun strict state =>
  match first strict state with
  | .done _ next => second strict next
  | other => other

/-- The commands of a block, one after the other. -/
def block : List (Command State) → Command State
  | [] => skip
  | [command] => command
  | command :: rest => seq command (block rest)

/-- `if condition; then yes; else no; fi` -/
def ifElse (condition yes no : Command State) : Command State := fun strict state =>
  match condition false state with
  | .done 0 next => yes strict next
  | .done _ next => no strict next
  | other => other

/-- `if condition; then yes; fi` -/
def ifThen (condition yes : Command State) : Command State := ifElse condition yes skip

/-- `first && second` -/
def andThen (first second : Command State) : Command State := fun strict state =>
  match first false state with
  | .done 0 next => second strict next
  | other => other

/-- `first || second` -/
def orElse (first second : Command State) : Command State := fun strict state =>
  match first false state with
  | .done 0 next => .done 0 next
  | .done _ next => second strict next
  | other => other

/-- `! command` -/
def negate (command : Command State) : Command State := fun _ state =>
  match command false state with
  | .done 0 next => .done 1 next
  | .done _ next => .done 0 next
  | other => other

/-- `command || true` -/
def orTrue (command : Command State) : Command State := orElse command skip

/-- A function call: a simple command whose status the body returns. -/
def call (body : Command State) : Command State := fun strict state =>
  match body strict state with
  | .done status next | .returned status next =>
      if strict ∧ status ≠ 0 then .exited status next else .done status next
  | other => other

/-- A script of its own, without `set -e`: for its caller it is one simple command. -/
def subshell (body : Command State) : Command State := fun strict state =>
  match body false state with
  | .done status next | .returned status next | .exited status next =>
      if strict ∧ status ≠ 0 then .exited status next else .done status next
  | other => other

/-- The rest of a `for` loop whose last body ended with `status`. -/
def forFrom (body : α → Command State) : ℕ → List α → Command State
  | status, [], _, state => .done status state
  | _, item :: rest, strict, state =>
    match body item strict state with
    | .done status next => forFrom body status rest strict next
    | .broken 0 next | .broken 1 next => .done 0 next
    | .broken (levels + 2) next => .broken (levels + 1) next
    | other => other

/-- `for item in items; do body; done` -/
def forEach (items : List α) (body : α → Command State) : Command State :=
  forFrom body 0 items

/-- `while condition; do body; done`, for at most `fuel` turns: a loop that has
used them up counts as blocked. -/
def whileDo (condition body : Command State) : ℕ → Command State
  | 0, _, state => .blocked state
  | fuel + 1, strict, state =>
    match condition false state with
    | .done 0 next =>
      match body strict next with
      | .done _ later => whileDo condition body fuel strict later
      | .broken 0 later | .broken 1 later => .done 0 later
      | .broken (levels + 2) later => .broken (levels + 1) later
      | other => other
    | .done _ next => .done 0 next
    | other => other

/-! ## Passing -/

/-- The command ends and the script goes on after it. -/
def Passes (command : Command State) (strict : Bool) (source target : State) : Prop :=
  ∃ status, command strict source = .done status target

section Rules

variable {first second : Command State} {strict : Bool} {source middle target : State}

theorem passes_act (run : State → State) (strict : Bool) (state : State) :
    Passes (act run) strict state (run state) :=
  ⟨0, by simp [act, simple]⟩

@[simp]
theorem act_eq (run : State → State) (strict : Bool) (state : State) :
    act run strict state = .done 0 (run state) := by
  simp [act, simple]

@[simp]
theorem skip_eq (strict : Bool) (state : State) :
    skip strict state = .done 0 state := by
  simp [skip]

theorem seq_assoc (first second third : Command State) :
    seq (seq first second) third = seq first (seq second third) := by
  funext strict state
  unfold seq
  cases first strict state <;> rfl

@[simp]
theorem skip_seq (command : Command State) : seq skip command = command := by
  funext strict state
  simp [seq]

theorem act_seq_act (first second : State → State) :
    seq (act first) (act second) = act fun state => second (first state) := by
  funext strict state
  simp [seq]

/-- Where its status is tested, a simple command passes whatever its status. -/
theorem simple_tested (run : State → State × ℕ) (state : State) :
    simple run false state = .done (run state).2 (run state).1 := by
  simp [simple]

theorem simple_of_zero {run : State → State × ℕ} (hzero : (run source).2 = 0) (strict : Bool) :
    simple run strict source = .done 0 (run source).1 := by
  simp [simple, hzero]

/-- In whatever way a simple command ends, its effect is done. -/
theorem simple_state (run : State → State × ℕ) (strict : Bool) (state : State) :
    (simple run strict state).state = (run state).1 := by
  unfold simple
  split
  simp only [*]
  split <;> rfl

/-- Under `set -e` the script goes on after a simple command that succeeds. -/
theorem simple_eq_done {run : State → State × ℕ} {status : ℕ}
    (hdone : simple run true source = .done status target) : run source = (target, 0) := by
  rcases hrun : run source with ⟨next, code⟩
  simp only [simple, hrun, true_and] at hdone
  split at hdone
  · cases hdone
  · next hzero =>
      cases hdone
      rw [not_not.mp hzero]

theorem eq_some_of_attempt {run : State → Option State} {status : ℕ}
    (hdone : attempt run true source = .done status target) : run source = some target := by
  have hrun := simple_eq_done hdone
  cases hnext : run source with
  | none => simp [hnext] at hrun
  | some next => simpa [hnext] using hrun

@[simp]
theorem test_tested (condition : State → Bool) (state : State) :
    test condition false state = .done (if condition state then 0 else 1) state := by
  simp [test, simple]

theorem attempt_eq_done {run : State → Option State} (hrun : run source = some target)
    (strict : Bool) : attempt run strict source = .done 0 target := by
  simp [attempt, simple, hrun]

/-- A passing command hands over to the next one. -/
theorem seq_of_passes (hfirst : Passes first strict source middle) :
    seq first second strict source = second strict middle := by
  obtain ⟨status, hstatus⟩ := hfirst
  simp [seq, hstatus]

/-- A sequence that passes has passed its first command. -/
theorem seq_eq_done {status : ℕ} (hseq : seq first second strict source = .done status target) :
    ∃ code middle, first strict source = .done code middle ∧
      second strict middle = .done status target := by
  unfold seq at hseq
  split at hseq
  · next code middle hfirst => exact ⟨code, middle, hfirst, hseq⟩
  · next hother => exact absurd hseq (hother status target)

/-- A command that ends the script ends the sequence it starts. -/
theorem seq_of_exited {status : ℕ} (hfirst : first strict source = .exited status middle) :
    seq first second strict source = .exited status middle := by
  simp [seq, hfirst]

theorem Passes.seq (hfirst : Passes first strict source middle)
    (hsecond : Passes second strict middle target) :
    Passes (Command.seq first second) strict source target := by
  rw [Passes, seq_of_passes hfirst]
  exact hsecond

theorem block_cons_of_passes (rest : List (Command State)) (hrest : rest ≠ [])
    (hfirst : Passes first strict source middle) :
    block (first :: rest) strict source = block rest strict middle := by
  obtain ⟨next, later, rfl⟩ := List.exists_cons_of_ne_nil hrest
  exact seq_of_passes hfirst

theorem Passes.block_cons {rest : List (Command State)} (hfirst : Passes first strict source middle)
    (hrest : rest ≠ []) (hpasses : Passes (block rest) strict middle target) :
    Passes (block (first :: rest)) strict source target := by
  rw [Passes, block_cons_of_passes rest hrest hfirst]
  exact hpasses

theorem block_cons_of_exited {status : ℕ} (rest : List (Command State))
    (hfirst : first strict source = .exited status target) :
    block (first :: rest) strict source = .exited status target := by
  cases rest with
  | nil => exact hfirst
  | cons next later => exact seq_of_exited hfirst

/-- An `if` is its `then` branch where the tested condition holds. -/
theorem ifElse_test_true {condition : State → Bool} {yes no : Command State}
    (hcondition : condition source = true) :
    ifElse (test condition) yes no strict source = yes strict source := by
  simp [ifElse, hcondition]

theorem ifElse_test_false {condition : State → Bool} {yes no : Command State}
    (hcondition : condition source = false) :
    ifElse (test condition) yes no strict source = no strict source := by
  simp [ifElse, hcondition]

/-- `command || true` passes as soon as the command ends. -/
theorem Passes.orTrue (hcommand : Passes first false source target) (strict : Bool) :
    Passes (Command.orTrue first) strict source target := by
  obtain ⟨status, hstatus⟩ := hcommand
  cases status with
  | zero => exact ⟨0, by simp [Command.orTrue, orElse, hstatus]⟩
  | succ status => exact ⟨0, by simp [Command.orTrue, orElse, hstatus]⟩

/-! ### Searching loops

A `for` loop whose body is an `if` that leaves the loop runs the branch of the
first item that meets the condition, in the state the loop started from. -/

variable (meets : α → State → Bool) {branch : α → Command State} {items : List α} {item : α}

theorem forFrom_search_none (hnone : items.find? (meets · source) = none) :
    forFrom (fun item => ifThen (test (meets item)) (branch item)) 0 items strict source =
      .done 0 source := by
  induction items with
  | nil => rfl
  | cons head rest ih =>
      rw [List.find?_cons] at hnone
      cases hhead : meets head source with
      | true => simp [hhead] at hnone
      | false =>
          simp only [hhead] at hnone
          simp only [forFrom, ifThen, ifElse_test_false hhead, skip_eq]
          exact ih hnone

/-- The loop leaves as the branch of the item it finds leaves it. -/
private theorem forFrom_search_some (hfind : items.find? (meets · source) = some item) :
    forFrom (fun item => ifThen (test (meets item)) (branch item)) 0 items strict source =
      forFrom (fun item => ifThen (test (meets item)) (branch item)) 0
        (item :: (items.dropWhile (!meets · source)).tail) strict source := by
  induction items with
  | nil => simp at hfind
  | cons head rest ih =>
      rw [List.find?_cons] at hfind
      cases hhead : meets head source with
      | true =>
          simp only [hhead, Option.some.injEq] at hfind
          subst hfind
          simp [hhead]
      | false =>
          simp only [hhead] at hfind
          rw [forFrom, ifThen, ifElse_test_false hhead, skip_eq]
          simpa [hhead] using ih hfind

theorem forFrom_search_returned {status : ℕ}
    (hfind : items.find? (meets · source) = some item)
    (hbranch : branch item strict source = .returned status target) :
    forFrom (fun item => ifThen (test (meets item)) (branch item)) 0 items strict source =
      .returned status target := by
  have hmeets : meets item source = true := by simpa using List.find?_some hfind
  rw [forFrom_search_some meets hfind]
  simp only [forFrom, ifThen, ifElse_test_true hmeets, hbranch]

theorem forFrom_search_exited {status : ℕ}
    (hfind : items.find? (meets · source) = some item)
    (hbranch : branch item strict source = .exited status target) :
    forFrom (fun item => ifThen (test (meets item)) (branch item)) 0 items strict source =
      .exited status target := by
  have hmeets : meets item source = true := by simpa using List.find?_some hfind
  rw [forFrom_search_some meets hfind]
  simp only [forFrom, ifThen, ifElse_test_true hmeets, hbranch]

theorem forFrom_search_broken (hfind : items.find? (meets · source) = some item)
    (hbranch : branch item strict source = .broken 1 target) :
    forFrom (fun item => ifThen (test (meets item)) (branch item)) 0 items strict source =
      .done 0 target := by
  have hmeets : meets item source = true := by simpa using List.find?_some hfind
  rw [forFrom_search_some meets hfind]
  simp only [forFrom, ifThen, ifElse_test_true hmeets, hbranch]

end Rules

/-! ## Keeping a property

Most commands of a script matter to a proof only in that they let the script go
on and leave some property of the state as it was. A command may leave that many
enclosing loops by `break`; with no loop to leave it passes. -/

section Keeping

/-- In the given context the command keeps the property. -/
def KeepsIn (strict : Bool) (levels : ℕ) (property : State → Prop)
    (command : Command State) : Prop :=
  ∀ state, property state → (command strict state).Within levels property

/-- The command keeps the property whether or not its status is tested. -/
def Keeps (levels : ℕ) (property : State → Prop) (command : Command State) : Prop :=
  ∀ strict, KeepsIn strict levels property command

variable {levels : ℕ} {property : State → Prop} {strict : Bool}
  {first second condition yes no : Command State}

/-- Outside every loop, to keep a property is to pass with it. -/
theorem KeepsIn.passes (hkeeps : KeepsIn strict 0 property first) (source : State)
    (hsource : property source) :
    ∃ target, property target ∧ Passes first strict source target := by
  rcases (hkeeps source hsource).cases with
    ⟨status, target, houtcome, htarget⟩ | ⟨left, target, _, hpos, hzero, _⟩
  · exact ⟨target, htarget, status, houtcome⟩
  · omega

theorem keeps_act {run : State → State} (hrun : ∀ state, property state → property (run state)) :
    Keeps levels property (act run) := by
  intro strict state hstate
  simpa [Outcome.Within] using hrun state hstate

theorem keeps_skip : Keeps levels property (skip : Command State) :=
  keeps_act fun _ hstate => hstate

theorem keepsIn_simple {run : State → State × ℕ}
    (hrun : ∀ state, property state → property (run state).1) :
    KeepsIn false levels property (simple run) := by
  intro state hstate
  simpa [simple_tested, Outcome.Within] using hrun state hstate

theorem keepsIn_test {condition : State → Bool} :
    KeepsIn false levels property (test condition) :=
  keepsIn_simple fun _ hstate => hstate

theorem keepsIn_attempt {run : State → Option State}
    (hrun : ∀ state next, property state → run state = some next → property next) :
    KeepsIn false levels property (attempt run) := by
  apply keepsIn_simple
  intro state hstate
  cases hnext : run state with
  | none => exact hstate
  | some next => exact hrun state next hstate hnext

theorem keeps_brk {left : ℕ} (hpos : 1 ≤ left) (hleft : left ≤ levels) :
    Keeps levels property (brk left : Command State) :=
  fun _ _ hstate => ⟨hpos, hleft, hstate⟩

theorem KeepsIn.seq (hfirst : KeepsIn strict levels property first)
    (hsecond : KeepsIn strict levels property second) :
    KeepsIn strict levels property (Command.seq first second) := by
  intro state hstate
  rcases (hfirst state hstate).cases with
    ⟨status, next, houtcome, hnext⟩ | ⟨left, next, houtcome, hbroken⟩
  · simpa only [Command.seq, houtcome] using hsecond next hnext
  · simpa only [Command.seq, houtcome, Outcome.Within] using hbroken

theorem keeps_block {commands : List (Command State)}
    (hcommands : commands.Forall (Keeps levels property)) :
    Keeps levels property (block commands) := by
  intro strict
  induction commands with
  | nil => exact keeps_skip strict
  | cons command rest ih =>
      obtain ⟨hhead, hrest⟩ := (List.forall_cons _ _ _).mp hcommands
      cases rest with
      | nil => exact hhead strict
      | cons next later => exact (hhead strict).seq (ih hrest)

theorem KeepsIn.ifElse (hcondition : KeepsIn false levels property condition)
    (hyes : KeepsIn strict levels property yes) (hno : KeepsIn strict levels property no) :
    KeepsIn strict levels property (Command.ifElse condition yes no) := by
  intro state hstate
  rcases (hcondition state hstate).cases with
    ⟨_ | status, next, houtcome, hnext⟩ | ⟨left, next, houtcome, hbroken⟩
  · simpa only [Command.ifElse, houtcome] using hyes next hnext
  · simpa only [Command.ifElse, houtcome] using hno next hnext
  · simpa only [Command.ifElse, houtcome, Outcome.Within] using hbroken

theorem keeps_ifElse (hcondition : KeepsIn false levels property condition)
    (hyes : Keeps levels property yes) (hno : Keeps levels property no) :
    Keeps levels property (ifElse condition yes no) :=
  fun strict => hcondition.ifElse (hyes strict) (hno strict)

theorem keeps_ifThen (hcondition : KeepsIn false levels property condition)
    (hyes : Keeps levels property yes) : Keeps levels property (ifThen condition yes) :=
  keeps_ifElse hcondition hyes keeps_skip

theorem KeepsIn.andThen (hfirst : KeepsIn false levels property first)
    (hsecond : KeepsIn strict levels property second) :
    KeepsIn strict levels property (Command.andThen first second) := by
  intro state hstate
  rcases (hfirst state hstate).cases with
    ⟨_ | status, next, houtcome, hnext⟩ | ⟨left, next, houtcome, hbroken⟩
  · simpa only [Command.andThen, houtcome] using hsecond next hnext
  · simpa only [Command.andThen, houtcome, Outcome.Within] using hnext
  · simpa only [Command.andThen, houtcome, Outcome.Within] using hbroken

theorem KeepsIn.orElse (hfirst : KeepsIn false levels property first)
    (hsecond : KeepsIn strict levels property second) :
    KeepsIn strict levels property (Command.orElse first second) := by
  intro state hstate
  rcases (hfirst state hstate).cases with
    ⟨_ | status, next, houtcome, hnext⟩ | ⟨left, next, houtcome, hbroken⟩
  · simpa only [Command.orElse, houtcome, Outcome.Within] using hnext
  · simpa only [Command.orElse, houtcome] using hsecond next hnext
  · simpa only [Command.orElse, houtcome, Outcome.Within] using hbroken

/-- `command || true` passes whatever the status of the command. -/
theorem keeps_orTrue (hfirst : KeepsIn false levels property first) :
    Keeps levels property (orTrue first) :=
  fun strict => hfirst.orElse (keeps_skip strict)

theorem KeepsIn.negate (hfirst : KeepsIn false levels property first) :
    KeepsIn strict levels property (Command.negate first) := by
  intro state hstate
  rcases (hfirst state hstate).cases with
    ⟨_ | status, next, houtcome, hnext⟩ | ⟨left, next, houtcome, hbroken⟩
  · simpa only [Command.negate, houtcome, Outcome.Within] using hnext
  · simpa only [Command.negate, houtcome, Outcome.Within] using hnext
  · simpa only [Command.negate, houtcome, Outcome.Within] using hbroken

private theorem keepsIn_forFrom {body : α → Command State} (items : List α)
    (hbody : ∀ item ∈ items, KeepsIn strict (levels + 1) property (body item)) (status : ℕ) :
    KeepsIn strict levels property (forFrom body status items) := by
  induction items generalizing status with
  | nil => exact fun _ hstate => hstate
  | cons item rest ih =>
      intro state hstate
      have htail := fun code => ih (fun later hlater => hbody later (by simp [hlater])) code
      rcases (hbody item (by simp) state hstate).cases with
        ⟨code, next, houtcome, hnext⟩ | ⟨left, next, houtcome, hpos, hleft, hnext⟩
      · simpa only [forFrom, houtcome] using htail code next hnext
      · match left, hpos, hleft with
        | 1, _, _ => simpa only [forFrom, houtcome, Outcome.Within] using hnext
        | left + 2, _, hleft =>
            simp only [forFrom, houtcome]
            exact ⟨by omega, by omega, hnext⟩

/-- A loop gives its body one more loop to break out of. -/
theorem keeps_forEach {items : List α} {body : α → Command State}
    (hbody : ∀ item ∈ items, Keeps (levels + 1) property (body item)) :
    Keeps levels property (forEach items body) :=
  fun strict => keepsIn_forFrom items (fun item hitem => hbody item hitem strict) 0

end Keeping

/-! ## Preserving a property

What holds of the state however the command leaves the shell. -/

section Preserving

/-- Whatever its outcome, the command leaves the property true. -/
def Preserves (property : State → Prop) (command : Command State) : Prop :=
  ∀ strict state, property state → property (command strict state).state

variable {property : State → Prop} {first second condition yes no body : Command State}

theorem Preserves.of_done {strict : Bool} {source target : State} {status : ℕ}
    (hfirst : Preserves property first) (hdone : first strict source = .done status target)
    (hsource : property source) : property target := by
  have htarget := hfirst strict source hsource
  rwa [hdone] at htarget

theorem preserves_simple {run : State → State × ℕ}
    (hrun : ∀ state, property state → property (run state).1) :
    Preserves property (simple run) := by
  intro strict state hstate
  have hnext := hrun state hstate
  rcases hresult : run state with ⟨next, status⟩
  rw [hresult] at hnext
  simp only [simple, hresult]
  split
  · exact hnext
  · exact hnext

theorem preserves_act {run : State → State}
    (hrun : ∀ state, property state → property (run state)) : Preserves property (act run) :=
  preserves_simple hrun

theorem preserves_test {condition : State → Bool} : Preserves property (test condition) :=
  preserves_simple fun _ hstate => hstate

theorem preserves_attempt {run : State → Option State}
    (hrun : ∀ state next, property state → run state = some next → property next) :
    Preserves property (attempt run) := by
  apply preserves_simple
  intro state hstate
  cases hnext : run state with
  | none => exact hstate
  | some next => exact hrun state next hstate hnext

theorem preserves_skip : Preserves property (skip : Command State) :=
  preserves_act fun _ hstate => hstate

theorem preserves_exit (status : ℕ) : Preserves property (exit status : Command State) :=
  fun _ _ hstate => hstate

theorem preserves_ret (status : ℕ) : Preserves property (ret status : Command State) :=
  fun _ _ hstate => hstate

theorem preserves_brk (levels : ℕ) : Preserves property (brk levels : Command State) :=
  fun _ _ hstate => hstate

theorem Preserves.seq (hfirst : Preserves property first) (hsecond : Preserves property second) :
    Preserves property (Command.seq first second) := by
  intro strict state hstate
  have hnext := hfirst strict state hstate
  unfold Command.seq
  split
  · next houtcome =>
      rw [houtcome] at hnext
      exact hsecond strict _ hnext
  · exact hnext

theorem preserves_call (hbody : Preserves property body) : Preserves property (call body) := by
  intro strict state hstate
  have hnext := hbody strict state hstate
  unfold call
  split
  · next houtcome =>
      rw [houtcome] at hnext
      split <;> exact hnext
  · next houtcome =>
      rw [houtcome] at hnext
      split <;> exact hnext
  · exact hnext

theorem preserves_subshell (hbody : Preserves property body) :
    Preserves property (subshell body) := by
  intro strict state hstate
  have hnext := hbody false state hstate
  unfold subshell
  split
  · next houtcome =>
      rw [houtcome] at hnext
      split <;> exact hnext
  · next houtcome =>
      rw [houtcome] at hnext
      split <;> exact hnext
  · next houtcome =>
      rw [houtcome] at hnext
      split <;> exact hnext
  · exact hnext

theorem preserves_block {commands : List (Command State)}
    (hcommands : commands.Forall (Preserves property)) :
    Preserves property (block commands) := by
  induction commands with
  | nil => exact preserves_skip
  | cons command rest ih =>
      obtain ⟨hhead, hrest⟩ := (List.forall_cons _ _ _).mp hcommands
      cases rest with
      | nil => exact hhead
      | cons next later => exact hhead.seq (ih hrest)

theorem preserves_ifElse (hcondition : Preserves property condition)
    (hyes : Preserves property yes) (hno : Preserves property no) :
    Preserves property (ifElse condition yes no) := by
  intro strict state hstate
  have hnext := hcondition false state hstate
  unfold ifElse
  split
  · next houtcome =>
      rw [houtcome] at hnext
      exact hyes strict _ hnext
  · next houtcome =>
      rw [houtcome] at hnext
      exact hno strict _ hnext
  · exact hnext

theorem preserves_ifThen (hcondition : Preserves property condition)
    (hyes : Preserves property yes) : Preserves property (ifThen condition yes) :=
  preserves_ifElse hcondition hyes preserves_skip

theorem Preserves.andThen (hfirst : Preserves property first)
    (hsecond : Preserves property second) :
    Preserves property (Command.andThen first second) := by
  intro strict state hstate
  have hnext := hfirst false state hstate
  unfold Command.andThen
  split
  · next houtcome =>
      rw [houtcome] at hnext
      exact hsecond strict _ hnext
  · exact hnext

theorem Preserves.orElse (hfirst : Preserves property first)
    (hsecond : Preserves property second) :
    Preserves property (Command.orElse first second) := by
  intro strict state hstate
  have hnext := hfirst false state hstate
  unfold Command.orElse
  split
  · next houtcome =>
      rw [houtcome] at hnext
      exact hnext
  · next houtcome =>
      rw [houtcome] at hnext
      exact hsecond strict _ hnext
  · exact hnext

theorem Preserves.orTrue (hfirst : Preserves property first) :
    Preserves property (Command.orTrue first) :=
  hfirst.orElse preserves_skip

theorem Preserves.negate (hfirst : Preserves property first) :
    Preserves property (Command.negate first) := by
  intro strict state hstate
  have hnext := hfirst false state hstate
  unfold Command.negate
  split
  · next houtcome =>
      rw [houtcome] at hnext
      exact hnext
  · next houtcome =>
      rw [houtcome] at hnext
      exact hnext
  · exact hnext

theorem preserves_forEach {items : List α} {body : α → Command State}
    (hbody : ∀ item ∈ items, Preserves property (body item)) :
    Preserves property (forEach items body) := by
  suffices hfrom : ∀ status, Preserves property (forFrom body status items) from hfrom 0
  induction items with
  | nil => exact fun status strict state hstate => hstate
  | cons item rest ih =>
      intro status strict state hstate
      have hnext := hbody item (by simp) strict state hstate
      have htail := ih fun later hlater => hbody later (by simp [hlater])
      unfold forFrom
      split
      · next houtcome =>
          rw [houtcome] at hnext
          exact htail _ strict _ hnext
      all_goals
        first
          | (next houtcome => rw [houtcome] at hnext; exact hnext)
          | exact hnext

theorem preserves_whileDo (hcondition : Preserves property condition)
    (hbody : Preserves property body) (fuel : ℕ) :
    Preserves property (whileDo condition body fuel) := by
  induction fuel with
  | zero => exact fun strict state hstate => hstate
  | succ fuel ih =>
      intro strict state hstate
      have hnext := hcondition false state hstate
      unfold whileDo
      split
      · next next houtcome =>
          rw [houtcome] at hnext
          have hlater : property (body strict next).state := hbody strict next hnext
          split
          · next hagain =>
              rw [hagain] at hlater
              exact ih strict _ hlater
          all_goals
            first
              | (next hagain => rw [hagain] at hlater; exact hlater)
              | exact hlater
      · next houtcome =>
          rw [houtcome] at hnext
          exact hnext
      · exact hnext

end Preserving

/-! ## Establishing a property -/

section Establishing

/-- Whenever the script goes on after the command, the property holds. -/
def Establishes (property : State → Prop) (command : Command State) : Prop :=
  ∀ strict source status target, command strict source = .done status target → property target

variable {property : State → Prop} {first second : Command State}

theorem Establishes.seq (hsecond : Establishes property second) :
    Establishes property (Command.seq first second) := by
  intro strict source status target houtcome
  unfold Command.seq at houtcome
  split at houtcome
  · exact hsecond strict _ status target houtcome
  · next hother => exact absurd houtcome (hother status target)

/-- What the first command has established the second one may keep. -/
theorem Establishes.keep (hfirst : Establishes property first)
    (hsecond : Preserves property second) : Establishes property (Command.seq first second) := by
  intro strict source status target houtcome
  unfold Command.seq at houtcome
  split at houtcome
  · next middle hmiddle =>
      have htarget := hsecond strict middle (hfirst strict source _ middle hmiddle)
      rwa [houtcome] at htarget
  · next hother => exact absurd houtcome (hother status target)

end Establishing

/-! ## Going straight on

Commands without `return`, `break` and `exit` leave the shell in two ways: the script goes on,
or a failure has ended it, and then its status is not 0. -/

section Straight

/-- The script goes on, or has been ended by a failure. -/
def GoesOn : Outcome State → Prop
  | .done _ _ => True
  | .exited status _ => status ≠ 0
  | _ => False

def Straight (command : Command State) : Prop :=
  ∀ strict state, GoesOn (command strict state)

variable {first second condition yes no body : Command State}

theorem straight_simple {run : State → State × ℕ} : Straight (simple run) := by
  intro strict state
  unfold simple
  split
  split
  · next hfails => exact hfails.2
  · trivial

theorem straight_act {run : State → State} : Straight (act run) := straight_simple

theorem straight_skip : Straight (skip : Command State) := straight_act

theorem Straight.seq (hfirst : Straight first) (hsecond : Straight second) :
    Straight (Command.seq first second) := by
  intro strict state
  have hnext := hfirst strict state
  unfold Command.seq
  split
  · exact hsecond strict _
  · exact hnext

theorem straight_block {commands : List (Command State)} (hcommands : commands.Forall Straight) :
    Straight (block commands) := by
  induction commands with
  | nil => exact straight_skip
  | cons command rest ih =>
      obtain ⟨hhead, hrest⟩ := (List.forall_cons _ _ _).mp hcommands
      cases rest with
      | nil => exact hhead
      | cons next later => exact hhead.seq (ih hrest)

theorem straight_ifElse (hcondition : Straight condition) (hyes : Straight yes)
    (hno : Straight no) : Straight (ifElse condition yes no) := by
  intro strict state
  have hnext := hcondition false state
  unfold ifElse
  split
  · exact hyes strict _
  · exact hno strict _
  · exact hnext

theorem straight_ifThen (hcondition : Straight condition) (hyes : Straight yes) :
    Straight (ifThen condition yes) :=
  straight_ifElse hcondition hyes straight_skip

theorem Straight.andThen (hfirst : Straight first) (hsecond : Straight second) :
    Straight (Command.andThen first second) := by
  intro strict state
  have hnext := hfirst false state
  unfold Command.andThen
  split
  · exact hsecond strict _
  · exact hnext

theorem Straight.orElse (hfirst : Straight first) (hsecond : Straight second) :
    Straight (Command.orElse first second) := by
  intro strict state
  have hnext := hfirst false state
  unfold Command.orElse
  split
  · trivial
  · exact hsecond strict _
  · exact hnext

theorem Straight.orTrue (hfirst : Straight first) : Straight (Command.orTrue first) :=
  hfirst.orElse straight_skip

theorem straight_subshell (hbody : Straight body) : Straight (subshell body) := by
  intro strict state
  have hnext := hbody false state
  unfold subshell
  split
  · split
    · next hfails => exact hfails.2
    · trivial
  · split
    · next hfails => exact hfails.2
    · trivial
  · split
    · next hfails => exact hfails.2
    · trivial
  · exact hnext

/-- The status of a script of straight commands. -/
def statusOf : Outcome State → ℕ
  | .done status _ | .returned status _ | .exited status _ => status
  | .broken _ _ | .blocked _ => 0

/-- Such a script ends with 0 only where it has gone on to its end. -/
theorem Straight.eq_done_of_status (hfirst : Straight first) {strict : Bool} {state : State}
    (hstatus : statusOf (first strict state) = 0) :
    ∃ next, first strict state = .done 0 next := by
  have hgoes := hfirst strict state
  match houtcome : first strict state with
  | .done status next =>
      rw [houtcome] at hstatus
      exact ⟨next, congrArg (Outcome.done · next) hstatus⟩
  | .exited status next =>
      rw [houtcome] at hstatus hgoes
      exact absurd hstatus hgoes
  | .returned _ _ | .broken _ _ | .blocked _ =>
      rw [houtcome] at hgoes
      exact hgoes.elim

end Straight

end Command

end TizenRoblox.Shell
