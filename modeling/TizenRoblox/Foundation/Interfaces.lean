/-
# Interfaces of libraries

A client uses a library through an interface. A call lets calls reach the library,
gives the client a result and changes the memory that client and library share. What
is observed of a session is what has reached the library and what the client got.

Two interfaces that agree on the calls of a session are observed to do the same
(`observe_congr`). Where one of them either agrees with the other or lets nothing
through, the observations tell them apart as soon as a call is not let through
(`observe_eq_iff`).

What libraries in C have in common comes last: the loader that finds their functions, and
calls whose arguments and results are passed in registers.
-/

import Mathlib.Data.List.Count
import TizenRoblox.Foundation.Bytes

namespace TizenRoblox.Foundation

universe u v w x

/-! ## Sessions -/

/-- What one call does. -/
structure Effect (Reached : Type u) (Result : Type v) (Memory : Type w) where
  reached : List Reached
  result : Result
  memory : Memory

/-- What a session does, apart from what it leaves in memory. -/
@[ext]
structure Observation (Reached : Type u) (Result : Type v) where
  reached : List Reached
  results : List Result

section Sessions

variable {Call : Type x} {Reached : Type u} {Result : Type v} {Memory : Type w}

/-- A session: the calls of a client, one after the other. -/
def observe (interface : Call → Memory → Effect Reached Result Memory) :
    List Call → Memory → Observation Reached Result
  | [], _ => ⟨[], []⟩
  | call :: rest, memory =>
    let effect := interface call memory
    let later := observe interface rest effect.memory
    ⟨effect.reached ++ later.reached, effect.result :: later.results⟩

variable {shim direct : Call → Memory → Effect Reached Result Memory} {calls : List Call}

/-- Interfaces that agree on every call of a session agree on the session. -/
theorem observe_congr (hagree : ∀ call ∈ calls, shim call = direct call) (memory : Memory) :
    observe shim calls memory = observe direct calls memory := by
  induction calls generalizing memory with
  | nil => rfl
  | cons call rest ih =>
      have hcall := hagree call List.mem_cons_self
      have hrest := ih (fun later hlater => hagree later (List.mem_cons_of_mem call hlater))
      simp only [observe, hcall, hrest]

/-- As many calls reach the library as the interface lets through. -/
theorem length_reached {forwards : Call → Bool}
    (hforwards : ∀ call memory,
      (shim call memory).reached.length = if forwards call then 1 else 0)
    (memory : Memory) :
    (observe shim calls memory).reached.length = calls.countP forwards := by
  induction calls generalizing memory with
  | nil => rfl
  | cons call rest ih =>
      simp only [observe, List.length_append, hforwards call memory, ih, List.countP_cons]
      exact Nat.add_comm _ _

/-- An interface that either does what the direct use does or lets nothing through
is told from it by the first call that it does not let through. -/
theorem observe_eq_iff {forwards : Call → Bool}
    (hforwards : ∀ call, forwards call = true → shim call = direct call)
    (hsilent : ∀ call memory, forwards call = false → (shim call memory).reached = [])
    (hdirect : ∀ call memory, (direct call memory).reached.length = 1) (memory : Memory) :
    observe shim calls memory = observe direct calls memory ↔
      ∀ call ∈ calls, forwards call = true := by
  constructor
  · intro hsame
    have hshim : ∀ call memory,
        (shim call memory).reached.length = if forwards call then 1 else 0 := by
      intro call memory
      cases hcall : forwards call with
      | true => simpa [hforwards call hcall] using hdirect call memory
      | false => simp [hsilent call memory hcall]
    have hcount : calls.countP forwards = calls.length := by
      calc calls.countP forwards
          = (observe shim calls memory).reached.length := (length_reached hshim memory).symm
        _ = (observe direct calls memory).reached.length := by rw [hsame]
        _ = calls.countP (fun _ => true) := length_reached (by simpa using hdirect) memory
        _ = calls.length := by simp
    exact List.countP_eq_length.mp hcount
  · intro hall
    exact observe_congr (fun call hcall => hforwards call (hall call hcall)) memory

/-! ### What reaches the library along a session -/

variable {interface : Call → Memory → Effect Reached Result Memory}

/-- Every call of a session meets the guard in the memory that it finds. -/
def Along (interface : Call → Memory → Effect Reached Result Memory)
    (guard : Memory → Call → Prop) : List Call → Memory → Prop
  | [], _ => True
  | call :: rest, memory =>
    guard memory call ∧ Along interface guard rest (interface call memory).memory

instance decidableAlong {guard : Memory → Call → Prop}
    [∀ memory call, Decidable (guard memory call)] :
    ∀ calls memory, Decidable (Along interface guard calls memory)
  | [], _ => .isTrue trivial
  | call :: rest, memory =>
    @instDecidableAnd (guard memory call) (Along interface guard rest _) inferInstance
      (decidableAlong rest (interface call memory).memory)

/-- Where every call of a session is lawful under a condition on the call, by an
invariant of the memory, the session is lawful under the condition on its calls. -/
theorem reached_lawful_iff {property : Memory → Prop} {guard : Memory → Call → Prop}
    {lawful : Reached → Prop} {allowed : Call → Prop}
    (hkeeps : ∀ call memory, property memory → guard memory call →
      property (interface call memory).memory)
    (hcall : ∀ call memory, property memory → guard memory call →
      ((∀ deed ∈ (interface call memory).reached, lawful deed) ↔ allowed call))
    {memory : Memory} (hproperty : property memory)
    (halong : Along interface guard calls memory) :
    (∀ deed ∈ (observe interface calls memory).reached, lawful deed) ↔
      ∀ call ∈ calls, allowed call := by
  induction calls generalizing memory with
  | nil => simp [observe]
  | cons call rest ih =>
      obtain ⟨hguard, hrest⟩ := halong
      have hlater := ih (hkeeps call memory hproperty hguard) hrest
      simp only [observe, List.mem_append, or_imp, forall_and, List.mem_cons, forall_eq,
        hcall call memory hproperty hguard, hlater]

end Sessions

/-! ## Loading -/

/-- The dynamic loader: what `dlopen` of a path and `dlsym` of a symbol find. -/
structure Loader (Handle : Type u) (Symbol : Type v) (Function : Type w) where
  dlopen : Bytes → Option Handle
  dlsym : Handle → Symbol → Option Function

namespace Loader

variable {Handle : Type u} {Symbol : Type v} {Function : Type w}

/-- The first of several paths at which there is a library. -/
def openFirst (loader : Loader Handle Symbol Function) (paths : List Bytes) : Option Handle :=
  paths.findSome? loader.dlopen

/-- A function of a library that may not be there. -/
def find (loader : Loader Handle Symbol Function) (library : Option Handle) (symbol : Symbol) :
    Option Function :=
  library.bind fun handle => loader.dlsym handle symbol

/-- Where no library opens, no function is found. -/
theorem find_openFirst_none {loader : Loader Handle Symbol Function} {paths : List Bytes}
    (hnone : ∀ path ∈ paths, loader.dlopen path = none) (symbol : Symbol) :
    loader.find (loader.openFirst paths) symbol = none := by
  rw [openFirst, List.findSome?_eq_none_iff.mpr hnone]
  rfl

end Loader

/-! ## Calls in registers -/

/-- An argument or a result as it is passed in a register. -/
abbrev Word := BitVec 64

/-- What a client gets from a C function: nothing if it is `void`, a word, or a text that
stands in for the library's. -/
inductive Result
  | void
  | word (value : Word)
  | text (bytes : Bytes)
  deriving DecidableEq

def null : Result := .word 0

/-- A function of a library: it may do anything to the memory it shares with the client, its
own state included. -/
abbrev CFunction (Memory : Type w) := List Word → Memory → Word × Memory

/-- What a call does where the client is linked with the library itself: it reaches the
function that it means, and gets what that returns. -/
def linked {Call : Type x} {Symbol : Type v} {Memory : Type w} (isVoid : Symbol → Bool)
    (meant : Call → Symbol × List Word) (system : Symbol → CFunction Memory) (call : Call)
    (memory : Memory) : Effect (Symbol × List Word) Result Memory :=
  let (symbol, arguments) := meant call
  let (value, after) := system symbol arguments memory
  ⟨[(symbol, arguments)], if isVoid symbol then .void else .word value, after⟩

end TizenRoblox.Foundation
