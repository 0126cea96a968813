/-
# Library resolution

The helpers `try_symlink_lib` and `prefer_system_lib` of the launcher, and its
compatibility link for a library whose soname has changed. A lookup is described
three times: as the command in the script, as the pure condition under which it
finds its library, and as the tree it leaves behind. `Lookup.command_eq` says
that the command does what the other two describe, and fails after its warning
when a library it insists on is missing. A line that the log does not take ends
the lookup, and the script, before the link is made (`Lookup.command_refused`).
-/

import TizenRoblox.Launcher.State

namespace TizenRoblox.Launcher

open TizenRoblox.Foundation TizenRoblox.Posix TizenRoblox.Shell TizenRoblox.Shell.Command

/-- `"${LIB_DIR}/${SONAME}"` -/
def inLibDir (libDir soname : Bytes) : Bytes := libDir ++ slash :: soname

section Helpers

variable (world : World) (libDir soname : Bytes) (candidates : List Bytes)

/-- Creates a symlink in `lib/` only if the name is not taken there. -/
def trySymlinkLib : Command State := .call <| .block [
  .ifThen (.orElse (testF world (inLibDir libDir soname)) (testL world (inLibDir libDir soname)))
    (.ret 0),
  .forEach candidates fun candidate =>
    .ifThen (testF world candidate) <| .block [
      echo world (bytes "[launch] Symlinking " ++ soname ++ bytes " → " ++ candidate),
      .orTrue (lnSf world candidate (inLibDir libDir soname)),
      .ret 0],
  echo world (bytes "[launch] WARNING: " ++ soname ++ bytes " not found on this TV"),
  .ret 1]

/-- Always replaces what is in `lib/` by a symlink to the system's library. -/
def preferSystemLib : Command State := .call <| .block [
  .forEach candidates fun candidate =>
    .ifThen (testF world candidate) <| .block [
      echo world (bytes "[launch] Using system " ++ soname ++ bytes " → " ++ candidate),
      .orTrue (lnSf world candidate (inLibDir libDir soname)),
      .ret 0],
  echo world (bytes "[launch] WARNING: " ++ soname ++
    bytes " not found — using built-in stub (display may not work)"),
  .ret 1]

/-- Links an older library of the TV under the name, where the name leads to no
regular file; a missing library is no failure. -/
def compatLink : Command State :=
  .ifThen (.negate (testF world (inLibDir libDir soname))) <|
    .forEach candidates fun file =>
      .ifThen (testF world file) <| .block [
        echo world (bytes "[launch] Creating " ++ soname ++ bytes " symlink → " ++ file),
        .orTrue (lnSf world file (inLibDir libDir soname)),
        .brk 1]

end Helpers

/-- How a library is looked up. -/
inductive Manner
  | prefer
  | trySymlink
  | compat
  deriving DecidableEq

/-- One lookup of the script: a soname and its candidate paths, in order. -/
structure Lookup where
  manner : Manner
  soname : Bytes
  candidates : List Bytes

namespace Lookup

section Definitions

variable (world : World) (libDir : Bytes) (lookup : Lookup) (tree : Tree)

/-- The command in the script. -/
def command : Command State :=
  match lookup.manner with
  | .prefer => preferSystemLib world libDir lookup.soname lookup.candidates
  | .trySymlink => trySymlinkLib world libDir lookup.soname lookup.candidates
  | .compat => compatLink world libDir lookup.soname lookup.candidates

/-- The pathname of the library in `lib/`. -/
def target : Pathname := .ofBytes (inLibDir libDir lookup.soname)

/-- The name is taken in `lib/`, and the lookup leaves it at that. -/
def settled : Bool :=
  match lookup.manner with
  | .prefer => false
  | .trySymlink => tree.isFile world.cwd (lookup.target libDir) ||
      tree.isLink world.cwd (lookup.target libDir)
  | .compat => tree.isFile world.cwd (lookup.target libDir)

/-- The first candidate that is a regular file. -/
def choice : Option Bytes :=
  lookup.candidates.find? fun candidate => tree.isFile world.cwd (.ofBytes candidate)

/-- The lookup finds its library, or does not insist on it. -/
def found : Bool :=
  lookup.settled world libDir tree || (lookup.choice world tree).isSome ||
    lookup.manner = .compat

/-- The tree after the lookup. -/
def linked : Tree :=
  if lookup.settled world libDir tree then tree
  else
    match lookup.choice world tree with
    | none => tree
    | some candidate =>
        (linkedTree world candidate (inLibDir libDir lookup.soname) tree).getD tree

/-- The line logged before a candidate is linked. -/
def linkLine (candidate : Bytes) : Bytes :=
  match lookup.manner with
  | .prefer => bytes "[launch] Using system " ++ lookup.soname ++ bytes " → " ++ candidate
  | .trySymlink => bytes "[launch] Symlinking " ++ lookup.soname ++ bytes " → " ++ candidate
  | .compat => bytes "[launch] Creating " ++ lookup.soname ++ bytes " symlink → " ++ candidate

/-- The warning of a helper that does not find its library. -/
def warning : Bytes :=
  match lookup.manner with
  | .prefer => bytes "[launch] WARNING: " ++ lookup.soname ++
      bytes " not found — using built-in stub (display may not work)"
  | _ => bytes "[launch] WARNING: " ++ lookup.soname ++ bytes " not found on this TV"

/-- The state after a candidate has been linked. -/
def afterLink (candidate : Bytes) (state : State) : State :=
  (state.say world (lookup.linkLine candidate)).setTree
    ((linkedTree world candidate (inLibDir libDir lookup.soname) state.tree).getD state.tree)

/-- The state in which a lookup passes. -/
def after (state : State) : State :=
  if lookup.settled world libDir state.tree then state
  else
    match lookup.choice world state.tree with
    | none => state
    | some candidate => lookup.afterLink world libDir candidate state

end Definitions

section Correctness

variable (world : World) (libDir : Bytes) (lookup : Lookup)

/-- `ln -sf` before `|| true`: its failure is not heard of. -/
private theorem orTrue_lnSf (source target : Bytes) (strict : Bool) (state : State) :
    orTrue (lnSf world source target) strict state =
      .done 0 (state.setTree ((linkedTree world source target state.tree).getD state.tree)) := by
  cases htree : linkedTree world source target state.tree with
  | none => simp [orTrue, orElse, lnSf, attempt, simple, htree, State.setTree]
  | some tree => simp [orTrue, orElse, lnSf, attempt, simple, htree]

/-- What a lookup does with a candidate it has found, before it leaves the loop. -/
private def linkBranch (leave : Command State) (candidate : Bytes) : Command State := .block [
  echo world (lookup.linkLine candidate),
  .orTrue (lnSf world candidate (inLibDir libDir lookup.soname)),
  leave]

/-- The loop over the candidates. -/
private def search (leave : Command State) : Command State :=
  .forEach lookup.candidates fun candidate =>
    .ifThen (testF world candidate) (lookup.linkBranch world libDir leave candidate)

/-- The common tail of the two helpers: search the candidates, warn, fail. -/
private def helperTail : Command State := .block [
  lookup.search world libDir (.ret 0),
  echo world lookup.warning,
  .ret 1]

variable {world} {strict : Bool} {state : State}

private theorem linkBranch_eq (hheard : Heard world strict state) (leave : Command State)
    (candidate : Bytes) :
    lookup.linkBranch world libDir leave candidate strict state =
      leave strict (lookup.afterLink world libDir candidate state) := by
  rw [linkBranch, block_cons_of_passes _ (by simp) (passes_echo _ hheard)]
  simp [block, seq, orTrue_lnSf, afterLink]

private theorem linkBranch_refused (hrefused : world.logOk state.trace = false)
    (leave : Command State) (candidate : Bytes) :
    lookup.linkBranch world libDir leave candidate true state =
      .exited 1 (state.say world (lookup.linkLine candidate)) :=
  block_cons_of_exited _ (echo_refused _ hrefused)

private theorem search_of_none (leave : Command State) (strict : Bool)
    (hchoice : lookup.choice world state.tree = none) :
    lookup.search world libDir leave strict state = .done 0 state :=
  forFrom_search_none (fun (candidate : Bytes) (state : State) =>
    state.tree.isFile world.cwd (.ofBytes candidate)) hchoice

private theorem search_ret (hheard : Heard world strict state) {candidate : Bytes}
    (hchoice : lookup.choice world state.tree = some candidate) :
    lookup.search world libDir (ret 0) strict state =
      .returned 0 (lookup.afterLink world libDir candidate state) :=
  forFrom_search_returned (fun (candidate : Bytes) (state : State) =>
    state.tree.isFile world.cwd (.ofBytes candidate)) hchoice
    (lookup.linkBranch_eq libDir hheard (ret 0) candidate)

private theorem search_brk (hheard : Heard world strict state) {candidate : Bytes}
    (hchoice : lookup.choice world state.tree = some candidate) :
    lookup.search world libDir (brk 1) strict state =
      .done 0 (lookup.afterLink world libDir candidate state) :=
  forFrom_search_broken (fun (candidate : Bytes) (state : State) =>
    state.tree.isFile world.cwd (.ofBytes candidate)) hchoice
    (lookup.linkBranch_eq libDir hheard (brk 1) candidate)

private theorem search_refused (hrefused : world.logOk state.trace = false) (leave : Command State)
    {candidate : Bytes} (hchoice : lookup.choice world state.tree = some candidate) :
    lookup.search world libDir leave true state =
      .exited 1 (state.say world (lookup.linkLine candidate)) :=
  forFrom_search_exited (fun (candidate : Bytes) (state : State) =>
    state.tree.isFile world.cwd (.ofBytes candidate)) hchoice
    (lookup.linkBranch_refused libDir hrefused leave candidate)

private theorem helperTail_eq (hheard : Heard world strict state) :
    lookup.helperTail world libDir strict state =
      match lookup.choice world state.tree with
      | some candidate => .returned 0 (lookup.afterLink world libDir candidate state)
      | none => .returned 1 (state.say world lookup.warning) := by
  cases hchoice : lookup.choice world state.tree with
  | none =>
      have hsearch := lookup.search_of_none libDir (ret 0) strict hchoice
      rw [helperTail, block_cons_of_passes _ (by simp) ⟨0, hsearch⟩,
        block_cons_of_passes _ (by simp) (passes_echo _ hheard)]
      rfl
  | some candidate =>
      simp [helperTail, block, seq, lookup.search_ret libDir hheard hchoice]

private theorem helperTail_refused (hrefused : world.logOk state.trace = false) :
    lookup.helperTail world libDir true state =
      .exited 1 (state.say world ((lookup.choice world state.tree).elim lookup.warning
        lookup.linkLine)) := by
  cases hchoice : lookup.choice world state.tree with
  | none =>
      have hsearch := lookup.search_of_none libDir (ret 0) true hchoice
      rw [helperTail, block_cons_of_passes _ (by simp) ⟨0, hsearch⟩]
      exact block_cons_of_exited _ (echo_refused _ hrefused)
  | some candidate =>
      exact block_cons_of_exited _ (lookup.search_refused libDir hrefused (ret 0) hchoice)

/-- The test at the head of `try_symlink_lib`. -/
private theorem settledTest_eq (hmanner : lookup.manner = .trySymlink) (strict : Bool)
    (state : State) :
    ifThen (orElse (testF world (inLibDir libDir lookup.soname))
        (testL world (inLibDir libDir lookup.soname))) (ret 0) strict state =
      if lookup.settled world libDir state.tree then .returned 0 state
      else .done 0 state := by
  cases hfile : state.tree.isFile world.cwd (.ofBytes (inLibDir libDir lookup.soname)) <;>
    cases hlink : state.tree.isLink world.cwd (.ofBytes (inLibDir libDir lookup.soname)) <;>
      simp [ifThen, ifElse, orElse, testF, testL, fileTest, settled, hmanner, target, hfile,
        hlink, ret]

private theorem preferSystemLib_eq (soname : Bytes) (candidates : List Bytes) :
    preferSystemLib world libDir soname candidates =
      call (helperTail world libDir ⟨.prefer, soname, candidates⟩) := rfl

private theorem trySymlinkLib_eq (soname : Bytes) (candidates : List Bytes) :
    trySymlinkLib world libDir soname candidates =
      call (seq (ifThen (orElse (testF world (inLibDir libDir soname))
          (testL world (inLibDir libDir soname))) (ret 0))
        (helperTail world libDir ⟨.trySymlink, soname, candidates⟩)) := rfl

private theorem compatLink_eq (soname : Bytes) (candidates : List Bytes) :
    compatLink world libDir soname candidates =
      ifThen (negate (testF world (inLibDir libDir soname)))
        (search world libDir ⟨.compat, soname, candidates⟩ (brk 1)) := rfl

/-- What a lookup does where its lines are heard: nothing where the name is taken, a
link where a candidate is a regular file, and otherwise, if it insists, a warning and
a failure. -/
theorem command_eq (hheard : Heard world strict state) :
    lookup.command world libDir strict state =
      if lookup.found world libDir state.tree then
        .done 0 (lookup.after world libDir state)
      else if strict then .exited 1 (state.say world lookup.warning)
      else .done 1 (state.say world lookup.warning) := by
  have htail := lookup.helperTail_eq libDir hheard
  obtain ⟨manner, soname, candidates⟩ := lookup
  cases manner with
  | prefer =>
      simp only [command, preferSystemLib_eq, call, htail]
      cases hchoice : choice world ⟨.prefer, soname, candidates⟩ state.tree <;>
        simp [found, settled, after, hchoice]
  | trySymlink =>
      simp only [command, trySymlinkLib_eq, call, seq,
        settledTest_eq libDir ⟨.trySymlink, soname, candidates⟩ rfl strict state]
      cases hsettled : settled world libDir ⟨.trySymlink, soname, candidates⟩ state.tree with
      | true => simp [found, after, hsettled]
      | false =>
          simp only [Bool.false_eq_true, if_false, htail]
          cases hchoice : choice world ⟨.trySymlink, soname, candidates⟩ state.tree <;>
            simp [found, after, hsettled, hchoice]
  | compat =>
      have hbrk := fun candidate =>
        @search_brk world libDir ⟨.compat, soname, candidates⟩ strict state hheard candidate
      have hnone := @search_of_none world libDir ⟨.compat, soname, candidates⟩ state (brk 1) strict
      simp only [command, compatLink_eq, ifThen, ifElse, negate, testF, fileTest, test_tested]
      cases hsettled : state.tree.isFile world.cwd (.ofBytes (inLibDir libDir soname)) with
      | true => simp [found, after, settled, target, hsettled]
      | false =>
          cases hchoice : choice world ⟨.compat, soname, candidates⟩ state.tree with
          | none => simp [found, after, settled, target, hsettled, hchoice, hnone hchoice]
          | some candidate =>
              simp [found, after, settled, target, hsettled, hchoice, hbrk candidate hchoice]

/-- The line a lookup has for the log, if it is not content with what there is. -/
def line (world : World) (tree : Tree) : Option Bytes :=
  if lookup.settled world libDir tree then none
  else
    match lookup.choice world tree with
    | some candidate => some (lookup.linkLine candidate)
    | none => if lookup.manner = .compat then none else some lookup.warning

/-- Under `set -e`, a lookup whose line the log does not take ends the script and
changes nothing. -/
theorem command_refused (hrefused : world.logOk state.trace = false) :
    lookup.command world libDir true state =
      match lookup.line libDir world state.tree with
      | none => .done 0 state
      | some line => .exited 1 (state.say world line) := by
  have htail := lookup.helperTail_refused libDir hrefused
  obtain ⟨manner, soname, candidates⟩ := lookup
  cases manner with
  | prefer =>
      simp only [command, preferSystemLib_eq, call, htail]
      cases hchoice : choice world ⟨.prefer, soname, candidates⟩ state.tree <;>
        simp [line, settled, hchoice]
  | trySymlink =>
      simp only [command, trySymlinkLib_eq, call, seq,
        settledTest_eq libDir ⟨.trySymlink, soname, candidates⟩ rfl true state]
      cases hsettled : settled world libDir ⟨.trySymlink, soname, candidates⟩ state.tree with
      | true => simp [line, hsettled]
      | false =>
          simp only [Bool.false_eq_true, if_false, htail]
          cases hchoice : choice world ⟨.trySymlink, soname, candidates⟩ state.tree <;>
            simp [line, hsettled, hchoice]
  | compat =>
      have hexits := fun candidate => @search_refused world libDir ⟨.compat, soname, candidates⟩
        state hrefused (brk 1) candidate
      have hnone := @search_of_none world libDir ⟨.compat, soname, candidates⟩ state (brk 1) true
      simp only [command, compatLink_eq, ifThen, ifElse, negate, testF, fileTest, test_tested]
      cases hsettled : state.tree.isFile world.cwd (.ofBytes (inLibDir libDir soname)) with
      | true => simp [line, settled, target, hsettled]
      | false =>
          cases hchoice : choice world ⟨.compat, soname, candidates⟩ state.tree with
          | none => simp [line, settled, target, hsettled, hchoice, hnone hchoice]
          | some candidate =>
              simp [line, settled, target, hsettled, hchoice, hexits candidate hchoice]

variable (world) (state)

@[simp]
theorem after_tree :
    (lookup.after world libDir state).tree = lookup.linked world libDir state.tree := by
  unfold after linked
  cases lookup.settled world libDir state.tree with
  | true => rfl
  | false => cases lookup.choice world state.tree <;> rfl

@[simp]
theorem after_soberStarts :
    (lookup.after world libDir state).soberStarts = state.soberStarts := by
  unfold after
  cases lookup.settled world libDir state.tree with
  | true => rfl
  | false => cases lookup.choice world state.tree <;> simp [afterLink]

end Correctness

end Lookup

end TizenRoblox.Launcher
