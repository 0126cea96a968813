/-
# Descriptors that are opened and closed

The searches of `/dev/input` open a directory stream and one node after the other, skip,
stop early or go on, and hand some descriptors to their caller. Each of them closes what it
has opened and does not return, and nothing else. A rescan of the main loop closes what its
search returns, whatever it reports, so that any number of rescans leaves the open files
as they were (`descriptors_accounted`).

That the search for gamepads takes nothing for a gamepad is not used here: the accounting is
right with any test for the key, also one that keeps as many descriptors as there is room for.
-/

import TizenRoblox.Foundation.Ownership
import TizenRoblox.InputMapper.Discovery
import TizenRoblox.InputMapper.Rescan
import TizenRoblox.InputMapper.Waking

namespace TizenRoblox.InputMapper

open TizenRoblox.Foundation

/-! ## Calls as exchanges -/

/-- What a call does to a descriptor. -/
def Call.exchange : Call → Exchange ℕ
  | .opened fd _ => .acquired fd
  | .closed fd => .released fd

/-- The calls between two states of a process are in order for an owner of these
descriptors, and leave it with those. -/
def Exchanges (before after : Process) (own left : Set ℕ) : Prop :=
  ∃ made, after.calls = before.calls ++ made ∧ Run OwnStep own (made.map Call.exchange) left

namespace Exchanges

variable {before middle after process : Process} {own owned left : Set ℕ}

theorem refl (process : Process) (own : Set ℕ) : Exchanges process process own own :=
  ⟨[], (List.append_nil _).symm, .start own⟩

theorem trans (hfirst : Exchanges before middle own owned)
    (hsecond : Exchanges middle after owned left) : Exchanges before after own left := by
  obtain ⟨first, hfirstCalls, hfirstRun⟩ := hfirst
  obtain ⟨second, hsecondCalls, hsecondRun⟩ := hsecond
  refine ⟨first ++ second, ?_, ?_⟩
  · rw [hsecondCalls, hfirstCalls, List.append_assoc]
  · rw [List.map_append]
    exact hfirstRun.append hsecondRun

/-- A file is opened. -/
theorem openFile (file : File) (hnew : process.lowestFree ∉ own) :
    Exchanges process (process.openFile file) own (insert process.lowestFree own) :=
  ⟨[.opened process.lowestFree file], rfl, .cons (.acquired hnew) (.start _)⟩

/-- A file is open from before to after some calls. -/
theorem bracket (file : File) (hown : process.lowestFree ∉ own) (hleft : process.lowestFree ∉ left)
    (hbetween : Exchanges (process.openFile file) after (insert process.lowestFree own)
      (insert process.lowestFree left)) :
    Exchanges process (after.close process.lowestFree) own left := by
  obtain ⟨made, hcalls, hrun⟩ := hbetween
  refine ⟨.opened process.lowestFree file :: made ++ [.closed process.lowestFree], ?_, ?_⟩
  · simp [Process.close, Process.openFile, hcalls]
  · rw [List.map_append]
    exact run_bracket hown hleft hrun

end Exchanges

/-- What a process owns is open. -/
theorem lowestFree_notMem {process : Process} {own : Set ℕ}
    (hown : ∀ fd ∈ own, fd ∈ process.descriptors) : process.lowestFree ∉ own :=
  fun hmem => process.lowestFree_fresh (hown _ hmem)

/-- A file that is opened and closed again makes no difference. -/
theorem exchanges_openClose {process : Process} {own : Set ℕ} (file : File)
    (hown : ∀ fd ∈ own, fd ∈ process.descriptors) :
    Exchanges process ((process.openFile file).close process.lowestFree) own own :=
  .bracket file (lowestFree_notMem hown) (lowestFree_notMem hown) (.refl _ _)

/-! ## The searches -/

/-- The loop over the directory owns, in the end, the descriptor that it stops with. -/
theorem exchanges_searchRemote (entries : List Entry) {process : Process} {own : Set ℕ}
    (hown : ∀ fd ∈ own, fd ∈ process.descriptors) :
    Exchanges process (searchRemote entries process).2 own
      (own ∪ {fd | fd ∈ (searchRemote entries process).1.toList}) := by
  induction entries generalizing process with
  | nil => simpa [searchRemote] using Exchanges.refl process own
  | cons entry rest ih =>
      have hopen := Exchanges.openFile (.node entry.dName) (lowestFree_notMem hown)
      have hfound : insert process.lowestFree own =
          own ∪ {fd | fd ∈ (some process.lowestFree).toList} := by
        ext fd
        simp [or_comm]
      rw [hfound] at hopen
      rw [searchRemote]
      split
      · exact ih hown
      · split
        · exact ih hown
        · simp only
          split
          · exact hopen
          · split
            · exact hopen
            · have hskip := exchanges_openClose (.node entry.dName) hown
              refine hskip.trans (ih ?_)
              rwa [Process.descriptors, Process.close_openFile_table]

/-- The loop over the directory owns, in the end, the descriptors in `fds`. -/
theorem exchanges_searchGamepads (south : Device → Bool) (maxFds : ℤ) (entries : List Entry)
    {found : Gamepads} {own : Set ℕ}
    (hown : ∀ fd ∈ own ∪ {fd | fd ∈ found.fds}, fd ∈ found.process.descriptors) :
    Exchanges found.process (searchGamepads south maxFds entries found).process
      (own ∪ {fd | fd ∈ found.fds})
      (own ∪ {fd | fd ∈ (searchGamepads south maxFds entries found).fds}) := by
  induction entries generalizing found with
  | nil => exact .refl _ _
  | cons entry rest ih =>
      rw [searchGamepads]
      split
      · exact .refl _ _
      · split
        · exact ih hown
        · split
          · exact ih hown
          · simp only
            split
            · have hopen := Exchanges.openFile (.node entry.dName) (lowestFree_notMem hown)
              have hkept : insert found.process.lowestFree (own ∪ {fd | fd ∈ found.fds}) =
                  own ∪ {fd | fd ∈ found.fds ++ [found.process.lowestFree]} := by
                ext fd
                simp only [Set.mem_insert_iff, Set.mem_union, Set.mem_ofPred_eq, List.mem_append,
                  List.mem_singleton]
                tauto
              rw [hkept] at hopen
              refine hopen.trans (ih fun fd hfd => ?_)
              rw [Gamepads.keep, ← hkept] at hfd
              rcases Set.mem_insert_iff.mp hfd with rfl | hold
              · exact List.mem_cons_self
              · exact List.mem_cons_of_mem _ (hown fd hold)
            · have hskip := exchanges_openClose (.node entry.dName) hown
              refine hskip.trans (ih ?_)
              simpa only [Process.descriptors, Process.close_openFile_table] using hown

/-- The loop writes to the array only where it has room. -/
theorem writes_searchGamepads (south : Device → Bool) (maxFds : ℤ) (entries : List Entry)
    {found : Gamepads} (hwrites : ∀ write ∈ found.writes, (write.1 : ℤ) < maxFds) :
    ∀ write ∈ (searchGamepads south maxFds entries found).writes, (write.1 : ℤ) < maxFds := by
  induction entries generalizing found with
  | nil => exact hwrites
  | cons entry rest ih =>
      rw [searchGamepads]
      split
      · exact hwrites
      · next hroom =>
        have hkept (fd : ℕ) (opened : Process) :
            ∀ write ∈ (found.keep fd opened).writes, (write.1 : ℤ) < maxFds := by
          intro write hwrite
          rcases List.mem_append.mp hwrite with hold | hnew
          · exact hwrites write hold
          · rw [List.mem_singleton.mp hnew]
            exact not_not.mp hroom
        split
        · exact ih hwrites
        · split
          · exact ih hwrites
          · simp only
            split
            · exact ih (hkept _ _)
            · exact ih hwrites

/-! ## Accounting -/

/-- What was done to open files between two states of a process, when it returns these
descriptors. -/
structure Accounted (before after : Process) (returned : List ℕ) : Prop where
  /-- What has been closed had been opened in between and was open, and what has been opened
  is closed unless it is returned. -/
  calls : Exchanges before after ∅ {fd | fd ∈ returned}
  /-- Besides what is returned just those files are open that were. -/
  kept : after.table.filter (fun entry => entry.1 ∉ returned) = before.table
  /-- What is returned are nodes, and no directory streams. -/
  nodes : ∀ entry ∈ after.table, entry.1 ∈ returned → ∃ dName, entry.2 = .node dName
  distinct : returned.Nodup

namespace Accounted

variable {before middle after : Process} {returned : List ℕ}

/-- Every descriptor has been opened as often as it has been closed, and once more if it is
returned. -/
theorem balanced (haccounted : Accounted before after returned) :
    ∃ made, after.calls = before.calls ++ made ∧ ∀ fd,
      (made.map Call.exchange).count (.acquired fd) =
        (made.map Call.exchange).count (.released fd) + if fd ∈ returned then 1 else 0 := by
  obtain ⟨made, hcalls, hrun⟩ := haccounted.calls
  refine ⟨made, hcalls, fun fd => ?_⟩
  have hcount := count_of_run hrun fd
  have hnone : owned (∅ : Set ℕ) fd = 0 := if_neg (Set.notMem_empty fd)
  have hleft : owned {fd | fd ∈ returned} fd = if fd ∈ returned then 1 else 0 := by
    simp [owned]
  rwa [hnone, hleft] at hcount

theorem refl (process : Process) : Accounted process process [] where
  calls := by simpa using Exchanges.refl process ∅
  kept := by simp
  nodes := nofun
  distinct := List.nodup_nil

/-- Where nothing is returned the open files are the same. -/
theorem table_eq (haccounted : Accounted before after []) : after.table = before.table := by
  simpa using haccounted.kept

theorem trans (hfirst : Accounted before middle []) (hsecond : Accounted middle after returned) :
    Accounted before after returned where
  calls := by
    have hnone := hfirst.calls
    have hempty : {fd : ℕ | fd ∈ ([] : List ℕ)} = ∅ := by simp
    rw [hempty] at hnone
    exact hnone.trans hsecond.calls
  kept := hsecond.kept.trans hfirst.table_eq
  nodes := hsecond.nodes
  distinct := hsecond.distinct

end Accounted

/-- What is open besides the files from before is returned. -/
theorem Opened.accounted {nodes : List Entry} {fds : List ℕ} {before after : Process}
    (hopened : Opened nodes fds before after)
    (hcalls : Exchanges before after ∅ {fd | fd ∈ fds}) : Accounted before after fds where
  calls := hcalls
  kept := by
    have hnew : ∀ entry ∈ (fds.zip (nodes.map fun entry => File.node entry.dName)).reverse,
        entry.1 ∈ fds := fun entry hentry => (List.of_mem_zip (List.mem_reverse.mp hentry)).1
    have hold : ∀ entry ∈ before.table, entry.1 ∉ fds := fun entry hentry hfd =>
      hopened.fresh _ hfd (List.mem_map_of_mem hentry)
    rw [hopened.table, List.filter_append, List.filter_eq_nil_iff.mpr (by simpa using hnew),
      List.filter_eq_self.mpr (by simpa using hold), List.nil_append]
  nodes := by
    intro entry hentry hfd
    rw [hopened.table] at hentry
    rcases List.mem_append.mp hentry with hnew | hold
    · have hfile := (List.of_mem_zip (List.mem_reverse.mp hnew)).2
      obtain ⟨node, _, hnode⟩ := List.mem_map.mp hfile
      exact ⟨node.dName, hnode.symm⟩
    · exact absurd (List.mem_map_of_mem hold) (hopened.fresh _ hfd)
  distinct := hopened.distinct

section Searches

variable (process : Process)

/-- What a caller of `find_samsung_remote` is given. -/
def returnedFds (result : ℤ) : List ℕ := if result < 0 then [] else [result.toNat]

theorem returnedFds_elim (found : Option ℕ) :
    returnedFds (found.elim (-1) Int.ofNat) = found.toList := by
  cases found with
  | none => rfl
  | some fd =>
      have hnat : ¬ ((fd : ℤ) < 0) := by omega
      simp [returnedFds, hnat]

/-- The directory is open as long as its loop runs. -/
theorem exchanges_directory {after : Process} {fds : List ℕ}
    (hfresh : ∀ fd ∈ fds, fd ∉ (process.openFile .directory).descriptors)
    (hloop : ∀ own : Set ℕ, (∀ fd ∈ own, fd ∈ (process.openFile .directory).descriptors) →
      Exchanges (process.openFile .directory) after own (own ∪ {fd | fd ∈ fds})) :
    Exchanges process (after.close process.lowestFree) ∅ {fd | fd ∈ fds} := by
  have hopen : process.lowestFree ∈ (process.openFile .directory).descriptors := List.mem_cons_self
  have hbetween := hloop (insert process.lowestFree ∅) (by simpa using hopen)
  rw [Set.insert_union, Set.empty_union] at hbetween
  exact .bracket .directory (Set.notMem_empty _) (fun hfd => hfresh _ hfd hopen) hbetween

/-- What the loop of the search for the remote leaves open. -/
theorem opened_searchRemote (entries : List Entry) :
    Opened (entries.find? passes).toList (searchRemote entries process).1.toList process
      (searchRemote entries process).2 := by
  have hspec := searchRemote_spec entries process
  cases hfind : entries.find? passes with
  | none =>
      simp only [hfind] at hspec
      obtain ⟨hresult, htable⟩ := hspec
      rw [hresult]
      exact ⟨rfl, by simpa using htable, nofun, List.nodup_nil⟩
  | some entry =>
      simp only [hfind] at hspec
      obtain ⟨hresult, htable⟩ := hspec
      rw [hresult]
      refine ⟨rfl, by simpa using htable, fun fd hfd => ?_, List.nodup_singleton _⟩
      rw [List.mem_singleton.mp hfd]
      exact process.lowestFree_fresh

theorem accounted_findSamsungRemote (listing : Option Listing) :
    Accounted process (findSamsungRemote listing process).2
      (returnedFds (findSamsungRemote listing process).1) := by
  cases listing with
  | none => exact .refl process
  | some listing =>
      simp only [findSamsungRemote, returnedFds_elim]
      have hopened := opened_searchRemote (process.openFile .directory) listing.entries
      apply hopened.close.accounted
      apply exchanges_directory process hopened.fresh
      intro own hown
      exact exchanges_searchRemote listing.entries hown

section Gamepads

variable (south : Device → Bool) (listing : Option Listing) (maxFds : ℤ)

theorem accounted_findGamepadsBy :
    Accounted process (findGamepadsBy south listing maxFds process).process
      (findGamepadsBy south listing maxFds process).fds := by
  cases listing with
  | none => exact .refl process
  | some listing =>
      obtain ⟨more, hfds, hopened⟩ :=
        searchGamepads_spec south maxFds listing.entries ⟨[], [], process.openFile .directory⟩
      rw [List.nil_append] at hfds
      subst hfds
      apply hopened.close.accounted
      apply exchanges_directory process hopened.fresh
      intro own hown
      have hnone : own ∪ {fd : ℕ | fd ∈ ([] : List ℕ)} = own := by simp
      have hloop := @exchanges_searchGamepads south maxFds listing.entries
        ⟨[], [], process.openFile .directory⟩ own (by rwa [hnone])
      rwa [hnone] at hloop

/-- No write is beyond the end of the array. -/
theorem writes_lt :
    ∀ write ∈ (findGamepadsBy south listing maxFds process).writes, (write.1 : ℤ) < maxFds := by
  cases listing with
  | none => nofun
  | some listing => exact writes_searchGamepads south maxFds listing.entries nofun

end Gamepads

end Searches

/-! ## The main loop -/

theorem closeAll_calls (fds : List ℕ) (process : Process) :
    (fds.foldl (fun process fd => process.close fd) process).calls =
      process.calls ++ fds.map .closed := by
  induction fds generalizing process with
  | nil => exact (List.append_nil _).symm
  | cons fd rest ih =>
      rw [List.foldl_cons, ih, List.map_cons]
      exact List.append_assoc process.calls [Call.closed fd] _

theorem closeAll_table (fds : List ℕ) (process : Process) :
    (fds.foldl (fun process fd => process.close fd) process).table =
      process.table.filter fun entry => entry.1 ∉ fds := by
  induction fds generalizing process with
  | nil => simp
  | cons fd rest ih =>
      rw [List.foldl_cons, ih, Process.close, List.filter_filter]
      apply List.filter_congr
      intro entry _
      simp [Bool.and_comm]

/-- What a search has returned is closed. -/
theorem Accounted.closeFound {process : Process} {found : Gamepads}
    (haccounted : Accounted process found.process found.fds) :
    Accounted process (closeFound found) [] where
  calls := by
    have hclosed :
        Exchanges found.process (InputMapper.closeFound found) {fd | fd ∈ found.fds} ∅ := by
      refine ⟨found.fds.map .closed, closeAll_calls found.fds found.process, ?_⟩
      have hrun : Run OwnStep {fd | fd ∈ found.fds} (found.fds.map .released)
          ({fd | fd ∈ found.fds} \ {fd | fd ∈ found.fds}) :=
        run_releaseAll haccounted.distinct fun fd hfd => hfd
      rw [Set.sdiff_self] at hrun
      rwa [List.map_map]
    simpa using haccounted.calls.trans hclosed
  kept := by
    have htable := closeAll_table found.fds found.process
    rw [haccounted.kept] at htable
    simpa [InputMapper.closeFound] using htable
  nodes := nofun
  distinct := List.nodup_nil

section Turns

variable (south : Device → Bool)

/-- A rescan closes all that it has opened, whatever it reports. -/
theorem accounted_rescan (listing : Option Listing) (mapper : Mapper) :
    Accounted mapper.process
      (rescan (findGamepadsBy south listing maxGamepads) mapper).2.process [] := by
  have hclosed := (accounted_findGamepadsBy mapper.process south listing maxGamepads).closeFound
  unfold rescan
  simp only
  split
  · exact hclosed
  · exact hclosed

/-- The main loop with what it remembers of its searches. -/
structure MainLoop where
  loop : Loop
  mapper : Mapper

/-- A turn of the main loop with some test for the key, and the listing that it finds if it
searches for gamepads. -/
def MainLoop.turnBy (remoteFd : ℤ) (turn : Turn × Option Listing) (main : MainLoop) : MainLoop :=
  let (iteration, loop) := main.loop.turn remoteFd turn.1
  ⟨loop,
    if iteration.rescanned then (rescan (findGamepadsBy south turn.2 maxGamepads) main.mapper).2
    else main.mapper⟩

/-- A turn of the main loop. -/
def MainLoop.turn (remoteFd : ℤ) (turn : Turn × Option Listing) (main : MainLoop) : MainLoop :=
  main.turnBy hasSouth remoteFd turn

theorem accounted_turnBy (remoteFd : ℤ) (turn : Turn × Option Listing) (main : MainLoop) :
    Accounted main.mapper.process (main.turnBy south remoteFd turn).mapper.process [] := by
  unfold MainLoop.turnBy
  simp only
  split
  · exact accounted_rescan south turn.2 main.mapper
  · exact .refl _

end Turns

/-- Both searches close what they open and do not return, and nothing else; the search for
gamepads keeps to its array; and every turn of the main loop, over runs of any length, leaves
the open files as they were. That is so whatever the test for the key takes for a gamepad, and
so for `findGamepads` and `MainLoop.turn`, which have the test of the mapper. -/
theorem descriptors_accounted (south : Device → Bool) :
    (∀ (listing : Option Listing) (process : Process),
      Accounted process (findSamsungRemote listing process).2
        (returnedFds (findSamsungRemote listing process).1)) ∧
    (∀ (listing : Option Listing) (maxFds : ℤ) (process : Process),
      Accounted process (findGamepadsBy south listing maxFds process).process
        (findGamepadsBy south listing maxFds process).fds ∧
      ∀ write ∈ (findGamepadsBy south listing maxFds process).writes, (write.1 : ℤ) < maxFds) ∧
    ∀ (remoteFd : ℤ) (main : MainLoop) (turns : List (Turn × Option Listing)),
      Throughout (fun main turn => main.turnBy south remoteFd turn)
        (fun main turn =>
          Accounted main.mapper.process (main.turnBy south remoteFd turn).mapper.process [] ∧
            (main.turnBy south remoteFd turn).mapper.process.table = main.mapper.process.table)
        main turns := by
  refine ⟨fun listing process => accounted_findSamsungRemote process listing,
    fun listing maxFds process => ⟨accounted_findGamepadsBy process south listing maxFds,
      writes_lt process south listing maxFds⟩,
    fun remoteFd main turns => ?_⟩
  have hturn (main : MainLoop) (turn : Turn × Option Listing) (_ : True) (_ : True) :
      (Accounted main.mapper.process (main.turnBy south remoteFd turn).mapper.process [] ∧
        (main.turnBy south remoteFd turn).mapper.process.table = main.mapper.process.table) ∧
        True :=
    have haccounted := accounted_turnBy south remoteFd turn main
    ⟨⟨haccounted, haccounted.table_eq⟩, trivial⟩
  exact Throughout.of_invariant hturn trivial fun _ _ => trivial

end TizenRoblox.InputMapper
