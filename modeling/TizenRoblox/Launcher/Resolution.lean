/-
# The resolution stage of the launcher

Eleven lookups, in the order of the script, run between the setup of the data
directories and the setup of the graphics environment. Each may link a name in
`lib/`, so a later lookup is made in the tree that the earlier ones left. The
stage passes exactly when every lookup finds its library in the tree it is made
in (`resolveLibraries_passes`, `resolveLibraries_exits`), as long as the log takes
its lines.

Where no lookup reads an entry that another one writes, the order does not
matter: the tree before the stage already decides (`findsAll_iff_of_undisturbed`).
-/

import Mathlib.Data.List.Find
import TizenRoblox.Launcher.Linking

namespace TizenRoblox.Launcher

open TizenRoblox.Foundation TizenRoblox.Posix TizenRoblox.Shell TizenRoblox.Shell.Command

/-! ## The table of lookups -/

/-- The lookups before the library path is set. -/
def earlyLookups : List Lookup := [
  ⟨.prefer, bytes "libwayland-client.so.0", [
    bytes "/usr/lib/aarch64-linux-gnu/libwayland-client.so.0",
    bytes "/usr/lib64/libwayland-client.so.0",
    bytes "/usr/lib/libwayland-client.so.0",
    bytes "/lib/aarch64-linux-gnu/libwayland-client.so.0",
    bytes "/lib64/libwayland-client.so.0",
    bytes "/usr/lib/tizen/libwayland-client.so.0",
    bytes "/opt/tizen/usr/lib/libwayland-client.so.0"]⟩,
  ⟨.prefer, bytes "libwayland-egl.so.1", [
    bytes "/usr/lib/aarch64-linux-gnu/libwayland-egl.so.1",
    bytes "/usr/lib64/libwayland-egl.so.1",
    bytes "/usr/lib/libwayland-egl.so.1",
    bytes "/lib/aarch64-linux-gnu/libwayland-egl.so.1",
    bytes "/usr/lib/aarch64-linux-gnu/mesa-egl/libwayland-egl.so.1",
    bytes "/usr/lib/tizen/libwayland-egl.so.1",
    bytes "/opt/tizen/usr/lib/libwayland-egl.so.1"]⟩,
  ⟨.prefer, bytes "libwayland-cursor.so.0", [
    bytes "/usr/lib/aarch64-linux-gnu/libwayland-cursor.so.0",
    bytes "/usr/lib64/libwayland-cursor.so.0",
    bytes "/usr/lib/libwayland-cursor.so.0",
    bytes "/usr/lib/tizen/libwayland-cursor.so.0"]⟩,
  ⟨.trySymlink, bytes "libxkbcommon.so.0", [
    bytes "/usr/lib/aarch64-linux-gnu/libxkbcommon.so.0",
    bytes "/usr/lib64/libxkbcommon.so.0",
    bytes "/usr/lib/libxkbcommon.so.0"]⟩,
  ⟨.trySymlink, bytes "libasound.so.2", [
    bytes "/usr/lib/aarch64-linux-gnu/libasound.so.2",
    bytes "/usr/lib64/libasound.so.2",
    bytes "/usr/lib/libasound.so.2"]⟩,
  ⟨.trySymlink, bytes "libpulse.so.0", [
    bytes "/usr/lib/aarch64-linux-gnu/libpulse.so.0",
    bytes "/usr/lib64/libpulse.so.0",
    bytes "/usr/lib/libpulse.so.0"]⟩,
  ⟨.trySymlink, bytes "libudev.so.1", [
    bytes "/usr/lib/aarch64-linux-gnu/libudev.so.1",
    bytes "/usr/lib64/libudev.so.1",
    bytes "/usr/lib/libudev.so.1",
    bytes "/lib/aarch64-linux-gnu/libudev.so.1"]⟩,
  ⟨.compat, bytes "libxml2.so.16", [
    bytes "/usr/lib/aarch64-linux-gnu/libxml2.so.2",
    bytes "/usr/lib64/libxml2.so.2",
    bytes "/usr/lib/libxml2.so.2"]⟩,
  ⟨.trySymlink, bytes "libdbus-1.so.3", [
    bytes "/usr/lib/aarch64-linux-gnu/libdbus-1.so.3",
    bytes "/usr/lib64/libdbus-1.so.3",
    bytes "/usr/lib/libdbus-1.so.3",
    bytes "/lib/aarch64-linux-gnu/libdbus-1.so.3",
    bytes "/usr/lib/tizen/libdbus-1.so.3"]⟩]

/-- The lookups of the graphics drivers, after the library path is set. -/
def graphicsLookups : List Lookup := [
  ⟨.prefer, bytes "libEGL.so.1", [
    bytes "/usr/lib/aarch64-linux-gnu/libEGL.so.1",
    bytes "/usr/lib64/libEGL.so.1",
    bytes "/usr/lib/libEGL.so.1",
    bytes "/usr/lib/aarch64-linux-gnu/mesa-egl/libEGL.so.1",
    bytes "/usr/lib/tizen/libEGL.so.1",
    bytes "/opt/tizen/usr/lib/libEGL.so.1",
    bytes "/usr/lib/aarch64-linux-gnu/libEGL_mesa.so.0",
    bytes "/usr/lib/libEGL_nvidia.so.0"]⟩,
  ⟨.prefer, bytes "libGLESv2.so.2", [
    bytes "/usr/lib/aarch64-linux-gnu/libGLESv2.so.2",
    bytes "/usr/lib64/libGLESv2.so.2",
    bytes "/usr/lib/libGLESv2.so.2",
    bytes "/usr/lib/tizen/libGLESv2.so.2",
    bytes "/opt/tizen/usr/lib/libGLESv2.so.2"]⟩]

/-- Every lookup of the launcher, in order. -/
def launcherLookups : List Lookup := earlyLookups ++ graphicsLookups

/-! ## The stage -/

section Stage

variable (world : World) (installDir libDir : Bytes)

/-- Warn about GLib libraries that neither the cache nor `lib/` has. -/
def glibStubs : Command State :=
  .forEach [bytes "libglib-2.0.so.0", bytes "libgobject-2.0.so.0"] fun lib =>
    .ifThen (.andThen (.negate (.test fun _ => world.cached lib))
        (.negate (testF world (inLibDir libDir lib)))) <|
      echo world (bytes "WARNING: " ++ lib ++ bytes " not found — Sober may fail")

def systemLibPaths : Bytes :=
  bytes "/usr/lib/aarch64-linux-gnu:/usr/lib64:/usr/lib:/lib/aarch64-linux-gnu:/lib"

/-- The search path of the loader: the stubs first, then what Sober bundles, then
the system, then what was set before. -/
def libraryPath : Command State := .block [
  assign "LD_LIBRARY_PATH" fun state =>
    libDir ++ bytes ":" ++ installDir ++ bytes "/bin:" ++ installDir ++
      bytes "/bin/subprojects/mimalloc:" ++ systemLibPaths ++
      if state.get "LD_LIBRARY_PATH" = [] then []
      else bytes ":" ++ state.get "LD_LIBRARY_PATH",
  say world fun state => bytes "[launch] LD_LIBRARY_PATH=" ++ state.get "LD_LIBRARY_PATH"]

/-- The commands of a list of lookups. -/
def lookupCommands (lookups : List Lookup) : Command State :=
  .block (lookups.map fun lookup => lookup.command world libDir)

/-- From the Wayland libraries to the graphics drivers. -/
def resolveLibraries : Command State := .block [
  lookupCommands world libDir earlyLookups,
  glibStubs world libDir,
  libraryPath world installDir libDir,
  lookupCommands world libDir graphicsLookups]

end Stage

/-! ## When the stage passes -/

section Passing

variable (world : World) (installDir libDir : Bytes)

/-- The tree a list of lookups leaves. -/
def linkAll : List Lookup → Tree → Tree
  | [], tree => tree
  | lookup :: rest, tree => linkAll rest (lookup.linked world libDir tree)

/-- Each lookup finds its library in the tree it is made in. -/
def findsAll : List Lookup → Tree → Bool
  | [], _ => true
  | lookup :: rest, tree =>
      lookup.found world libDir tree && findsAll rest (lookup.linked world libDir tree)

theorem findsAll_append (front back : List Lookup) (tree : Tree) :
    findsAll world libDir (front ++ back) tree =
      (findsAll world libDir front tree &&
        findsAll world libDir back (linkAll world libDir front tree)) := by
  induction front generalizing tree with
  | nil => simp [findsAll, linkAll]
  | cons lookup rest ih => simp [findsAll, linkAll, ih, Bool.and_assoc]

private theorem lookupCommands_cons (lookup : Lookup) (rest : List Lookup) :
    lookupCommands world libDir (lookup :: rest) =
      if rest = [] then lookup.command world libDir
      else seq (lookup.command world libDir) (lookupCommands world libDir rest) := by
  cases rest <;> rfl

/-- Lookups that all find their libraries pass. -/
theorem lookupCommands_passes (hlog : ∀ trace, world.logOk trace = true)
    (lookups : List Lookup) (state : State)
    (hfinds : findsAll world libDir lookups state.tree = true) :
    ∃ next, Passes (lookupCommands world libDir lookups) true state next ∧
      next.tree = linkAll world libDir lookups state.tree ∧
      next.soberStarts = state.soberStarts := by
  induction lookups generalizing state with
  | nil => exact ⟨state, ⟨0, by simp [lookupCommands, block]⟩, rfl, rfl⟩
  | cons lookup rest ih =>
      simp only [findsAll, Bool.and_eq_true] at hfinds
      obtain ⟨hhead, htail⟩ := hfinds
      have hpasses : Passes (lookup.command world libDir) true state
          (lookup.after world libDir state) :=
        ⟨0, by rw [lookup.command_eq libDir (.inr (hlog _)), if_pos hhead]⟩
      rw [lookupCommands_cons]
      by_cases hrest : rest = []
      · subst hrest
        exact ⟨_, by simpa using hpasses, by simp [linkAll], by simp⟩
      · obtain ⟨next, hnext, htree, hstarts⟩ :=
          ih (lookup.after world libDir state) (by simpa using htail)
        refine ⟨next, ?_, ?_, ?_⟩
        · rw [if_neg hrest]
          exact hpasses.seq hnext
        · simpa [linkAll] using htree
        · simpa using hstarts

/-- A lookup that does not find its library ends the script. -/
theorem lookupCommands_exits (hlog : ∀ trace, world.logOk trace = true)
    (lookups : List Lookup) (state : State)
    (hfinds : findsAll world libDir lookups state.tree = false) :
    ∃ next, lookupCommands world libDir lookups true state = .exited 1 next ∧
      next.soberStarts = state.soberStarts := by
  induction lookups generalizing state with
  | nil => simp [findsAll] at hfinds
  | cons lookup rest ih =>
      rw [lookupCommands_cons]
      cases hhead : lookup.found world libDir state.tree with
      | false =>
          have hexits : lookup.command world libDir true state =
              .exited 1 (state.say world lookup.warning) := by
            simp [lookup.command_eq libDir (.inr (hlog _)), hhead]
          refine ⟨_, ?_, State.say_soberStarts world lookup.warning state⟩
          by_cases hrest : rest = []
          · rw [if_pos hrest, hexits]
          · rw [if_neg hrest, seq_of_exited hexits]
      | true =>
          simp only [findsAll, hhead, Bool.true_and] at hfinds
          have hrest : rest ≠ [] := by
            rintro rfl
            simp [findsAll] at hfinds
          have hpasses : Passes (lookup.command world libDir) true state
              (lookup.after world libDir state) :=
            ⟨0, by rw [lookup.command_eq libDir (.inr (hlog _)), if_pos hhead]⟩
          obtain ⟨next, hnext, hstarts⟩ :=
            ih (lookup.after world libDir state) (by simpa using hfinds)
          refine ⟨next, ?_, by simpa using hstarts⟩
          rw [if_neg hrest, seq_of_passes hpasses, hnext]

/-- Neither the tree nor the number of starts of Sober has changed. -/
def Unmoved (tree : Tree) (starts : ℕ) (state : State) : Prop :=
  state.tree = tree ∧ state.soberStarts = starts

/-- A log that takes every line lets the script go on after every `echo`. -/
theorem keeps_say {levels : ℕ} {property : State → Prop}
    (hlog : ∀ trace, world.logOk trace = true) {line : State → Bytes}
    (hsay : ∀ state, property state → property (state.say world (line state))) :
    Keeps levels property (say world line) := by
  intro strict state hstate
  rw [say_of_taken line (hlog state.trace)]
  exact hsay state hstate

theorem keeps_assign {levels : ℕ} {tree : Tree} {starts : ℕ} (name : String)
    (value : State → Bytes) : Keeps levels (Unmoved tree starts) (assign name value) :=
  keeps_act fun _ hstate => by simpa [Unmoved] using hstate

theorem keeps_glibStubs {levels : ℕ} {tree : Tree} {starts : ℕ}
    (hlog : ∀ trace, world.logOk trace = true) :
    Keeps levels (Unmoved tree starts) (glibStubs world libDir) := by
  apply keeps_forEach
  intro lib _
  apply keeps_ifThen (keepsIn_test.negate.andThen keepsIn_test.negate)
  exact keeps_say world hlog fun _ hstate => by simpa [Unmoved] using hstate

theorem keeps_libraryPath {levels : ℕ} {tree : Tree} {starts : ℕ}
    (hlog : ∀ trace, world.logOk trace = true) :
    Keeps levels (Unmoved tree starts) (libraryPath world installDir libDir) := by
  refine keeps_block ⟨keeps_assign _ _, keeps_say world hlog fun _ hstate => ?_⟩
  simpa [Unmoved] using hstate

/-- The part of the stage between the two lists of lookups. -/
theorem middle_passes (hlog : ∀ trace, world.logOk trace = true) (state : State) :
    ∃ next, Passes (seq (glibStubs world libDir) (libraryPath world installDir libDir)) true
      state next ∧ next.tree = state.tree ∧ next.soberStarts = state.soberStarts := by
  have hkeeps : KeepsIn true 0 (Unmoved state.tree state.soberStarts)
      (seq (glibStubs world libDir) (libraryPath world installDir libDir)) :=
    (keeps_glibStubs world libDir hlog true).seq
      (keeps_libraryPath world installDir libDir hlog true)
  obtain ⟨next, ⟨htree, hstarts⟩, hpasses⟩ := hkeeps.passes state ⟨rfl, rfl⟩
  exact ⟨next, hpasses, htree, hstarts⟩

/-- It leaves the tree alone, however it ends. -/
theorem preserves_middle (property : Tree → Prop) :
    Preserves (fun state : State => property state.tree)
      (seq (glibStubs world libDir) (libraryPath world installDir libDir)) := by
  refine Preserves.seq (preserves_forEach fun lib _ => ?_) (preserves_block ?_)
  · exact preserves_ifThen (preserves_test.negate.andThen preserves_test.negate)
      (preserves_echo _ fun _ _ _ htree => htree)
  · exact ⟨preserves_act fun _ htree => htree, preserves_say _ fun _ _ _ htree => htree⟩

theorem resolveLibraries_eq :
    resolveLibraries world installDir libDir =
      seq (lookupCommands world libDir earlyLookups)
        (seq (seq (glibStubs world libDir) (libraryPath world installDir libDir))
          (lookupCommands world libDir graphicsLookups)) := by
  rw [seq_assoc]
  rfl

/-- The stage passes if every lookup finds its library. -/
theorem resolveLibraries_passes (hlog : ∀ trace, world.logOk trace = true) {state : State}
    (hfinds : findsAll world libDir launcherLookups state.tree = true) :
    ∃ next, Passes (resolveLibraries world installDir libDir) true state next ∧
      next.soberStarts = state.soberStarts := by
  rw [launcherLookups, findsAll_append, Bool.and_eq_true] at hfinds
  obtain ⟨early, hearly, hearlyTree, hearlyStarts⟩ :=
    lookupCommands_passes world libDir hlog earlyLookups state hfinds.1
  obtain ⟨middle, hmiddle, hmiddleTree, hmiddleStarts⟩ :=
    middle_passes world installDir libDir hlog early
  obtain ⟨late, hlate, _, hlateStarts⟩ :=
    lookupCommands_passes world libDir hlog graphicsLookups middle
      (by rw [hmiddleTree, hearlyTree]; exact hfinds.2)
  refine ⟨late, ?_, by rw [hlateStarts, hmiddleStarts, hearlyStarts]⟩
  rw [Passes, resolveLibraries_eq]
  exact hearly.seq (hmiddle.seq hlate)

/-- The stage ends the script if some lookup does not find its library. -/
theorem resolveLibraries_exits (hlog : ∀ trace, world.logOk trace = true) {state : State}
    (hfinds : findsAll world libDir launcherLookups state.tree = false) :
    ∃ next, resolveLibraries world installDir libDir true state = .exited 1 next ∧
      next.soberStarts = state.soberStarts := by
  rw [launcherLookups, findsAll_append] at hfinds
  cases hearlyFinds : findsAll world libDir earlyLookups state.tree with
  | false =>
      obtain ⟨next, hexits, hstarts⟩ :=
        lookupCommands_exits world libDir hlog earlyLookups state hearlyFinds
      exact ⟨next, by rw [resolveLibraries_eq, seq_of_exited hexits], hstarts⟩
  | true =>
      obtain ⟨early, hearly, hearlyTree, hearlyStarts⟩ :=
        lookupCommands_passes world libDir hlog earlyLookups state hearlyFinds
      obtain ⟨middle, hmiddle, hmiddleTree, hmiddleStarts⟩ :=
        middle_passes world installDir libDir hlog early
      obtain ⟨next, hexits, hstarts⟩ :=
        lookupCommands_exits world libDir hlog graphicsLookups middle
          (by rw [hmiddleTree, hearlyTree]; simpa [hearlyFinds] using hfinds)
      refine ⟨next, ?_, by rw [hstarts, hmiddleStarts, hearlyStarts]⟩
      rw [resolveLibraries_eq, seq_of_passes hearly, seq_of_passes hmiddle, hexits]

end Passing

/-! ## When the order does not matter -/

section Undisturbed

variable (world : World) (libDir : Bytes)

namespace Lookup

variable (lookup : Lookup)

/-- The entries a lookup may write. -/
def writes (tree : Tree) : List Path :=
  lookup.candidates.filterMap fun candidate => lookup.place world libDir candidate tree

/-- The entries a lookup may read: the way to each candidate, the way to its own
name in `lib/`, and, should that name be a directory, the way into it. -/
def reads (tree : Tree) : List Path :=
  tree.reads world.cwd (lookup.target libDir) ++
    tree.entryReads world.cwd (lookup.target libDir) ++
    lookup.candidates.flatMap fun candidate =>
      tree.reads world.cwd (.ofBytes candidate) ++
        ((Pathname.ofBytes candidate).parts.getLast?.toList.flatMap fun last =>
          tree.entryReads world.cwd ((lookup.target libDir).child last))

variable {lookup} {tree other : Tree}

theorem settled_congr
    (hagree : ∀ place ∈ lookup.reads world libDir tree, other.node place = tree.node place) :
    lookup.settled world libDir other = lookup.settled world libDir tree := by
  have hfile : other.isFile world.cwd (lookup.target libDir) =
      tree.isFile world.cwd (lookup.target libDir) :=
    Tree.isFile_congr fun place hplace => hagree place (by simp [reads, hplace])
  have hlink : other.isLink world.cwd (lookup.target libDir) =
      tree.isLink world.cwd (lookup.target libDir) :=
    Tree.isLink_congr fun place hplace => hagree place (by simp [reads, hplace])
  unfold settled
  rw [hfile, hlink]

theorem choice_congr
    (hagree : ∀ place ∈ lookup.reads world libDir tree, other.node place = tree.node place) :
    lookup.choice world other = lookup.choice world tree := by
  apply List.find?_congr
  intro candidate hcandidate
  apply Tree.isFile_congr
  intro place hplace
  refine hagree place (List.mem_append_right _ ?_)
  exact List.mem_flatMap.mpr ⟨candidate, hcandidate, List.mem_append_left _ hplace⟩

theorem found_congr
    (hagree : ∀ place ∈ lookup.reads world libDir tree, other.node place = tree.node place) :
    lookup.found world libDir other = lookup.found world libDir tree := by
  rw [found, found, settled_congr world libDir hagree, choice_congr world libDir hagree]

theorem writes_congr
    (hagree : ∀ place ∈ lookup.reads world libDir tree, other.node place = tree.node place) :
    lookup.writes world libDir other = lookup.writes world libDir tree := by
  apply List.filterMap_congr
  intro candidate hcandidate
  have hdirectory : other.isDirectory world.cwd (lookup.target libDir) =
      tree.isDirectory world.cwd (lookup.target libDir) :=
    Tree.isDirectory_congr fun place hplace => hagree place (by simp [reads, hplace])
  unfold place Tree.destination
  rw [hdirectory]
  cases tree.isDirectory world.cwd (lookup.target libDir) with
  | false =>
      exact Tree.entry_congr fun place hplace => hagree place (by simp [reads, hplace])
  | true =>
      simp only [if_true]
      cases hlast : (Pathname.ofBytes candidate).parts.getLast? with
      | none => rfl
      | some last =>
          refine Tree.entry_congr fun place hplace => hagree place ?_
          refine List.mem_append_right _ (List.mem_flatMap.mpr ⟨candidate, hcandidate, ?_⟩)
          simp [hlast, hplace]

/-- The entry a lookup makes a link is one of those it may write. -/
theorem mem_writes_of_newLink {made : Path × Bytes}
    (hmade : lookup.newLink world libDir tree = some made) :
    made.1 ∈ lookup.writes world libDir tree := by
  obtain ⟨hsource, hplace, -⟩ := newLink_eq_some hmade
  have hcandidate := (isFile_of_choice (choice_of_source hsource)).1
  exact List.mem_filterMap.mpr ⟨made.2, hcandidate, hplace⟩

/-- A lookup changes only entries it writes. -/
theorem linked_node (place : Path) (hplace : place ∉ lookup.writes world libDir tree) :
    (lookup.linked world libDir tree).node place = tree.node place :=
  linked_node_of_newLink fun _ hmade heq =>
    hplace (heq ▸ mem_writes_of_newLink world libDir hmade)

end Lookup

/-- No lookup reads an entry that an earlier one may write. -/
def Undisturbed (lookups : List Lookup) (tree : Tree) : Prop :=
  lookups.Pairwise fun earlier later =>
    ∀ place ∈ earlier.writes world libDir tree, place ∉ later.reads world libDir tree

/-- Trees that agree on everything the lookups read are alike for them. -/
private theorem all_found_congr {lookups : List Lookup} {tree other : Tree}
    (hagree : ∀ lookup ∈ lookups, ∀ place ∈ lookup.reads world libDir tree,
      other.node place = tree.node place) :
    (∀ lookup ∈ lookups, lookup.found world libDir other = true) ↔
      ∀ lookup ∈ lookups, lookup.found world libDir tree = true :=
  forall₂_congr fun lookup hlookup => by
    rw [Lookup.found_congr world libDir (hagree lookup hlookup)]

theorem findsAll_iff_of_undisturbed {lookups : List Lookup} {tree : Tree}
    (hundisturbed : Undisturbed world libDir lookups tree) :
    findsAll world libDir lookups tree = true ↔
      ∀ lookup ∈ lookups, lookup.found world libDir tree = true := by
  suffices hgeneral : ∀ current : Tree,
      (∀ lookup ∈ lookups, ∀ place ∈ lookup.reads world libDir tree,
        current.node place = tree.node place) →
      (findsAll world libDir lookups current = true ↔
        ∀ lookup ∈ lookups, lookup.found world libDir current = true) from
    hgeneral tree fun _ _ _ _ => rfl
  induction lookups with
  | nil => simp [findsAll]
  | cons lookup rest ih =>
      intro current hagree
      obtain ⟨hfirst, hrest⟩ := List.pairwise_cons.mp hundisturbed
      have hhead := hagree lookup (by simp)
      have htail : ∀ later ∈ rest, ∀ place ∈ later.reads world libDir tree,
          (lookup.linked world libDir current).node place = tree.node place := by
        intro later hlater place hplace
        rw [Lookup.linked_node, hagree later (by simp [hlater]) place hplace]
        rw [Lookup.writes_congr world libDir hhead]
        exact fun hwrites => hfirst later hlater place hwrites hplace
      simp only [findsAll, Bool.and_eq_true, List.forall_mem_cons]
      rw [ih hrest _ htail, all_found_congr world libDir htail,
        ← all_found_congr world libDir fun later hlater => hagree later (by simp [hlater])]

end Undisturbed

end TizenRoblox.Launcher
