/-
# The link that a lookup makes

A lookup changes at most one entry of the tree: it makes it a link to the candidate
it has found (`Lookup.linked_eq`). Which names lead to a regular file after the
lookup can therefore be told from the tree before it (`Lookup.isFile_linked_eq`).
-/

import TizenRoblox.Launcher.Libraries
import TizenRoblox.Posix.Links

namespace TizenRoblox.Launcher.Lookup

open TizenRoblox.Foundation TizenRoblox.Posix

section Definitions

variable (world : World) (libDir : Bytes) (lookup : Lookup)

/-- The entry a candidate's link would get. -/
def place (candidate : Bytes) (tree : Tree) : Option Path :=
  tree.destination world.cwd (.ofBytes candidate) (lookup.target libDir)

/-- The candidate a lookup links. -/
def source (tree : Tree) : Option Bytes :=
  if lookup.settled world libDir tree then none else lookup.choice world tree

/-- `ln -sf` does what a lookup wants of it. -/
def LinkSucceeds (tree : Tree) : Prop :=
  ∀ candidate ∈ lookup.source world libDir tree,
    (linkedTree world candidate (inLibDir libDir lookup.soname) tree).isSome = true

instance (tree : Tree) : Decidable (lookup.LinkSucceeds world libDir tree) :=
  inferInstanceAs (Decidable (∀ _ ∈ _, _))

/-- The link a lookup makes: the entry it takes, and the candidate it leads to. -/
def newLink (tree : Tree) : Option (Path × Bytes) :=
  match lookup.source world libDir tree with
  | none => none
  | some candidate =>
      if (linkedTree world candidate (inLibDir libDir lookup.soname) tree).isSome then
        (lookup.place world libDir candidate tree).map fun place => (place, candidate)
      else none

/-- After the lookup, a name will lead to a regular file: it does so already, off the
entry that becomes a link, or the link leads it on. -/
def willLead (tree : Tree) (name : Pathname) : Bool :=
  match lookup.newLink world libDir tree with
  | none => tree.isFile world.cwd name
  | some (place, candidate) =>
      tree.isFile world.cwd name && place ∉ tree.reads world.cwd name ||
        decide (tree.Leads world.cwd place (.ofBytes candidate) name)

end Definitions

section Results

variable {world : World} {libDir : Bytes} {lookup : Lookup} {tree : Tree}

theorem choice_of_source {candidate : Bytes}
    (hsource : lookup.source world libDir tree = some candidate) :
    lookup.choice world tree = some candidate := by
  unfold source at hsource
  split at hsource
  · cases hsource
  · exact hsource

theorem isFile_of_choice {candidate : Bytes} (hchoice : lookup.choice world tree = some candidate) :
    candidate ∈ lookup.candidates ∧ tree.isFile world.cwd (.ofBytes candidate) = true :=
  ⟨List.mem_of_find?_eq_some hchoice, by simpa using List.find?_some hchoice⟩

/-- A lookup that insists on its library finds it in `lib/` or among the candidates. -/
theorem found_iff (hmanner : lookup.manner ≠ .compat) :
    lookup.found world libDir tree = true ↔
      lookup.settled world libDir tree = true ∨ ∃ candidate,
        lookup.source world libDir tree = some candidate := by
  unfold found source
  cases lookup.settled world libDir tree with
  | true => simp
  | false => simp [hmanner, Option.isSome_iff_exists]

/-- All a new link is: the candidate that was found, put where `ln -sf` puts it. -/
theorem newLink_eq_some {made : Path × Bytes}
    (hmade : lookup.newLink world libDir tree = some made) :
    lookup.source world libDir tree = some made.2 ∧
      lookup.place world libDir made.2 tree = some made.1 ∧
      ∃ next, linkedTree world made.2 (inLibDir libDir lookup.soname) tree = some next := by
  unfold newLink at hmade
  cases hsource : lookup.source world libDir tree with
  | none => simp [hsource] at hmade
  | some candidate =>
      simp only [hsource] at hmade
      split at hmade
      · next hsome =>
          obtain ⟨place, hplace, rfl⟩ := Option.map_eq_some_iff.mp hmade
          exact ⟨rfl, hplace, Option.isSome_iff_exists.mp hsome⟩
      · cases hmade

/-- Where `ln -sf` succeeds, a lookup that has found a candidate makes its link. -/
theorem newLink_of_source {candidate : Bytes} (hsucceeds : lookup.LinkSucceeds world libDir tree)
    (hsource : lookup.source world libDir tree = some candidate) :
    ∃ place, lookup.newLink world libDir tree = some (place, candidate) := by
  obtain ⟨next, hnext⟩ := Option.isSome_iff_exists.mp (hsucceeds candidate hsource)
  obtain ⟨place, hplace, -⟩ :=
    Tree.lnSf_eq_set (isFile_of_choice (choice_of_source hsource)).2
      (lnSf_of_linkedTree world hnext)
  exact ⟨place, by simp [newLink, hsource, hnext, Lookup.place, target, hplace]⟩

theorem linked_of_source_none (hsource : lookup.source world libDir tree = none) :
    lookup.linked world libDir tree = tree := by
  unfold source at hsource
  unfold linked
  split
  · rfl
  · next hsettled =>
      rw [if_neg hsettled] at hsource
      rw [hsource]

/-- A lookup that has nothing to say has found its library, or does not insist on it,
and links nothing. -/
theorem found_of_line_none (hline : lookup.line libDir world tree = none) :
    lookup.found world libDir tree = true ∧ lookup.source world libDir tree = none := by
  unfold line at hline
  unfold found source
  cases hsettled : lookup.settled world libDir tree with
  | true => simp
  | false =>
      cases hchoice : lookup.choice world tree with
      | some candidate => simp [hsettled, hchoice] at hline
      | none => simpa [hsettled, hchoice] using hline

theorem linked_of_source_some {candidate : Bytes}
    (hsource : lookup.source world libDir tree = some candidate) :
    lookup.linked world libDir tree =
      (linkedTree world candidate (inLibDir libDir lookup.soname) tree).getD tree := by
  unfold source at hsource
  split at hsource
  · cases hsource
  · next hsettled =>
      rw [linked, if_neg hsettled, hsource]

theorem choice_of_not_found (hfound : lookup.found world libDir tree = false) :
    lookup.choice world tree = none := by
  simp only [found, Bool.or_eq_false_iff, Option.isSome_eq_false_iff, Option.isNone_iff_eq_none]
    at hfound
  exact hfound.1.2

/-- A lookup that does not find its library leaves the tree as it is. -/
theorem linked_of_not_found (hfound : lookup.found world libDir tree = false) :
    lookup.linked world libDir tree = tree := by
  apply linked_of_source_none
  rw [source, choice_of_not_found hfound, ite_self]

/-- What a lookup does to the tree. -/
theorem linked_eq :
    lookup.linked world libDir tree =
      match lookup.newLink world libDir tree with
      | none => tree
      | some (place, candidate) => tree.set place (.link (.ofBytes candidate)) := by
  unfold newLink
  cases hsource : lookup.source world libDir tree with
  | none => exact linked_of_source_none hsource
  | some candidate =>
      rw [linked_of_source_some hsource]
      cases hnext : linkedTree world candidate (inLibDir libDir lookup.soname) tree with
      | none => simp [hnext]
      | some next =>
          obtain ⟨place, hplace, rfl, -⟩ :=
            Tree.lnSf_eq_set (isFile_of_choice (choice_of_source hsource)).2
              (lnSf_of_linkedTree world hnext)
          simp [Lookup.place, target, hplace, hnext]

/-- A lookup whose lines are heard leaves the tree of the lookup, whether it passes or
not. -/
theorem command_tree_of_heard {strict : Bool} {state : State}
    (hheard : Heard world strict state) :
    (lookup.command world libDir strict state).state.tree =
      lookup.linked world libDir state.tree := by
  rw [lookup.command_eq libDir hheard]
  cases hfound : lookup.found world libDir state.tree with
  | true => exact lookup.after_tree world libDir state
  | false =>
      rw [linked_of_not_found hfound]
      cases strict <;> rfl

/-- Under `set -e` a lookup links nothing that it could not announce. -/
theorem command_tree (state : State) :
    (lookup.command world libDir true state).state.tree =
      if world.logOk state.trace then lookup.linked world libDir state.tree else state.tree := by
  cases hlog : world.logOk state.trace with
  | true => exact command_tree_of_heard (.inr hlog)
  | false =>
      rw [lookup.command_refused libDir hlog]
      cases lookup.line libDir world state.tree <;> rfl

/-- A lookup changes only the entry it makes a link. -/
theorem linked_node_of_newLink {other : Path}
    (hother : ∀ made ∈ lookup.newLink world libDir tree, other ≠ made.1) :
    (lookup.linked world libDir tree).node other = tree.node other := by
  rw [linked_eq]
  cases hmade : lookup.newLink world libDir tree with
  | none => rfl
  | some made => exact Tree.node_set_of_ne tree _ (hother made hmade)

/-- The tree before a lookup tells which names lead to a regular file after it. -/
theorem isFile_linked_eq
    (habsolute : ∀ candidate ∈ lookup.candidates, (Pathname.ofBytes candidate).absolute = true)
    (name : Pathname) :
    (lookup.linked world libDir tree).isFile world.cwd name =
      lookup.willLead world libDir tree name := by
  rw [linked_eq, willLead]
  cases hmade : lookup.newLink world libDir tree with
  | none => rfl
  | some made =>
      obtain ⟨hsource, hplace, next, hnext⟩ := newLink_eq_some hmade
      obtain ⟨hmem, hfile⟩ := isFile_of_choice (choice_of_source hsource)
      obtain ⟨place, hdestination, -, hne⟩ :=
        Tree.lnSf_eq_set hfile (lnSf_of_linkedTree world hnext)
      obtain rfl : place = made.1 := Option.some.inj (hdestination.symm.trans hplace)
      rw [Bool.eq_iff_iff]
      simpa using Tree.isFile_set_link_iff (habsolute _ hmem) hfile hne

end Results

end TizenRoblox.Launcher.Lookup
