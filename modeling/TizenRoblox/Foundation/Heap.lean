/-
# Blocks of a heap

A heap holds blocks, and a block may point to others that go with it. Whoever holds such a
block as a root owns it together with the blocks it points to. As long as the roots are held
apart from one another (`Apart`), a tree of new blocks may be added and the tree of a root
freed, block after block: no free hits a block that is not there, and what belongs to nobody
among the owners stays as it was. When the last root is gone, so is everything that was ever
allocated (`Apart.live_of_empty`).
-/

import Mathlib.Data.List.Nodup
import Mathlib.Data.Set.Insert
import Mathlib.Logic.Function.Basic

namespace TizenRoblox.Foundation

universe u v

/-- The blocks that are allocated, and those that were freed, in this order, with what they
held when they were. -/
structure Heap (Address : Type u) (Block : Type v) where
  live : Address → Option Block
  released : List (Address × Block)

namespace Heap

variable {Address : Type u} {Block : Type v} [DecidableEq Address]

/-- The block at an address is replaced, or a new one is put there. -/
def put (address : Address) (block : Block) (heap : Heap Address Block) : Heap Address Block where
  live := Function.update heap.live address (some block)
  released := heap.released

/-- `free`: nothing is done to `NULL`; of a pointer to no block nothing is said. -/
def free : Option Address → Heap Address Block → Option (Heap Address Block)
  | none, heap => some heap
  | some address, heap => (heap.live address).map fun block =>
      ⟨Function.update heap.live address none, heap.released ++ [(address, block)]⟩

/-- Blocks are freed one after the other. -/
def freeAll : List Address → Heap Address Block → Option (Heap Address Block)
  | [], heap => some heap
  | address :: rest, heap => (heap.free (some address)).bind (freeAll rest)

theorem free_of_live {heap : Heap Address Block} {address : Address} {block : Block}
    (hlive : heap.live address = some block) :
    heap.free (some address) = some
      ⟨Function.update heap.live address none, heap.released ++ [(address, block)]⟩ := by
  simp [free, hlive]

/-- Different blocks can be freed; the others stay. -/
theorem freeAll_of_live {addresses : List Address} (hdistinct : addresses.Nodup)
    {heap : Heap Address Block} {content : Address → Block}
    (hlive : ∀ address ∈ addresses, heap.live address = some (content address)) :
    ∃ after, heap.freeAll addresses = some after ∧
      (∀ address ∈ addresses, after.live address = none) ∧
      (∀ address, address ∉ addresses → after.live address = heap.live address) ∧
      after.released =
        heap.released ++ addresses.map fun address => (address, content address) := by
  induction addresses generalizing heap with
  | nil => exact ⟨heap, rfl, by simp, fun _ _ => rfl, by simp⟩
  | cons first rest ih =>
      obtain ⟨hfirst, hdistinct⟩ := List.nodup_cons.mp hdistinct
      obtain ⟨hhead, hlive⟩ := List.forall_mem_cons.mp hlive
      have hstill : ∀ address ∈ rest,
          Function.update heap.live first none address = some (content address) := by
        intro address haddress
        have hne : address ≠ first := fun heq => hfirst (heq ▸ haddress)
        rw [Function.update_of_ne hne]
        exact hlive address haddress
      obtain ⟨after, hfreed, hgone, hkept, hreleased⟩ :=
        @ih hdistinct
          ⟨Function.update heap.live first none, heap.released ++ [(first, content first)]⟩ hstill
      refine ⟨after, ?_, ?_, ?_, ?_⟩
      · rw [freeAll, free_of_live hhead, Option.bind_some]
        exact hfreed
      · rw [List.forall_mem_cons]
        refine ⟨?_, hgone⟩
        rw [hkept first hfirst]
        exact Function.update_self ..
      · intro address haddress
        obtain ⟨hne, hnotRest⟩ := not_or.mp (List.mem_cons.not.mp haddress)
        rw [hkept address hnotRest]
        exact Function.update_of_ne hne ..
      · rw [hreleased]
        simp

end Heap

/-! ## Roots -/

section Roots

variable {Address : Type u} {Block : Type v} (parts : Block → List Address)

/-- The blocks that go with a root, the root last. -/
def tree (live : Address → Option Block) (root : Address) : List Address :=
  (live root).elim [] parts ++ [root]

theorem tree_congr {live other : Address → Option Block} {root : Address}
    (hsame : live root = other root) : tree parts live root = tree parts other root := by
  rw [tree, tree, hsame]

theorem root_mem_tree (live : Address → Option Block) (root : Address) :
    root ∈ tree parts live root := by
  simp [tree]

/-- The trees of the roots are allocated and apart from each other, and what is in none of
them is what was there before. -/
structure Apart (before : Address → Option Block) (roots : Set Address)
    (live : Address → Option Block) : Prop where
  allocated : ∀ root ∈ roots, ∀ address ∈ tree parts live root, (live address).isSome = true
  distinct : ∀ root ∈ roots, (tree parts live root).Nodup
  separate : ∀ root ∈ roots, ∀ other ∈ roots, ∀ address ∈ tree parts live root,
    address ∈ tree parts live other → root = other
  added : ∀ root ∈ roots, ∀ address ∈ tree parts live root, before address = none
  others : ∀ address, (∀ root ∈ roots, address ∉ tree parts live root) →
    live address = before address

namespace Apart

variable {parts} {before live after : Address → Option Block} {roots : Set Address}

theorem start (before : Address → Option Block) : Apart parts before ∅ before where
  allocated := by simp
  distinct := by simp
  separate := by simp
  added := by simp
  others := fun _ _ => rfl

/-- Nothing is left behind when there are no roots. -/
theorem live_of_empty (happart : Apart parts before ∅ live) : live = before := by
  funext address
  exact happart.others address (by simp)

theorem notMem_tree (happart : Apart parts before roots live) {root address : Address}
    (hroot : root ∈ roots) (hfree : live address = none) : address ∉ tree parts live root := by
  intro hmem
  have hallocated := happart.allocated root hroot address hmem
  rw [hfree] at hallocated
  cases hallocated

/-- A tree of new blocks is added. -/
theorem insert (happart : Apart parts before roots live) {root : Address}
    (hnew : ∀ address ∈ tree parts after root, live address = none)
    (hkept : ∀ address, address ∉ tree parts after root → after address = live address)
    (hallocated : ∀ address ∈ tree parts after root, (after address).isSome = true)
    (hdistinct : (tree parts after root).Nodup) :
    Apart parts before (insert root roots) after := by
  have hold : ∀ other ∈ roots, ∀ address ∈ tree parts live other,
      address ∉ tree parts after root := by
    intro other hother address haddress hmem
    exact happart.notMem_tree hother (hnew address hmem) haddress
  have hsame : ∀ other ∈ roots, tree parts after other = tree parts live other := by
    intro other hother
    apply tree_congr
    exact hkept other (hold other hother other (root_mem_tree parts live other))
  constructor
  · rintro other (rfl | hother) address haddress
    · exact hallocated address haddress
    · rw [hsame other hother] at haddress
      rw [hkept address (hold other hother address haddress)]
      exact happart.allocated other hother address haddress
  · rintro other (rfl | hother)
    · exact hdistinct
    · rw [hsame other hother]
      exact happart.distinct other hother
  · rintro one (rfl | hone) other (rfl | hother) address haddress hmem
    · rfl
    · rw [hsame other hother] at hmem
      exact absurd haddress (hold other hother address hmem)
    · rw [hsame one hone] at haddress
      exact absurd hmem (hold one hone address haddress)
    · rw [hsame one hone] at haddress
      rw [hsame other hother] at hmem
      exact happart.separate one hone other hother address haddress hmem
  · rintro other (rfl | hother) address haddress
    · rw [← happart.others address fun one hone => happart.notMem_tree hone (hnew address haddress)]
      exact hnew address haddress
    · rw [hsame other hother] at haddress
      exact happart.added other hother address haddress
  · intro address hnone
    rw [hkept address (hnone root (Set.mem_insert _ _))]
    apply happart.others
    intro other hother
    rw [← hsame other hother]
    exact hnone other (Set.mem_insert_of_mem _ hother)

/-- The tree of a root is freed. -/
theorem remove (happart : Apart parts before roots live) {root : Address} (hroot : root ∈ roots)
    (hgone : ∀ address ∈ tree parts live root, after address = none)
    (hkept : ∀ address, address ∉ tree parts live root → after address = live address) :
    Apart parts before (roots \ {root}) after := by
  have hold : ∀ other ∈ roots \ {root}, ∀ address ∈ tree parts live other,
      address ∉ tree parts live root := by
    rintro other ⟨hother, hne⟩ address haddress hmem
    exact hne (happart.separate other hother root hroot address haddress hmem)
  have hsame : ∀ other ∈ roots \ {root}, tree parts after other = tree parts live other := by
    intro other hother
    apply tree_congr
    exact hkept other (hold other hother other (root_mem_tree parts live other))
  constructor
  · intro other hother address haddress
    rw [hsame other hother] at haddress
    rw [hkept address (hold other hother address haddress)]
    exact happart.allocated other hother.1 address haddress
  · intro other hother
    rw [hsame other hother]
    exact happart.distinct other hother.1
  · intro one hone other hother address haddress hmem
    rw [hsame one hone] at haddress
    rw [hsame other hother] at hmem
    exact happart.separate one hone.1 other hother.1 address haddress hmem
  · intro other hother address haddress
    rw [hsame other hother] at haddress
    exact happart.added other hother.1 address haddress
  · intro address hnone
    by_cases hmem : address ∈ tree parts live root
    · rw [hgone address hmem]
      exact (happart.added root hroot address hmem).symm
    · rw [hkept address hmem]
      apply happart.others
      intro other hother
      by_cases hsameRoot : other = root
      · exact hsameRoot ▸ hmem
      · rw [← hsame other ⟨hother, hsameRoot⟩]
        exact hnone other ⟨hother, hsameRoot⟩

end Apart

end Roots

end TizenRoblox.Foundation
