/-
# Archives that are updated in place

An archive holds entries under names. Adding a collection of entries to an archive
replaces the entries of the same names and keeps all others, so what an archive holds in
the end depends on all that was ever added to it. It holds what was added last, and
nothing else, if and only if every name that it had before is among the names of what was
added (`update_same_iff`).
-/

import Mathlib.Data.List.Basic

namespace TizenRoblox.Foundation

universe u v

/-- Entries under their names. -/
abbrev Archive (Label : Type u) (Content : Type v) := List (Label × Content)

namespace Archive

variable {Label : Type u} {Content : Type v}

def names (archive : Archive Label Content) : List Label := archive.map Prod.fst

/-- Two archives hold the same entries. -/
def Same (one other : Archive Label Content) : Prop := ∀ entry, entry ∈ one ↔ entry ∈ other

theorem mem_names {archive : Archive Label Content} {entry : Label × Content}
    (hentry : entry ∈ archive) : entry.1 ∈ archive.names :=
  List.mem_map_of_mem hentry

variable [DecidableEq Label]

/-- What is added takes the place of what had its names. -/
def update (found added : Archive Label Content) : Archive Label Content :=
  added ++ found.filter fun entry => entry.1 ∉ added.names

variable {found added : Archive Label Content}

theorem mem_update {entry : Label × Content} :
    entry ∈ found.update added ↔ entry ∈ added ∨ entry ∈ found ∧ entry.1 ∉ added.names := by
  simp [update]

@[simp]
theorem nil_update : update [] added = added := by simp [update]

/-- No name is ever lost. -/
theorem mem_names_update {name : Label} :
    name ∈ (found.update added).names ↔ name ∈ added.names ∨ name ∈ found.names := by
  constructor
  · intro hname
    obtain ⟨entry, hentry, rfl⟩ := List.mem_map.mp hname
    exact (mem_update.mp hentry).imp mem_names fun hold => mem_names hold.1
  · intro hname
    by_cases hadded : name ∈ added.names
    · obtain ⟨entry, hentry, rfl⟩ := List.mem_map.mp hadded
      exact mem_names (mem_update.mpr (.inl hentry))
    · obtain ⟨entry, hentry, rfl⟩ := List.mem_map.mp (hname.resolve_left hadded)
      exact mem_names (mem_update.mpr (.inr ⟨hentry, hadded⟩))

/-- An updated archive holds what was added, and nothing else, if and only if it had no
other names before. -/
theorem update_same_iff : Same (found.update added) added ↔ found.names ⊆ added.names := by
  constructor
  · intro hsame name hname
    obtain ⟨entry, hentry, rfl⟩ := List.mem_map.mp hname
    by_contra hother
    exact hother (mem_names ((hsame entry).mp (mem_update.mpr (.inr ⟨hentry, hother⟩))))
  · intro hnames entry
    rw [mem_update]
    constructor
    · rintro (hnew | ⟨hold, hother⟩)
      · exact hnew
      · exact absurd (hnames (mem_names hold)) hother
    · exact .inl

end Archive

end TizenRoblox.Foundation
