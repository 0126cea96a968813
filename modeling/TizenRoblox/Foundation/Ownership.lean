/-
# Who owns a resource

Resources are acquired and released one after the other. A sequence of such exchanges is in
order for an owner that acquires only what it does not own and releases only what it owns:
nothing is released twice, or without having been acquired. What it owns in the end is then
decided by the exchanges alone: it has acquired each resource just as often as it has
released it, and once more if it still owns it (`count_of_run`).
-/

import Mathlib.Order.BooleanAlgebra.Set
import TizenRoblox.Foundation.Runs

namespace TizenRoblox.Foundation

universe u

/-- What an owner does with a resource. -/
inductive Exchange (Resource : Type u)
  | acquired (resource : Resource)
  | released (resource : Resource)
  deriving DecidableEq

variable {Resource : Type u}

/-- The resource that is exchanged. -/
def Exchange.resource : Exchange Resource → Resource
  | .acquired resource | .released resource => resource

/-- What is owned before and after an exchange. -/
inductive OwnStep : Set Resource → Exchange Resource → Set Resource → Prop
  | acquired {own : Set Resource} {resource : Resource} (hnew : resource ∉ own) :
      OwnStep own (.acquired resource) (insert resource own)
  | released {own : Set Resource} {resource : Resource} (hown : resource ∈ own) :
      OwnStep own (.released resource) (own \ {resource})

section Balance

open Classical in
/-- One if the resource is owned. -/
noncomputable def owned (own : Set Resource) (resource : Resource) : ℕ :=
  if resource ∈ own then 1 else 0

theorem owned_congr {own other : Set Resource} {resource : Resource}
    (hsame : resource ∈ own ↔ resource ∈ other) : owned own resource = owned other resource := by
  by_cases hown : resource ∈ own
  · rw [owned, owned, if_pos hown, if_pos (hsame.mp hown)]
  · rw [owned, owned, if_neg hown, if_neg fun hother => hown (hsame.mpr hother)]

variable [DecidableEq Resource]

theorem OwnStep.count {before after : Set Resource} {exchange : Exchange Resource}
    (hstep : OwnStep before exchange after) (resource : Resource) :
    [exchange].count (.acquired resource) + owned before resource =
      [exchange].count (.released resource) + owned after resource := by
  cases hstep with
  | @acquired other hnew =>
      by_cases hsame : other = resource
      · subst hsame
        simp [owned, hnew]
      · have hother : resource ≠ other := fun heq => hsame heq.symm
        have hkept : owned before resource = owned (insert other before) resource :=
          owned_congr (by simp [hother])
        simp [hsame, hkept]
  | @released other hown =>
      by_cases hsame : other = resource
      · subst hsame
        simp [owned, hown]
      · have hother : resource ≠ other := fun heq => hsame heq.symm
        have hkept : owned before resource = owned (before \ {other}) resource :=
          owned_congr (by simp [hother])
        simp [hsame, hkept]

/-- What has been acquired or was there before has been released or is there still. -/
theorem count_of_run {before after : Set Resource} {exchanges : List (Exchange Resource)}
    (hrun : Run OwnStep before exchanges after) (resource : Resource) :
    exchanges.count (.acquired resource) + owned before resource =
      exchanges.count (.released resource) + owned after resource := by
  induction hrun with
  | start => rfl
  | extend _ hlast ih =>
      have hcount := hlast.count resource
      rw [List.count_append, List.count_append]
      omega

end Balance

/-! ## Exchanges that compose -/

section Rules

variable {own before after : Set Resource} {resource : Resource}

/-- A resource is acquired before some exchanges and released after them. -/
theorem run_bracket {exchanges : List (Exchange Resource)} (hbefore : resource ∉ before)
    (hafter : resource ∉ after)
    (hrun : Run OwnStep (insert resource before) exchanges (insert resource after)) :
    Run OwnStep before (.acquired resource :: exchanges ++ [.released resource]) after := by
  have hreleased : OwnStep (insert resource after) (.released resource)
      (insert resource after \ {resource}) := .released (Set.mem_insert _ _)
  rw [Set.insert_sdiff_self_of_notMem hafter] at hreleased
  exact (hrun.cons (.acquired hbefore)).extend hreleased

/-- Exchanges that are in order both for an owner of a resource and without it leave it
alone. -/
theorem resource_ne_of_runs {exchanges : List (Exchange Resource)} {kept : Set Resource}
    (hout : resource ∉ own) (hwithout : Run OwnStep own exchanges after)
    (hwith : Run OwnStep (insert resource own) exchanges kept) :
    ∀ exchange ∈ exchanges, exchange.resource ≠ resource := by
  induction exchanges generalizing own with
  | nil => nofun
  | cons first rest ih =>
      obtain ⟨next, hfirst, hrest⟩ := hwithout.exists_cons
      obtain ⟨other, hfirst', hrest'⟩ := hwith.exists_cons
      cases hfirst with
      | @acquired another hnew =>
          cases hfirst' with
          | acquired hnew' =>
              have hne : another ≠ resource := fun heq => hnew' (heq ▸ Set.mem_insert _ _)
              rw [Set.insert_comm] at hrest'
              have hstill : resource ∉ insert another own := by simp [hne.symm, hout]
              exact List.forall_mem_cons.mpr ⟨hne, ih hstill hrest hrest'⟩
      | @released another hown =>
          cases hfirst' with
          | released hown' =>
              have hne : another ≠ resource := fun heq => hout (heq ▸ hown)
              rw [Set.insert_sdiff_of_notMem _ (by simpa using hne.symm)] at hrest'
              have hstill : resource ∉ own \ {another} := fun hmem => hout hmem.1
              exact List.forall_mem_cons.mpr ⟨hne, ih hstill hrest hrest'⟩

/-- Different resources are released one after the other. -/
theorem run_releaseAll {resources : List Resource} (hdistinct : resources.Nodup)
    (hown : ∀ resource ∈ resources, resource ∈ own) :
    Run OwnStep own (resources.map .released) (own \ {resource | resource ∈ resources}) := by
  induction resources generalizing own with
  | nil =>
      have hsame : own \ {resource : Resource | resource ∈ ([] : List Resource)} = own := by simp
      rw [hsame]
      exact .start own
  | cons first rest ih =>
      obtain ⟨hfirst, hrest⟩ := List.nodup_cons.mp hdistinct
      obtain ⟨hown, hothers⟩ := List.forall_mem_cons.mp hown
      have hleft : ∀ resource ∈ rest, resource ∈ own \ {first} := by
        intro resource hresource
        exact ⟨hothers resource hresource, fun heq => hfirst (heq ▸ hresource)⟩
      have hsame : own \ {resource | resource ∈ first :: rest} =
          (own \ {first}) \ {resource | resource ∈ rest} := by
        ext resource
        simp [and_assoc]
      rw [hsame, List.map_cons]
      exact .cons (.released hown) (ih hrest hleft)

end Rules

end TizenRoblox.Foundation
