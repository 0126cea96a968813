/-
# Runs of a labelled transition relation

A run is a finite list of labelled steps. The inductions over runs that the
development needs are proved here: a property of states that every step keeps
holds at the end of every run, hence, runs being closed under prefixes, in every
state a run passes through; and runs compose. A guard restricts the steps a run
may take; what a guarded run keeps may rest on the guard of each step.

Where each label has one successor only, a property may also be asked of all steps of a
run (`Throughout`). Facts that a step can only keep or bring are then there from the start, or
brought by a step that can be named (`Throughout.provenance`).
-/

import Mathlib.Data.List.Basic

namespace TizenRoblox.Foundation

universe u v

variable {State : Type u} {Label : Type v}

/-- `Run step source labels target`: the labels lead from `source` to `target`. -/
inductive Run (step : State → Label → State → Prop) : State → List Label → State → Prop
  | start (source : State) : Run step source [] source
  | extend {source middle target : State} {labels : List Label} {label : Label} :
      Run step source labels middle → step middle label target →
        Run step source (labels ++ [label]) target

/-- The steps of `step` that meet `guard` in the state they are taken from. -/
def Guarded (guard : State → Label → Prop) (step : State → Label → State → Prop) :
    State → Label → State → Prop :=
  fun source label target => guard source label ∧ step source label target

namespace Run

variable {step : State → Label → State → Prop}

/-- What every step keeps holds at the end of every run. -/
theorem invariant {property : State → Prop}
    (hstep : ∀ source label target, property source → step source label target →
      property target)
    {source target : State} {labels : List Label} (hrun : Run step source labels target)
    (hsource : property source) : property target := by
  induction hrun with
  | start => exact hsource
  | extend _ hlast ih => exact hstep _ _ _ ih hlast

/-- A run goes on where another one ends. -/
theorem append {source middle target : State} {first second : List Label}
    (hfirst : Run step source first middle) (hsecond : Run step middle second target) :
    Run step source (first ++ second) target := by
  induction hsecond with
  | start => rwa [List.append_nil]
  | extend _ hlast ih =>
      rw [← List.append_assoc]
      exact ih.extend hlast

/-- A step may come before a run. -/
theorem cons {source middle target : State} {label : Label} {labels : List Label}
    (hfirst : step source label middle) (hrest : Run step middle labels target) :
    Run step source (label :: labels) target :=
  ((Run.start source).extend hfirst).append hrest

theorem eq_of_nil {source target : State} (hrun : Run step source [] target) : source = target := by
  generalize hnone : ([] : List Label) = labels at hrun
  cases hrun with
  | start => rfl
  | extend => simp at hnone

/-- A run that is not empty begins with a step. -/
theorem exists_cons {source target : State} {label : Label} {labels : List Label}
    (hrun : Run step source (label :: labels) target) :
    ∃ middle, step source label middle ∧ Run step middle labels target := by
  generalize hall : label :: labels = all at hrun
  induction hrun generalizing labels with
  | start => cases hall
  | @extend middle target front last hfront hlast ih =>
      rcases front with _ | ⟨first, front⟩
      · obtain ⟨rfl, rfl⟩ := List.cons.inj hall
        obtain rfl := hfront.eq_of_nil
        exact ⟨_, hlast, .start _⟩
      · obtain ⟨rfl, rfl⟩ := List.cons.inj hall
        obtain ⟨next, hfirst, hrest⟩ := ih rfl
        exact ⟨next, hfirst, hrest.extend hlast⟩

/-- Every label of a run is the label of a step. -/
theorem exists_step {source target : State} {labels : List Label} {label : Label}
    (hrun : Run step source labels target) (hlabel : label ∈ labels) :
    ∃ before after, step before label after := by
  induction hrun with
  | start => cases hlabel
  | extend _ hlast ih =>
      rcases List.mem_append.mp hlabel with hold | hnew
      · exact ih hold
      · obtain rfl := List.mem_singleton.mp hnew
        exact ⟨_, _, hlast⟩

end Run

/-! ## Runs of a function -/

/-- A property of every label of a run, with the state that it is applied to. -/
def Throughout (next : State → Label → State) (property : State → Label → Prop) :
    State → List Label → Prop
  | _, [] => True
  | source, label :: rest =>
      property source label ∧ Throughout next property (next source label) rest

namespace Throughout

variable {next : State → Label → State} {property other : State → Label → Prop}

theorem congr (hsame : ∀ source label, property source label ↔ other source label)
    (source : State) (labels : List Label) :
    Throughout next property source labels ↔ Throughout next other source labels := by
  induction labels generalizing source with
  | nil => exact Iff.rfl
  | cons label rest ih => exact and_congr (hsame source label) (ih _)

/-- What holds wherever an invariant holds holds throughout a run that keeps it. -/
theorem of_invariant {invariant : State → Prop} {guard : Label → Prop}
    (hstep : ∀ source label, invariant source → guard label →
      property source label ∧ invariant (next source label))
    {source : State} {labels : List Label} (hsource : invariant source)
    (hguard : ∀ label ∈ labels, guard label) : Throughout next property source labels := by
  induction labels generalizing source with
  | nil => trivial
  | cons label rest ih =>
      obtain ⟨hlabel, hrest⟩ := List.forall_mem_cons.mp hguard
      obtain ⟨hproperty, hnext⟩ := hstep source label hsource hlabel
      exact ⟨hproperty, ih hnext hrest⟩

instance decidable [∀ source label, Decidable (property source label)] :
    ∀ (source : State) (labels : List Label), Decidable (Throughout next property source labels)
  | _, [] => isTrue trivial
  | source, label :: rest =>
      have := decidable (next source label) rest
      inferInstanceAs (Decidable (property source label ∧ _))

theorem append {source : State} {first second : List Label} :
    Throughout next property source (first ++ second) ↔
      Throughout next property source first ∧
        Throughout next property (first.foldl next source) second := by
  induction first generalizing source with
  | nil => exact (and_iff_right trivial).symm
  | cons label rest ih =>
      rw [List.cons_append, List.foldl_cons]
      exact (and_congr_right fun _ => ih).trans and_assoc.symm

section Guarded

variable {invariant : State → Prop}
  (hkeeps : ∀ source label, invariant source → property source label →
    invariant (next source label))
include hkeeps

theorem keeps {source : State} {labels : List Label}
    (hall : Throughout next property source labels) (hsource : invariant source) :
    invariant (labels.foldl next source) := by
  induction labels generalizing source with
  | nil => exact hsource
  | cons label rest ih => exact ih hall.2 (hkeeps source label hsource hall.1)

/-- What each step shows where the invariant holds is shown throughout. -/
theorem imp (hstep : ∀ source label, invariant source → property source label →
    other source label) {source : State} {labels : List Label}
    (hall : Throughout next property source labels) (hsource : invariant source) :
    Throughout next other source labels := by
  induction labels generalizing source with
  | nil => trivial
  | cons label rest ih =>
      exact ⟨hstep source label hsource hall.1, ih hall.2 (hkeeps source label hsource hall.1)⟩

/-- If a step keeps facts or brings them, then what is there at the end was there at the
start, or a step has brought it. -/
theorem provenance {Fact : Type*} {present : State → Fact → Prop}
    {brings : State → Label → Fact → Prop}
    (hstep : ∀ source label fact, invariant source → property source label →
      present (next source label) fact → present source fact ∨ brings source label fact)
    {source : State} {labels : List Label} {fact : Fact}
    (hall : Throughout next property source labels) (hsource : invariant source)
    (hfact : present (labels.foldl next source) fact) :
    present source fact ∨ ∃ before label after, labels = before ++ label :: after ∧
      brings (before.foldl next source) label fact := by
  induction labels generalizing source with
  | nil => exact .inl hfact
  | cons label rest ih =>
      rcases ih hall.2 (hkeeps source label hsource hall.1) hfact with
        hthere | ⟨before, bringing, after, rfl, hbrings⟩
      · refine (hstep source label fact hsource hall.1 hthere).imp_right fun hbrings => ?_
        exact ⟨[], label, rest, rfl, hbrings⟩
      · exact .inr ⟨label :: before, bringing, after, rfl, hbrings⟩

end Guarded

end Throughout

end TizenRoblox.Foundation
