/-
# Releases over many runs

The bundle is extracted and `dist/` is built again and again, in any order, and any run may
fail on the way. The working copy stays one all the time. What is in a slot is always a part
of its own kind, from the start or from a bundle that has been extracted
(`accounted_of_history`). A bundle that has been extracted to its end is in `dist/`, whole,
after the next build that gets to its end, until something else is built
(`dist_of_history`).

mimalloc never comes out of a bundle, and without it no build gets to its end.
-/

import TizenRoblox.Foundation.Runs
import TizenRoblox.Release.Build
import TizenRoblox.Release.Extraction

namespace TizenRoblox.Release

open TizenRoblox.Foundation TizenRoblox.Posix TizenRoblox.Shell

/-! ## Runs of the scripts -/

/-- A run of one of the scripts, with what it meets. -/
inductive Event
  | extraction (flatpak : Flatpak)
  | building (made : Made)

/-- What an extraction has found when it comes to the copying. -/
def found (root : Path) (flatpak : Flatpak) (tree : Tree) : Extracting :=
  (prepare root flatpak true (extracting tree)).state

/-- What of a part an extraction copies. -/
def Extracting.provides (root : Path) (state : Extracting) : Part → Option Bytes
  | .sober => state.tree.contents root (.ofBytes state.soberBin)
  | .lib .loader => state.tree.contents root (.ofBytes state.libloader)
  | .lib .badcpu => state.tree.contents root (.ofBytes state.libbadcpu)
  | .lib .mimalloc => none

namespace Event

variable (root : Path)

def outcome (tree : Tree) : Event → Outcome Tree
  | .extraction flatpak => (extractSober root flatpak true (extracting tree)).map Extracting.tree
  | .building made => build root made true tree

/-- The tree that a run leaves. -/
def after (tree : Tree) (event : Event) : Tree := (event.outcome root tree).state

/-- A run that gets to the end of its script. -/
def Completes (tree : Tree) (event : Event) : Prop :=
  ∃ next, event.outcome root tree = .done 0 next

/-- A `find` without a test `-l`, and a bundle that does not lead into the working copy. -/
def Plain (tree : Tree) : Event → Prop
  | .extraction flatpak => flatpak.hasLinkTest = false ∧ (found root flatpak tree).Foreign root
  | .building _ => True

/-- What a run copies. -/
def copies (tree : Tree) : Event → List (Copy Slot Bytes)
  | .extraction flatpak => (found root flatpak tree).copies root
  | .building _ => Release.copies

end Event

/-- The tree after a history. -/
abbrev afterAll (root : Path) (tree : Tree) (events : List Event) : Tree :=
  events.foldl (Event.after root) tree

/-- Every run of a history is plain. -/
abbrev Plainly (root : Path) (tree : Tree) (events : List Event) : Prop :=
  Throughout (Event.after root) (Event.Plain root) tree events

section Step

variable {root : Path} {tree : Tree} {event : Event}

theorem meets_outcome (hapart : Apart root) (hwork : Workplace root tree)
    (hplain : event.Plain root tree) :
    (event.outcome root tree).Meets
      (.copies (held root) (Workplace root) (event.copies root tree) (held root tree)) := by
  cases event with
  | extraction flatpak =>
      exact Outcome.Meets.map (meets_extractSober hapart hplain.1 hwork hplain.2)
  | building made => exact meets_build hwork

/-- What a run does: the working copy stays one, and some first copies have been made. -/
theorem begun_after (hapart : Apart root) (hwork : Workplace root tree)
    (hplain : event.Plain root tree) :
    Workplace root (event.after root tree) ∧
      Begun (held root) (event.copies root tree) (held root tree) (event.after root tree) :=
  Outcome.Meets.state (meets_outcome hapart hwork hplain)
    (fun _ hdone => hdone.imp_right begun_of_finished)
    (fun _ hdone => hdone.imp_right begun_of_finished)
    (fun _ hends => hends) (fun _ hends => hends)

theorem workplace_after (hapart : Apart root) (hwork : Workplace root tree)
    (hplain : event.Plain root tree) : Workplace root (event.after root tree) :=
  (begun_after hapart hwork hplain).1

/-- A run that gets to its end has made all its copies. -/
theorem finished_of_completes (hapart : Apart root) (hwork : Workplace root tree)
    (hplain : event.Plain root tree) (hcompletes : event.Completes root tree) :
    Finished (held root) (event.copies root tree) (held root tree) (event.after root tree) := by
  obtain ⟨next, hdone⟩ := hcompletes
  have hmeets := meets_outcome hapart hwork hplain
  rw [Event.after, hdone]
  rw [hdone] at hmeets
  exact hmeets.2

/-- What no run of a kind copies to stays as it is. -/
theorem held_after (hapart : Apart root) (hwork : Workplace root tree)
    (hplain : event.Plain root tree) {slot : Slot}
    (hslot : slot ∉ (event.copies root tree).map Copy.target) :
    held root (event.after root tree) slot = held root tree slot := by
  obtain ⟨-, count, hheld⟩ := begun_after hapart hwork hplain
  rw [hheld]
  apply copied_of_notMem
  intro hmem
  obtain ⟨copy, hcopy, rfl⟩ := List.mem_map.mp hmem
  exact hslot (List.mem_map_of_mem (List.mem_of_mem_take hcopy))

/-- No run brings mimalloc into the bundle. -/
theorem mimalloc_notMem (event : Event) :
    Slot.bundled (.lib .mimalloc) ∉ (event.copies root tree).map Copy.target := by
  cases event with
  | extraction flatpak =>
      simp [Event.copies, Extracting.copies, Extracting.fetch]
  | building made => simp [Event.copies, copies, copySlot]

end Step

/-! ### An example -/

section Example

instance (root : Path) (state : Extracting) : Decidable (state.Foreign root) :=
  inferInstanceAs (Decidable (∀ name ∈ state.names, ∀ file ∈ plan.files,
    state.tree.locate root (.ofBytes name) ≠ some (Plan.placeOf root file)))

instance (root : Path) (tree : Tree) (event : Event) : Decidable (event.Plain root tree) :=
  match event with
  | .extraction _ => inferInstanceAs (Decidable (_ ∧ _))
  | .building _ => isTrue trivial

instance (root : Path) (tree : Tree) (event : Event) : Decidable (event.Completes root tree) :=
  match houtcome : event.outcome root tree with
  | .done 0 next => isTrue ⟨next, houtcome⟩
  | .done (_ + 1) _ | .returned _ _ | .broken _ _ | .exited _ _ | .blocked _ => isFalse <| by
      simp [Event.Completes, houtcome]

def repository : Path := [bytes "repository"]

/-- A repository with a bundle that has not been extracted, and what is in `libs/`. -/
def fresh (libs : List (Name × Bytes)) : Tree where
  entries := [
    ([tmp], .dir), (repository, .dir),
    (repository ++ [bytes "sober.flatpak"], .file []),
    (repository ++ [bytes "tizen"], .dir),
    (repository ++ [bytes "tizen", bytes "launch.sh"], .file [9]),
    (repository ++ [bytes "tizen", bytes "pkg"], .dir),
    (repository ++ [bytes "tizen", bytes "pkg", bytes "tizen-manifest.xml"], .file []),
    (repository ++ [bytes "scripts"], .dir),
    (repository ++ [bytes "scripts", bytes "diagnose.sh"], .file [8]),
    (repository ++ [bytes "sober_bundle"], .dir),
    (repository ++ bundleLibs, .dir)] ++
    libs.map fun lib => (repository ++ bundleLibs ++ [lib.1], .file lib.2)

/-- A bundle with these bytes for its three parts. -/
def bundleOf (sober loader badcpu : Bytes) : Flatpak where
  flatpakFile := bytes "sober.flatpak"
  initStatus := 0
  importStatus := 0
  refs := bytes "app/org.vinegarhq.Sober/aarch64/stable"
  checkout _ := ([([bytes "sober"], .file sober), ([bytes "libloader.so"], .file loader),
    ([bytes "libbadcpu.so"], .file badcpu)], 0)
  visit := id
  visit_perm _ := .refl _
  hasLinkTest := false
  file _ := some (bytes "ELF 64-bit LSB pie executable, ARM aarch64")

/-- CMake has built the input mapper and no library. -/
def plainMade : Made where
  hasCompiler := true
  updateStatus := 0
  installStatus := 0
  configureStatus := 0
  compileStatus := 0
  inputMapper := some [7]
  libs := []
  libs_stub := by simp
  libs_linked := by simp

theorem apart_repository : Apart repository := ⟨by decide, by decide⟩

theorem workplace_fresh {libs : List (Name × Bytes)} (hlaid : plan.Laid repository (fresh libs))
    (haliased : ∀ directory ∈ aliases,
      (fresh libs).Writable (Plan.placeOf repository (directory, aliasName)))
    (htmp : (fresh libs).RealDir [tmp]) : Workplace repository (fresh libs) := by
  constructor
  · exact hlaid
  · exact fun directory hdirectory => .inl (haliased directory hdirectory)
  · intro name _ target hnode
    obtain ⟨front, back, hentries, -⟩ := List.lookup_eq_some_iff.mp hnode
    have hentry : (Plan.placeOf repository (distLib, name), Node.link target) ∈
        (fresh libs).entries := hentries ▸ by simp
    simp [fresh] at hentry
  · exact htmp

/-- A repository in which mimalloc has been put by hand. -/
def prepared : Tree := fresh [(Lib.mimalloc.file, [4])]

/-- The second release has been extracted, and not been built. -/
def twoReleases : List Event := [
  .extraction (bundleOf [1] [2] [3]), .building plainMade, .extraction (bundleOf [5] [6] [7])]

theorem workplace_prepared : Workplace repository prepared :=
  workplace_fresh (by decide +kernel) (by decide +kernel) (by decide +kernel)

end Example

/-! ## Where the parts come from -/

/-- What a slot is for. -/
def Slot.part : Slot → Part
  | .bundled part => part
  | .beside part => part
  | .fallback lib => .lib lib

/-- The slots that the build fills. -/
def Slot.InDist : Slot → Prop
  | .bundled _ => False
  | .beside _ => True
  | .fallback _ => True

theorem copySlot_mem {slot : Slot} (hdist : slot.InDist) :
    copySlot (.bundled slot.part) slot ∈ copies := by
  rcases slot with _ | (_ | _ | _ | _) | _ | _ | _
  · exact hdist.elim
  all_goals simp [copies, Slot.part]

theorem eq_copySlot {copy : Copy Slot Bytes} (hcopy : copy ∈ copies) :
    copy.target.InDist ∧ copy = copySlot (.bundled copy.target.part) copy.target := by
  simp only [copies, List.mem_cons, List.not_mem_nil, or_false] at hcopy
  rcases hcopy with rfl | rfl | rfl | rfl | rfl | rfl | rfl <;> exact ⟨trivial, rfl⟩

theorem nodup_copies : (copies.map Copy.target).Nodup := by decide

theorem apart_copies : ∀ copy ∈ copies, copy.Apart copies := by
  intro copy hcopy store target value htarget
  obtain ⟨other, hother, rfl⟩ := List.mem_map.mp htarget
  rw [(eq_copySlot hcopy).2]
  apply Function.update_of_ne
  intro heq
  have hdist := (eq_copySlot hother).1
  rwa [← heq] at hdist

/-- A slot for this part holds these bytes. -/
def Present (root : Path) (tree : Tree) (fact : Part × Bytes) : Prop :=
  ∃ slot : Slot, slot.part = fact.1 ∧ held root tree slot = some fact.2

/-- A run takes these bytes of a part out of a bundle. -/
def Event.Brings (root : Path) (tree : Tree) (event : Event) (fact : Part × Bytes) : Prop :=
  match event with
  | .extraction flatpak => (found root flatpak tree).provides root fact.1 = some fact.2
  | .building _ => False

section Accounting

variable {root : Path} {tree start : Tree} {event : Event} {events : List Event}

/-- Each copy is of a part to a slot for it. -/
theorem brings_of_source {fact : Part × Bytes → Prop} {store : Store Slot Bytes}
    (hbrings : ∀ part data, event.Brings root tree (part, data) → fact (part, data))
    (hstore : ∀ slot data, store slot = some data → fact (slot.part, data))
    {copy : Copy Slot Bytes} (hcopy : copy ∈ event.copies root tree) {data : Bytes}
    (hdata : copy.source store = some data) : fact (copy.target.part, data) := by
  cases event with
  | extraction flatpak =>
      simp only [Event.copies, Extracting.copies, List.mem_cons, List.not_mem_nil,
        or_false] at hcopy
      rcases hcopy with rfl | rfl | rfl
      · exact hbrings .sober data hdata
      · exact hbrings (.lib .loader) data hdata
      · exact hbrings (.lib .badcpu) data hdata
  | building made =>
      rw [(eq_copySlot hcopy).2] at hdata
      exact hstore (.bundled copy.target.part) data hdata

/-- A run keeps the parts that are there, and brings those of its bundle. -/
theorem present_after (hapart : Apart root) (hwork : Workplace root tree)
    (hplain : event.Plain root tree) {fact : Part × Bytes}
    (hpresent : Present root (event.after root tree) fact) :
    Present root tree fact ∨ event.Brings root tree fact := by
  obtain ⟨slot, hpart, hdata⟩ := hpresent
  obtain ⟨-, count, hheld⟩ := begun_after hapart hwork hplain
  rw [hheld] at hdata
  have hslot : Present root tree (slot.part, fact.2) ∨
      event.Brings root tree (slot.part, fact.2) := by
    apply @copied_keeps _ _ _ _ _ _ (fun slot data =>
      Present root tree (slot.part, data) ∨ event.Brings root tree (slot.part, data)) _ _ _ hdata
    · intro copy hcopy store hstore data hsource
      exact @brings_of_source root tree event
        (fun fact => Present root tree fact ∨ event.Brings root tree fact) store
        (fun _ _ hbrings => .inr hbrings) hstore copy (List.mem_of_mem_take hcopy) data hsource
    · exact fun slot data hthere => .inl ⟨slot, rfl, hthere⟩
  rwa [hpart] at hslot

theorem keeps_workplace (hapart : Apart root) (tree : Tree) (event : Event)
    (hwork : Workplace root tree) (hplain : event.Plain root tree) :
    Workplace root (event.after root tree) :=
  workplace_after hapart hwork hplain

theorem workplace_afterAll (hapart : Apart root) (hwork : Workplace root start)
    (hplain : Plainly root start events) : Workplace root (afterAll root start events) :=
  hplain.keeps (keeps_workplace hapart) hwork

/-- Over every history of plain runs, however they end, the working copy stays one, and what
is in a slot has been there, or in another slot for the same part, at the start, or comes
from a bundle that was extracted in between. -/
theorem accounted_of_history (hapart : Apart root) (hwork : Workplace root start)
    (hplain : Plainly root start events) :
    Workplace root (afterAll root start events) ∧
      ∀ slot data, held root (afterAll root start events) slot = some data →
        Present root start (slot.part, data) ∨ ∃ before event after,
          events = before ++ event :: after ∧
            event.Brings root (afterAll root start before) (slot.part, data) := by
  refine ⟨workplace_afterAll hapart hwork hplain, fun slot data hdata => ?_⟩
  have hpresent : Present root (afterAll root start events) (slot.part, data) := ⟨slot, rfl, hdata⟩
  exact hplain.provenance (keeps_workplace hapart)
    (fun _ _ _ hinvariant hguard => present_after hapart hinvariant hguard) hwork hpresent

theorem accounted_twoReleases :
    Workplace repository (afterAll repository prepared twoReleases) ∧
      ∀ slot data, held repository (afterAll repository prepared twoReleases) slot = some data →
        Present repository prepared (slot.part, data) ∨ ∃ before event after,
          twoReleases = before ++ event :: after ∧
            event.Brings repository (afterAll repository prepared before) (slot.part, data) :=
  accounted_of_history apart_repository workplace_prepared (by decide +kernel)

end Accounting

/-! ## What does not change -/

section Frame

variable {root : Path} {tree start : Tree} {event : Event} {events : List Event}

/-- What no run of a history copies to stays as it is. -/
theorem held_afterAll (hapart : Apart root) (hwork : Workplace root start)
    (hplain : Plainly root start events) {slot : Slot}
    (hslot : ∀ event ∈ events, ∀ tree, slot ∉ (event.copies root tree).map Copy.target) :
    held root (afterAll root start events) slot = held root start slot := by
  induction events generalizing start with
  | nil => rfl
  | cons event rest ih =>
      have hhere := held_after hapart hwork hplain.1 (hslot event List.mem_cons_self start)
      rw [← hhere]
      exact ih (workplace_after hapart hwork hplain.1) hplain.2
        fun later hlater => hslot later (List.mem_cons_of_mem _ hlater)

/-- No slot is emptied. -/
theorem isSome_afterAll (hapart : Apart root) (hwork : Workplace root start)
    (hplain : Plainly root start events) {slot : Slot} (hthere : (held root start slot).isSome) :
    (held root (afterAll root start events) slot).isSome := by
  have hkeeps (tree : Tree) (event : Event)
      (hbefore : Workplace root tree ∧ (held root tree slot).isSome)
      (hplain : event.Plain root tree) : Workplace root (event.after root tree) ∧
        (held root (event.after root tree) slot).isSome := by
    obtain ⟨hwork', count, hheld⟩ := begun_after hapart hbefore.1 hplain
    refine ⟨hwork', ?_⟩
    rw [hheld]
    exact copied_isSome hbefore.2
  exact (hplain.keeps hkeeps ⟨hwork, hthere⟩).2

/-- An extraction leaves `dist/` alone. -/
theorem dist_notMem {flatpak : Flatpak} {slot : Slot} (hdist : slot.InDist) :
    slot ∉ ((Event.extraction flatpak).copies root tree).map Copy.target := by
  intro hmem
  simp only [Event.copies, Extracting.copies, Extracting.fetch, List.map_cons, List.map_nil,
    List.mem_cons, List.not_mem_nil, or_false] at hmem
  rcases hmem with rfl | rfl | rfl <;> exact hdist

/-- A build leaves `sober_bundle/` alone. -/
theorem bundled_notMem {made : Made} {part : Part} :
    Slot.bundled part ∉ ((Event.building made).copies root tree).map Copy.target := by
  intro hmem
  obtain ⟨copy, hcopy, htarget⟩ := List.mem_map.mp hmem
  have hdist := (eq_copySlot hcopy).1
  rwa [htarget] at hdist

end Frame

/-! ## The last release -/

/-- The runs around a release: its bundle is extracted, and then come builds, and then, after
the last of them, extractions. -/
structure Delivery where
  before : List Event
  flatpak : Flatpak
  builds : List Made
  last : Made
  later : List Flatpak

namespace Delivery

variable (delivery : Delivery) (root : Path) (start : Tree)

def beforeLast : List Event :=
  delivery.before ++ [.extraction delivery.flatpak] ++ delivery.builds.map .building

def events : List Event :=
  delivery.beforeLast ++ [.building delivery.last] ++ delivery.later.map .extraction

/-- What has been found in the bundle. -/
def bundle : Extracting := found root delivery.flatpak (afterAll root start delivery.before)

/-- The parts of the release: those that come out of its bundle, and the mimalloc of the
start. -/
def release : Part → Option Bytes
  | .lib .mimalloc => held root start (.bundled (.lib .mimalloc))
  | part => (delivery.bundle root start).provides root part

/-- The tree after all runs. -/
def final : Tree := afterAll root start delivery.events

/-- The bundle has been extracted to the end, and the last build has got to its end. -/
structure Succeeds : Prop where
  plain : Plainly root start delivery.events
  extracted : (Event.extraction delivery.flatpak).Completes root
    (afterAll root start delivery.before)
  built : (Event.building delivery.last).Completes root (afterAll root start delivery.beforeLast)

end Delivery

section Release

variable {root : Path} {tree start : Tree} {flatpak : Flatpak} {made : Made}
  {before builds later events : List Event}

/-- An extraction that gets to its end has brought all that it can bring. -/
theorem bundled_of_completes (hapart : Apart root) (hwork : Workplace root tree)
    (hplain : (Event.extraction flatpak).Plain root tree)
    (hcompletes : (Event.extraction flatpak).Completes root tree) {part : Part}
    (hpart : part ≠ .lib .mimalloc) :
    ((found root flatpak tree).provides root part).isSome ∧
      held root ((Event.extraction flatpak).after root tree) (.bundled part) =
        (found root flatpak tree).provides root part := by
  obtain ⟨hheld, hall⟩ := finished_of_completes hapart hwork hplain hcompletes
  have hcopies (copy : Copy Slot Bytes) (hcopy : copy ∈ (found root flatpak tree).copies root) :=
    copied_of_mem (show (((found root flatpak tree).copies root).map Copy.target).Nodup from by
      simp [Extracting.copies, Extracting.fetch]) (by
      intro copy hcopy store target value _
      simp only [Extracting.copies, List.mem_cons, List.not_mem_nil, or_false] at hcopy
      rcases hcopy with rfl | rfl | rfl <;> rfl) hall hcopy
  rw [hheld]
  match part, hpart with
  | .sober, _ =>
      exact hcopies ((found root flatpak tree).fetch root _ (.bundled .sober))
        (by simp [Extracting.copies])
  | .lib .loader, _ =>
      exact hcopies ((found root flatpak tree).fetch root _ (.bundled (.lib .loader)))
        (by simp [Extracting.copies])
  | .lib .badcpu, _ =>
      exact hcopies ((found root flatpak tree).fetch root _ (.bundled (.lib .badcpu)))
        (by simp [Extracting.copies])

/-- A build that gets to its end has filled `dist/` from the bundle. -/
theorem dist_of_completes (hapart : Apart root) (hwork : Workplace root tree)
    (hcompletes : (Event.building made).Completes root tree) {slot : Slot}
    (hdist : slot.InDist) :
    (held root tree (.bundled slot.part)).isSome ∧
      held root ((Event.building made).after root tree) slot =
        held root tree (.bundled slot.part) := by
  obtain ⟨hheld, hall⟩ := finished_of_completes hapart hwork
    (show (Event.building made).Plain root tree from trivial) hcompletes
  rw [hheld]
  exact copied_of_mem nodup_copies apart_copies hall (copySlot_mem hdist)

variable {delivery : Delivery}

/-- The trees in between: the bundle has been extracted, and it has been built. -/
def Delivery.extractedTree (delivery : Delivery) (root : Path) (start : Tree) : Tree :=
  (Event.extraction delivery.flatpak).after root (afterAll root start delivery.before)

def Delivery.builtTree (delivery : Delivery) (root : Path) (start : Tree) : Tree :=
  (Event.building delivery.last).after root (afterAll root start delivery.beforeLast)

theorem Delivery.afterAll_beforeLast : afterAll root start delivery.beforeLast =
    afterAll root (delivery.extractedTree root start) (delivery.builds.map .building) := by
  simp [beforeLast, extractedTree, afterAll]

theorem Delivery.final_eq : delivery.final root start =
    afterAll root (delivery.builtTree root start) (delivery.later.map .extraction) := by
  simp [final, events, builtTree, afterAll]

/-- What is plain of each of its runs. -/
theorem Delivery.Succeeds.plainly (hsucceeds : delivery.Succeeds root start) :
    Plainly root start delivery.before ∧
      (Event.extraction delivery.flatpak).Plain root (afterAll root start delivery.before) ∧
      Plainly root (delivery.extractedTree root start) (delivery.builds.map .building) ∧
      Plainly root (delivery.builtTree root start) (delivery.later.map .extraction) := by
  have hplain := hsucceeds.plain
  simp only [events, Plainly, Throughout.append, List.foldl_append, List.foldl_cons,
    List.foldl_nil] at hplain
  obtain ⟨⟨hbefore, -⟩, hlater⟩ := hplain
  simp only [beforeLast, Throughout.append, List.foldl_append, List.foldl_cons,
    List.foldl_nil] at hbefore
  exact ⟨hbefore.1.1, hbefore.1.2.1, hbefore.2, hlater⟩

theorem Delivery.Succeeds.work_extracted (hsucceeds : delivery.Succeeds root start)
    (hapart : Apart root) (hwork : Workplace root start) :
    Workplace root (delivery.extractedTree root start) := by
  obtain ⟨hbefore, hextraction, -, -⟩ := hsucceeds.plainly
  exact workplace_after hapart (workplace_afterAll hapart hwork hbefore) hextraction

theorem Delivery.Succeeds.work_beforeLast (hsucceeds : delivery.Succeeds root start)
    (hapart : Apart root) (hwork : Workplace root start) :
    Workplace root (afterAll root start delivery.beforeLast) := by
  obtain ⟨-, -, hbuilds, -⟩ := hsucceeds.plainly
  rw [afterAll_beforeLast]
  exact workplace_afterAll hapart (hsucceeds.work_extracted hapart hwork) hbuilds

/-- What has been extracted is the release. -/
theorem Delivery.Succeeds.held_extracted (hsucceeds : delivery.Succeeds root start)
    (hapart : Apart root) (hwork : Workplace root start) (part : Part) :
    held root (delivery.extractedTree root start) (.bundled part) =
      delivery.release root start part := by
  obtain ⟨hbefore, hextraction, -, -⟩ := hsucceeds.plainly
  have hstart := workplace_afterAll hapart hwork hbefore
  have hmimalloc : held root (delivery.extractedTree root start) (.bundled (.lib .mimalloc)) =
      held root start (.bundled (.lib .mimalloc)) :=
    (held_after hapart hstart hextraction (mimalloc_notMem _)).trans
      (held_afterAll hapart hwork hbefore fun event _ _ => mimalloc_notMem event)
  by_cases hpart : part = .lib .mimalloc
  · exact hpart ▸ hmimalloc
  · refine (bundled_of_completes hapart hstart hextraction hsucceeds.extracted hpart).2.trans ?_
    rcases part with _ | _ | _ | _
    · rfl
    · rfl
    · rfl
    · exact absurd rfl hpart

/-- It is so still when the last build comes: the builds in between leave the bundle alone. -/
theorem Delivery.Succeeds.held_beforeLast (hsucceeds : delivery.Succeeds root start)
    (hapart : Apart root) (hwork : Workplace root start) (part : Part) :
    held root (afterAll root start delivery.beforeLast) (.bundled part) =
      delivery.release root start part := by
  obtain ⟨-, -, hbuilds, -⟩ := hsucceeds.plainly
  rw [afterAll_beforeLast, ← hsucceeds.held_extracted hapart hwork part]
  apply held_afterAll hapart (hsucceeds.work_extracted hapart hwork) hbuilds
  intro event hevent tree
  obtain ⟨made, -, rfl⟩ := List.mem_map.mp hevent
  exact bundled_notMem

/-- `dist/` is the release since the last build. -/
theorem Delivery.Succeeds.held_dist (hsucceeds : delivery.Succeeds root start)
    (hapart : Apart root) (hwork : Workplace root start) {slot : Slot} (hdist : slot.InDist) :
    (delivery.release root start slot.part).isSome ∧
      held root (delivery.final root start) slot = delivery.release root start slot.part := by
  obtain ⟨-, -, -, hlater⟩ := hsucceeds.plainly
  have hready := hsucceeds.work_beforeLast hapart hwork
  have hbundle := hsucceeds.held_beforeLast hapart hwork slot.part
  obtain ⟨hthere, hheld⟩ := dist_of_completes hapart hready hsucceeds.built hdist
  have hbuilt : Workplace root (delivery.builtTree root start) :=
    @workplace_after root _ (.building delivery.last) hapart hready trivial
  have hstays : held root (delivery.final root start) slot =
      held root (delivery.builtTree root start) slot := by
    rw [Delivery.final_eq]
    apply held_afterAll hapart hbuilt hlater
    intro event hevent tree
    obtain ⟨flatpak, -, rfl⟩ := List.mem_map.mp hevent
    exact dist_notMem hdist
  rw [hbundle] at hthere hheld
  exact ⟨hthere, hstays.trans hheld⟩

/-- When a bundle has been extracted to its end, and, after any number of builds, one gets to
its end, then all of `dist/` is this release, whatever was there before. It stays so while
bundles are extracted, to their end or not. -/
theorem dist_of_history (hapart : Apart root) (hwork : Workplace root start)
    (hsucceeds : delivery.Succeeds root start) :
    Workplace root (delivery.final root start) ∧ ∀ slot : Slot, slot.InDist →
      (delivery.release root start slot.part).isSome ∧
        held root (delivery.final root start) slot = delivery.release root start slot.part :=
  ⟨workplace_afterAll hapart hwork hsucceeds.plain,
    fun _ hdist => hsucceeds.held_dist hapart hwork hdist⟩

/-- Another bundle has been extracted since the release. -/
def overtaken : Delivery where
  before := []
  flatpak := bundleOf [1] [2] [3]
  builds := []
  last := plainMade
  later := [bundleOf [5] [6] [7]]

theorem succeeds_overtaken : overtaken.Succeeds repository prepared :=
  ⟨by decide +kernel, by decide +kernel, by decide +kernel⟩

theorem dist_overtaken :
    Workplace repository (overtaken.final repository prepared) ∧ ∀ slot : Slot, slot.InDist →
      (overtaken.release repository prepared slot.part).isSome ∧
        held repository (overtaken.final repository prepared) slot =
          overtaken.release repository prepared slot.part :=
  dist_of_history apart_repository workplace_prepared succeeds_overtaken

/-- The copies of a build before it comes to mimalloc. -/
def beforeMimalloc : List (Copy Slot Bytes) := copies.take 3

theorem copies_eq_append : copies =
    beforeMimalloc ++ copySlot (.bundled (.lib .mimalloc)) (.beside (.lib .mimalloc)) ::
      copies.drop 4 := rfl

/-- mimalloc is missing in the bundle, and these slots of `dist/` are as in a store. -/
structure Stuck (root : Path) (store : Store Slot Bytes) (tree : Tree) : Prop where
  work : Workplace root tree
  missing : held root tree (.bundled (.lib .mimalloc)) = none
  beside : held root tree (.beside (.lib .mimalloc)) = store (.beside (.lib .mimalloc))
  fallback : ∀ lib, held root tree (.fallback lib) = store (.fallback lib)

variable {store : Store Slot Bytes} {event : Event}

theorem Stuck.blocked (hstuck : Stuck root store tree) :
    (copySlot (.bundled (.lib .mimalloc)) (.beside (.lib .mimalloc))).source
      (copied beforeMimalloc (held root tree)).1 = none := by
  have hslot : Slot.bundled (.lib .mimalloc) ∉ beforeMimalloc.map Copy.target := by decide
  exact (copied_of_notMem hslot).trans hstuck.missing

theorem Stuck.after (hapart : Apart root) (hstuck : Stuck root store tree)
    (hplain : event.Plain root tree) : Stuck root store (event.after root tree) := by
  have hslots : ∀ slot : Slot, slot.InDist → slot ∉ beforeMimalloc.map Copy.target →
      held root (event.after root tree) slot = held root tree slot := by
    intro slot hdist hslot
    cases event with
    | extraction flatpak => exact held_after hapart hstuck.work hplain (dist_notMem hdist)
    | building made =>
        have hbegun := (begun_after hapart hstuck.work hplain).2
        rw [Event.copies, copies_eq_append] at hbegun
        exact hbegun.of_blocked hstuck.blocked hslot
  constructor
  · exact workplace_after hapart hstuck.work hplain
  · rw [held_after hapart hstuck.work hplain (mimalloc_notMem event)]
    exact hstuck.missing
  · rw [hslots (.beside (.lib .mimalloc)) trivial (by decide)]
    exact hstuck.beside
  · intro lib
    have hlib : Slot.fallback lib ∉ beforeMimalloc.map Copy.target := by cases lib <;> decide
    rw [hslots (.fallback lib) trivial hlib]
    exact hstuck.fallback lib

theorem Stuck.not_completes (hapart : Apart root) (hstuck : Stuck root store tree) :
    ¬ (Event.building made).Completes root tree := by
  intro hcompletes
  have hplain : (Event.building made).Plain root tree := trivial
  have hall := (finished_of_completes hapart hstuck.work hplain hcompletes).2
  rw [Event.copies, copies_eq_append, copied_of_blocked hstuck.blocked] at hall
  cases hall

theorem Stuck.keeps (hapart : Apart root) (tree : Tree) (event : Event)
    (hstuck : Stuck root store tree) (hplain : event.Plain root tree) :
    Stuck root store (event.after root tree) :=
  hstuck.after hapart hplain

theorem stuck_start (hwork : Workplace root start)
    (hmissing : held root start (.bundled (.lib .mimalloc)) = none) :
    Stuck root (held root start) start :=
  ⟨hwork, hmissing, rfl, fun _ => rfl⟩

/-- If mimalloc is missing in the bundle at the start, then it stays missing there, no build of
a history gets to its end, and what comes after the first libraries of Sober is never put into
`dist/`. -/
theorem stuck_of_missing (hapart : Apart root) (hwork : Workplace root start)
    (hplain : Plainly root start events)
    (hmissing : held root start (.bundled (.lib .mimalloc)) = none) :
    Throughout (Event.after root)
        (fun tree event => ∀ made, event = .building made → ¬ event.Completes root tree)
        start events ∧
      held root (afterAll root start events) (.bundled (.lib .mimalloc)) = none ∧
      held root (afterAll root start events) (.beside (.lib .mimalloc)) =
        held root start (.beside (.lib .mimalloc)) ∧
      ∀ lib, held root (afterAll root start events) (.fallback lib) =
        held root start (.fallback lib) := by
  have hstart := stuck_start hwork hmissing
  have hend := hplain.keeps (Stuck.keeps hapart) hstart
  refine ⟨hplain.imp (Stuck.keeps hapart) ?_ hstart, hend.missing, hend.beside, hend.fallback⟩
  rintro tree event hstuck - made rfl
  exact hstuck.not_completes hapart

theorem stuck_fresh :
    Throughout (Event.after repository)
        (fun tree event => ∀ made, event = .building made → ¬ event.Completes repository tree)
        (fresh []) [.extraction (bundleOf [1] [2] [3]), .building plainMade] ∧
      held repository (afterAll repository (fresh [])
          [.extraction (bundleOf [1] [2] [3]), .building plainMade]) (.bundled (.lib .mimalloc)) =
        none ∧
      held repository (afterAll repository (fresh [])
          [.extraction (bundleOf [1] [2] [3]), .building plainMade]) (.beside (.lib .mimalloc)) =
        held repository (fresh []) (.beside (.lib .mimalloc)) ∧
      ∀ lib, held repository (afterAll repository (fresh [])
          [.extraction (bundleOf [1] [2] [3]), .building plainMade]) (.fallback lib) =
        held repository (fresh []) (.fallback lib) :=
  stuck_of_missing apart_repository
    (workplace_fresh (by decide +kernel) (by decide +kernel) (by decide +kernel))
    (by decide +kernel) (by decide +kernel)

end Release

end TizenRoblox.Release
