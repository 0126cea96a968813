/-
# Packages of releases

A package is made from a working copy in which bundles have been extracted and built. It
takes the binary from `dist/` and the libraries beside it from `sober_bundle/`, so it is of
one release if and only if the bundle has not got other libraries since that release was
built (`whole_iff`). The script asks for the binary only: a package can be made where no build
can, and then no mimalloc is staged beside the binary (`packed_without_mimalloc`).
-/

import TizenRoblox.Packaging.History
import TizenRoblox.Packaging.Parts

namespace TizenRoblox.Packaging

open TizenRoblox.Foundation TizenRoblox.Posix TizenRoblox.Shell TizenRoblox.Shell.Command
open TizenRoblox.Release (Apart Delivery Event Lib Made Part Plainly Slot Workplace afterAll build
  bundleOf fresh held overtaken plainMade prepared)

/-! ## Building first -/

section Build

variable {root : Path} {made : Made} {tree : Tree}

theorem straight_build : Straight (build root made) := by
  have hcp {source : Bytes} {way : Path} : Straight (Release.cpToDist root source way) :=
    straight_simple
  have hmkdir {way : Path} : Straight (Release.mkdirDist root way) := straight_simple
  have hcompile : Straight (Release.compile made) := straight_block
    ⟨straight_ifThen straight_simple (straight_block ⟨straight_simple, straight_simple⟩),
      straight_simple, straight_simple⟩
  have htools : Straight (Release.copyTools root made) :=
    straight_block ⟨Straight.orTrue straight_simple, hcp⟩
  have hdiagnose : Straight (Release.copyDiagnose root) :=
    hcp.orElse (straight_subshell (hmkdir.andThen hcp))
  exact straight_block ⟨hcompile, straight_block ⟨hmkdir, hmkdir, hmkdir, hmkdir⟩, htools,
    straight_act, straight_block ⟨hcp, hcp, hcp, hcp⟩, Straight.orTrue straight_simple,
    straight_block ⟨hcp, hcp, hcp⟩, Straight.orTrue straight_simple, hdiagnose,
    straight_block ⟨straight_simple, straight_simple⟩⟩

/-- `bash scripts/build.sh`: what it makes of the tree, and its status. -/
def runBuild (root : Path) (made : Made) (tree : Tree) : Tree × ℕ :=
  ((build root made true tree).state, statusOf (build root made true tree))

/-- The tree that is staged from: `dist/` is built if it has no binary. -/
def readyTree (root : Path) (made : Made) (tree : Tree) : Tree :=
  if (held root tree (.beside .sober)).isSome then tree else (runBuild root made tree).1

variable {host : Host} {source target : Staging} {status : ℕ}

theorem tree_of_buildFirst (hbuild : host.build = runBuild host.root made)
    (hwork : Workplace host.root source.tree)
    (hdone : buildFirst host true source = .done status target) :
    target.tree = readyTree host.root made source.tree ∧
      ((held host.root source.tree (.beside .sober)).isSome = false →
        (Event.building made).Completes host.root source.tree) := by
  have hname : Pathname.ofBytes (distDir ++ bytes "/bin/sober") = .relative
      ((Slot.beside .sober).file.1 ++ [(Slot.beside .sober).file.2]) := by
    decide
  have hfile : source.tree.isFile host.root (.ofBytes (distDir ++ bytes "/bin/sober")) =
      (held host.root source.tree (.beside .sober)).isSome := by
    rw [Tree.isFile_eq_isSome_contents, hname, hwork.contents_slot]
  cases hthere : (held host.root source.tree (.beside .sober)).isSome with
  | true =>
      simp [buildFirst, ifThen, ifElse, negate, testF, hfile, hthere] at hdone
      rw [readyTree, if_pos hthere, hdone.2]
      exact ⟨rfl, fun hnot => by cases hnot⟩
  | false =>
      simp only [buildFirst, ifThen, ifElse, negate, testF, test_tested, hfile, hthere] at hdone
      obtain hrun := simple_eq_done hdone
      rw [hbuild] at hrun
      obtain ⟨htree, hstatus⟩ := Prod.mk.inj hrun
      rw [readyTree, if_neg (by simp [hthere]), ← htree]
      exact ⟨rfl, fun _ => straight_build.eq_done_of_status hstatus⟩

/-- A run that gets to the package has staged what it has chosen from the slots. -/
theorem staged_stage (hapart : Apart host.root) (hbuild : host.build = runBuild host.root made)
    (hwork : Workplace host.root source.tree)
    (hdone : stage host true source = .done status target) :
    (held host.root (readyTree host.root made source.tree) (.beside .sober)).isSome ∧
      packed host.root target.tree =
        chosen (held host.root (readyTree host.root made source.tree)) := by
  unfold stage block at hdone
  obtain ⟨_, built, hbuilt, hdone⟩ := seq_eq_done hdone
  obtain ⟨_, begun, hbegun, hrest⟩ := seq_eq_done hdone
  obtain ⟨htree, -⟩ := tree_of_buildFirst hbuild hwork hbuilt
  have hready : Workplace host.root built.tree := by
    rw [htree, readyTree]
    split
    · exact hwork
    · exact @Release.workplace_after host.root source.tree (.building made) hapart hwork trivial
  have hstaged := (staged_createStructure hready hbegun).of_afterStructure hrest
  rw [htree] at hstaged
  exact ⟨hstaged.1, hstaged.2.parts⟩

end Build

/-! ### An example -/

/-- A host without the Tizen command line tools, in a repository. -/
def repositoryHost : Host :=
  { plainHost with root := Release.repository, build := runBuild Release.repository plainMade }

/-- What it stages from a tree. -/
def stagedFrom (tree : Tree) : Staging := (stage repositoryHost true ⟨tree, []⟩).state

theorem stage_eq_done {tree : Tree}
    (hdone : (match stage repositoryHost true ⟨tree, []⟩ with
      | .done 0 _ => true
      | _ => false) = true) :
    stage repositoryHost true ⟨tree, []⟩ = .done 0 (stagedFrom tree) := by
  unfold stagedFrom
  split at hdone
  · next houtcome => rw [houtcome, Outcome.state]
  · cases hdone

/-- The runs of a repository without mimalloc. -/
def firstRuns : List Event := [.extraction (bundleOf [1] [2] [3]), .building plainMade]

/-! ## A package after a history -/

section History

variable {host : Host} {made : Made} {delivery : Delivery} {root : Path} {start : Tree}
  {events : List Event} {status : ℕ} {target : Staging}

/-- The parts that have been extracted are in the bundle ever since. -/
theorem isSome_bundled (hapart : Apart root) (hwork : Workplace root start)
    (hsucceeds : delivery.Succeeds root start) (part : Part) (hpart : part ≠ .lib .mimalloc) :
    (held root (delivery.final root start) (.bundled part)).isSome := by
  obtain ⟨hbefore, hextraction, hbuilds, hlater⟩ := hsucceeds.plainly
  have hready := hsucceeds.work_beforeLast hapart hwork
  have hextracted := hsucceeds.work_extracted hapart hwork
  have hstart := Release.workplace_afterAll hapart hwork hbefore
  obtain ⟨hfound, hheld⟩ :=
    Release.bundled_of_completes hapart hstart hextraction hsucceeds.extracted hpart
  have hthere : (held root (delivery.extractedTree root start) (.bundled part)).isSome := by
    rwa [Delivery.extractedTree, hheld]
  have hbuilding : Plainly root (afterAll root start delivery.beforeLast)
      [.building delivery.last] := ⟨trivial, trivial⟩
  have hbuilt := Release.isSome_afterAll hapart hextracted hbuilds hthere
  rw [← Delivery.afterAll_beforeLast] at hbuilt
  rw [Delivery.final_eq]
  exact Release.isSome_afterAll hapart (Release.workplace_afterAll hapart hready hbuilding) hlater
    (Release.isSome_afterAll hapart hready hbuilding hbuilt)

/-- A package is of the release, as a whole, if and only if the bundle still has the libraries
of the release. -/
theorem whole_iff (hapart : Apart host.root) (hbuild : host.build = runBuild host.root made)
    (hwork : Workplace host.root start) (hsucceeds : delivery.Succeeds host.root start)
    (hdone : stage host true ⟨delivery.final host.root start, []⟩ = .done status target) :
    packed host.root target.tree = delivery.release host.root start ↔
      ∀ lib, held host.root (delivery.final host.root start) (.bundled (.lib lib)) =
        delivery.release host.root start (.lib lib) := by
  have hdist (slot : Slot) (hslot : slot.InDist) := hsucceeds.held_dist hapart hwork hslot
  have hready : readyTree host.root made (delivery.final host.root start) =
      delivery.final host.root start := by
    have hsober := hdist (.beside .sober) trivial
    rw [readyTree, if_pos]
    rw [hsober.2]
    exact hsober.1
  have hfinal := Release.workplace_afterAll hapart hwork hsucceeds.plain
  have hpacked := (staged_stage hapart hbuild hfinal hdone).2
  have hchosen : packed host.root target.tree =
      chosen (held host.root (delivery.final host.root start)) := hpacked.trans (by rw [hready])
  rw [hchosen]
  constructor
  · intro hwhole lib
    by_cases hlib : lib = .mimalloc
    · subst hlib
      exact Release.held_afterAll hapart hwork hsucceeds.plain
        fun event _ _ => Release.mimalloc_notMem event
    · have hpart := congrFun hwhole (.lib lib)
      have hthere := isSome_bundled hapart hwork hsucceeds (.lib lib) (by simpa using hlib)
      obtain ⟨data, hdata⟩ := Option.isSome_iff_exists.mp hthere
      rw [← hpart, chosen_lib hlib, hdata, Option.some_or]
  · intro hlibs
    funext part
    have hheld : held host.root (delivery.final host.root start) (.beside part) =
        delivery.release host.root start part := (hdist (.beside part) trivial).2
    have hthere : (delivery.release host.root start part).isSome := (hdist (.beside part) trivial).1
    obtain ⟨data, hdata⟩ := Option.isSome_iff_exists.mp hthere
    rcases part with _ | lib
    · exact hheld
    · by_cases hlib : lib = .mimalloc
      · subst hlib
        rw [chosen_mimalloc, hheld, hdata, Option.some_or]
      · rw [chosen_lib hlib, hlibs lib, hdata, Option.some_or]

theorem whole_overtaken :
    packed repositoryHost.root
        (stagedFrom (overtaken.final repositoryHost.root prepared)).tree =
      overtaken.release repositoryHost.root prepared ↔
    ∀ lib, held repositoryHost.root (overtaken.final repositoryHost.root prepared)
        (.bundled (.lib lib)) = overtaken.release repositoryHost.root prepared (.lib lib) :=
  whole_iff Release.apart_repository rfl Release.workplace_prepared Release.succeeds_overtaken
    (stage_eq_done (by decide +kernel))

/-- Without mimalloc in `sober_bundle/` and beside the binary in `dist/`, none is staged beside
the binary of a package, and a package is made of a binary that is in `dist/` before: the build
of the script cannot get to its end. -/
theorem packed_without_mimalloc (hapart : Apart host.root)
    (hbuild : host.build = runBuild host.root made) (hwork : Workplace host.root start)
    (hplain : Plainly host.root start events)
    (hmissing : held host.root start (.bundled (.lib .mimalloc)) = none)
    (hnone : held host.root start (.beside (.lib .mimalloc)) = none)
    (hdone : stage host true ⟨afterAll host.root start events, []⟩ = .done status target) :
    packed host.root target.tree (.lib .mimalloc) = none ∧
      (held host.root (afterAll host.root start events) (.beside .sober)).isSome := by
  have hstuck := hplain.keeps (Release.Stuck.keeps hapart) (Release.stuck_start hwork hmissing)
  have hsober : (held host.root (afterAll host.root start events) (.beside .sober)).isSome := by
    by_contra hbinary
    unfold stage block at hdone
    obtain ⟨_, _, hbuilt, -⟩ := seq_eq_done hdone
    have hcompletes := (tree_of_buildFirst hbuild hstuck.work hbuilt).2
      (Bool.eq_false_of_not_eq_true hbinary)
    exact hstuck.not_completes hapart hcompletes
  have hpacked := (staged_stage hapart hbuild hstuck.work hdone).2
  have hready : readyTree host.root made (afterAll host.root start events) =
      afterAll host.root start events := if_pos hsober
  refine ⟨?_, hsober⟩
  change packed host.root target.tree = chosen (held host.root
    (readyTree host.root made (afterAll host.root start events))) at hpacked
  rw [hpacked, hready, chosen_mimalloc, hstuck.beside, hnone, Option.none_or, hstuck.missing]

theorem packed_firstRuns :
    packed repositoryHost.root (stagedFrom
        (afterAll repositoryHost.root (fresh []) firstRuns)).tree (.lib .mimalloc) = none ∧
      (held repositoryHost.root (afterAll repositoryHost.root (fresh []) firstRuns)
        (.beside .sober)).isSome :=
  packed_without_mimalloc Release.apart_repository rfl
    (Release.workplace_fresh (by decide +kernel) (by decide +kernel) (by decide +kernel))
    (by decide +kernel) (by decide +kernel) (by decide +kernel) (stage_eq_done (by decide +kernel))

end History

end TizenRoblox.Packaging
