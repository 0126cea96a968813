/-
# The parts of Sober in a package

Where a run of the script stages the parts of Sober, and from where it takes them: the
binary from `dist/`; the libraries beside it from `sober_bundle/`, and from `dist/` only if
they are not there; mimalloc the other way round. If `dist/` has no binary the script builds
first. From the structure of the application on, a run that gets to the package has staged
just these parts (`Staged.of_afterStructure`).
-/

import TizenRoblox.Packaging.Staging
import TizenRoblox.Release.History

namespace TizenRoblox.Packaging

open TizenRoblox.Foundation TizenRoblox.Posix TizenRoblox.Shell TizenRoblox.Shell.Command
open TizenRoblox.Release (Lib Part Slot Workplace Inside aliasName held)

/-! ## The directory of the application -/

def app : Path := [pkgDir, appId]
def appBin : Path := app ++ [bytes "bin"]
def appMimalloc : Path := appBin ++ [bytes "subprojects", bytes "mimalloc"]
def appLib : Path := app ++ [bytes "lib"]
def appData : Path := app ++ [bytes "data"]
def appRes : Path := app ++ [bytes "res"]
def appScripts : Path := app ++ [bytes "scripts"]

/-- Where the package has a part of Sober. -/
def appFile : Part → Path × Name
  | .sober => (appBin, bytes "sober")
  | .lib .mimalloc => (appMimalloc, Lib.mimalloc.file)
  | .lib lib => (appBin, lib.file)

def appIcons : List (Path × Name) := [
  (appRes, bytes "tizenroblox-86x86.png"), (appRes, bytes "tizenroblox.png")]

def appManifest : Path × Name := (app, bytes "tizen-manifest.xml")

def appOthers : List (Path × Name) := [
  (appBin, bytes "input_mapper"), (appBin, bytes "launch.sh"),
  (appScripts, bytes "diagnose.sh"), appManifest] ++ appIcons

/-- The directories and files that are staged, but for the libraries of the build. -/
def appPlan : Plan where
  directories := [app, appBin, appMimalloc, appLib, appData, appRes, appScripts]
  files := Release.parts.map appFile ++ appOthers
  housed := by decide
  named := by decide
  apart := by decide

theorem appFile_mem (part : Part) : appFile part ∈ appPlan.files :=
  List.mem_append_left _ (List.mem_map_of_mem (Release.mem_parts part))

theorem appFile_inj : ∀ one ∈ Release.parts, ∀ other ∈ Release.parts,
    appFile one = appFile other → one = other := by
  decide

/-- What is staged of the parts. -/
def packed (root : Path) (tree : Tree) (part : Part) : Option Bytes :=
  tree.fileAt (Plan.placeOf root (appFile part))

/-- The link to mimalloc. -/
def aliasPlace (root : Path) : Path := Plan.placeOf root (appMimalloc, aliasName)

/-- The places that matter while a package is staged. -/
def Staging.Watches (root place : Path) : Prop :=
  Inside root place ∨ appPlan.Watches root place ∨ place = aliasPlace root

/-- The working copy is as it was, with `store` in its slots; these directories of the
application have been made, and these parts are staged. -/
structure Staged (root : Path) (store : Store Slot Bytes) (ways : List Path)
    (parts : Part → Option Bytes) (tree : Tree) : Prop where
  work : Workplace root tree
  held : held root tree = store
  laid : appPlan.Laid root tree
  planned : ∀ way ∈ ways, way ∈ appPlan.directories
  made : ∀ way ∈ ways, tree.RealDir (root ++ way)
  aliased : tree.Writable (aliasPlace root) ∨
    tree.node (aliasPlace root) = some (.link (.here Lib.mimalloc.file))
  parts : packed root tree = parts

section Staged

variable {root : Path} {store : Store Slot Bytes} {ways : List Path} {parts : Part → Option Bytes}
  {tree other : Tree} {file : Path × Name} {data : Bytes}

/-- The working copy has nothing below `pkg_work`. -/
theorem not_inside {place : Path} (hbelow : root ++ [pkgDir] <+: place) : ¬ Inside root place := by
  have hpkg : pkgDir ∉ [Release.tmp, bytes "sober_bundle", bytes "dist"] := by decide
  have hlong := hbelow.length_le
  rw [List.length_append, List.length_singleton] at hlong
  rintro (hroot | rfl | ⟨top, htop, hprefix⟩)
  · have hshort := hroot.length_le
    omega
  · rw [List.length_singleton] at hlong
    obtain rfl : root = [] := List.length_eq_zero_iff.mp (by omega)
    obtain ⟨rest, hrest⟩ := hbelow
    exact hpkg ((List.cons.inj hrest).1 ▸ List.mem_cons_self)
  · have hsame : root ++ [top] = root ++ [pkgDir] := by
      rcases List.prefix_or_prefix_of_prefix hprefix hbelow with hle | hle
      · exact hle.eq_of_length (by simp)
      · exact (hle.eq_of_length (by simp)).symm
    have htop' : top = pkgDir := List.singleton_inj.mp (List.append_cancel_left hsame)
    exact hpkg (htop' ▸ List.mem_cons_of_mem _ htop)

theorem below_placeOf (hfile : [pkgDir] <+: file.1) :
    root ++ [pkgDir] <+: Plan.placeOf root file := by
  rw [Plan.placeOf, List.append_assoc]
  exact (List.prefix_append_right_inj root).mpr (hfile.trans (List.prefix_append _ _))

theorem files_below : ∀ file ∈ appPlan.files, [pkgDir] <+: file.1 := by decide

theorem Staged.congr (hstaged : Staged root store ways parts tree)
    (hsame : ∀ place, Staging.Watches root place → other.node place = tree.node place) :
    Staged root store ways parts other := by
  constructor
  · exact hstaged.work.congr fun place hinside => hsame place (.inl hinside)
  · exact (Release.held_congr fun place hinside => hsame place (.inl hinside)).trans hstaged.held
  · exact hstaged.laid.congr fun place hwatches => hsame place (.inr (.inl hwatches))
  · exact hstaged.planned
  · intro way hway front name hfront
    have hreal := hstaged.made way hway front name hfront
    have hwatches : appPlan.Watches root (front ++ [name]) :=
      .inr (.inl ⟨way, hstaged.planned way hway, hfront⟩)
    exact ⟨hreal.1, (hsame _ (.inr (.inl hwatches))).trans hreal.2⟩
  · rw [Tree.Writable, hsame _ (.inr (.inr rfl))]
    exact hstaged.aliased
  · rw [← hstaged.parts]
    funext part
    exact Tree.fileAt_congr (hsame _ (.inr (.inl (.inr (.inr ⟨_, appFile_mem part, rfl⟩)))))

theorem alias_not_directory : ∀ directory ∈ appPlan.directories,
    ¬ appMimalloc ++ [aliasName] <+: directory := by
  decide

/-- To set a file that is no part. -/
theorem packed_set_other (hfile : ∀ part ∈ Release.parts, appFile part ≠ file) {value : Node} :
    packed root (tree.set (Plan.placeOf root file) value) = packed root tree := by
  funext part
  apply Tree.fileAt_set_of_ne
  exact fun heq => hfile part (Release.mem_parts part) (Plan.placeOf_inj.mp heq)

theorem packed_set_part (part : Part) :
    packed root (tree.set (Plan.placeOf root (appFile part)) (.file data)) =
      Function.update (packed root tree) part (some data) := by
  funext other
  by_cases heq : other = part
  · subst heq
    rw [Function.update_self]
    exact Tree.fileAt_set_file ..
  · rw [Function.update_of_ne heq]
    apply Tree.fileAt_set_of_ne
    intro hplace
    exact heq (appFile_inj other (Release.mem_parts other) part (Release.mem_parts part)
      (Plan.placeOf_inj.mp hplace))

theorem Staged.set_file (hstaged : Staged root store ways parts tree) (hfile : file ∈ appPlan.files)
    (hreal : tree.RealDir (root ++ file.1)) :
    Staged root store ways (packed root (tree.set (Plan.placeOf root file) (.file data)))
      (tree.set (Plan.placeOf root file) (.file data)) := by
  have houtside : ∀ place, Inside root place →
      (tree.set (Plan.placeOf root file) (.file data)).node place = tree.node place := by
    intro place hinside
    apply Tree.node_set_of_ne
    rintro rfl
    exact not_inside (below_placeOf (files_below file hfile)) hinside
  constructor
  · exact hstaged.work.congr houtside
  · exact (Release.held_congr houtside).trans hstaged.held
  · exact hstaged.laid.set_file hfile hreal
  · exact hstaged.planned
  · intro way hway
    exact Plan.realDir_set_file (hstaged.made way hway)
      (Plan.not_prefix_placeOf hfile (hstaged.planned way hway))
  · rw [Tree.Writable, Tree.node_set]
    split
    · exact .inl (.inr ⟨data, rfl⟩)
    · exact hstaged.aliased
  · rfl

/-- The link to mimalloc is made. -/
theorem Staged.set_alias (hstaged : Staged root store ways parts tree) :
    Staged root store ways parts
      (tree.set (aliasPlace root) (.link (.here Lib.mimalloc.file))) := by
  have hfiles : (appMimalloc, aliasName) ∉ appPlan.files := by decide
  have hbelow : root ++ [pkgDir] <+: aliasPlace root :=
    below_placeOf (show [pkgDir] <+: appMimalloc by decide)
  have houtside : ∀ place, Inside root place → (tree.set (aliasPlace root)
      (.link (.here Lib.mimalloc.file))).node place = tree.node place := by
    intro place hinside
    apply Tree.node_set_of_ne
    rintro rfl
    exact not_inside hbelow hinside
  have hnot : ∀ way, ¬ appMimalloc ++ [aliasName] <+: way → ¬ aliasPlace root <+: root ++ way := by
    intro way hway hprefix
    rw [aliasPlace, Plan.placeOf, List.append_assoc] at hprefix
    exact hway ((List.prefix_append_right_inj root).mp hprefix)
  constructor
  · exact hstaged.work.congr houtside
  · exact (Release.held_congr houtside).trans hstaged.held
  · apply hstaged.laid.set_other
    rintro (hroot | ⟨directory, hdirectory, hprefix⟩ | ⟨file, hfile, heq⟩)
    · exact Plan.placeOf_not_prefix_root hroot
    · exact hnot directory (alias_not_directory directory hdirectory) hprefix
    · exact hfiles (Plan.placeOf_inj.mp heq ▸ hfile)
  · exact hstaged.planned
  · intro way hway
    exact Plan.realDir_set_file (hstaged.made way hway)
      (hnot way (alias_not_directory way (hstaged.planned way hway)))
  · exact .inr (Tree.node_set_self ..)
  · rw [aliasPlace, packed_set_other, hstaged.parts]
    exact fun part _ heq => hfiles (heq ▸ appFile_mem part)

/-! ## Making the directories -/

theorem directories_below : ∀ directory ∈ appPlan.directories, [pkgDir] <+: directory := by decide

/-- To make a directory of the application changes nothing in the working copy. -/
theorem node_mkdirP_of_inside {directory place : Path} (hlaid : appPlan.Laid root tree)
    (hdirectory : directory ∈ appPlan.directories) (hinside : Inside root place) :
    (tree.mkdirP root (.relative directory)).node place = tree.node place := by
  rw [hlaid.real.mkdirP_relative,
    (Tree.mkdirP_of_clear (hlaid.clear directory hdirectory)).2]
  split
  · next hfront =>
      obtain ⟨hne, hprefix⟩ := hfront
      obtain ⟨above, last, rfl⟩ := List.eq_nil_or_concat' place |>.resolve_left hne
      rcases List.prefix_or_prefix_of_prefix hprefix (List.prefix_append root directory) with
        hroot | hbelow
      · exact (hlaid.real above last hroot).2.symm
      · -- A place on the way to the directory that is not above the repository is below `pkg_work`.
        have hpkg : root ++ [pkgDir] <+: root ++ directory :=
          (List.prefix_append_right_inj root).mpr (directories_below directory hdirectory)
        rcases List.prefix_or_prefix_of_prefix hprefix hpkg with hshort | hlong
        · rcases List.prefix_concat_iff.mp hshort with heq | hroot
          · exact absurd hinside (not_inside (heq ▸ List.prefix_refl _))
          · exact (hlaid.real above last hroot).2.symm
        · exact absurd hinside (not_inside hlong)
  · rfl

theorem Staged.mkdirP {directory : Path} (hstaged : Staged root store ways parts tree)
    (hdirectory : directory ∈ appPlan.directories) :
    Staged root store (directory :: ways) parts (tree.mkdirP root (.relative directory)) := by
  have houtside (place : Path) :=
    @node_mkdirP_of_inside root tree directory place hstaged.laid hdirectory
  have hrelative := hstaged.laid.real.mkdirP_relative directory
  have hclear := hstaged.laid.clear directory hdirectory
  constructor
  · exact hstaged.work.congr houtside
  · exact (Release.held_congr houtside).trans hstaged.held
  · rw [hrelative]
    exact hstaged.laid.mkdirP hdirectory
  · exact List.forall_mem_cons.mpr ⟨hdirectory, hstaged.planned⟩
  · rw [hrelative]
    exact List.forall_mem_cons.mpr ⟨hstaged.laid.real_mkdirP hdirectory,
      fun way hway => (hstaged.made way hway).mkdirP hclear⟩
  · rw [Tree.Writable, hrelative, (Tree.mkdirP_of_clear hclear).2, if_neg]
    · exact hstaged.aliased
    · rintro ⟨-, hprefix⟩
      rw [aliasPlace, Plan.placeOf, List.append_assoc] at hprefix
      exact alias_not_directory directory hdirectory
        ((List.prefix_append_right_inj root).mp hprefix)
  · rw [← hstaged.parts, hrelative]
    funext part
    exact Tree.fileAt_congr (hstaged.laid.node_mkdirP hdirectory (appFile_mem part))

/-- `rm -rf pkg_work` -/
theorem staged_rmRf (hwork : Workplace root tree) :
    Staged root (held root tree) [] (fun _ => none) (tree.rmRf root (.ofBytes pkgDir)) := by
  have hentry : tree.entry root (.ofBytes pkgDir) = some (root ++ [pkgDir]) :=
    Tree.entry_here hwork.laid.real.isDir not_isDots_appDir.1
  have hnode := Tree.node_rmRf hentry
  have houtside : ∀ place, Inside root place →
      (tree.rmRf root (.ofBytes pkgDir)).node place = tree.node place :=
    fun place hinside => by rw [hnode, if_neg fun hbelow => not_inside hbelow hinside]
  have hgone {file : Path × Name} (hfile : [pkgDir] <+: file.1) :
      (tree.rmRf root (.ofBytes pkgDir)).node (Plan.placeOf root file) = none := by
    rw [hnode, if_pos (below_placeOf hfile)]
  have hreal : (tree.rmRf root (.ofBytes pkgDir)).RealDir root := fun front name hfront =>
    ⟨(hwork.laid.real front name hfront).1, by
      rw [houtside _ (.inl hfront), (hwork.laid.real front name hfront).2]⟩
  have hdots : ∀ directory ∈ appPlan.directories, ∀ name ∈ directory, ¬ IsDots name := by decide
  constructor
  · exact hwork.congr houtside
  · exact Release.held_congr houtside
  · constructor
    · exact hreal
    · intro directory hdirectory front name hfront
      rcases List.prefix_or_prefix_of_prefix hfront (List.prefix_append root directory) with
        hroot | ⟨way, hway⟩
      · exact ⟨(hreal front name hroot).1, .inr (hreal front name hroot).2⟩
      · rcases List.eq_nil_or_concat' way with rfl | ⟨above, last, rfl⟩
        · rw [List.append_nil] at hway
          have hroot := hreal front name (hway ▸ List.prefix_refl _)
          exact ⟨hroot.1, .inr hroot.2⟩
        · rw [← List.append_assoc] at hway
          obtain ⟨rfl, hlast⟩ := List.append_inj' hway rfl
          obtain rfl := List.singleton_inj.mp hlast
          rw [List.append_assoc] at hfront ⊢
          have hbelow := (List.prefix_append_right_inj root).mp hfront
          have hpkg : [pkgDir] <+: above ++ [last] := by
            rcases List.prefix_or_prefix_of_prefix (directories_below directory hdirectory)
              hbelow with hlong | hshort
            · exact hlong
            · exact (hshort.eq_of_length_le (by simp)) ▸ List.prefix_refl _
          refine ⟨hdots directory hdirectory last (hbelow.subset (by simp)), .inl ?_⟩
          rw [hnode, if_pos ((List.prefix_append_right_inj root).mpr hpkg)]
    · exact fun file hfile => .inl (hgone (files_below file hfile))
    · exact fun file hfile hthere => absurd (hgone (files_below file hfile)) hthere
  · exact fun way hway => by cases hway
  · exact fun way hway => by cases hway
  · exact .inl (.inl (hgone (show [pkgDir] <+: appMimalloc by decide)))
  · funext part
    rw [packed, Tree.fileAt, hgone (files_below _ (appFile_mem part))]

/-! ## Copying the parts -/

/-- A file that is no part. -/
theorem Staged.set_other (hstaged : Staged root store ways parts tree) (hfile : file ∈ appOthers)
    (hreal : tree.RealDir (root ++ file.1)) :
    Staged root store ways parts (tree.set (Plan.placeOf root file) (.file data)) := by
  have hparts : ∀ file ∈ appOthers, ∀ part ∈ Release.parts, appFile part ≠ file := by decide
  have hset := @Staged.set_file root store ways parts tree file data hstaged
    (List.mem_append_right _ hfile) hreal
  rwa [packed_set_other (hparts file hfile), hstaged.parts] at hset

theorem Staged.set_part {part : Part} (hstaged : Staged root store ways parts tree)
    (hreal : tree.RealDir (root ++ (appFile part).1)) :
    Staged root store ways (Function.update parts part (some data))
      (tree.set (Plan.placeOf root (appFile part)) (.file data)) := by
  have hset := @Staged.set_file root store ways parts tree _ data hstaged (appFile_mem part) hreal
  rwa [packed_set_part, hstaged.parts] at hset

/-- What a slot holds is what its name leads to. -/
theorem Staged.contents_slot (hstaged : Staged root store ways parts tree) (slot : Slot) :
    tree.contents root (.relative (slot.file.1 ++ [slot.file.2])) = store slot := by
  rw [← hstaged.held]
  exact hstaged.work.contents_slot slot

theorem Staged.isFile_slot (hstaged : Staged root store ways parts tree) (slot : Slot) :
    tree.isFile root (.relative (slot.file.1 ++ [slot.file.2])) = (store slot).isSome := by
  rw [Tree.isFile_eq_isSome_contents, hstaged.contents_slot]

variable {slot : Slot} {part : Part}

/-- A part is copied from a slot. -/
theorem Staged.cp_slot (hstaged : Staged root store ways parts tree)
    (hname : slot.file.2 = (appFile part).2)
    (hnext : tree.cp root (.relative (slot.file.1 ++ [slot.file.2])) (.relative (appFile part).1) =
      some other) :
    ∃ data, store slot = some data ∧
      Staged root store ways (Function.update parts part (some data)) other := by
  have hlast : (Pathname.relative (slot.file.1 ++ [slot.file.2])).parts.getLast? =
      some (appFile part).2 := by
    simp [Pathname.relative, hname]
  obtain ⟨data, hdata, hreal, rfl⟩ := hstaged.laid.eq_set_of_cp (appFile_mem part) hlast hnext
  rw [hstaged.contents_slot] at hdata
  exact ⟨data, hdata, hstaged.set_part hreal⟩

/-- It can be copied if its directory has been made. -/
theorem Staged.cp_slot_of_made (hstaged : Staged root store ways parts tree)
    (hname : slot.file.2 = (appFile part).2) (hway : (appFile part).1 ∈ ways)
    (hdata : store slot = some data) :
    tree.cp root (.relative (slot.file.1 ++ [slot.file.2])) (.relative (appFile part).1) =
      some (tree.set (Plan.placeOf root (appFile part)) (.file data)) := by
  have hlast : (Pathname.relative (slot.file.1 ++ [slot.file.2])).parts.getLast? =
      some (appFile part).2 := by
    simp [Pathname.relative, hname]
  rw [hstaged.laid.cp_relative (appFile_mem part) hlast (hstaged.made _ hway),
    hstaged.contents_slot, hdata]
  rfl

end Staged

/-! ## The commands of the script -/

section Commands

variable {host : Host} {store : Store Slot Bytes} {ways : List Path} {parts : Part → Option Bytes}
  {source target : Staging} {status : ℕ}

theorem Staged.of_mkdirP {directory : Bytes} {way : Path} {strict : Bool}
    (hstaged : Staged host.root store ways parts source.tree)
    (hname : Pathname.ofBytes directory = .relative way) (hway : way ∈ appPlan.directories)
    (hdone : Packaging.mkdirP host directory strict source = .done status target) :
    Staged host.root store (way :: ways) parts target.tree := by
  have hstate := congrArg Outcome.state hdone
  rw [Packaging.mkdirP, treeStep, simple_state] at hstate
  have htree : source.tree.mkdirP host.root (.ofBytes directory) = target.tree :=
    congrArg Staging.tree hstate
  rw [← htree, hname]
  exact hstaged.mkdirP hway

/-- The application is staged from nothing. -/
theorem staged_createStructure (hwork : Workplace host.root source.tree)
    (hdone : createStructure host true source = .done status target) :
    Staged host.root (held host.root source.tree) [appRes, appData, appLib, appBin]
      (fun _ => none) target.tree := by
  unfold createStructure block at hdone
  obtain ⟨_, removed, hremoved, hdone⟩ := seq_eq_done hdone
  obtain ⟨_, _, hbin, hdone⟩ := seq_eq_done hdone
  obtain ⟨_, _, hlib, hdone⟩ := seq_eq_done hdone
  obtain ⟨_, _, hdata, hres⟩ := seq_eq_done hdone
  have htree : source.tree.rmRf host.root (.ofBytes pkgDir) = removed.tree := by
    have hstate := congrArg Outcome.state hremoved
    rw [rmRf, act, simple_state] at hstate
    exact congrArg Staging.tree hstate
  have hstaged := staged_rmRf hwork
  rw [htree] at hstaged
  have hmadeBin := hstaged.of_mkdirP (by decide) (show appBin ∈ _ by decide) hbin
  have hmadeLib := hmadeBin.of_mkdirP (by decide) (show appLib ∈ _ by decide) hlib
  have hmadeData := hmadeLib.of_mkdirP (by decide) (show appData ∈ _ by decide) hdata
  exact hmadeData.of_mkdirP (by decide) (show appRes ∈ _ by decide) hres

/-- What is copied beside the parts. -/
theorem preserves_cpOther {name : Bytes} {directory : Bytes} {file : Path × Name}
    (hfile : file ∈ appOthers) (hdirectory : Pathname.ofBytes directory = .relative file.1)
    (hlast : (Pathname.ofBytes name).parts.getLast? = some file.2) :
    Preserves (Staged host.root store ways parts ·.tree) (cp host (fun _ => name) directory) := by
  apply preserves_attempt
  intro staging next hstaged hnext
  obtain ⟨tree, htree, rfl⟩ := Option.map_eq_some_iff.mp hnext
  rw [hdirectory] at htree
  obtain ⟨data, -, hreal, rfl⟩ :=
    hstaged.laid.eq_set_of_cp (List.mem_append_right _ hfile) hlast htree
  exact hstaged.set_other hfile hreal

theorem eq_some_of_onTree {run : Staging → Option Tree}
    (hdone : onTree run true source = .done status target) :
    ∃ tree, run source = some tree ∧ { source with tree := tree } = target :=
  Option.map_eq_some_iff.mp (eq_some_of_attempt hdone)

/-- The binary is there, and staged. -/
theorem Staged.of_copyBinaries (hstaged : Staged host.root store ways parts source.tree)
    (hdone : copyBinaries host true source = .done status target) :
    ∃ data, store (.beside .sober) = some data ∧
      Staged host.root store ways (Function.update parts .sober (some data)) target.tree := by
  unfold copyBinaries block at hdone
  obtain ⟨_, copied, hsober, hrest⟩ := seq_eq_done hdone
  obtain ⟨tree, htree, rfl⟩ := eq_some_of_onTree hsober
  obtain ⟨data, hdata, hcopied⟩ :=
    @Staged.cp_slot host.root store ways parts source.tree tree (.beside .sober) .sober hstaged rfl
      htree
  refine ⟨data, hdata, ?_⟩
  have hkeeps : Preserves
      (Staged host.root store ways (Function.update parts .sober (some data)) ·.tree) (block [
        orTrue (cp host (fun _ => distDir ++ bytes "/bin/input_mapper") (appDir ++ bytes "/bin/")),
        cp host (fun _ => distDir ++ bytes "/bin/launch.sh") (appDir ++ bytes "/bin/")]) :=
    preserves_block ⟨(@preserves_cpOther host store ways _ _ _ (appBin, bytes "input_mapper")
        (by decide) (by decide) (by decide)).orTrue,
      @preserves_cpOther host store ways _ _ _ (appBin, bytes "launch.sh")
        (by decide) (by decide) (by decide)⟩
  exact hkeeps.of_done hrest hcopied

/-- `[ -f source ] && cp source directory || true`, from a slot: what was staged before is
staged still if the slot is empty. -/
theorem Staged.cpIfThere {name directory : Bytes} {slot : Slot} {part : Part}
    (hstaged : Staged host.root store ways parts source.tree)
    (hsource : Pathname.ofBytes name = .relative (slot.file.1 ++ [slot.file.2]))
    (hdirectory : Pathname.ofBytes directory = .relative (appFile part).1)
    (hname : slot.file.2 = (appFile part).2) (hway : (appFile part).1 ∈ ways) (strict : Bool) :
    ∃ next, Packaging.cpIfThere host name directory strict source = .done 0 next ∧
      Staged host.root store ways (Function.update parts part ((store slot).or (parts part)))
        next.tree := by
  have hisFile := hstaged.isFile_slot slot
  rw [← hsource] at hisFile
  cases hslot : store slot with
  | none =>
      refine ⟨source, ?_, ?_⟩
      · simp [Packaging.cpIfThere, orTrue, orElse, andThen, testF, hisFile, hslot]
      · rw [Option.none_or, Function.update_eq_self]
        exact hstaged
  | some data =>
      have hcp := hstaged.cp_slot_of_made hname hway hslot
      rw [← hsource, ← hdirectory] at hcp
      refine ⟨{ source with
        tree := source.tree.set (Plan.placeOf host.root (appFile part)) (.file data) }, ?_, ?_⟩
      · simp [Packaging.cpIfThere, orTrue, orElse, andThen, testF, hisFile, hslot, cp, onTree,
          attempt, simple, hcp]
      · exact hstaged.set_part (hstaged.made _ hway)

/-- A library is staged from `sober_bundle/`, or else from `dist/`. -/
def bundledOver (store : Store Slot Bytes) (parts : Part → Option Bytes) (lib : Lib) :
    Part → Option Bytes :=
  Function.update parts (.lib lib) ((store (.bundled (.lib lib))).or
    ((store (.beside (.lib lib))).or (parts (.lib lib))))

/-- One turn of the loop. -/
theorem Staged.copyBundledOne {lib : Lib} (hlib : lib ≠ .mimalloc)
    (hstaged : Staged host.root store ways parts source.tree) (hbin : appBin ∈ ways)
    (strict : Bool) :
    ∃ next, block [
        Packaging.cpIfThere host (distDir ++ bytes "/bin/" ++ lib.file) (appDir ++ bytes "/bin/"),
        Packaging.cpIfThere host (bytes "sober_bundle/libs/" ++ lib.file)
          (appDir ++ bytes "/bin/")] strict source = .done 0 next ∧
      Staged host.root store ways (bundledOver store parts lib) next.tree := by
  have hnames : ∀ lib ∈ [Lib.loader, Lib.badcpu],
      Pathname.ofBytes (distDir ++ bytes "/bin/" ++ lib.file) =
        .relative ((Slot.beside (.lib lib)).file.1 ++ [(Slot.beside (.lib lib)).file.2]) ∧
      Pathname.ofBytes (bytes "sober_bundle/libs/" ++ lib.file) =
        .relative ((Slot.bundled (.lib lib)).file.1 ++ [(Slot.bundled (.lib lib)).file.2]) ∧
      Pathname.ofBytes (appDir ++ bytes "/bin/") = .relative (appFile (.lib lib)).1 ∧
      (Slot.beside (.lib lib)).file.2 = (appFile (.lib lib)).2 ∧
      (Slot.bundled (.lib lib)).file.2 = (appFile (.lib lib)).2 ∧
      (appFile (.lib lib)).1 = appBin := by
    decide
  have hmem : lib ∈ [Lib.loader, Lib.badcpu] := by cases lib <;> simp_all
  obtain ⟨hdist, hbundle, hdirectory, hdistName, hbundleName, hway⟩ := hnames lib hmem
  obtain ⟨middle, hfirst, hmiddle⟩ :=
    hstaged.cpIfThere hdist hdirectory hdistName (hway ▸ hbin) strict
  obtain ⟨next, hsecond, hnext⟩ :=
    hmiddle.cpIfThere hbundle hdirectory hbundleName (hway ▸ hbin) strict
  refine ⟨next, (seq_of_passes ⟨0, hfirst⟩).trans hsecond, ?_⟩
  rwa [Function.update_idem, Function.update_self] at hnext

theorem Staged.copyBundled (hstaged : Staged host.root store ways parts source.tree)
    (hbin : appBin ∈ ways) (strict : Bool) :
    ∃ next, Packaging.copyBundled host strict source = .done 0 next ∧
      Staged host.root store ways
        (bundledOver store (bundledOver store parts .loader) .badcpu) next.tree := by
  obtain ⟨middle, hfirst, hmiddle⟩ :=
    hstaged.copyBundledOne (show Lib.loader ≠ .mimalloc by decide) hbin strict
  obtain ⟨next, hsecond, hnext⟩ :=
    hmiddle.copyBundledOne (show Lib.badcpu ≠ .mimalloc by decide) hbin strict
  have hloader : Lib.loader.file = bytes "libloader.so" := rfl
  have hbadcpu : Lib.badcpu.file = bytes "libbadcpu.so" := rfl
  rw [hloader] at hfirst
  rw [hbadcpu] at hsecond
  exact ⟨next, by simp only [Packaging.copyBundled, forEach, forFrom, hfirst, hsecond], hnext⟩

/-! ### mimalloc -/

theorem preserves_linkAlias : Preserves (Staged host.root store ways parts ·.tree)
    (inside host mimallocDir fun cwd tree =>
      tree.lnSf cwd (.here (bytes "libmimalloc.so.3")) (.here (bytes "libmimalloc.so"))) := by
  have hname : Pathname.ofBytes mimallocDir = .relative appMimalloc := by decide
  have hdirectory : appMimalloc ∈ appPlan.directories := by decide
  apply preserves_attempt
  intro staging next hstaged hnext
  obtain ⟨tree, htree, rfl⟩ := Option.map_eq_some_iff.mp hnext
  simp only [hname] at htree
  split at htree
  · next hthere =>
      have hreal := (hstaged.laid.isDirectory_relative_iff hdirectory).mp hthere
      have hlocate : staging.tree.locate host.root (.relative appMimalloc) =
          some (host.root ++ appMimalloc) :=
        (hstaged.laid.real.locate_relative appMimalloc).trans
          (@Tree.RealDir.locate _ _ host.root hreal)
      rw [hlocate, Option.bind_some] at htree
      have hlink := hreal.isDirectory_here (by decide) (by decide) hstaged.aliased
        (hstaged.laid.regular _ (appFile_mem (.lib .mimalloc)))
      obtain rfl := Tree.lnSf_eq_set_entry hlink (Tree.entry_here hreal.isDir (by decide)) htree
      exact hstaged.set_alias
  · cases htree

/-- mimalloc is staged from where it has been found. -/
theorem Staged.of_copySrc {slot : Slot} (hstaged : Staged host.root store ways parts source.tree)
    (hsource : Pathname.ofBytes source.mimallocSrc = .relative (slot.file.1 ++ [slot.file.2]))
    (hname : slot.file.2 = (appFile (.lib .mimalloc)).2)
    (hdone : block [cp host Staging.mimallocSrc (mimallocDir ++ bytes "/"),
      orTrue <| inside host mimallocDir fun cwd tree =>
        tree.lnSf cwd (.here (bytes "libmimalloc.so.3")) (.here (bytes "libmimalloc.so"))]
      true source = .done status target) :
    ∃ data, store slot = some data ∧ Staged host.root store ways
      (Function.update parts (.lib .mimalloc) (some data)) target.tree := by
  have hdirectory : Pathname.ofBytes (mimallocDir ++ bytes "/") =
      .relative (appFile (.lib .mimalloc)).1 := by
    decide
  obtain ⟨_, copied, hcopied, hlinked⟩ := seq_eq_done hdone
  obtain ⟨tree, htree, rfl⟩ := eq_some_of_onTree hcopied
  rw [hsource, hdirectory] at htree
  obtain ⟨data, hdata, hpart⟩ := hstaged.cp_slot hname htree
  exact ⟨data, hdata, preserves_linkAlias.orTrue.of_done hlinked hpart⟩

/-- mimalloc is staged from `dist/`, or else from `sober_bundle/`. -/
theorem Staged.of_copyMimalloc (hstaged : Staged host.root store ways parts source.tree)
    (hdone : copyMimalloc host true source = .done status target) :
    Staged host.root store (appMimalloc :: ways)
      (Function.update parts (.lib .mimalloc) ((store (.beside (.lib .mimalloc))).or
        ((store (.bundled (.lib .mimalloc))).or (parts (.lib .mimalloc))))) target.tree := by
  unfold copyMimalloc block at hdone
  obtain ⟨_, made, hmade, hdone⟩ := seq_eq_done hdone
  have hstaged := hstaged.of_mkdirP (by decide) (show appMimalloc ∈ _ by decide) hmade
  have hdist : made.tree.isFile host.root (.ofBytes Packaging.distMimalloc) =
      (store (.beside (.lib .mimalloc))).isSome := hstaged.isFile_slot (.beside (.lib .mimalloc))
  have hbundle : made.tree.isFile host.root (.ofBytes bundleMimalloc) =
      (store (.bundled (.lib .mimalloc))).isSome := hstaged.isFile_slot (.bundled (.lib .mimalloc))
  have hdistNe : Packaging.distMimalloc ≠ [] := by decide
  have hbundleNe : bundleMimalloc ≠ [] := by decide
  -- Which of the two names is in `MIMALLOC_SRC` when it comes to the copying.
  cases hbeside : store (.beside (.lib .mimalloc)) with
  | some found =>
      simp only [hbeside, Option.isSome_some] at hdist
      simp [block, seq, setMimallocSrc, andThen, testF, ifThen, ifElse, hdist, hdistNe] at hdone
      obtain ⟨data, hdata, hpart⟩ := @Staged.of_copySrc host store _ parts
        ⟨made.tree, Packaging.distMimalloc⟩ _ _ (.beside (.lib .mimalloc)) hstaged
        (show Pathname.ofBytes Packaging.distMimalloc = _ by decide) rfl
        hdone
      rw [hbeside] at hdata
      obtain rfl := Option.some.inj hdata
      exact hpart
  | none =>
      simp only [hbeside, Option.isSome_none] at hdist
      cases hbundled : store (.bundled (.lib .mimalloc)) with
      | some found =>
          simp only [hbundled, Option.isSome_some] at hbundle
          simp [block, seq, setMimallocSrc, andThen, testF, ifThen, ifElse, hdist, hbundle,
            hbundleNe] at hdone
          obtain ⟨data, hdata, hpart⟩ := @Staged.of_copySrc host store _ parts
            ⟨made.tree, bundleMimalloc⟩ _ _ (.bundled (.lib .mimalloc)) hstaged
            (show Pathname.ofBytes bundleMimalloc = _ by decide) rfl
            hdone
          rw [hbundled] at hdata
          obtain rfl := Option.some.inj hdata
          exact hpart
      | none =>
          simp only [hbundled, Option.isSome_none] at hbundle
          simp [block, seq, setMimallocSrc, andThen, testF, ifThen, ifElse, hdist, hbundle] at hdone
          rw [Option.none_or, Option.none_or, Function.update_eq_self, ← hdone.2]
          exact hstaged

/-! ### What comes after the parts -/

theorem Staged.mono {fewer : List Path} {tree : Tree}
    (hstaged : Staged host.root store ways parts tree) (hways : fewer ⊆ ways) :
    Staged host.root store fewer parts tree :=
  ⟨hstaged.work, hstaged.held, hstaged.laid, fun way hway => hstaged.planned way (hways hway),
    fun way hway => hstaged.made way (hways hway), hstaged.aliased, hstaged.parts⟩

/-- No place that matters is below an entry of `lib/`. -/
theorem not_below_lib {root place : Path} {last : Name} (hwatches : Staging.Watches root place) :
    ¬ root ++ appLib ++ [last] <+: place := by
  have hpkg : [pkgDir] <+: appLib := by decide
  have hfiles : ∀ file ∈ (appMimalloc, aliasName) :: appPlan.files,
      ¬ appLib <+: file.1 ++ [file.2] := by
    decide
  have hshort : ∀ known ∈ appPlan.directories, appLib <+: known → known.length ≤ appLib.length := by
    decide
  intro hprefix
  have hbelow (way : Path) (hway : root ++ appLib ++ [last] <+: root ++ way) :
      appLib ++ [last] <+: way := by
    rw [List.append_assoc] at hway
    exact (List.prefix_append_right_inj root).mp hway
  have hfile (file : Path × Name) (hmem : file ∈ (appMimalloc, aliasName) :: appPlan.files) :
      ¬ root ++ appLib ++ [last] <+: Plan.placeOf root file := by
    intro hprefix
    rw [Plan.placeOf, List.append_assoc _ file.1] at hprefix
    exact hfiles file hmem ((List.prefix_append _ _).trans (hbelow _ hprefix))
  rcases hwatches with hinside | (hroot | ⟨directory, hmem, hon⟩ | ⟨file, hmem, rfl⟩) | rfl
  · refine not_inside (List.IsPrefix.trans ?_ hprefix) hinside
    rw [List.append_assoc]
    exact (List.prefix_append_right_inj root).mpr (hpkg.trans (List.prefix_append _ _))
  · have hlong := (List.IsPrefix.trans hprefix hroot).length_le
    simp only [List.length_append, List.length_singleton] at hlong
    omega
  · have hway := hbelow directory (List.IsPrefix.trans hprefix hon)
    have hlength := hshort directory hmem ((List.prefix_append _ _).trans hway)
    have hlonger := hway.length_le
    rw [List.length_append, List.length_singleton] at hlonger
    omega
  · exact hfile file (List.mem_cons_of_mem _ hmem) hprefix
  · exact hfile _ List.mem_cons_self hprefix

/-- What is copied into `lib/` is none of the files that matter. -/
theorem Staged.cpA {name : Pathname} {tree next : Tree}
    (hstaged : Staged host.root store ways parts tree)
    (hnext : tree.cpA host.root name (.relative appLib) = some next) :
    Staged host.root store ways parts next := by
  have hlib : appLib ∈ appPlan.directories := by decide
  unfold Tree.cpA at hnext
  split at hnext
  · next hdirectory =>
      have hreal := (hstaged.laid.isDirectory_relative_iff hlib).mp hdirectory
      split at hnext
      · next old new _ hdestination =>
          obtain ⟨value, -, rfl⟩ := Option.map_eq_some_iff.mp hnext
          rw [Tree.destination, if_pos hdirectory] at hdestination
          obtain ⟨last, -, hentry⟩ := Option.bind_eq_some_iff.mp hdestination
          have hdots : ¬ IsDots last := by
            intro hdots
            unfold IsDots at hdots
            simp [Tree.entry, Pathname.child, Pathname.relative, hdots] at hentry
          have hplace : tree.entry host.root (.relative (appLib ++ [last])) =
              some (host.root ++ appLib ++ [last]) :=
            hstaged.laid.real.entry_relative hreal hdots
          obtain rfl := Option.some.inj (hplace.symm.trans hentry)
          exact hstaged.congr fun place hwatches => Tree.node_putBelow (not_below_lib hwatches)
      · cases hnext
  · cases hnext

theorem preserves_copyLibraries_staged :
    Preserves (Staged host.root store ways parts ·.tree) (copyLibraries host) := by
  have hdirectory : Pathname.ofBytes (appDir ++ bytes "/lib/") = .relative appLib := by decide
  have hall (sources : List Bytes) : ∀ tree, Staged host.root store ways parts tree →
      Staged host.root store ways parts (copiedAll host sources tree) := by
    induction sources with
    | nil => exact fun _ hstaged => hstaged
    | cons name rest ih =>
        intro tree hstaged
        have hstep : Staged host.root store ways parts ((tree.cpA host.root (.ofBytes name)
            (.ofBytes (appDir ++ bytes "/lib/"))).getD tree) := by
          rw [hdirectory]
          cases hnext : tree.cpA host.root (.ofBytes name) (.relative appLib) with
          | none => exact hstaged
          | some next => exact hstaged.cpA hnext
        exact ih _ hstep
  apply Preserves.orTrue
  exact preserves_simple fun staging hstaged => hall _ staging.tree hstaged

theorem preserves_copyDiagnose_staged :
    Preserves (Staged host.root store ways parts ·.tree) (copyDiagnose host) := by
  have hname : Pathname.ofBytes (appDir ++ bytes "/scripts") = .relative appScripts := by decide
  have hmkdir : Preserves (Staged host.root store ways parts ·.tree)
      (Packaging.mkdirP host (appDir ++ bytes "/scripts")) := by
    unfold Packaging.mkdirP treeStep
    apply preserves_simple
    intro staging hstaged
    have hmade := hstaged.mkdirP (show appScripts ∈ appPlan.directories by decide)
    rw [hname]
    exact hmade.mono (List.subset_cons_self _ _)
  exact preserves_block ⟨hmkdir, (@preserves_cpOther host store ways parts _ _
    (appScripts, bytes "diagnose.sh") (by decide) (by decide) (by decide)).orTrue⟩

/-- `sed -i` on the manifest -/
theorem Staged.sedI {edit : Bytes → Bytes} {tree next : Tree}
    (hstaged : Staged host.root store ways parts tree)
    (hnext : tree.sedI host.root (.ofBytes manifest) edit = some next) :
    Staged host.root store ways parts next := by
  have hname : Pathname.ofBytes manifest = .relative (app ++ [appManifest.2]) := by decide
  have hfile : appManifest ∈ appPlan.files := by decide
  have hother : appManifest ∈ appOthers := by decide
  rw [hname] at hnext
  unfold Tree.sedI at hnext
  split at hnext
  · next data place hdata hentry =>
      have hfileAt : tree.fileAt (Plan.placeOf host.root appManifest) = some data :=
        (hstaged.laid.contents_relative hfile).symm.trans hdata
      have hreal := hstaged.laid.rooted appManifest hfile (by simp [Tree.fileAt_eq_some.mp hfileAt])
      have hplace : tree.entry host.root (.relative (app ++ [appManifest.2])) =
          some (Plan.placeOf host.root appManifest) :=
        hstaged.laid.real.entry_relative hreal (appPlan.named _ hfile)
      obtain rfl := Option.some.inj (hplace.symm.trans hentry)
      obtain rfl := Option.some.inj hnext
      exact hstaged.set_other hother hreal
  · cases hnext

theorem preserves_copyManifest_staged :
    Preserves (Staged host.root store ways parts ·.tree) (copyManifest host) := by
  refine preserves_block ⟨@preserves_cpOther host store ways parts _ _ appManifest (by decide)
    (by decide) (by decide), Preserves.orTrue (preserves_attempt ?_)⟩
  intro staging next hstaged hnext
  obtain ⟨tree, htree, rfl⟩ := Option.map_eq_some_iff.mp hnext
  exact hstaged.sedI htree

/-- An icon is written. -/
theorem Staged.writeIcon {icon : Path × Name} {name : Bytes} {data : Bytes} {tree next : Tree}
    (hstaged : Staged host.root store ways parts tree) (hres : appRes ∈ ways)
    (hicon : icon ∈ appIcons) (hname : Pathname.ofBytes name = .relative (icon.1 ++ [icon.2]))
    (hnext : tree.write host.root (.ofBytes name) data = some next) :
    Staged host.root store ways parts next := by
  have hother : icon ∈ appOthers := List.mem_append_right _ hicon
  have hway : ∀ icon ∈ appIcons, icon.1 = appRes := by decide
  have hreal : tree.RealDir (host.root ++ icon.1) := by
    rw [hway icon hicon]
    exact hstaged.made appRes hres
  rw [hname, hstaged.laid.write_relative (List.mem_append_right _ hother) hreal] at hnext
  obtain rfl := Option.some.inj hnext
  exact hstaged.set_other hother hreal

theorem icon_of_mem : ∀ name ∈ icons, ∃ icon ∈ appIcons,
    Pathname.ofBytes name = .relative (icon.1 ++ [icon.2]) := by
  decide

theorem Staged.writeIcons {names : List Bytes} {tree : Tree}
    (hstaged : Staged host.root store ways parts tree) (hres : appRes ∈ ways)
    (hnames : ∀ name ∈ names, name ∈ icons) :
    Staged host.root store ways parts (Packaging.writeIcons host names tree).1 := by
  induction names generalizing tree with
  | nil => exact hstaged
  | cons name rest ih =>
      obtain ⟨hhere, hrest⟩ := List.forall_mem_cons.mp hnames
      obtain ⟨icon, hicon, hname⟩ := icon_of_mem name hhere
      unfold Packaging.writeIcons
      split
      · exact hstaged
      · next next hnext => exact ih (hstaged.writeIcon hres hicon hname hnext) hrest

theorem Staged.touchIcons {names : List Bytes} {tree : Tree}
    (hstaged : Staged host.root store ways parts tree) (hres : appRes ∈ ways)
    (hnames : ∀ name ∈ names, name ∈ icons) :
    Staged host.root store ways parts (Packaging.touchIcons host names tree).1 := by
  induction names generalizing tree with
  | nil => exact hstaged
  | cons name rest ih =>
      obtain ⟨hhere, hrest⟩ := List.forall_mem_cons.mp hnames
      obtain ⟨icon, hicon, hname⟩ := icon_of_mem name hhere
      unfold Packaging.touchIcons
      split
      · exact ih hstaged hrest
      · next next htouch =>
          refine ih ?_ hrest
          unfold Tree.touch at htouch
          split at htouch
          · exact Option.some.inj htouch ▸ hstaged
          · exact hstaged.writeIcon hres hicon hname htouch

theorem preserves_placeholderIcon_staged (hres : appRes ∈ ways) :
    Preserves (Staged host.root store ways parts ·.tree) (placeholderIcon host) := by
  unfold placeholderIcon treeStep
  apply Preserves.orElse
  · apply preserves_simple
    intro staging hstaged
    split
    · exact hstaged.writeIcons hres fun _ hname => hname
    · exact hstaged
  · apply preserves_simple
    intro staging hstaged
    exact hstaged.touchIcons hres fun _ hname => List.mem_reverse.mp hname

/-- What a package takes of each part, from what is in the slots. -/
def chosen (store : Store Slot Bytes) : Part → Option Bytes
  | .sober => store (.beside .sober)
  | .lib .mimalloc => (store (.beside (.lib .mimalloc))).or (store (.bundled (.lib .mimalloc)))
  | .lib lib => (store (.bundled (.lib lib))).or (store (.beside (.lib lib)))

theorem chosen_mimalloc : chosen store (.lib .mimalloc) =
    (store (.beside (.lib .mimalloc))).or (store (.bundled (.lib .mimalloc))) := rfl

theorem chosen_lib {lib : Lib} (hlib : lib ≠ .mimalloc) : chosen store (.lib lib) =
    (store (.bundled (.lib lib))).or (store (.beside (.lib lib))) := by
  cases lib with
  | loader => rfl
  | badcpu => rfl
  | mimalloc => exact absurd rfl hlib

/-- From the structure on, a run that gets to the package has staged what it has chosen. -/
theorem Staged.of_afterStructure
    (hstaged : Staged host.root store [appRes, appData, appLib, appBin] (fun _ => none) source.tree)
    (hdone : block [copyBinaries host, Packaging.copyBundled host, copyMimalloc host,
      copyLibraries host, copyDiagnose host, copyManifest host, placeholderIcon host] true source =
        .done status target) :
    (store (.beside .sober)).isSome ∧
      Staged host.root store [appRes] (chosen store) target.tree := by
  obtain ⟨_, binaries, hbinaries, hdone⟩ := seq_eq_done hdone
  obtain ⟨_, bundled, hbundled, hdone⟩ := seq_eq_done hdone
  obtain ⟨_, mimalloc, hmimalloc, hrest⟩ := seq_eq_done hdone
  obtain ⟨data, hdata, hsober⟩ := hstaged.of_copyBinaries hbinaries
  obtain ⟨next, hnext, hlibs⟩ := hsober.copyBundled (by simp) true
  rw [hnext] at hbundled
  cases hbundled
  have hparts := hlibs.of_copyMimalloc hmimalloc
  have hchosen : Function.update (bundledOver store (bundledOver store
      (Function.update (fun _ => none) .sober (some data)) .loader) .badcpu) (.lib .mimalloc)
      ((store (.beside (.lib .mimalloc))).or ((store (.bundled (.lib .mimalloc))).or
        (bundledOver store (bundledOver store
          (Function.update (fun _ => none) .sober (some data)) .loader) .badcpu
            (.lib .mimalloc)))) = chosen store := by
    funext part
    rcases part with _ | _ | _ | _ <;> simp [bundledOver, chosen, Function.update, hdata]
  rw [hchosen] at hparts
  have hkeeps : Preserves (Staged host.root store [appRes] (chosen store) ·.tree) (block [
      copyLibraries host, copyDiagnose host, copyManifest host, placeholderIcon host]) :=
    preserves_block ⟨preserves_copyLibraries_staged, preserves_copyDiagnose_staged,
      preserves_copyManifest_staged, preserves_placeholderIcon_staged List.mem_cons_self⟩
  exact ⟨by rw [hdata]; rfl, hkeeps.of_done hrest (hparts.mono (by simp))⟩

end Commands

end TizenRoblox.Packaging
