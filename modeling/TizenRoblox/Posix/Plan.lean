/-
# A plan of directories and files

A script that works below one place makes directories there and writes files into them. As
long as no link stands where its plan has a directory or a file, all that it does happens in
place: its directories are made, its files are set and hold what was written, and nothing
that others do elsewhere matters to it.
-/

import TizenRoblox.Posix.Copying

namespace TizenRoblox.Posix

open TizenRoblox.Foundation

/-- Directories below a place, by the ways that lead to them, and the files in them. -/
structure Plan where
  directories : List Path
  files : List (Path × Name)
  housed : ∀ file ∈ files, file.1 ∈ directories
  named : ∀ file ∈ files, ¬ IsDots file.2
  /-- No file is on the way to a directory. -/
  apart : ∀ file ∈ files, ∀ directory ∈ directories, ¬ file.1 ++ [file.2] <+: directory

namespace Plan

/-- Where a file of the plan stands. -/
def placeOf (root : Path) (file : Path × Name) : Path := root ++ file.1 ++ [file.2]

/-- The places that matter to a plan. -/
def Watches (plan : Plan) (root place : Path) : Prop :=
  place <+: root ∨ (∃ directory ∈ plan.directories, place <+: root ++ directory) ∨
    ∃ file ∈ plan.files, place = placeOf root file

/-- The directories of the plan are there or can be made, and its files are regular. -/
structure Laid (plan : Plan) (root : Path) (tree : Tree) : Prop where
  real : tree.RealDir root
  clear : ∀ directory ∈ plan.directories, tree.ClearDir (root ++ directory)
  regular : ∀ file ∈ plan.files, tree.Writable (placeOf root file)
  /-- A file that is there is in its directory. -/
  rooted : ∀ file ∈ plan.files, tree.node (placeOf root file) ≠ none →
    tree.RealDir (root ++ file.1)

/-! ## Deciding on a plan -/

section Deciding

variable (tree : Tree) (place : Path)

/-- The ways to the directories on the way to a place are its initial segments. -/
theorem forall_front_iff {property : Path → Name → Prop} :
    (∀ front name, front ++ [name] <+: place → property front name) ↔
      ∀ way ∈ place.inits, ∀ name ∈ way.getLast?, property way.dropLast name := by
  constructor
  · intro hall way hway name hname
    apply hall way.dropLast name
    rw [List.dropLast_append_getLast? name hname]
    exact (List.mem_inits _ _).mp hway
  · intro hall front name hfront
    have hway := hall (front ++ [name]) ((List.mem_inits _ _).mpr hfront) name (by simp)
    rwa [List.dropLast_concat] at hway

instance : Decidable (tree.RealDir place) := decidable_of_iff' _ (forall_front_iff place)

instance : Decidable (tree.ClearDir place) := decidable_of_iff' _ (forall_front_iff place)

instance : Decidable (tree.Writable place) :=
  match hnode : tree.node place with
  | none => isTrue (.inl hnode)
  | some (.file data) => isTrue (.inr ⟨data, hnode⟩)
  | some .dir | some (.link _) | some .socket | some .charDevice => isFalse <| by
      simp [Tree.Writable, hnode]

instance (plan : Plan) : Decidable (plan.Laid place tree) :=
  decidable_of_iff' (tree.RealDir place ∧
      (∀ directory ∈ plan.directories, tree.ClearDir (place ++ directory)) ∧
      (∀ file ∈ plan.files, tree.Writable (placeOf place file)) ∧
      ∀ file ∈ plan.files, tree.node (placeOf place file) ≠ none →
        tree.RealDir (place ++ file.1))
    ⟨fun hlaid => ⟨hlaid.real, hlaid.clear, hlaid.regular, hlaid.rooted⟩,
      fun ⟨hreal, hclear, hregular, hrooted⟩ => ⟨hreal, hclear, hregular, hrooted⟩⟩

end Deciding

section Laid

variable {plan : Plan} {root cwd : Path} {tree : Tree} {file : Path × Name}

theorem placeOf_inj {other : Path × Name} :
    placeOf root file = placeOf root other ↔ file = other := by
  simp [placeOf, Prod.ext_iff]

/-- A file is on the way to no directory of the plan. -/
theorem not_prefix_placeOf (hfile : file ∈ plan.files) {directory : Path}
    (hdirectory : directory ∈ plan.directories) : ¬ placeOf root file <+: root ++ directory := by
  intro hprefix
  rw [placeOf, List.append_assoc] at hprefix
  exact plan.apart file hfile directory hdirectory ((List.prefix_append_right_inj root).mp hprefix)

theorem placeOf_not_prefix_root : ¬ placeOf root file <+: root := by
  intro hprefix
  have hlength := hprefix.length_le
  simp only [placeOf, List.length_append, List.length_singleton] at hlength
  omega

theorem Laid.congr {other : Tree} (hlaid : plan.Laid root tree)
    (hsame : ∀ place, plan.Watches root place → other.node place = tree.node place) :
    plan.Laid root other := by
  have hreal : ∀ directory ∈ plan.directories, tree.RealDir (root ++ directory) →
      other.RealDir (root ++ directory) := fun directory hdirectory hreal front name hfront =>
    ⟨(hreal front name hfront).1, by
      rw [hsame _ (.inr (.inl ⟨directory, hdirectory, hfront⟩)), (hreal front name hfront).2]⟩
  constructor
  · intro front name hfront
    exact ⟨(hlaid.real front name hfront).1, by
      rw [hsame _ (.inl hfront), (hlaid.real front name hfront).2]⟩
  · intro directory hdirectory front name hfront
    have hclear := hlaid.clear directory hdirectory front name hfront
    rw [hsame _ (.inr (.inl ⟨directory, hdirectory, hfront⟩))]
    exact hclear
  · intro file hfile
    have hregular := hlaid.regular file hfile
    rw [Tree.Writable, hsame _ (.inr (.inr ⟨file, hfile, rfl⟩))]
    exact hregular
  · intro file hfile hnode
    rw [hsame _ (.inr (.inr ⟨file, hfile, rfl⟩))] at hnode
    exact hreal _ (plan.housed file hfile) (hlaid.rooted file hfile hnode)

/-- What is put elsewhere does not matter. -/
theorem Laid.set_other {place : Path} {value : Node} (hlaid : plan.Laid root tree)
    (hplace : ¬ plan.Watches root place) : plan.Laid root (tree.set place value) := by
  apply hlaid.congr
  intro other hother
  apply Tree.node_set_of_ne
  rintro rfl
  exact hplace hother

/-- The directories on the way to no file stay when a file is set. -/
theorem realDir_set_file {place : Path} {value : Node} (hreal : tree.RealDir place)
    (hfile : ¬ placeOf root file <+: place) :
    (tree.set (placeOf root file) value).RealDir place := by
  intro front name hfront
  refine ⟨(hreal front name hfront).1, ?_⟩
  rw [Tree.node_set_of_ne, (hreal front name hfront).2]
  rintro heq
  exact hfile (heq ▸ hfront)

/-- A file of the plan is written into its directory. -/
theorem Laid.set_file {data : Bytes} (hlaid : plan.Laid root tree) (hfile : file ∈ plan.files)
    (hdirectory : tree.RealDir (root ++ file.1)) :
    plan.Laid root (tree.set (placeOf root file) (.file data)) := by
  constructor
  · exact realDir_set_file hlaid.real placeOf_not_prefix_root
  · intro directory hmem front name hfront
    have hclear := hlaid.clear directory hmem front name hfront
    refine ⟨hclear.1, ?_⟩
    rw [Tree.node_set_of_ne]
    · exact hclear.2
    · rintro heq
      exact not_prefix_placeOf hfile hmem (heq ▸ hfront)
  · intro other hother
    rw [Tree.Writable, Tree.node_set]
    split
    · exact .inr ⟨data, rfl⟩
    · exact hlaid.regular other hother
  · intro other hother hnode
    apply realDir_set_file _ (not_prefix_placeOf hfile (plan.housed other hother))
    by_cases heq : placeOf root other = placeOf root file
    · rw [placeOf_inj.mp heq]
      exact hdirectory
    · rw [Tree.node_set_of_ne _ _ heq] at hnode
      exact hlaid.rooted other hother hnode

/-! ## Making the directories -/

section Making

variable {directory : Path} (hlaid : plan.Laid root tree)
  (hdirectory : directory ∈ plan.directories)
include hlaid hdirectory

theorem Laid.real_mkdirP : (tree.mkdirP cwd (.ofPath (root ++ directory))).RealDir
    (root ++ directory) :=
  (Tree.mkdirP_of_clear (hlaid.clear directory hdirectory)).1

/-- The files stay as they are. -/
theorem Laid.node_mkdirP (hfile : file ∈ plan.files) :
    (tree.mkdirP cwd (.ofPath (root ++ directory))).node (placeOf root file) =
      tree.node (placeOf root file) := by
  rw [(Tree.mkdirP_of_clear (hlaid.clear directory hdirectory)).2, if_neg]
  rintro ⟨-, hprefix⟩
  exact not_prefix_placeOf hfile hdirectory hprefix

theorem Laid.mkdirP : plan.Laid root (tree.mkdirP cwd (.ofPath (root ++ directory))) := by
  have hclear := hlaid.clear directory hdirectory
  constructor
  · exact hlaid.real.mkdirP hclear
  · intro other hother
    exact (hlaid.clear other hother).mkdirP hclear
  · intro other hother
    rw [Tree.Writable, hlaid.node_mkdirP hdirectory hother]
    exact hlaid.regular other hother
  · intro other hother hnode
    rw [hlaid.node_mkdirP hdirectory hother] at hnode
    exact (hlaid.rooted other hother hnode).mkdirP hclear

end Making

/-! ## Reading and writing the files -/

/-- A way through a directory that can be made leads on only if that is there. -/
theorem realDir_or_walk_eq_none {place : Path} (hclear : tree.ClearDir place) (links : ℕ)
    {rest : List Name} (hrest : rest ≠ []) :
    tree.RealDir place ∨ Tree.walk tree links [] (place ++ rest) = none := by
  induction place using List.reverseRecOn generalizing rest with
  | nil => exact .inl fun front name hfront => by simp at hfront
  | append_singleton front name ih =>
      have hfront : tree.ClearDir front := fun above last habove =>
        hclear above last (habove.trans (List.prefix_append _ _))
      obtain ⟨hdots, hnode⟩ := hclear front name (List.prefix_refl _)
      rw [List.append_assoc]
      rcases ih hfront (show [name] ++ rest ≠ [] by simp) with hreal | hnone
      · rcases hnode with hnone | hdir
        · refine .inr ((Tree.walk_real links hreal _).trans ?_)
          obtain ⟨hdot, hdotdot⟩ := not_or.mp hdots
          cases links <;>
            simp [Tree.walk, Tree.walkWith, hdot, hdotdot, hnone, hrest]
        · refine .inl fun above last habove => ?_
          rcases List.prefix_concat_iff.mp habove with heq | hbefore
          · obtain ⟨rfl, hlast⟩ := List.append_inj' heq rfl
            rw [List.singleton_inj.mp hlast]
            exact ⟨hdots, hdir⟩
          · exact hreal above last hbefore
      · exact .inr hnone

theorem realDir_of_isDirectory {place : Path} (hclear : tree.ClearDir place)
    (hdirectory : tree.isDirectory cwd (.ofPath place) = true) : tree.RealDir place := by
  rcases List.eq_nil_or_concat' place with rfl | ⟨front, name, rfl⟩
  · exact fun front name hfront => by simp at hfront
  · have hfront : tree.ClearDir front := fun above last habove =>
      hclear above last (habove.trans (List.prefix_append _ _))
    obtain ⟨hdots, hnode⟩ := hclear front name (List.prefix_refl _)
    have hlink : ∀ target, tree.node (front ++ [name]) ≠ some (.link target) := by
      rcases hnode with hnone | hdir <;> simp [*]
    rcases realDir_or_walk_eq_none hfront Tree.linkLimit (show [name] ≠ [] by simp) with
      hreal | hnone
    · have hstat : tree.stat cwd (.ofPath (front ++ [name])) = tree.node (front ++ [name]) :=
        hreal.stat_child hdots hlink
      rw [Tree.isDirectory, hstat, decide_eq_true_eq] at hdirectory
      intro above last habove
      rcases List.prefix_concat_iff.mp habove with heq | hbefore
      · obtain ⟨rfl, hlast⟩ := List.append_inj' heq rfl
        rw [List.singleton_inj.mp hlast]
        exact ⟨hdots, hdirectory⟩
      · exact hreal above last hbefore
    · have hlocate : tree.locate cwd (.ofPath (front ++ [name])) = none := hnone
      simp [Tree.isDirectory, Tree.stat, hlocate] at hdirectory

/-- A file of the plan is read where it stands. -/
theorem Laid.contents (hlaid : plan.Laid root tree) (hfile : file ∈ plan.files) :
    tree.contents cwd (.ofPath (placeOf root file)) = tree.fileAt (placeOf root file) := by
  have hclear := hlaid.clear file.1 (plan.housed file hfile)
  rcases realDir_or_walk_eq_none hclear Tree.linkLimit (show [file.2] ≠ [] by simp) with
    hreal | hnone
  · exact hreal.contents_child_eq (plan.named file hfile) (hlaid.regular file hfile)
  · have hcontents : tree.contents cwd (.ofPath (placeOf root file)) = none := by
      have hlocate : tree.locate cwd (.ofPath (placeOf root file)) = none := hnone
      simp [Tree.contents, Tree.stat, hlocate]
    have hmissing : tree.node (placeOf root file) = none := by
      by_contra hthere
      have hreal := hlaid.rooted file hfile hthere
      have hlocate : tree.locate cwd ((Pathname.ofPath (root ++ file.1)).child file.2) =
          some (root ++ file.1 ++ [file.2]) :=
        hreal.locate_child_of_not_link (plan.named file hfile) (hlaid.regular file hfile).not_link
      have hwalk : Tree.walk tree Tree.linkLimit [] (root ++ file.1 ++ [file.2]) =
          some (root ++ file.1 ++ [file.2]) := hlocate
      rw [hnone] at hwalk
      cases hwalk
    rw [hcontents, Tree.fileAt, hmissing]

theorem Laid.contents_relative (hlaid : plan.Laid root tree) (hfile : file ∈ plan.files) :
    tree.contents root (.relative (file.1 ++ [file.2])) = tree.fileAt (placeOf root file) := by
  have hlocate : tree.locate root (.relative (file.1 ++ [file.2])) =
      tree.locate root (.ofPath (placeOf root file)) := by
    rw [hlaid.real.locate_relative, placeOf, List.append_assoc]
  rw [Tree.contents_of_locate_eq hlocate, hlaid.contents hfile]

/-- A file of the plan is no directory. -/
theorem Laid.isDirectory_relative (hlaid : plan.Laid root tree) (hfile : file ∈ plan.files)
    (hreal : tree.RealDir (root ++ file.1)) :
    tree.isDirectory root (.relative (file.1 ++ [file.2])) = false := by
  have hlocate : tree.locate root (.relative (file.1 ++ [file.2])) =
      tree.locate root (.ofPath (placeOf root file)) := by
    rw [hlaid.real.locate_relative, placeOf, List.append_assoc]
  have hstat : tree.stat root (.ofPath (placeOf root file)) = tree.node (placeOf root file) :=
    hreal.stat_child (plan.named file hfile) (hlaid.regular file hfile).not_link
  rw [Tree.isDirectory_of_locate_eq hlocate, Tree.isDirectory, hstat]
  rcases hlaid.regular file hfile with hnone | ⟨data, hdata⟩ <;> simp [*]

/-- A directory of the plan, under its relative name. -/
theorem Laid.isDirectory_relative_iff (hlaid : plan.Laid root tree) {directory : Path}
    (hdirectory : directory ∈ plan.directories) :
    tree.isDirectory root (.relative directory) = true ↔ tree.RealDir (root ++ directory) := by
  have hlocate : tree.locate root (.relative directory) =
      tree.locate root (.ofPath (root ++ directory)) := hlaid.real.locate_relative directory
  rw [Tree.isDirectory_of_locate_eq hlocate]
  exact ⟨realDir_of_isDirectory (hlaid.clear directory hdirectory), Tree.RealDir.isDirectory⟩

/-- To write a file of the plan. -/
theorem Laid.write_relative (hlaid : plan.Laid root tree) (hfile : file ∈ plan.files)
    (hreal : tree.RealDir (root ++ file.1)) (data : Bytes) :
    tree.write root (.relative (file.1 ++ [file.2])) data =
      some (tree.set (placeOf root file) (.file data)) := by
  have hregular := hlaid.regular file hfile
  have hlocate : tree.locate root (.relative (file.1 ++ [file.2])) =
      tree.locate root (.ofPath (placeOf root file)) := by
    rw [hlaid.real.locate_relative, placeOf, List.append_assoc]
  apply Tree.write_of_locate data _ hregular
  rw [hlocate]
  exact hreal.locate_child_of_not_link (plan.named file hfile) hregular.not_link

/-- A copy by `cp` to a file of the plan sets it. -/
theorem Laid.cp_relative {source : Pathname} (hlaid : plan.Laid root tree)
    (hfile : file ∈ plan.files) (hlast : source.parts.getLast? = some file.2)
    (hreal : tree.RealDir (root ++ file.1)) :
    tree.cp root source (.relative file.1) =
      (tree.contents root source).map fun data => tree.set (placeOf root file) (.file data) := by
  have hdirectory : tree.isDirectory root (.relative file.1) = true :=
    (hlaid.isDirectory_relative_iff (plan.housed file hfile)).mpr hreal
  have hwrite (data : Bytes) : tree.write root ((Pathname.relative file.1).child file.2) data =
      some (tree.set (placeOf root file) (.file data)) := hlaid.write_relative hfile hreal data
  rw [Tree.cp, hlast, hdirectory]
  cases tree.contents root source with
  | none => rfl
  | some data => exact hwrite data

/-- So it has a source, and its directory is there. -/
theorem Laid.eq_set_of_cp {source : Pathname} {next : Tree} (hlaid : plan.Laid root tree)
    (hfile : file ∈ plan.files) (hlast : source.parts.getLast? = some file.2)
    (hnext : tree.cp root source (.relative file.1) = some next) :
    ∃ data, tree.contents root source = some data ∧ tree.RealDir (root ++ file.1) ∧
      next = tree.set (placeOf root file) (.file data) := by
  have hreal : tree.RealDir (root ++ file.1) := by
    rw [← hlaid.isDirectory_relative_iff (plan.housed file hfile)]
    by_contra hnot
    unfold Tree.cp at hnext
    split at hnext <;> simp_all
  rw [hlaid.cp_relative hfile hlast hreal] at hnext
  obtain ⟨data, hdata, rfl⟩ := Option.map_eq_some_iff.mp hnext
  exact ⟨data, hdata, hreal, rfl⟩

section Copying

variable {source : Pathname} (hlaid : plan.Laid root tree) (hfile : file ∈ plan.files)
  (hreal : tree.RealDir (root ++ file.1))
include hlaid hfile hreal

/-- A copy to a file of the plan sets it. -/
theorem Laid.copyAs_relative :
    tree.copyAs root source (.relative (file.1 ++ [file.2])) =
      if tree.locate root source = some (placeOf root file) then none
      else (tree.contents root source).map fun data =>
        tree.set (placeOf root file) (.file data) := by
  apply hreal.copyAs_child (plan.named file hfile) (hlaid.regular file hfile)
  · rw [hlaid.real.locate_relative, ← List.append_assoc]
  · exact hlaid.real.entry_relative hreal (plan.named file hfile)

theorem Laid.copyAs_absolute :
    tree.copyAs cwd source ((Pathname.ofPath (root ++ file.1)).child file.2) =
      if tree.locate cwd source = some (placeOf root file) then none
      else (tree.contents cwd source).map fun data =>
        tree.set (placeOf root file) (.file data) :=
  hreal.copyAs_child (plan.named file hfile) (hlaid.regular file hfile) rfl
    (hreal.entry_child (plan.named file hfile))

theorem Laid.copyTo_relative :
    tree.copyTo root source (.relative (file.1 ++ [file.2])) =
      if tree.locate root source = some (placeOf root file) then none
      else (tree.contents root source).map fun data =>
        tree.set (placeOf root file) (.file data) := by
  rw [Tree.copyTo, hlaid.isDirectory_relative hfile hreal, if_neg (by simp)]
  exact hlaid.copyAs_relative hfile hreal

theorem Laid.copyInto_absolute (hlast : source.parts.getLast? = some file.2) :
    tree.copyInto cwd source (.ofPath (root ++ file.1)) =
      if tree.locate cwd source = some (placeOf root file) then none
      else (tree.contents cwd source).map fun data =>
        tree.set (placeOf root file) (.file data) := by
  rw [Tree.copyInto, if_pos hreal.isDirectory, hlast]
  exact hlaid.copyAs_absolute hfile hreal

end Copying

end Laid

end Plan

end TizenRoblox.Posix
