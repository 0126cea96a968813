/-
# The working copy

The parts of Sober come from its Flatpak bundle into `sober_bundle/`, and from there into
`dist/`: beside the binary, where it looks for its libraries, and into `lib/` as a fallback.
Where each of them stands is a slot. In a working copy the directories of the slots are real
or missing, the slots are regular files or empty, and what the build adds to `dist/lib/`
keeps to names of its own (`Workplace`).
-/

import TizenRoblox.Posix.Plan
import TizenRoblox.Shell.Copies

namespace TizenRoblox.Release

open TizenRoblox.Foundation TizenRoblox.Posix TizenRoblox.Shell

/-! ## Slots -/

/-- The libraries that come with Sober. -/
inductive Lib
  | loader
  | badcpu
  | mimalloc
  deriving DecidableEq

def Lib.file : Lib → Name
  | .loader => bytes "libloader.so"
  | .badcpu => bytes "libbadcpu.so"
  | .mimalloc => bytes "libmimalloc.so.3"

inductive Part
  | sober
  | lib (lib : Lib)
  deriving DecidableEq

/-- Where a part of Sober may stand. -/
inductive Slot
  /-- In `sober_bundle/`. -/
  | bundled (part : Part)
  /-- In `dist/bin/`, as the RUNPATH of Sober has it. -/
  | beside (part : Part)
  /-- In `dist/lib/`. -/
  | fallback (lib : Lib)
  deriving DecidableEq

def bundleBin : Path := [bytes "sober_bundle", bytes "bin"]
def bundleLibs : Path := [bytes "sober_bundle", bytes "libs"]
def distBin : Path := [bytes "dist", bytes "bin"]
def distMimalloc : Path := [bytes "dist", bytes "bin", bytes "subprojects", bytes "mimalloc"]
def distLib : Path := [bytes "dist", bytes "lib"]
def distData : Path := [bytes "dist", bytes "data"]
def distLogs : Path := [bytes "dist", bytes "logs"]
def distScripts : Path := [bytes "dist", bytes "scripts"]

def Slot.file : Slot → Path × Name
  | .bundled .sober => (bundleBin, bytes "sober")
  | .bundled (.lib lib) => (bundleLibs, lib.file)
  | .beside .sober => (distBin, bytes "sober")
  | .beside (.lib .mimalloc) => (distMimalloc, Lib.mimalloc.file)
  | .beside (.lib lib) => (distBin, lib.file)
  | .fallback lib => (distLib, lib.file)

def parts : List Part := [.sober, .lib .loader, .lib .badcpu, .lib .mimalloc]

def slots : List Slot :=
  parts.map .bundled ++ parts.map .beside ++
    [.fallback .loader, .fallback .badcpu, .fallback .mimalloc]

theorem mem_parts (part : Part) : part ∈ parts := by
  rcases part with _ | _ | _ | _ <;> decide

theorem mem_slots (slot : Slot) : slot ∈ slots := by
  rcases slot with (_ | _ | _ | _) | (_ | _ | _ | _) | _ | _ | _ <;> decide

/-- Slots are different files. -/
theorem Slot.file_inj : ∀ one ∈ slots, ∀ other ∈ slots, one.file = other.file → one = other := by
  decide

/-! ## The plan -/

def soberServices : Path × Name := (bundleBin, bytes "sober_services")
def inputMapper : Path × Name := (distBin, bytes "input_mapper")
def launchScript : Path × Name := (distBin, bytes "launch.sh")
def diagnoseScript : Path × Name := (distScripts, bytes "diagnose.sh")

def directories : List Path := [
  bundleBin, bundleLibs, distBin, distMimalloc, distLib, distData, distLogs, distScripts]

def otherFiles : List (Path × Name) := [soberServices, inputMapper, launchScript, diagnoseScript]

/-- The directories and files of the scripts that extract and build. -/
def plan : Plan where
  directories := directories
  files := slots.map Slot.file ++ otherFiles
  housed := by decide
  named := by decide
  apart := by decide

/-- The other name of mimalloc, and the directories in which it is a link. -/
def aliasName : Name := bytes "libmimalloc.so"

def aliases : List Path := [distMimalloc, distLib]

/-- The names in `dist/lib/` that the build leaves alone. -/
def soberNames : List Name := [Lib.loader.file, Lib.badcpu.file, Lib.mimalloc.file, aliasName]

/-- A name that a library of the build may have. -/
def IsStub (name : Name) : Prop := ¬ IsDots name ∧ name ∉ soberNames

def tmp : Name := bytes "tmp"

structure Workplace (root : Path) (tree : Tree) : Prop where
  laid : plan.Laid root tree
  aliased : ∀ directory ∈ aliases, tree.Writable (Plan.placeOf root (directory, aliasName)) ∨
    tree.node (Plan.placeOf root (directory, aliasName)) = some (.link (.here Lib.mimalloc.file))
  /-- The links among the libraries of the build are to their neighbours. -/
  stubs : ∀ name, IsStub name → ∀ target,
    tree.node (Plan.placeOf root (distLib, name)) = some (.link target) →
      ∃ other, IsStub other ∧ target = .here other
  tmp : tree.RealDir [tmp]

/-- The places that a working copy is about. -/
def Inside (root place : Path) : Prop :=
  place <+: root ∨ place = [tmp] ∨
    ∃ top ∈ [bytes "sober_bundle", bytes "dist"], root ++ [top] <+: place

/-- What the slots hold. -/
def held (root : Path) (tree : Tree) : Store Slot Bytes := fun slot =>
  tree.fileAt (Plan.placeOf root slot.file)

section Workplace

variable {root cwd : Path} {tree other : Tree}

theorem mem_files (slot : Slot) : slot.file ∈ plan.files :=
  List.mem_append_left _ (List.mem_map_of_mem (mem_slots slot))

/-- Places that the plan does not know. -/
theorem not_watches {directory : Path} {name : Name}
    (hdirectories : ∀ known ∈ directories, ¬ directory ++ [name] <+: known)
    (hfiles : (directory, name) ∉ plan.files) :
    ¬ plan.Watches root (Plan.placeOf root (directory, name)) := by
  rintro (hroot | ⟨known, hknown, hprefix⟩ | ⟨file, hfile, heq⟩)
  · exact Plan.placeOf_not_prefix_root hroot
  · rw [Plan.placeOf, List.append_assoc] at hprefix
    exact hdirectories known hknown ((List.prefix_append_right_inj root).mp hprefix)
  · exact hfiles (Plan.placeOf_inj.mp heq ▸ hfile)

theorem alias_not_watched {directory : Path} (hdirectory : directory ∈ aliases) :
    ¬ plan.Watches root (Plan.placeOf root (directory, aliasName)) := by
  have hdirectories : ∀ directory ∈ aliases, ∀ known ∈ directories,
      ¬ directory ++ [aliasName] <+: known := by decide
  have hfiles : ∀ directory ∈ aliases, (directory, aliasName) ∉ plan.files := by decide
  exact not_watches (hdirectories directory hdirectory) (hfiles directory hdirectory)

theorem not_prefix_stub {name : Name} {known : Path} (hknown : known ∈ directories) :
    ¬ distLib ++ [name] <+: known := by
  have hshort : ∀ known ∈ directories, known.take 2 = distLib → known.length ≤ 2 := by decide
  rintro ⟨rest, rfl⟩
  have hlength := hshort _ hknown rfl
  simp [distLib] at hlength

theorem stub_not_file {name : Name} (hstub : IsStub name) : (distLib, name) ∉ plan.files := by
  have hours : ∀ file ∈ plan.files, file.1 = distLib → file.2 ∈ soberNames := by decide
  exact fun hfile => hstub.2 (hours _ hfile rfl)

theorem stub_not_watched {name : Name} (hstub : IsStub name) :
    ¬ plan.Watches root (Plan.placeOf root (distLib, name)) :=
  not_watches (fun _ hknown => not_prefix_stub hknown) (stub_not_file hstub)

/-- What stands below the tops of the working copy is inside. -/
theorem inside_append {way : Path}
    (hway : ∃ top ∈ [bytes "sober_bundle", bytes "dist"], [top] <+: way) :
    Inside root (root ++ way) := by
  obtain ⟨top, htop, hprefix⟩ := hway
  exact .inr (.inr ⟨top, htop, (List.prefix_append_right_inj root).mpr hprefix⟩)

theorem inside_placeOf {file : Path × Name}
    (hfile : file ∈ plan.files ∨ file.1 ∈ aliases ∨ file.1 = distLib) :
    Inside root (Plan.placeOf root file) := by
  have hfiles : ∀ file ∈ plan.files,
      ∃ top ∈ [bytes "sober_bundle", bytes "dist"], [top] <+: file.1 := by decide
  have haliases : ∀ directory ∈ aliases,
      ∃ top ∈ [bytes "sober_bundle", bytes "dist"], [top] <+: directory := by decide
  have hlib : ∃ top ∈ [bytes "sober_bundle", bytes "dist"], [top] <+: distLib := by decide
  have htop : ∃ top ∈ [bytes "sober_bundle", bytes "dist"], [top] <+: file.1 := by
    rcases hfile with hfile | halias | hdistLib
    · exact hfiles file hfile
    · exact haliases _ halias
    · exact hdistLib ▸ hlib
  obtain ⟨top, hmem, hprefix⟩ := htop
  rw [Plan.placeOf, List.append_assoc]
  exact inside_append ⟨top, hmem, hprefix.trans (List.prefix_append _ _)⟩

theorem inside_of_watches {place : Path} (hwatches : plan.Watches root place) :
    Inside root place := by
  have htops : ∀ directory ∈ directories,
      ∃ top ∈ [bytes "sober_bundle", bytes "dist"], [top] <+: directory := by decide
  rcases hwatches with hroot | ⟨directory, hdirectory, hprefix⟩ | ⟨file, hfile, rfl⟩
  · exact .inl hroot
  · obtain ⟨top, htop, rest, hrest⟩ := htops directory hdirectory
    rw [← hrest, ← List.append_assoc] at hprefix
    rcases List.prefix_or_prefix_of_prefix hprefix (List.prefix_append (root ++ [top]) rest) with
      hshort | hlong
    · rcases List.prefix_concat_iff.mp hshort with rfl | hroot
      · exact .inr (.inr ⟨top, htop, List.prefix_refl _⟩)
      · exact .inl hroot
    · exact .inr (.inr ⟨top, htop, hlong⟩)
  · exact inside_placeOf (.inl hfile)

/-- What others do outside does not matter. -/
theorem Workplace.congr (hwork : Workplace root tree)
    (hsame : ∀ place, Inside root place → other.node place = tree.node place) :
    Workplace root other := by
  constructor
  · exact hwork.laid.congr fun place hwatches => hsame place (inside_of_watches hwatches)
  · intro directory hdirectory
    rw [Tree.Writable, hsame _ (inside_placeOf (.inr (.inl hdirectory)))]
    exact hwork.aliased directory hdirectory
  · intro name hstub target hnode
    rw [hsame _ (inside_placeOf (.inr (.inr rfl)))] at hnode
    exact hwork.stubs name hstub target hnode
  · intro front name hfront
    have hreal := hwork.tmp front name hfront
    refine ⟨hreal.1, ?_⟩
    have hplace : front ++ [name] = [Release.tmp] := by
      rcases List.prefix_cons_iff.mp hfront with hnil | ⟨rest, hcons, hrest⟩
      · simp at hnil
      · rw [hcons, List.prefix_nil.mp hrest]
    rw [hsame _ (.inr (.inl hplace)), hreal.2]

theorem held_congr (hsame : ∀ place, Inside root place → other.node place = tree.node place) :
    held root other = held root tree := by
  funext slot
  exact Tree.fileAt_congr (hsame _ (inside_placeOf (.inl (mem_files slot))))

/-! ## What may be done in it -/

theorem placeOf_not_prefix_tmp {file : Path × Name} (hfile : file.1 ≠ []) :
    ¬ Plan.placeOf root file <+: [tmp] := by
  intro hprefix
  have hlength := hprefix.length_le
  have hlong := List.length_pos_of_ne_nil hfile
  simp only [Plan.placeOf, List.length_append, List.length_singleton] at hlength
  omega

theorem Workplace.set_file {file : Path × Name} {data : Bytes} (hwork : Workplace root tree)
    (hfile : file ∈ plan.files) (hreal : tree.RealDir (root ++ file.1)) :
    Workplace root (tree.set (Plan.placeOf root file) (.file data)) := by
  have hdirectory : file.1 ≠ [] := by
    have hlong : ∀ file ∈ plan.files, file.1 ≠ [] := by decide
    exact hlong file hfile
  constructor
  · exact hwork.laid.set_file hfile hreal
  · intro directory hmem
    rw [Tree.Writable, Tree.node_set]
    split
    · exact .inl (.inr ⟨data, rfl⟩)
    · exact hwork.aliased directory hmem
  · intro name hstub target hnode
    rw [Tree.node_set] at hnode
    split at hnode
    · cases hnode
    · exact hwork.stubs name hstub target hnode
  · exact Plan.realDir_set_file hwork.tmp (placeOf_not_prefix_tmp hdirectory)

theorem Workplace.set_alias {directory : Path} (hwork : Workplace root tree)
    (hdirectory : directory ∈ aliases) :
    Workplace root (tree.set (Plan.placeOf root (directory, aliasName))
      (.link (.here Lib.mimalloc.file))) := by
  have hlong : ∀ directory ∈ aliases, directory ≠ [] := by decide
  constructor
  · exact hwork.laid.set_other (alias_not_watched hdirectory)
  · intro other hother
    rw [Tree.Writable, Tree.node_set]
    split
    · exact .inr rfl
    · exact hwork.aliased other hother
  · intro name hstub target hnode
    rw [Tree.node_set_of_ne] at hnode
    · exact hwork.stubs name hstub target hnode
    · intro heq
      have hname : name = aliasName := congrArg Prod.snd (Plan.placeOf_inj.mp heq)
      exact hstub.2 (hname ▸ by decide)
  · exact Plan.realDir_set_file hwork.tmp (placeOf_not_prefix_tmp (hlong directory hdirectory))

theorem Workplace.set_stub {name : Name} {value : Node} (hwork : Workplace root tree)
    (hstub : IsStub name)
    (hvalue : ∀ target, value = .link target → ∃ other, IsStub other ∧ target = .here other) :
    Workplace root (tree.set (Plan.placeOf root (distLib, name)) value) := by
  constructor
  · exact hwork.laid.set_other (stub_not_watched hstub)
  · intro directory hdirectory
    rw [Tree.Writable, Tree.node_set_of_ne]
    · exact hwork.aliased directory hdirectory
    · intro heq
      have hname : aliasName = name := congrArg Prod.snd (Plan.placeOf_inj.mp heq)
      exact hstub.2 (hname ▸ by decide)
  · intro other hother target hnode
    rw [Tree.node_set] at hnode
    split at hnode
    · exact hvalue target (Option.some.inj hnode)
    · exact hwork.stubs other hother target hnode
  · exact Plan.realDir_set_file hwork.tmp (placeOf_not_prefix_tmp (List.cons_ne_nil _ _))

/-- Making the directories of the plan changes no entry of another name. -/
theorem Workplace.node_mkdirP {directory : Path} {file : Path × Name}
    (hwork : Workplace root tree) (hdirectory : directory ∈ directories)
    (hfile : ¬ file.1 ++ [file.2] <+: directory) :
    (tree.mkdirP cwd (.ofPath (root ++ directory))).node (Plan.placeOf root file) =
      tree.node (Plan.placeOf root file) := by
  rw [(Tree.mkdirP_of_clear (hwork.laid.clear directory hdirectory)).2, if_neg]
  rintro ⟨-, hprefix⟩
  rw [Plan.placeOf, List.append_assoc] at hprefix
  exact hfile ((List.prefix_append_right_inj root).mp hprefix)

theorem Workplace.mkdirP {directory : Path} (hwork : Workplace root tree)
    (hdirectory : directory ∈ directories) :
    Workplace root (tree.mkdirP cwd (.ofPath (root ++ directory))) := by
  have haliases : ∀ directory ∈ aliases, ∀ known ∈ directories,
      ¬ directory ++ [aliasName] <+: known := by decide
  constructor
  · exact hwork.laid.mkdirP hdirectory
  · intro other hother
    rw [Tree.Writable, hwork.node_mkdirP hdirectory (haliases other hother directory hdirectory)]
    exact hwork.aliased other hother
  · intro name hstub target hnode
    rw [hwork.node_mkdirP hdirectory (not_prefix_stub hdirectory)] at hnode
    exact hwork.stubs name hstub target hnode
  · exact hwork.tmp.keepsDirs Tree.keepsDirs_mkdirP

theorem held_mkdirP {directory : Path} (hwork : Workplace root tree)
    (hdirectory : directory ∈ directories) :
    held root (tree.mkdirP cwd (.ofPath (root ++ directory))) = held root tree := by
  funext slot
  apply Tree.fileAt_congr
  exact hwork.laid.node_mkdirP hdirectory (mem_files slot)

theorem held_set_slot (slot : Slot) (data : Bytes) :
    held root (tree.set (Plan.placeOf root slot.file) (.file data)) =
      Function.update (held root tree) slot (some data) := by
  funext other
  by_cases heq : other = slot
  · subst heq
    rw [Function.update_self]
    exact Tree.fileAt_set_file ..
  · rw [Function.update_of_ne heq]
    apply Tree.fileAt_set_of_ne
    intro hplace
    exact heq (Slot.file_inj other (mem_slots other) slot (mem_slots slot)
      (Plan.placeOf_inj.mp hplace))

theorem held_set_other {file : Path × Name} {value : Node}
    (hfile : ∀ slot ∈ slots, slot.file ≠ file) :
    held root (tree.set (Plan.placeOf root file) value) = held root tree := by
  funext slot
  apply Tree.fileAt_set_of_ne
  intro hplace
  exact hfile slot (mem_slots slot) (Plan.placeOf_inj.mp hplace)

/-- A slot is read where it stands. -/
theorem Workplace.contents_slot (hwork : Workplace root tree) (slot : Slot) :
    tree.contents root (.relative (slot.file.1 ++ [slot.file.2])) = held root tree slot :=
  hwork.laid.contents_relative (mem_files slot)

end Workplace

end TizenRoblox.Release
