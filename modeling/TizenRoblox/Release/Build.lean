/-
# Building

`build.sh` has CMake build the libraries and the input mapper, and puts `dist/` together:
what CMake has left, the launcher, the parts of Sober out of `sober_bundle/` and the
diagnostic. The directory `build/` is kept apart from the tree, as what CMake leaves in it
(`Made`); file modes and the lines printed are left out.
-/

import TizenRoblox.Release.Workplace

namespace TizenRoblox.Release

open TizenRoblox.Foundation TizenRoblox.Posix TizenRoblox.Shell TizenRoblox.Shell.Command

/-! ## The script -/

/-- What CMake leaves under a name in `build/dist/lib/`. -/
inductive Output
  | file (data : Bytes)
  | link (neighbour : Name)
  deriving DecidableEq

/-- What a run of the script meets. -/
structure Made where
  hasCompiler : Bool
  /-- The status of `apt-get update`, and of the installation of the compiler. -/
  updateStatus : ℕ
  installStatus : ℕ
  configureStatus : ℕ
  compileStatus : ℕ
  /-- What `build/dist/bin/input_mapper` holds. -/
  inputMapper : Option Bytes
  /-- What `build/dist/lib/*.so*` stands for, in the order of the names. -/
  libs : List (Name × Output)
  libs_stub : ∀ lib ∈ libs, IsStub lib.1
  libs_linked : ∀ lib ∈ libs, ∀ neighbour, lib.2 = .link neighbour → IsStub neighbour

section Script

variable (root : Path) (made : Made)

/-- `${DIST_DIR}` and a way from there. -/
def distDir (way : Path) : Pathname := .ofPath (root ++ way)

/-- `mkdir -p "${DIST_DIR}/…"` -/
def mkdirDist (way : Path) : Command Tree := .simple fun tree =>
  let next := tree.mkdirP root (distDir root way)
  (next, if next.isDirectory root (distDir root way) then 0 else 1)

/-- `cp -f source "${DIST_DIR}/…/"` -/
def cpToDist (source : Bytes) (way : Path) : Command Tree := .attempt fun tree =>
  tree.copyInto root (.ofBytes source) (distDir root way)

/-- Install the cross-compiler if it is missing, configure and build. -/
def compile : Command Tree := .block [
  .ifThen (.test fun _ => !made.hasCompiler) <| .block [
    .simple fun tree => (tree, made.updateStatus),
    .simple fun tree => (tree, made.installStatus)],
  .simple fun tree => (tree, made.configureStatus),
  .simple fun tree => (tree, made.compileStatus)]

def makeDist : Command Tree := .block [
  mkdirDist root distMimalloc,
  mkdirDist root distLib,
  mkdirDist root distData,
  mkdirDist root distLogs]

/-- Input mapper and launcher. -/
def copyTools : Command Tree := .block [
  .orTrue <| .attempt fun tree => made.inputMapper.bind fun data =>
    if tree.isDirectory root (distDir root distBin) then
      tree.overwrite root ((distDir root distBin).child (bytes "input_mapper")) data
    else none,
  cpToDist root (bytes "tizen/launch.sh") distBin]

/-- `cp -a` of one library: a link is made anew, a file is written where its name leads. -/
def copyLib (lib : Name × Output) (tree : Tree) : Option Tree :=
  let name := (distDir root distLib).child lib.1
  match lib.2 with
  | .file data => tree.overwrite root name data
  | .link neighbour =>
    (tree.entry root name).bind fun place =>
      if tree.node place = some .dir then none
      else some (tree.set place (.link (.here neighbour)))

/-- Stub shared libraries. -/
def copyLibs : Command Tree := .act fun tree =>
  made.libs.foldl (fun tree lib => (copyLib root lib tree).getD tree) tree

/-- The binary of Sober, and its libraries relative to it. -/
def copySober : Command Tree := .block [
  cpToDist root (bytes "sober_bundle/bin/sober") distBin,
  cpToDist root (bytes "sober_bundle/libs/libloader.so") distBin,
  cpToDist root (bytes "sober_bundle/libs/libbadcpu.so") distBin,
  cpToDist root (bytes "sober_bundle/libs/libmimalloc.so.3") distMimalloc]

/-- `(cd "${DIST_DIR}/bin/subprojects/mimalloc" && ln -sf … || true)` -/
def linkMimalloc : Command Tree := .orTrue <| .attempt fun tree =>
  if tree.isDirectory root (distDir root distMimalloc) then
    (tree.locate root (distDir root distMimalloc)).bind fun cwd =>
      tree.lnSf cwd (.here Lib.mimalloc.file) (.here aliasName)
  else none

/-- Also put them in `lib/` as fallback. -/
def copyFallback : Command Tree := .block [
  cpToDist root (bytes "sober_bundle/libs/libloader.so") distLib,
  cpToDist root (bytes "sober_bundle/libs/libbadcpu.so") distLib,
  cpToDist root (bytes "sober_bundle/libs/libmimalloc.so.3") distLib]

def linkFallback : Command Tree := .orTrue <| .attempt fun tree =>
  tree.lnSf root (.here Lib.mimalloc.file) ((distDir root distLib).child aliasName)

/-- Diagnostic script -/
def copyDiagnose : Command Tree :=
  .orElse (cpToDist root (bytes "scripts/diagnose.sh") distScripts) <| .subshell <|
    .andThen (mkdirDist root distScripts) (cpToDist root (bytes "scripts/diagnose.sh") distScripts)

/-- `ls` of `bin/` and of `lib/` -/
def listDist : Command Tree := .block [
  .test fun tree => tree.isDirectory root (distDir root distBin),
  .test fun tree => tree.isDirectory root (distDir root distLib)]

def build : Command Tree := .block [
  compile made,
  makeDist root,
  copyTools root made,
  copyLibs root made,
  copySober root,
  linkMimalloc root,
  copyFallback root,
  linkFallback root,
  copyDiagnose root,
  listDist root]

end Script

/-! ## What a run does to the working copy -/

/-- A copy from slot to slot. -/
def copySlot (origin target : Slot) : Copy Slot Bytes where
  source := fun store => store origin
  target := target

/-- The copies of a run. -/
def copies : List (Copy Slot Bytes) := [
  copySlot (.bundled .sober) (.beside .sober),
  copySlot (.bundled (.lib .loader)) (.beside (.lib .loader)),
  copySlot (.bundled (.lib .badcpu)) (.beside (.lib .badcpu)),
  copySlot (.bundled (.lib .mimalloc)) (.beside (.lib .mimalloc)),
  copySlot (.bundled (.lib .loader)) (.fallback .loader),
  copySlot (.bundled (.lib .badcpu)) (.fallback .badcpu),
  copySlot (.bundled (.lib .mimalloc)) (.fallback .mimalloc)]

/-- These directories are there. -/
def Reals (root : Path) (ways : List Path) (tree : Tree) : Prop :=
  ∀ way ∈ ways, tree.RealDir (root ++ way)

/-- The directories that take the copies. -/
abbrev Housed (root : Path) (tree : Tree) : Prop := Reals root [distMimalloc, distLib, distBin] tree

section Build

variable {root : Path} {made : Made} {tree : Tree} {ways : List Path}

theorem Reals.set_file {file : Path × Name} {value : Node} (hreals : Reals root ways tree)
    (hways : ∀ way ∈ ways, ¬ Plan.placeOf root file <+: root ++ way) :
    Reals root ways (tree.set (Plan.placeOf root file) value) :=
  fun way hway => Plan.realDir_set_file (hreals way hway) (hways way hway)

theorem not_prefix_housed {file : Path × Name}
    (hfile : file ∈ plan.files ∨ file.2 = aliasName ∧ file.1 ∈ aliases ∨ file.1 = distLib) :
    ∀ way ∈ [distMimalloc, distLib, distBin], ¬ Plan.placeOf root file <+: root ++ way := by
  have hways : ∀ way ∈ [distMimalloc, distLib, distBin], way ∈ directories := by decide
  have haliases : ∀ directory ∈ aliases, ∀ known ∈ directories,
      ¬ directory ++ [aliasName] <+: known := by decide
  intro way hway hprefix
  rw [Plan.placeOf, List.append_assoc] at hprefix
  have hshort := (List.prefix_append_right_inj root).mp hprefix
  rcases hfile with hfile | ⟨hname, hdirectory⟩ | hlib
  · exact plan.apart file hfile way (hways way hway) hshort
  · rw [hname] at hshort
    exact haliases _ hdirectory way (hways way hway) hshort
  · rw [hlib] at hshort
    exact not_prefix_stub (hways way hway) hshort

theorem Housed.set_file {file : Path × Name} {value : Node} (hhoused : Housed root tree)
    (hfile : file ∈ plan.files ∨ file.2 = aliasName ∧ file.1 ∈ aliases ∨ file.1 = distLib) :
    Housed root (tree.set (Plan.placeOf root file) value) :=
  Reals.set_file hhoused (not_prefix_housed hfile)

theorem delivers_mkdirDist {way : Path} (hway : way ∈ directories) :
    Delivers (held root) (Workplace root) (Reals root ways) (Reals root (way :: ways))
      (mkdirDist root way) [] := by
  intro store
  have hmade : Ensures true
      (fun tree => (Workplace root tree ∧ Reals root ways tree) ∧ held root tree = store)
      (mkdirDist root way) (.always fun tree =>
        (Workplace root tree ∧ Reals root (way :: ways) tree) ∧ held root tree = store) := by
    apply Ensures.of_state
    rintro tree ⟨⟨hwork, hreals⟩, rfl⟩
    rw [mkdirDist, simple_state]
    refine ⟨⟨hwork.mkdirP hway, ?_⟩, held_mkdirP hwork hway⟩
    intro other hother
    rcases List.mem_cons.mp hother with rfl | hbefore
    · exact hwork.laid.real_mkdirP hway
    · exact (hreals other hbefore).mkdirP (hwork.laid.clear way hway)
  exact hmade.mono (fun _ hstate => hstate)
    (fun _ hdone => ⟨hdone.1, hdone.2, rfl⟩) (fun _ hdone => ⟨hdone.1, hdone.2, rfl⟩)
    (fun _ hends => ⟨hends.1.1, 0, hends.2⟩) (fun _ hends => ⟨hends.1.1, 0, hends.2⟩)

theorem delivers_makeDist :
    Delivers (held root) (Workplace root) (Reals root []) (Housed root) (makeDist root) [] := by
  have hmimalloc := @delivers_mkdirDist root [] distMimalloc (by decide)
  have hlib := @delivers_mkdirDist root [distMimalloc] distLib (by decide)
  have hdata := @delivers_mkdirDist root [distLib, distMimalloc] distData (by decide)
  have hlogs := @delivers_mkdirDist root [distData, distLib, distMimalloc] distLogs (by decide)
  refine Delivers.mono (hmimalloc.seq (hlib.seq (hdata.seq hlogs))) (fun _ hnone => hnone) ?_
  intro tree hreals way hway
  have hbelow : distBin <+: distMimalloc := by decide
  simp only [List.mem_cons, List.not_mem_nil, or_false] at hway
  rcases hway with rfl | rfl | rfl
  · exact hreals _ (by simp)
  · exact hreals _ (by simp)
  · have hreal := hreals distMimalloc (by simp)
    exact fun front name hfront => hreal front name
      (hfront.trans ((List.prefix_append_right_inj root).mpr hbelow))

/-- What the scripts keep on the way. -/
abbrev OnTheWay (root : Path) (store : Store Slot Bytes) (tree : Tree) : Prop :=
  (Workplace root tree ∧ Housed root tree) ∧ held root tree = store

variable {store : Store Slot Bytes} {file : Path × Name} {data : Bytes} {next : Tree}

/-- A file that is in no slot. -/
theorem OnTheWay.set_file (hway : OnTheWay root store tree) (hfile : file ∈ plan.files)
    (hreal : tree.RealDir (root ++ file.1)) (hslots : ∀ slot ∈ slots, slot.file ≠ file) :
    OnTheWay root store (tree.set (Plan.placeOf root file) (.file data)) :=
  ⟨⟨hway.1.1.set_file hfile hreal, hway.1.2.set_file (.inl hfile)⟩,
    (held_set_other hslots).trans hway.2⟩

theorem OnTheWay.set_stub {name : Name} {value : Node} (hway : OnTheWay root store tree)
    (hstub : IsStub name)
    (hvalue : ∀ target, value = .link target → ∃ other, IsStub other ∧ target = .here other) :
    OnTheWay root store (tree.set (Plan.placeOf root (distLib, name)) value) := by
  refine ⟨⟨hway.1.1.set_stub hstub hvalue, hway.1.2.set_file (.inr (.inr rfl))⟩, ?_⟩
  rw [held_set_other, hway.2]
  intro slot _ heq
  exact stub_not_file hstub (heq ▸ mem_files slot)

theorem OnTheWay.set_alias {directory : Path} (hway : OnTheWay root store tree)
    (hdirectory : directory ∈ aliases) :
    OnTheWay root store (tree.set (Plan.placeOf root (directory, aliasName))
      (.link (.here Lib.mimalloc.file))) := by
  have hslots : ∀ directory ∈ aliases, ∀ slot ∈ slots, slot.file ≠ (directory, aliasName) := by
    decide
  exact ⟨⟨hway.1.1.set_alias hdirectory, hway.1.2.set_file (.inr (.inl ⟨rfl, hdirectory⟩))⟩,
    (held_set_other (hslots directory hdirectory)).trans hway.2⟩

/-! ## The commands of a run -/

/-- A copy to a file of the plan sets it. -/
theorem eq_set_of_copyInto {source : Pathname} (hwork : Workplace root tree)
    (hfile : file ∈ plan.files) (hlast : source.parts.getLast? = some file.2)
    (hnext : tree.copyInto root source (distDir root file.1) = some next) :
    ∃ data, tree.contents root source = some data ∧ tree.RealDir (root ++ file.1) ∧
      next = tree.set (Plan.placeOf root file) (.file data) := by
  have hdirectory : tree.isDirectory root (distDir root file.1) = true := by
    by_contra hnot
    simp [Tree.copyInto, hnot] at hnext
  have hreal : tree.RealDir (root ++ file.1) :=
    Plan.realDir_of_isDirectory (hwork.laid.clear _ (plan.housed file hfile)) hdirectory
  rw [distDir, hwork.laid.copyInto_absolute hfile hreal hlast] at hnext
  split at hnext
  · cases hnext
  · obtain ⟨data, hdata, rfl⟩ := Option.map_eq_some_iff.mp hnext
    exact ⟨data, hdata, hreal, rfl⟩

theorem delivers_cpToDist {origin target : Slot} {source : Bytes}
    (hsource : Pathname.ofBytes source = .relative (origin.file.1 ++ [origin.file.2]))
    (hname : origin.file.2 = target.file.2) :
    Delivers (held root) (Workplace root) (Housed root) (Housed root)
      (cpToDist root source target.file.1) [copySlot origin target] := by
  apply delivers_attempt
  intro tree hwork hhoused next hnext
  have hlast : (Pathname.ofBytes source).parts.getLast? = some target.file.2 := by
    simp [hsource, Pathname.relative, hname]
  obtain ⟨data, hdata, hreal, rfl⟩ := eq_set_of_copyInto hwork (mem_files target) hlast hnext
  rw [hsource, hwork.contents_slot] at hdata
  exact ⟨data, hdata, ⟨hwork.set_file (mem_files target) hreal,
    hhoused.set_file (.inl (mem_files target))⟩, held_set_slot target data⟩

theorem preserves_cpToDist {source : Bytes} {name : Name} {way : Path}
    (hfile : (way, name) ∈ plan.files) (hslots : ∀ slot ∈ slots, slot.file ≠ (way, name))
    (hlast : (Pathname.ofBytes source).parts.getLast? = some name) :
    Preserves (OnTheWay root store) (cpToDist root source way) := by
  apply preserves_attempt
  intro tree next hway hnext
  obtain ⟨data, -, hreal, rfl⟩ := eq_set_of_copyInto hway.1.1 hfile hlast hnext
  exact hway.set_file hfile hreal hslots

theorem preserves_copyTools : Preserves (OnTheWay root store) (copyTools root made) := by
  have hfile : inputMapper ∈ plan.files := by decide
  have hslots : ∀ slot ∈ slots, slot.file ≠ inputMapper := by decide
  have hlauncher : Preserves (OnTheWay root store)
      (cpToDist root (bytes "tizen/launch.sh") launchScript.1) :=
    @preserves_cpToDist root store _ launchScript.2 _ (by decide) (by decide) (by decide)
  refine preserves_block ⟨Preserves.orTrue (preserves_attempt ?_), hlauncher⟩
  intro tree next hway hnext
  obtain ⟨data, -, hwrite⟩ := Option.bind_eq_some_iff.mp hnext
  have hreal : tree.RealDir (root ++ distBin) := hway.1.2 _ (by simp)
  have hset : tree.overwrite root ((distDir root distBin).child (bytes "input_mapper")) data =
      some (tree.set (Plan.placeOf root inputMapper) (.file data)) :=
    hreal.overwrite_child (plan.named _ hfile) (hway.1.1.laid.regular _ hfile) rfl
      (hreal.entry_child (plan.named _ hfile))
  rw [hset] at hwrite
  split at hwrite
  · obtain rfl := Option.some.inj hwrite
    exact hway.set_file hfile hreal hslots
  · cases hwrite

/-- A library of the build keeps to the names of the libraries of the build. -/
theorem OnTheWay.copyLib {lib : Name × Output} (hway : OnTheWay root store tree)
    (hstub : IsStub lib.1) (hlinked : ∀ neighbour, lib.2 = .link neighbour → IsStub neighbour)
    (hnext : copyLib root lib tree = some next) : OnTheWay root store next := by
  obtain ⟨name, output⟩ := lib
  have hreal : tree.RealDir (root ++ distLib) := hway.1.2 _ (by simp)
  cases output with
  | file data =>
      have hwrite : tree.write root ((distDir root distLib).child name) data = some next := by
        simp only [Release.copyLib, Tree.overwrite] at hnext
        split_ifs at hnext
        exact hnext
      unfold Tree.write at hwrite
      split at hwrite
      · cases hwrite
      · next place hlocate =>
          have hwalk : Tree.walk tree Tree.linkLimit (root ++ distLib) [name] = some place :=
            hreal.locate_child.symm.trans hlocate
          obtain ⟨other, hother, rfl⟩ :=
            Tree.walk_neighbours (fun _ hours => hours.1) hway.1.1.stubs hstub hwalk
          split_ifs at hwrite
          · obtain rfl := Option.some.inj hwrite
            exact hway
          · obtain rfl := Option.some.inj hwrite
            exact hway.set_stub hother fun _ heq => by cases heq
  | link neighbour =>
      simp only [Release.copyLib, distDir, hreal.entry_child hstub.1, Option.bind_some] at hnext
      split at hnext
      · cases hnext
      · obtain rfl := Option.some.inj hnext
        refine hway.set_stub hstub ?_
        rintro target heq
        obtain rfl := Node.link.inj heq
        exact ⟨neighbour, hlinked neighbour rfl, rfl⟩

theorem preserves_copyLibs : Preserves (OnTheWay root store) (copyLibs root made) := by
  have hall : ∀ libs : List (Name × Output), (∀ lib ∈ libs, lib ∈ made.libs) → ∀ tree,
      OnTheWay root store tree → OnTheWay root store
        (libs.foldl (fun tree lib => (copyLib root lib tree).getD tree) tree) := by
    intro libs hlibs
    induction libs with
    | nil => exact fun _ hway => hway
    | cons lib rest ih =>
        intro tree hway
        have hmem := hlibs lib (by simp)
        have hstep : OnTheWay root store ((copyLib root lib tree).getD tree) := by
          cases hnext : copyLib root lib tree with
          | none => exact hway
          | some next =>
              exact hway.copyLib (made.libs_stub lib hmem) (made.libs_linked lib hmem) hnext
        exact ih (fun other hother => hlibs other (List.mem_cons_of_mem _ hother)) _ hstep
  exact preserves_act fun tree hway => hall made.libs (fun _ hlib => hlib) tree hway

/-- The other name of mimalloc leads to no directory. -/
theorem isDirectory_alias {directory : Path} (hwork : Workplace root tree)
    (hdirectory : directory ∈ aliases) (hreal : tree.RealDir (root ++ directory)) :
    tree.isDirectory (root ++ directory) (.here aliasName) = false := by
  have hfiles : ∀ directory ∈ aliases, (directory, Lib.mimalloc.file) ∈ plan.files := by decide
  exact hreal.isDirectory_here (by decide) (by decide) (hwork.aliased directory hdirectory)
    (hwork.laid.regular _ (hfiles directory hdirectory))

theorem preserves_linkMimalloc : Preserves (OnTheWay root store) (linkMimalloc root) := by
  refine Preserves.orTrue (preserves_attempt ?_)
  intro tree next hway hnext
  have hreal : tree.RealDir (root ++ distMimalloc) := hway.1.2 _ (by simp)
  have halias : distMimalloc ∈ aliases := by decide
  rw [distDir, hreal.isDirectory, if_pos rfl, hreal.locate, Option.bind_some] at hnext
  obtain rfl := Tree.lnSf_eq_set_entry (isDirectory_alias hway.1.1 halias hreal)
    (Tree.entry_here hreal.isDir (by decide)) hnext
  exact hway.set_alias halias

theorem preserves_linkFallback : Preserves (OnTheWay root store) (linkFallback root) := by
  refine Preserves.orTrue (preserves_attempt ?_)
  intro tree next hway hnext
  have hreal : tree.RealDir (root ++ distLib) := hway.1.2 _ (by simp)
  have halias : distLib ∈ aliases := by decide
  have hdirectory : tree.isDirectory root ((distDir root distLib).child aliasName) = false := by
    rw [← isDirectory_alias hway.1.1 halias hreal]
    exact Tree.isDirectory_of_locate_eq hreal.locate_child
  obtain rfl := Tree.lnSf_eq_set_entry hdirectory (hreal.entry_child (by decide)) hnext
  exact hway.set_alias halias

theorem preserves_mkdirDist {way : Path} (hdirectory : way ∈ directories) :
    Preserves (OnTheWay root store) (mkdirDist root way) := by
  apply preserves_simple
  rintro tree ⟨⟨hwork, hhoused⟩, rfl⟩
  have hclear := hwork.laid.clear way hdirectory
  exact ⟨⟨hwork.mkdirP hdirectory, fun other hother => (hhoused other hother).mkdirP hclear⟩,
    held_mkdirP hwork hdirectory⟩

theorem preserves_copyDiagnose : Preserves (OnTheWay root store) (copyDiagnose root) := by
  have hcp : Preserves (OnTheWay root store)
      (cpToDist root (bytes "scripts/diagnose.sh") diagnoseScript.1) :=
    @preserves_cpToDist root store _ diagnoseScript.2 _ (by decide) (by decide) (by decide)
  exact hcp.orElse (preserves_subshell ((preserves_mkdirDist (by decide)).andThen hcp))

/-- The copies that a run makes, once CMake is done. -/
theorem delivers_copying :
    Delivers (held root) (Workplace root) (Housed root) (Housed root)
      (block [copyTools root made, copyLibs root made, copySober root, linkMimalloc root,
        copyFallback root, linkFallback root, copyDiagnose root, listDist root]) copies := by
  have hsober : Delivers (held root) (Workplace root) (Housed root) (Housed root)
      (copySober root) (copies.take 4) :=
    (@delivers_cpToDist root (.bundled .sober) (.beside .sober) _ (by decide) rfl).seq <|
      (@delivers_cpToDist root (.bundled (.lib .loader)) (.beside (.lib .loader)) _
        (by decide) rfl).seq <|
      (@delivers_cpToDist root (.bundled (.lib .badcpu)) (.beside (.lib .badcpu)) _
        (by decide) rfl).seq <|
      @delivers_cpToDist root (.bundled (.lib .mimalloc)) (.beside (.lib .mimalloc)) _
        (by decide) rfl
  have hfallback : Delivers (held root) (Workplace root) (Housed root) (Housed root)
      (copyFallback root) (copies.drop 4) :=
    (@delivers_cpToDist root (.bundled (.lib .loader)) (.fallback .loader) _
        (by decide) rfl).seq <|
      (@delivers_cpToDist root (.bundled (.lib .badcpu)) (.fallback .badcpu) _
        (by decide) rfl).seq <|
      @delivers_cpToDist root (.bundled (.lib .mimalloc)) (.fallback .mimalloc) _
        (by decide) rfl
  have hlist : Delivers (held root) (Workplace root) (Housed root) (Housed root)
      (block [copyDiagnose root, listDist root]) [] :=
    delivers_of_preserves fun _ => preserves_block ⟨preserves_copyDiagnose,
      preserves_block ⟨preserves_test, preserves_test⟩⟩
  exact (delivers_of_preserves fun _ => preserves_copyTools).seq <|
    (delivers_of_preserves fun _ => preserves_copyLibs).seq <|
    hsober.seq <| (delivers_of_preserves fun _ => preserves_linkMimalloc).seq <|
    hfallback.seq <| (delivers_of_preserves fun _ => preserves_linkFallback).seq hlist

theorem preserves_compile {property : Tree → Prop} : Preserves property (compile made) :=
  preserves_block ⟨preserves_ifThen preserves_test (preserves_block
    ⟨preserves_simple fun _ hproperty => hproperty,
      preserves_simple fun _ hproperty => hproperty⟩),
    preserves_simple fun _ hproperty => hproperty, preserves_simple fun _ hproperty => hproperty⟩

/-- What a run of the script does to the working copy: the parts in the bundle come into
`dist/`, and a run that goes to its end has brought all of them. -/
theorem meets_build (hwork : Workplace root tree) :
    (build root made true tree).Meets
      (.copies (held root) (Workplace root) copies (held root tree)) := by
  have hcompile : Delivers (held root) (Workplace root) (Reals root []) (Reals root [])
      (compile made) [] := delivers_of_preserves fun _ => preserves_compile
  have hbuild : Delivers (held root) (Workplace root) (Reals root []) (Housed root)
      (build root made) copies := hcompile.seq (delivers_makeDist.seq delivers_copying)
  exact hbuild.meets hwork fun _ hnone => by cases hnone

end Build

end TizenRoblox.Release
