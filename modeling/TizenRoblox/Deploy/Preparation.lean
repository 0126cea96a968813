/-
# What a deployment does before the libraries

A tree is *tidy* for the deployment where its directories are missing or reached
without a link, its files are missing or regular, and `lib/` is sound. There the
script makes its directories and copies everything but the libraries: `lib/` keeps
its entries, and no file outside of `INSTALL_DIR` changes (`Prepared`).
-/

import TizenRoblox.Deploy.Layout

namespace TizenRoblox.Deploy

open TizenRoblox.Foundation TizenRoblox.Posix TizenRoblox.Shell TizenRoblox.Shell.Command

def binPath : Path := installPath ++ [bytes "bin"]
def mimallocPath : Path := binPath ++ [bytes "subprojects", bytes "mimalloc"]
def dataPath : Path :=
  installPath ++ [bytes "data", bytes ".local", bytes "share", bytes "sober"]
def logsPath : Path := installPath ++ [bytes "logs"]
def scriptsPath : Path := installPath ++ [bytes "scripts"]

/-- The directories that the script makes. -/
def directories : List Path := [
  binPath, libPath, dataPath, logsPath, mimallocPath, scriptsPath]

/-- The files that it copies, but for the libraries. -/
def binaries : List Path := [
  binPath ++ [bytes "sober"], binPath ++ [bytes "input_mapper"], binPath ++ [bytes "launch.sh"],
  binPath ++ [bytes "libloader.so"], binPath ++ [bytes "libbadcpu.so"],
  mimallocPath ++ [bytes "libmimalloc.so.3"], scriptsPath ++ [bytes "diagnose.sh"]]

theorem binDir_eq : binDir = .ofPath binPath := by decide

theorem dataDir_eq : dataDir = .ofPath dataPath := by decide

theorem logsDir_eq : logsDir = .ofPath logsPath := by decide

theorem mimallocDir_eq : mimallocDir = .ofPath mimallocPath := by decide

theorem scriptsDir_eq : scriptsDir = .ofPath scriptsPath := by decide

structure Tidy (tree : Tree) : Prop where
  directories : ∀ place ∈ directories, tree.ClearDir place
  binaries : ∀ place ∈ binaries, tree.Writable place
  libraries : Sound (libEntries tree)

/-- The files outside of `INSTALL_DIR` keep their bytes. -/
def Frame (tree other : Tree) : Prop :=
  ∀ place data, ¬ installPath <+: place → tree.node place = some (.file data) →
    other.node place = some (.file data)

/-- The tree, tidy still, with some of the directories made. -/
structure Prepared (before : Tree) (made : List Path) (tree : Tree) : Prop where
  tidy : Tidy tree
  made : ∀ place ∈ made, tree.RealDir place
  entries : libEntries tree = libEntries before
  frame : Frame before tree

private theorem binaries_apart : ∀ binary ∈ binaries,
    installPath <+: binary ∧ binary.dropLast ≠ libPath ∧
      ∀ directory ∈ directories, ¬ binary <+: directory := by
  decide

private theorem libraries_apart : ∀ directory ∈ directories,
    libPath <+: directory → directory = libPath := by
  decide

section Steps

variable {before tree : Tree} {made : List Path} {directory : Path} {name : Name}

/-- No entry of `lib/` is on the way to a directory of the script. -/
theorem not_prefix_directory (name : Name) (hdirectory : directory ∈ directories) :
    ¬ libPath ++ [name] <+: directory := by
  intro hprefix
  have hlength := hprefix.length_le
  rw [libraries_apart directory hdirectory ((List.prefix_append _ _).trans hprefix)] at hlength
  exact absurd hlength (by simp)

theorem ne_libEntry_of_binary {binary : Path} (hbinary : binary ∈ binaries) (name : Name) :
    binary ≠ libPath ++ [name] := by
  rintro rfl
  simpa using (binaries_apart _ hbinary).2.1

theorem libEntries_mkdirP (htidy : Tidy tree) (hdirectory : directory ∈ directories) :
    libEntries (tree.mkdirP [] (.ofPath directory)) = libEntries tree := by
  funext name
  have hnode := (@Tree.mkdirP_of_clear tree [] _ (htidy.directories directory hdirectory)).2
  refine (hnode (libPath ++ [name])).trans (if_neg fun hprefix => ?_)
  exact not_prefix_directory name hdirectory hprefix.2

theorem Tidy.mkdirP (htidy : Tidy tree) (hdirectory : directory ∈ Deploy.directories) :
    Tidy (tree.mkdirP [] (.ofPath directory)) where
  directories place hplace :=
    (htidy.directories place hplace).mkdirP (htidy.directories directory hdirectory)
  binaries place hplace := by
    have hnode := (@Tree.mkdirP_of_clear tree [] _ (htidy.directories directory hdirectory)).2
    have hapart := (binaries_apart place hplace).2.2 directory hdirectory
    have hkept := (hnode place).trans (if_neg fun hprefix => hapart hprefix.2)
    rw [Tree.Writable, hkept]
    exact htidy.binaries place hplace
  libraries := (libEntries_mkdirP htidy hdirectory).symm ▸ htidy.libraries

theorem Prepared.mkdirP (hprepared : Prepared before made tree)
    (hdirectory : directory ∈ directories) :
    Prepared before (directory :: made) (tree.mkdirP [] (.ofPath directory)) where
  tidy := hprepared.tidy.mkdirP hdirectory
  made := by
    have hclear := hprepared.tidy.directories directory hdirectory
    intro place hplace
    rcases List.mem_cons.mp hplace with rfl | hmem
    · exact (Tree.mkdirP_of_clear hclear).1
    · exact (hprepared.made place hmem).mkdirP hclear
  entries := (libEntries_mkdirP hprepared.tidy hdirectory).trans hprepared.entries
  frame place data houtside hfile :=
    Tree.mkdirP_node_of_file (hprepared.tidy.directories directory hdirectory)
      (hprepared.frame place data houtside hfile)

theorem Prepared.set_binary (hprepared : Prepared before made tree) (data : Bytes)
    (hmade : ∀ place ∈ made, place ∈ directories) {binary : Path} (hbinary : binary ∈ binaries) :
    Prepared before made (tree.set binary (.file data)) := by
  obtain ⟨hinside, _, hnoPrefix⟩ := binaries_apart binary hbinary
  have hway : ∀ directory ∈ directories, ∀ front last, front ++ [last] <+: directory →
      (tree.set binary (.file data)).node (front ++ [last]) = tree.node (front ++ [last]) := by
    intro directory hdirectory front last hfront
    apply Tree.node_set_of_ne
    rintro rfl
    exact hnoPrefix directory hdirectory hfront
  have hentries : libEntries (tree.set binary (.file data)) = libEntries tree := by
    funext name
    exact Tree.node_set_of_ne _ _ (ne_libEntry_of_binary hbinary name).symm
  refine ⟨⟨?_, ?_, hentries ▸ hprepared.tidy.libraries⟩, ?_, hentries.trans hprepared.entries, ?_⟩
  · intro directory hdirectory front last hfront
    rw [hway directory hdirectory front last hfront]
    exact hprepared.tidy.directories directory hdirectory front last hfront
  · intro place hplace
    by_cases hsame : place = binary
    · exact Or.inr ⟨data, by simp [hsame]⟩
    · rw [Tree.Writable, Tree.node_set_of_ne _ _ hsame]
      exact hprepared.tidy.binaries place hplace
  · intro directory hdirectory front last hfront
    rw [hway directory (hmade directory hdirectory) front last hfront]
    exact hprepared.made directory hdirectory front last hfront
  · intro place old houtside hfile
    rw [Tree.node_set_of_ne]
    · exact hprepared.frame place old houtside hfile
    · rintro rfl
      exact houtside hinside

/-- Copying one of the script's files into a directory it has made. -/
theorem Prepared.copied (hprepared : Prepared before made tree) (data : Bytes)
    (hmade : ∀ place ∈ made, place ∈ directories) (hdirectory : directory ∈ made)
    (hbinary : directory ++ [name] ∈ binaries) (hdots : ¬ IsDots name) :
    ∃ next, Deploy.copied (.ofPath directory) name data tree = some next ∧
      Prepared before made next := by
  have hreal := hprepared.made directory hdirectory
  have hwrite := Tree.write_here data hreal.isDir hdots (hprepared.tidy.binaries _ hbinary)
  refine ⟨_, ?_, hprepared.set_binary data hmade hbinary⟩
  rw [Deploy.copied, hreal.isDirectory, if_pos rfl, hreal.write_child, hwrite]

end Steps

/-! ## The commands -/

section Commands

variable {before : Tree} {made : List Path} {directory : Path} {name : Name} {levels : ℕ}

theorem Prepared.of_subset {tree : Tree} {fewer : List Path}
    (hprepared : Prepared before made tree) (hfewer : fewer ⊆ made) :
    Prepared before fewer tree :=
  { hprepared with made := fun place hplace => hprepared.made place (hfewer hplace) }

theorem mkdirP_eq {tree : Tree} (hprepared : Prepared before made tree)
    (hdirectory : directory ∈ directories) (strict : Bool) :
    mkdirP (.ofPath directory) strict tree = .done 0 (tree.mkdirP [] (.ofPath directory)) := by
  have hreal := (hprepared.mkdirP hdirectory).made directory (by simp)
  simp [mkdirP, simple, hreal.isDirectory]

/-- A file that `dist/` has is copied, whoever asks for the status. -/
theorem keeps_scp {file : Option Bytes} (hfile : file.isSome = true)
    (hmade : ∀ place ∈ made, place ∈ directories) (hdirectory : directory ∈ made)
    (hbinary : directory ++ [name] ∈ binaries) (hdots : ¬ IsDots name) :
    Keeps levels (Prepared before made) (scp (.ofPath directory) name file) := by
  intro strict tree hprepared
  obtain ⟨data, rfl⟩ := Option.isSome_iff_exists.mp hfile
  obtain ⟨next, hnext, hkept⟩ := hprepared.copied data hmade hdirectory hbinary hdots
  have hscp : scp (.ofPath directory) name (some data) strict tree = .done 0 next :=
    attempt_eq_done (by simpa using hnext) strict
  rw [hscp]
  exact hkept

/-- `scp` of a file that may be missing. -/
theorem keepsIn_scp (file : Option Bytes) (hmade : ∀ place ∈ made, place ∈ directories)
    (hdirectory : directory ∈ made) (hbinary : directory ++ [name] ∈ binaries)
    (hdots : ¬ IsDots name) :
    KeepsIn false levels (Prepared before made) (scp (.ofPath directory) name file) := by
  cases hfile : file with
  | none => exact keepsIn_attempt fun tree next _ hnext => by simp at hnext
  | some data => exact keeps_scp rfl hmade hdirectory hbinary hdots false

/-- `[ -f file ] && scp file` -/
theorem keeps_scpIfShipped (file : Option Bytes) (hmade : ∀ place ∈ made, place ∈ directories)
    (hdirectory : directory ∈ made) (hbinary : directory ++ [name] ∈ binaries)
    (hdots : ¬ IsDots name) :
    Keeps levels (Prepared before made)
      (andThen (test fun _ => file.isSome) (scp (.ofPath directory) name file)) := by
  intro strict
  cases hfile : file with
  | none =>
      intro tree hprepared
      simpa [andThen, Outcome.Within] using hprepared
  | some data =>
      exact keepsIn_test.andThen (keeps_scp rfl hmade hdirectory hbinary hdots strict)

/-- `mkdir -p` of a directory and the copy of a file into it. -/
theorem keeps_makeAndScp {file : Option Bytes} (hfile : file.isSome = true)
    (hmade : ∀ place ∈ made, place ∈ directories) (hdirectory : directory ∈ directories)
    (hbinary : directory ++ [name] ∈ binaries) (hdots : ¬ IsDots name) :
    Keeps levels (Prepared before made)
      (block [.subshell (mkdirP (.ofPath directory)), scp (.ofPath directory) name file]) := by
  intro strict tree hprepared
  have hnext := hprepared.mkdirP hdirectory
  have hpasses : Passes (subshell (mkdirP (.ofPath directory))) strict tree
      (tree.mkdirP [] (.ofPath directory)) :=
    ⟨0, by simp [subshell, mkdirP_eq hprepared hdirectory]⟩
  have hmore : ∀ place ∈ directory :: made, place ∈ directories := by
    simpa using ⟨hdirectory, hmade⟩
  have hcopies : KeepsIn strict 0 (Prepared before (directory :: made))
      (scp (.ofPath directory) name file) :=
    keeps_scp hfile hmore (by simp) hbinary hdots strict
  obtain ⟨last, hlast, status, houtcome⟩ := hcopies.passes _ hnext
  rw [block_cons_of_passes _ (by simp) hpasses, block, houtcome]
  exact hlast.of_subset (List.subset_cons_self _ _)

theorem makeDirectories_passes {tree : Tree} (htidy : Tidy tree) :
    ∃ next, Passes makeDirectories true tree next ∧ Prepared tree [libPath, binPath] next := by
  have hstart : Prepared tree [] tree := ⟨htidy, by simp, rfl, fun _ _ _ hfile => hfile⟩
  have hbin : binPath ∈ directories := by simp [directories]
  have hlib : libPath ∈ directories := by simp [directories]
  have hdata : dataPath ∈ directories := by simp [directories]
  have hlogs : logsPath ∈ directories := by simp [directories]
  have hbinMade := hstart.mkdirP hbin
  have hlibMade := hbinMade.mkdirP hlib
  have hdataMade := hlibMade.mkdirP hdata
  have hlogsMade := hdataMade.mkdirP hlogs
  refine ⟨_, ⟨0, ?_⟩, hlogsMade.of_subset (by simp)⟩
  rw [makeDirectories, binDir_eq, libDir_eq, dataDir_eq, logsDir_eq]
  simp [subshell, block, seq, mkdirP_eq hstart hbin, mkdirP_eq hbinMade hlib,
    mkdirP_eq hlibMade hdata, mkdirP_eq hdataMade hlogs]

variable {host : Host}

theorem keeps_copyBinaries (hsober : host.sober.isSome = true)
    (hlaunch : host.launchScript.isSome = true) (hmade : ∀ place ∈ made, place ∈ directories)
    (hbin : binPath ∈ made) : Keeps levels (Prepared before made) (copyBinaries host) := by
  rw [copyBinaries, binDir_eq, mimallocDir_eq]
  refine keeps_block ⟨keeps_scp hsober hmade hbin (by decide) (by decide),
    keeps_orTrue (keepsIn_scp _ hmade hbin (by decide) (by decide)),
    keeps_scp hlaunch hmade hbin (by decide) (by decide), keeps_forEach ?_, ?_⟩
  · simp only [List.forall_mem_cons, List.not_mem_nil, false_implies, implies_true, and_true]
    exact ⟨keeps_scpIfShipped _ hmade hbin (by decide) (by decide),
      keeps_scpIfShipped _ hmade hbin (by decide) (by decide)⟩
  · cases hmimalloc : host.mimalloc with
    | none =>
        intro strict tree hprepared
        simpa [ifThen, ifElse, Outcome.Within] using hprepared
    | some data =>
        exact keeps_ifThen keepsIn_test
          (keeps_makeAndScp rfl hmade (by decide) (by decide) (by decide))

theorem keeps_copyScripts (hdiagnose : host.diagnose.isSome = true)
    (hmade : ∀ place ∈ made, place ∈ directories) :
    Keeps levels (Prepared before made) (copyScripts host) := by
  rw [copyScripts, scriptsDir_eq]
  exact keeps_makeAndScp hdiagnose hmade (by decide) (by decide) (by decide)

end Commands

end TizenRoblox.Deploy
