/-
# Packages over many runs

An unsigned package should hold what its run has staged, and nothing else. Since `zip`
adds to the package that it finds, the names of that package stay, until a signed package
takes its place. So an unsigned package is exact if and only if the package before it had
no name that is not staged again (`exact_throughout_iff`): libraries that are gone and
signatures of a signed package are what remains.
-/

import TizenRoblox.Foundation.Runs
import TizenRoblox.Packaging.Staging

namespace TizenRoblox.Packaging

open TizenRoblox.Foundation TizenRoblox.Posix TizenRoblox.Shell TizenRoblox.Shell.Command
open TizenRoblox.Shell.Glob

/-- The entries of a package. -/
def entriesOf : Option Package → Entries
  | some (.archive entries) => entries
  | some .unreadable | none => []

theorem zipped_eq_some {added : Entries} {found : Option Package} {package : Package}
    (hzipped : zipped added found = some package) :
    package = .archive ((entriesOf found).update added) := by
  cases found with
  | none =>
      rw [entriesOf, Archive.nil_update]
      exact (Option.some.inj hzipped).symm
  | some old =>
      cases old with
      | archive entries => exact (Option.some.inj hzipped).symm
      | unreadable => cases hzipped

/-- One run of the script, and the files that it finds. -/
structure Run where
  host : Host
  tree : Tree

namespace Run

variable (run : Run) (found : Option Package)

def outcome : Outcome State := packageTpk run.host true ⟨run.tree, found⟩

/-- The package that the run leaves. -/
def package : Option Package := (run.outcome found).state.package

/-- The entries of the directory that the run stages. -/
def staged : Entries :=
  appEntries run.host (stage run.host true ⟨run.tree, []⟩).state.tree

/-- The package is not signed. -/
def Unsigned : Prop := run.host.tizen = none ∨ run.host.certProfile = []

/-- The script gets to its end. -/
def Completes : Prop := ∃ status next, run.outcome found = .done status next

/-- The package holds the entries that were staged, and no others. -/
def Exact : Prop :=
  ∃ entries, run.package found = some (.archive entries) ∧ entries.Same run.staged

/-- Every name of the package that the run finds is staged again. -/
def Covers : Prop := (entriesOf found).names ⊆ run.staged.names

variable {run found}

theorem makePackage_of_unsigned (hunsigned : run.Unsigned) (strict : Bool) (state : State) :
    makePackage run.host strict state = unsignedPackage run.host strict state := by
  unfold makePackage
  cases htizen : run.host.tizen with
  | none => rfl
  | some tizen =>
      have hprofile : run.host.certProfile = [] :=
        hunsigned.resolve_left fun hnone => by simp [htizen] at hnone
      exact ifElse_test_false (by simp [hprofile])

/-- What `zip` leaves when the script goes on after it. -/
theorem unsignedPackage_eq_done {host : Host} {source target : State} {status : ℕ}
    (hdone : unsignedPackage host true source = .done status target) :
    target.package = some (.archive
      ((entriesOf source.package).update (appEntries host source.tree))) := by
  have hrun := simple_eq_done hdone
  split at hrun
  · split at hrun
    · cases hrun
    · cases hrun
    · next package _ hzipped =>
        obtain ⟨rfl, -⟩ := Prod.mk.inj hrun
        exact congrArg some (zipped_eq_some hzipped)
  · cases hrun

/-- A command on the files that passes has passed on them. -/
theorem onFiles_eq_done {command : Command Staging} {strict : Bool} {source target : State}
    {status : ℕ} (hdone : onFiles command strict source = .done status target) :
    target.package = source.package ∧
      target.tree = (command strict ⟨source.tree, []⟩).state.tree := by
  unfold onFiles at hdone
  cases hcommand : command strict ⟨source.tree, []⟩ with
  | done code staging =>
      rw [hcommand] at hdone
      cases hdone
      exact ⟨rfl, rfl⟩
  | returned code staging => simp [hcommand, Outcome.map] at hdone
  | broken levels staging => simp [hcommand, Outcome.map] at hdone
  | exited code staging => simp [hcommand, Outcome.map] at hdone
  | blocked staging => simp [hcommand, Outcome.map] at hdone

/-- An unsigned run adds what it has staged to the package that it finds. -/
theorem package_of_unsigned (hunsigned : run.Unsigned) (hcompletes : run.Completes found) :
    run.package found = some (.archive ((entriesOf found).update run.staged)) := by
  obtain ⟨status, next, hdone⟩ := hcompletes
  rw [package, hdone]
  unfold outcome packageTpk block at hdone
  obtain ⟨_, prepared, hstaged, hdone⟩ := seq_eq_done hdone
  obtain ⟨_, packed, hpacked, hremoved⟩ := seq_eq_done hdone
  obtain ⟨hfound, htree⟩ := onFiles_eq_done hstaged
  rw [makePackage_of_unsigned hunsigned] at hpacked
  have hentries := unsignedPackage_eq_done hpacked
  rw [hfound, htree] at hentries
  exact (onFiles_eq_done hremoved).1.trans hentries

/-- A name that the package once had is in every unsigned package after it. -/
theorem mem_names_package {name : Bytes} (hunsigned : run.Unsigned)
    (hcompletes : run.Completes found) :
    name ∈ (entriesOf (run.package found)).names ↔
      name ∈ run.staged.names ∨ name ∈ (entriesOf found).names := by
  rw [package_of_unsigned hunsigned hcompletes]
  exact Archive.mem_names_update

/-- A run that has staged the application gets to its end if `zip` works. -/
theorem completes_of_staged (hunsigned : run.Unsigned) (hzip : run.host.zipFailure = none)
    (hreadable : found ≠ some .unreadable) (hisDir : run.tree.isDir run.host.root = true)
    (hbuild : ∀ tree : Tree, tree.isDir run.host.root = true →
      (run.host.build tree).1.isDir run.host.root = true)
    {status : ℕ} {staging : Staging}
    (hstaged : stage run.host true ⟨run.tree, []⟩ = .done status staging) :
    run.Completes found := by
  have hrooted : Rooted run.host.root staging.tree :=
    @rooted_stage run.host ⟨run.tree, []⟩ staging status hisDir hbuild hstaged
  obtain ⟨package, hpackage⟩ : ∃ package,
      zipped (appEntries run.host staging.tree) found = some package := by
    match found with
    | none => exact ⟨_, rfl⟩
    | some (.archive entries) => exact ⟨_, rfl⟩
    | some .unreadable => exact absurd rfl hreadable
  have hfiles : onFiles (stage run.host) true ⟨run.tree, found⟩ =
      .done status ⟨staging.tree, found⟩ := by
    simp [onFiles, hstaged, Outcome.map]
  have hmade : makePackage run.host true ⟨staging.tree, found⟩ =
      .done 0 ⟨staging.tree, some package⟩ := by
    rw [makePackage_of_unsigned hunsigned]
    simp [unsignedPackage, simple, hrooted.isDirectory_appDir, hzip, hpackage]
  have hremoved : onFiles (rmRf run.host pkgDir) true ⟨staging.tree, some package⟩ =
      .done 0 ⟨staging.tree.rmRf run.host.root (.ofBytes pkgDir), some package⟩ := by
    simp [onFiles, rmRf, Outcome.map]
  have hdone : run.outcome found = .done 0
      ⟨staging.tree.rmRf run.host.root (.ofBytes pkgDir), some package⟩ := by
    rw [outcome, packageTpk, block_cons_of_passes _ (by simp) ⟨status, hfiles⟩,
      block_cons_of_passes _ (by simp) ⟨0, hmade⟩]
    exact hremoved
  exact ⟨0, _, hdone⟩

/-- An unsigned package is exact if and only if no other name was there. -/
theorem exact_iff_covers (hunsigned : run.Unsigned) (hcompletes : run.Completes found) :
    run.Exact found ↔ run.Covers found := by
  unfold Exact Covers
  rw [package_of_unsigned hunsigned hcompletes, ← Archive.update_same_iff]
  constructor
  · rintro ⟨entries, hentries, hsame⟩
    cases hentries
    exact hsame
  · exact fun hsame => ⟨_, rfl, hsame⟩

/-- What is left in `pkg_work` is not staged again. -/
theorem staged_forgets {other : Tree}
    (hsober : run.tree.isFile run.host.root (.ofBytes (distDir ++ bytes "/bin/sober")) = true)
    (hother : other.isFile run.host.root (.ofBytes (distDir ++ bytes "/bin/sober")) = true)
    (hsame : run.tree.rmRf run.host.root (.ofBytes pkgDir) =
      other.rmRf run.host.root (.ofBytes pkgDir)) :
    ({ run with tree := other } : Run).staged = run.staged := by
  have hbuilt {tree : Tree} (hfile : tree.isFile run.host.root
      (.ofBytes (distDir ++ bytes "/bin/sober")) = true) :
      buildFirst run.host true ⟨tree, []⟩ = .done 0 ⟨tree, []⟩ := by
    simp [buildFirst, ifThen, ifElse, negate, testF, hfile]
  simp only [staged, stage, block, seq, hbuilt hsober, hbuilt hother,
    createStructure_forgets hsame]

end Run

/-! ## Histories -/

/-- In a history of packaging runs all unsigned packages are exact if and only if no
unsigned run finds a name that it does not stage itself. -/
theorem exact_throughout_iff (found : Option Package) (runs : List Run) :
    Throughout (fun found run => run.package found)
        (fun found run => run.Unsigned → run.Completes found → run.Exact found) found runs ↔
      Throughout (fun found run => run.package found)
        (fun found run => run.Unsigned → run.Completes found → run.Covers found) found runs := by
  apply Throughout.congr
  intro found run
  exact forall_congr' fun hunsigned => forall_congr' fun hcompletes =>
    Run.exact_iff_covers hunsigned hcompletes

/-! ### An example of a history -/

instance (run : Run) (found : Option Package) : Decidable (run.Completes found) :=
  match houtcome : run.outcome found with
  | .done status next => isTrue ⟨status, next, houtcome⟩
  | .returned _ _ | .broken _ _ | .exited _ _ | .blocked _ => isFalse <| by
      simp [Run.Completes, houtcome]

instance (run : Run) (found : Option Package) : Decidable (run.Covers found) :=
  inferInstanceAs (Decidable ((entriesOf found).names ⊆ run.staged.names))

/-- A host without the Tizen command line tools. -/
def plainHost : Host where
  root := []
  certProfile := []
  build tree := (tree, 1)
  globbing := byteGlobbing
  hasPython := true
  tizen := none
  zipFailure := none

/-- A repository in which these libraries have been built. -/
def builtTree (libs : List Name) : Tree where
  entries := [
    ([bytes "dist"], .dir),
    ([bytes "dist", bytes "bin"], .dir),
    ([bytes "dist", bytes "lib"], .dir),
    ([bytes "dist", bytes "bin", bytes "sober"], .file [1]),
    ([bytes "dist", bytes "bin", bytes "launch.sh"], .file [2]),
    ([bytes "tizen"], .dir), ([bytes "tizen", bytes "pkg"], .dir),
    ([bytes "tizen", bytes "pkg", bytes "tizen-manifest.xml"], .file [])] ++
    libs.map fun lib => ([bytes "dist", bytes "lib", lib], .file [3])

/-- A library that is gone is in the package still. -/
theorem not_exact_throughout :
    ¬ ∀ (found : Option Package) (runs : List Run), Throughout (fun found run => run.package found)
      (fun found run => run.Unsigned → run.Completes found → run.Exact found) found runs := by
  intro hall
  have hruns := hall none [⟨plainHost, builtTree [bytes "libnew.so", bytes "libold.so"]⟩,
    ⟨plainHost, builtTree [bytes "libnew.so"]⟩]
  have hexact := hruns.2.1 (.inl rfl) (by decide +kernel)
  have hcovers := (Run.exact_iff_covers (.inl rfl) (by decide +kernel)).mp hexact
  exact absurd hcovers (by decide +kernel)

end TizenRoblox.Packaging
