/-
# Extracting Sober from its bundle

`extract_sober.sh` has a Flatpak bundle checked out below `/tmp`, looks there for the parts of
Sober and copies them to `sober_bundle/`. What `ostree` and `flatpak` do is left to the run,
but for the files that the checkout leaves; file modes, the lines printed and the contents of
the OSTree repository are left out.

The library mimalloc is looked for with `find … -not -l`. GNU `find` has no test of that
name: it ends with an error and prints nothing, which is the same to the script as a bundle
without the library.
-/

import TizenRoblox.Release.Workplace
import TizenRoblox.Shell.Text

namespace TizenRoblox.Release

open TizenRoblox.Foundation TizenRoblox.Posix TizenRoblox.Shell TizenRoblox.Shell.Command

/-! ## The script -/

/-- What a run of the script meets. -/
structure Flatpak where
  /-- The first argument. -/
  flatpakFile : Bytes
  initStatus : ℕ
  importStatus : ℕ
  /-- What `ostree refs` prints. -/
  refs : Bytes
  /-- What `ostree checkout` puts into its directory for a ref, and its status. -/
  checkout : Bytes → List (Path × Node) × ℕ
  /-- The order in which `find` comes by what is below a directory. -/
  visit : List (Path × Node) → List (Path × Node)
  visit_perm : ∀ entries, (visit entries).Perm entries
  /-- `find` has a test `-l`, for links. -/
  hasLinkTest : Bool
  /-- What `file` says of some bytes; nothing if it cannot be run. -/
  file : Bytes → Option Bytes

/-- The tree, and the variables of the script. -/
structure Extracting where
  tree : Tree
  soberRef : Bytes
  soberBin : Bytes
  soberServices : Bytes
  libloader : Bytes
  libbadcpu : Bytes
  libmimalloc : Bytes

/-- The script starts with nothing in its variables. -/
def extracting (tree : Tree) : Extracting := ⟨tree, [], [], [], [], [], []⟩

def repoName : Name := bytes "sober_ostree_repo"
def checkoutName : Name := bytes "sober_checkout"
def repoDir : Bytes := bytes "/tmp/sober_ostree_repo"
def checkoutDir : Bytes := bytes "/tmp/sober_checkout"

def lowered (byte : UInt8) : UInt8 := if 65 ≤ byte && byte ≤ 90 then byte + 32 else byte

/-- `grep -i "sober\|vinegar"` lets the line through. -/
def namesSober (line : Bytes) : Bool :=
  [bytes "sober", bytes "vinegar"].any fun word => grepMatches word (line.map lowered)

/-- What `file` has to say of an architecture for the script to go on. -/
def architectures : List Bytes := [bytes "ARM aarch64", bytes "x86-64", bytes "ARM,"]

section Script

variable (root : Path) (flatpak : Flatpak)

/-- A command that changes the tree, or fails and leaves it. -/
def onTree (run : Extracting → Option Tree) : Command Extracting := .attempt fun state =>
  (run state).map fun tree => { state with tree := tree }

/-- A command that is run elsewhere. -/
def elsewhere {State : Type} (status : ℕ) : Command State := .simple fun state => (state, status)

/-- `$(find "${CHECKOUT_DIR}" … | head -1)`, for the names and nodes that pass the tests. -/
def findFirst (passes : Name → Node → Bool) (tree : Tree) : Bytes :=
  let entries := (tree.entry root (.ofBytes checkoutDir)).elim [] tree.below
  let found := (flatpak.visit entries).filter fun entry =>
    entry.1.getLast?.any fun name => passes name entry.2
  commandSubstitution <| firstLine <| found.flatMap fun entry =>
    checkoutDir ++ slash :: [slash].intercalate entry.1 ++ [newline]

/-- `-type f` -/
def isRegular : Node → Bool
  | .file _ => true
  | _ => false

/-- `-name "libmimalloc.so*" -not -l` -/
def findMimalloc (tree : Tree) : Bytes :=
  if flatpak.hasLinkTest then
    findFirst root flatpak (fun name node =>
      globMatch (bytes "libmimalloc.so*") name && !(node matches .link _)) tree
  else []

/-- `rm -rf "${REPO_DIR}" "${CHECKOUT_DIR}"` -/
def removeBoth : Command Extracting := .act fun state =>
  { state with
    tree := (state.tree.rmRf root (.ofBytes repoDir)).rmRf root (.ofBytes checkoutDir) }

/-- Locate binaries. -/
def locateBinaries : Command Extracting := .act fun state =>
  { state with
    soberBin := findFirst root flatpak (fun name node =>
      name = bytes "sober" && isRegular node && name ≠ bytes "sober_services") state.tree
    soberServices := findFirst root flatpak (fun name node =>
      name = bytes "sober_services" && isRegular node) state.tree
    libloader := findFirst root flatpak (fun name _ => name = bytes "libloader.so") state.tree
    libbadcpu := findFirst root flatpak (fun name _ => name = bytes "libbadcpu.so") state.tree
    libmimalloc := findMimalloc root flatpak state.tree }

/-- What comes before the bundle is touched. -/
def checkArguments : Command Extracting := .block [
  .ifThen (.test fun _ => flatpak.flatpakFile = []) (.exit 1),
  .ifThen (.negate (.test fun state => state.tree.isFile root (.ofBytes flatpak.flatpakFile)))
    (.exit 1)]

/-- `mkdir -p "${REPO_DIR}"` -/
def makeRepo : Command Extracting := .simple fun state =>
  let tree := state.tree.mkdirP root (.ofBytes repoDir)
  ({ state with tree := tree }, if tree.isDirectory root (.ofBytes repoDir) then 0 else 1)

/-- Import the bundle, and find the ref of Sober. -/
def importBundle : Command Extracting := .block [
  elsewhere flatpak.initStatus,
  elsewhere flatpak.importStatus,
  .act fun state =>
    { state with
      soberRef := commandSubstitution (((linesOf flatpak.refs).find? namesSober).getD []) },
  .ifThen (.test fun state => state.soberRef = []) (.exit 1)]

/-- Check out files. -/
def checkOut : Command Extracting := .simple fun state =>
  match state.tree.entry root (.ofBytes checkoutDir) with
  | none => (state, 1)
  | some place =>
    let (files, status) := flatpak.checkout state.soberRef
    ({ state with tree := state.tree.putBelow place (([], .dir) :: files) }, status)

/-- The parts that a bundle has to have. -/
def requireParts : Command Extracting :=
  .forEach [Extracting.soberBin, Extracting.libloader, Extracting.libbadcpu] fun f =>
    .ifThen (.test fun state => f state = []) (.exit 1)

/-- `mkdir -p "${BUNDLE_DIR}/bin" "${BUNDLE_DIR}/libs"` -/
def makeBundleDirs : Command Extracting := .simple fun state =>
  let tree := (state.tree.mkdirP root (.relative bundleBin)).mkdirP root (.relative bundleLibs)
  ({ state with tree := tree },
    if tree.isDirectory root (.relative bundleBin) && tree.isDirectory root (.relative bundleLibs)
    then 0 else 1)

/-- All that comes before the copying. -/
def prepare : Command Extracting := .block [
  checkArguments root flatpak,
  removeBoth root,
  makeRepo root,
  importBundle flatpak,
  checkOut root flatpak,
  locateBinaries root flatpak,
  requireParts,
  makeBundleDirs root]

/-- `cp "${source}" "${BUNDLE_DIR}/…"` -/
def cpToBundle (source : Extracting → Bytes) (file : Path × Name) : Command Extracting :=
  onTree fun state =>
    state.tree.copyTo root (.ofBytes (source state)) (.relative (file.1 ++ [file.2]))

/-- `[ -n "${source}" ] && cp "${source}" "${BUNDLE_DIR}/…" || true` -/
def cpIfFound (source : Extracting → Bytes) (file : Path × Name) : Command Extracting :=
  .orTrue (.andThen (.test fun state => source state ≠ []) (cpToBundle root source file))

/-- Copy to `sober_bundle/`. -/
def copyParts : Command Extracting := .block [
  cpToBundle root Extracting.soberBin (Slot.bundled .sober).file,
  cpIfFound root Extracting.soberServices soberServices,
  cpToBundle root Extracting.libloader (Slot.bundled (.lib .loader)).file,
  cpToBundle root Extracting.libbadcpu (Slot.bundled (.lib .badcpu)).file,
  cpIfFound root Extracting.libmimalloc (Slot.bundled (.lib .mimalloc)).file]

/-- What `file` says of the binary that has been copied. -/
def fileOutput (state : Extracting) : Option Bytes :=
  (state.tree.contents root (.relative (bundleBin ++ [bytes "sober"]))).bind flatpak.file

/-- Clean up, and verify. -/
def finish : Command Extracting := .block [
  removeBoth root,
  .test fun state => state.tree.isDirectory root (.relative bundleBin) &&
    state.tree.isDirectory root (.relative bundleLibs),
  .test fun state => (fileOutput root flatpak state).isSome,
  .test fun state => (fileOutput root flatpak state).any fun text =>
    architectures.any fun word => grepMatches word text]

def extractSober : Command Extracting := .block [
  prepare root flatpak,
  copyParts root,
  finish root flatpak]

end Script

/-! ## What a run leaves alone -/

/-- The working copy is in neither of the directories that the script removes. -/
structure Apart (root : Path) : Prop where
  repo : ¬ [tmp, repoName] <+: root
  checkout : ¬ [tmp, checkoutName] <+: root

section Frame

variable {root : Path} {flatpak : Flatpak}

/-- What is below an entry of `/tmp` is not inside. -/
theorem not_prefix_of_inside {name : Name} {place : Path}
    (hname : name ∉ [bytes "sober_bundle", bytes "dist"]) (hroot : ¬ [tmp, name] <+: root)
    (hinside : Inside root place) : ¬ [tmp, name] <+: place := by
  intro hprefix
  rcases hinside with hfront | rfl | ⟨top, htop, habove⟩
  · exact hroot (List.IsPrefix.trans hprefix hfront)
  · exact absurd hprefix.length_le (by simp)
  · have htmp : tmp ∉ [bytes "sober_bundle", bytes "dist"] := by decide
    obtain ⟨rest, rfl⟩ := hprefix
    obtain ⟨more, hmore⟩ := habove
    -- The top stands first, second or later on the way to the place.
    rcases root with _ | ⟨first, _ | ⟨second, root⟩⟩
    · have hfirst : top = tmp := (List.cons.inj hmore).1
      exact htmp (hfirst ▸ htop)
    · have hsecond : top = name := (List.cons.inj (List.cons.inj hmore).2).1
      exact hname (hsecond ▸ htop)
    · obtain ⟨rfl, hlater⟩ := List.cons.inj hmore
      obtain ⟨rfl, -⟩ := List.cons.inj hlater
      exact hroot ⟨root, rfl⟩

/-- The working copy is one, and this is in its slots. -/
def Kept (root : Path) (store : Store Slot Bytes) (state : Extracting) : Prop :=
  Workplace root state.tree ∧ held root state.tree = store

variable {store : Store Slot Bytes} {state next : Extracting}

theorem Kept.congr (hkept : Kept root store state)
    (hsame : ∀ place, Inside root place → next.tree.node place = state.tree.node place) :
    Kept root store next :=
  ⟨hkept.1.congr hsame, (held_congr hsame).trans hkept.2⟩

/-- A directory of the script in `/tmp`. -/
structure Temporary (root : Path) (text : Bytes) (name : Name) : Prop where
  text : Pathname.ofBytes text = (Pathname.ofPath [tmp]).child name
  dots : ¬ IsDots name
  tops : name ∉ [bytes "sober_bundle", bytes "dist"]
  apart : ¬ [tmp, name] <+: root

theorem temporary_repo (hapart : Apart root) : Temporary root repoDir repoName :=
  ⟨by decide, by decide, by decide, hapart.repo⟩

theorem temporary_checkout (hapart : Apart root) : Temporary root checkoutDir checkoutName :=
  ⟨by decide, by decide, by decide, hapart.checkout⟩

variable {text : Bytes} {name : Name} {tree : Tree}

theorem Temporary.entry (htemporary : Temporary root text name) (hwork : Workplace root tree) :
    tree.entry root (.ofBytes text) = some [tmp, name] := by
  rw [htemporary.text]
  exact hwork.tmp.entry_child htemporary.dots

/-- `rm -rf` of one of the directories. -/
theorem Temporary.node_rmRf (htemporary : Temporary root text name) (hwork : Workplace root tree) :
    (tree.rmRf root (.ofBytes text)).node [tmp, name] = none ∧
      ∀ place, ¬ [tmp, name] <+: place →
        (tree.rmRf root (.ofBytes text)).node place = tree.node place := by
  have hnode := Tree.node_rmRf (htemporary.entry hwork)
  refine ⟨?_, fun place hplace => ?_⟩
  · rw [hnode, if_pos (List.prefix_refl _)]
  · rw [hnode, if_neg hplace]

theorem Temporary.kept_rmRf (htemporary : Temporary root text name)
    (hkept : Kept root store state) :
    Kept root store { state with tree := state.tree.rmRf root (.ofBytes text) } :=
  hkept.congr fun place hinside => (htemporary.node_rmRf hkept.1).2 place
    (not_prefix_of_inside htemporary.tops htemporary.apart hinside)

/-- The directory of the OSTree repository can be made. -/
def RepoGone (state : Extracting) : Prop := state.tree.ClearDir [tmp, repoName]

theorem kept_removeBoth (hapart : Apart root) (hkept : Kept root store state) (strict : Bool) :
    (Kept root store (removeBoth root strict state).state) ∧
      RepoGone (removeBoth root strict state).state := by
  rw [removeBoth, act, simple_state]
  have hrepo := (temporary_repo hapart).kept_rmRf hkept
  have hboth := (temporary_checkout hapart).kept_rmRf hrepo
  refine ⟨hboth, fun front name hfront => ?_⟩
  have hother : ¬ [tmp, checkoutName] <+: [tmp, repoName] := by decide
  have hgone : ((state.tree.rmRf root (.ofBytes repoDir)).rmRf root (.ofBytes checkoutDir)).node
      [tmp, repoName] = none := by
    rw [((temporary_checkout hapart).node_rmRf hrepo.1).2 _ hother]
    exact ((temporary_repo hapart).node_rmRf hkept.1).1
  rcases List.prefix_concat_iff.mp (show front ++ [name] <+: [tmp] ++ [repoName] from hfront) with
    heq | htmp
  · obtain ⟨rfl, hlast⟩ := List.append_inj' heq rfl
    rw [List.singleton_inj.mp hlast]
    exact ⟨by decide, .inl hgone⟩
  · exact ⟨(hboth.1.tmp front name htmp).1, .inr (hboth.1.tmp front name htmp).2⟩

theorem preserves_removeBoth (hapart : Apart root) :
    Preserves (Kept root store) (removeBoth root) :=
  fun strict _ hkept => (kept_removeBoth hapart hkept strict).1

theorem kept_makeRepo (hapart : Apart root) (hkept : Kept root store state)
    (hgone : RepoGone state) (strict : Bool) :
    Kept root store (makeRepo root strict state).state := by
  rw [makeRepo, simple_state]
  refine hkept.congr fun place hinside => ?_
  have hname : Pathname.ofBytes repoDir = .ofPath [tmp, repoName] := by decide
  rw [hname, (Tree.mkdirP_of_clear hgone).2]
  split
  · next hfront =>
      rcases List.prefix_concat_iff.mp (show place <+: [tmp] ++ [repoName] from hfront.2) with
        rfl | htmp
      · exact absurd (List.prefix_refl _)
          (not_prefix_of_inside (temporary_repo hapart).tops hapart.repo hinside)
      · rcases List.prefix_concat_iff.mp (show place <+: [] ++ [tmp] from htmp) with rfl | hnil
        · exact (hkept.1.tmp [] tmp (List.prefix_refl _)).2.symm
        · exact absurd (List.prefix_nil.mp hnil) hfront.1
  · rfl

theorem preserves_checkOut (hapart : Apart root) :
    Preserves (Kept root store) (checkOut root flatpak) := by
  apply preserves_simple
  intro state hkept
  rw [(temporary_checkout hapart).entry hkept.1]
  exact hkept.congr fun place hinside => Tree.node_putBelow
    (not_prefix_of_inside (temporary_checkout hapart).tops hapart.checkout hinside)

/-- The parts have been found, and there is where to copy them. -/
structure Ready (root : Path) (store : Store Slot Bytes) (state : Extracting) : Prop where
  kept : Kept root store state
  bin : state.tree.RealDir (root ++ bundleBin)
  libs : state.tree.RealDir (root ++ bundleLibs)
  /-- mimalloc is not among them. -/
  mimalloc : state.libmimalloc = []

theorem ready_makeBundleDirs (hkept : Kept root store state) (hmimalloc : state.libmimalloc = [])
    (strict : Bool) : Ready root store (makeBundleDirs root strict state).state := by
  have hbinDir : bundleBin ∈ directories := by decide
  have hlibsDir : bundleLibs ∈ directories := by decide
  have hbin := hkept.1.laid.real.mkdirP_relative bundleBin
  have hmade : Workplace root (state.tree.mkdirP root (.relative bundleBin)) := by
    rw [hbin]
    exact hkept.1.mkdirP hbinDir
  have hlibs := hmade.laid.real.mkdirP_relative bundleLibs
  rw [makeBundleDirs, simple_state]
  simp only [hlibs]
  constructor
  · refine ⟨hmade.mkdirP hlibsDir, ?_⟩
    rw [held_mkdirP hmade hlibsDir, hbin, held_mkdirP hkept.1 hbinDir, hkept.2]
  · apply Tree.RealDir.mkdirP _ (hmade.laid.clear _ hlibsDir)
    rw [hbin]
    exact hkept.1.laid.real_mkdirP hbinDir
  · exact hmade.laid.real_mkdirP hlibsDir
  · exact hmimalloc

theorem preserves_checkArguments : Preserves (Kept root store) (checkArguments root flatpak) :=
  preserves_block ⟨preserves_ifThen preserves_test (preserves_exit _),
    preserves_ifThen preserves_test.negate (preserves_exit _)⟩

theorem preserves_importBundle : Preserves (Kept root store) (importBundle flatpak) :=
  preserves_block ⟨preserves_simple fun _ hkept => hkept, preserves_simple fun _ hkept => hkept,
    preserves_act fun _ hkept => hkept, preserves_ifThen preserves_test (preserves_exit _)⟩

theorem preserves_requireParts {property : Extracting → Prop} :
    Preserves property requireParts :=
  preserves_forEach fun _ _ => preserves_ifThen preserves_test (preserves_exit _)

/-- Before the copying the working copy stays as it is. With a `find` that has no test `-l`
the script finds no mimalloc. -/
theorem ensures_prepare (hapart : Apart root) (hfind : flatpak.hasLinkTest = false) :
    Ensures true (Kept root store) (prepare root flatpak)
      ⟨Ready root store, Ready root store, Kept root store, Kept root store⟩ := by
  have hlocate : Ensures true (Kept root store) (locateBinaries root flatpak)
      (.always fun state => Kept root store state ∧ state.libmimalloc = []) := by
    apply Ensures.of_state
    intro state hkept
    rw [locateBinaries, act, simple_state]
    exact ⟨hkept, by simp [findMimalloc, hfind]⟩
  have hmake : Ensures true (fun state => Kept root store state ∧ state.libmimalloc = [])
      (makeBundleDirs root)
      ⟨Ready root store, Ready root store, Kept root store, Kept root store⟩ :=
    (Ensures.of_state fun _ hstate => ready_makeBundleDirs hstate.1 hstate.2 true).mono
      (fun _ hstate => hstate) (fun _ hready => hready) (fun _ hready => hready)
      (fun _ hready => hready.kept) (fun _ hready => hready.kept)
  have hremove : Ensures true (Kept root store) (removeBoth root)
      (.always fun state => Kept root store state ∧ RepoGone state) :=
    Ensures.of_state fun _ hkept => kept_removeBoth hapart hkept true
  have hrepo : Ensures true (fun state => Kept root store state ∧ RepoGone state) (makeRepo root)
      (.always (Kept root store)) :=
    Ensures.of_state fun _ hstate => kept_makeRepo hapart hstate.1 hstate.2 true
  apply Ensures.seq_always (Ensures.of_preserves preserves_checkArguments)
    (fun _ hkept => hkept) (fun _ hkept => hkept)
  apply Ensures.seq_always hremove (fun _ hkept => hkept.1) (fun _ hkept => hkept.1)
  apply Ensures.seq_always hrepo (fun _ hkept => hkept) (fun _ hkept => hkept)
  apply Ensures.seq_always (Ensures.of_preserves preserves_importBundle)
    (fun _ hkept => hkept) (fun _ hkept => hkept)
  apply Ensures.seq_always (Ensures.of_preserves (preserves_checkOut hapart))
    (fun _ hkept => hkept) (fun _ hkept => hkept)
  apply Ensures.seq_always hlocate (fun _ hkept => hkept.1) (fun _ hkept => hkept.1)
  exact Ensures.seq_always (Ensures.of_preserves preserves_requireParts)
    (fun _ hkept => hkept.1) (fun _ hkept => hkept.1) hmake

end Frame

/-! ## What a run copies -/

/-- The names that the script copies from. -/
def Extracting.names (state : Extracting) : List Bytes :=
  [state.soberBin, state.libloader, state.libbadcpu]

/-- No name that the script copies from leads to a file of the working copy. -/
def Extracting.Foreign (root : Path) (state : Extracting) : Prop :=
  ∀ name ∈ state.names, ∀ file ∈ plan.files,
    state.tree.locate root (.ofBytes name) ≠ some (Plan.placeOf root file)

/-- The bytes that a name leads to when the parts have been found. -/
def Extracting.fetch (root : Path) (found : Extracting) (name : Bytes) (slot : Slot) :
    Copy Slot Bytes where
  source := fun _ => found.tree.contents root (.ofBytes name)
  target := slot

/-- The copies of a run, from what it has found. -/
def Extracting.copies (root : Path) (found : Extracting) : List (Copy Slot Bytes) := [
  found.fetch root found.soberBin (.bundled .sober),
  found.fetch root found.libloader (.bundled (.lib .loader)),
  found.fetch root found.libbadcpu (.bundled (.lib .badcpu))]

section Copying

variable {root : Path} {flatpak : Flatpak}

/-- The copying is under way, from what has been found. -/
structure Copying (root : Path) (found state : Extracting) : Prop where
  bin : state.tree.RealDir (root ++ bundleBin)
  libs : state.tree.RealDir (root ++ bundleLibs)
  names : state = { found with tree := state.tree }
  reads : ∀ name ∈ found.names,
    state.tree.contents root (.ofBytes name) = found.tree.contents root (.ofBytes name)
  foreign : state.Foreign root
  mimalloc : found.libmimalloc = []

variable {found state : Extracting} {file : Path × Name} {data : Bytes}

/-- A file of the working copy makes no difference to what is copied. -/
theorem Copying.set_file (hcopying : Copying root found state) (hwork : Workplace root state.tree)
    (hfile : file ∈ plan.files) :
    Copying root found
      { state with tree := state.tree.set (Plan.placeOf root file) (.file data) } := by
  have hregular := hwork.laid.regular file hfile
  have hsame : state.names = found.names := by rw [hcopying.names]; rfl
  have hbin : bundleBin ∈ plan.directories := by decide
  have hlibs : bundleLibs ∈ plan.directories := by decide
  constructor
  · exact Plan.realDir_set_file hcopying.bin (Plan.not_prefix_placeOf hfile hbin)
  · exact Plan.realDir_set_file hcopying.libs (Plan.not_prefix_placeOf hfile hlibs)
  · conv_lhs => rw [hcopying.names]
  · intro name hname
    rw [Tree.contents_set_file hregular, hcopying.reads name hname]
    exact hcopying.foreign name (hsame ▸ hname) file hfile
  · intro name hname other hother
    change (state.tree.set _ _).locate _ _ ≠ _
    rw [Tree.locate_set_file hregular]
    exact hcopying.foreign name hname other hother
  · exact hcopying.mimalloc

/-- What the slots hold in a state of the script. -/
abbrev shelf (root : Path) (state : Extracting) : Store Slot Bytes := held root state.tree

/-- The working copy is one in this state. -/
abbrev InOrder (root : Path) (state : Extracting) : Prop := Workplace root state.tree

variable {source : Extracting → Bytes}

/-- What a copy to the bundle sets. -/
theorem copyTo_of_copying (hcopying : Copying root found state) (hwork : Workplace root state.tree)
    (hfile : file ∈ plan.files) (hreal : state.tree.RealDir (root ++ file.1)) {next : Tree}
    {name : Bytes}
    (hnext : state.tree.copyTo root (.ofBytes name) (.relative (file.1 ++ [file.2])) = some next) :
    ∃ data, state.tree.contents root (.ofBytes name) = some data ∧
      next = state.tree.set (Plan.placeOf root file) (.file data) ∧
      Workplace root next ∧ Copying root found { state with tree := next } := by
  rw [hwork.laid.copyTo_relative hfile hreal] at hnext
  split at hnext
  · cases hnext
  · obtain ⟨data, hdata, rfl⟩ := Option.map_eq_some_iff.mp hnext
    exact ⟨data, hdata, rfl, hwork.set_file hfile hreal, hcopying.set_file hwork hfile⟩

theorem delivers_cpToBundle {slot : Slot} (hname : source found ∈ found.names)
    (hsource : ∀ tree, source { found with tree := tree } = source found)
    (hreal : ∀ state, Copying root found state → state.tree.RealDir (root ++ slot.file.1)) :
    Delivers (shelf root) (InOrder root) (Copying root found) (Copying root found)
      (cpToBundle root source slot.file) [found.fetch root (source found) slot] := by
  apply delivers_attempt
  intro state hwork hcopying next hnext
  obtain ⟨tree, htree, rfl⟩ := Option.map_eq_some_iff.mp hnext
  obtain ⟨data, hdata, rfl, hwork', hcopying'⟩ :=
    copyTo_of_copying hcopying hwork (mem_files slot) (hreal state hcopying) htree
  have hsame : source state = source found := by
    rw [hcopying.names]
    exact hsource state.tree
  rw [hsame, hcopying.reads _ hname] at hdata
  exact ⟨data, hdata, ⟨hwork', hcopying'⟩, held_set_slot slot data⟩

/-- A file of the bundle that is in no slot. -/
theorem delivers_services :
    Delivers (shelf root) (InOrder root) (Copying root found) (Copying root found)
      (cpIfFound root Extracting.soberServices soberServices) [] := by
  apply delivers_of_preserves
  intro store
  have hfile : soberServices ∈ plan.files := by decide
  have hslots : ∀ slot ∈ slots, slot.file ≠ soberServices := by decide
  refine Preserves.orTrue (preserves_test.andThen (preserves_attempt ?_))
  rintro state next ⟨⟨hwork, hcopying⟩, rfl⟩ hnext
  obtain ⟨tree, htree, rfl⟩ := Option.map_eq_some_iff.mp hnext
  obtain ⟨data, -, rfl, hwork', hcopying'⟩ :=
    copyTo_of_copying hcopying hwork hfile hcopying.bin htree
  exact ⟨⟨hwork', hcopying'⟩, held_set_other hslots⟩

/-- mimalloc has not been found, so it is not copied. -/
theorem delivers_mimalloc :
    Delivers (shelf root) (InOrder root) (Copying root found) (Copying root found)
      (cpIfFound root Extracting.libmimalloc (Slot.bundled (.lib .mimalloc)).file) [] := by
  rintro store state ⟨⟨hwork, hcopying⟩, hheld⟩
  have hnone : state.libmimalloc = [] := by
    rw [hcopying.names]
    exact hcopying.mimalloc
  have hskips : cpIfFound root Extracting.libmimalloc (Slot.bundled (.lib .mimalloc)).file true
      state = .done 0 state := by
    simp [cpIfFound, orTrue, orElse, andThen, hnone, skip_eq]
  rw [hskips]
  exact ⟨⟨hwork, hcopying⟩, hheld, rfl⟩

theorem delivers_copyParts :
    Delivers (shelf root) (InOrder root) (Copying root found) (Copying root found)
      (copyParts root) (found.copies root) := by
  have hsober := @delivers_cpToBundle root found Extracting.soberBin (.bundled .sober)
    (by simp [Extracting.names]) (fun _ => rfl) fun _ hcopying => hcopying.bin
  have hloader := @delivers_cpToBundle root found Extracting.libloader (.bundled (.lib .loader))
    (by simp [Extracting.names]) (fun _ => rfl) fun _ hcopying => hcopying.libs
  have hbadcpu := @delivers_cpToBundle root found Extracting.libbadcpu (.bundled (.lib .badcpu))
    (by simp [Extracting.names]) (fun _ => rfl) fun _ hcopying => hcopying.libs
  exact hsober.seq (delivers_services.seq (hloader.seq (hbadcpu.seq delivers_mimalloc)))

theorem delivers_finish (hapart : Apart root) :
    Delivers (shelf root) (InOrder root) (fun _ => True) (fun _ => True) (finish root flatpak)
      [] := by
  apply delivers_of_preserves
  rintro store strict state ⟨⟨hwork, -⟩, hheld⟩
  have hpreserves : Preserves (Kept root store) (finish root flatpak) :=
    preserves_block ⟨preserves_removeBoth hapart, preserves_test, preserves_test, preserves_test⟩
  obtain ⟨hwork', hheld'⟩ := hpreserves strict state ⟨hwork, hheld⟩
  exact ⟨⟨hwork', trivial⟩, hheld'⟩

/-- What a run of the script does to the working copy: the parts that have been found come
into the bundle, sober first, and a run that goes to its end has brought all of them. -/
theorem meets_extractSober (hapart : Apart root) (hfind : flatpak.hasLinkTest = false)
    {start : Extracting} (hwork : Workplace root start.tree)
    (hforeign : (prepare root flatpak true start).state.Foreign root) :
    (extractSober root flatpak true start).Meets
      (.copies (shelf root) (InOrder root)
        ((prepare root flatpak true start).state.copies root) (shelf root start)) := by
  let found := (prepare root flatpak true start).state
  let goal := Goal.copies (shelf root) (InOrder root) (found.copies root) (shelf root start)
  have hbegins : Ensures true (· = start) (prepare root flatpak)
      ⟨fun state => Ready root (shelf root start) state ∧ state = found,
        fun state => Ready root (shelf root start) state ∧ state = found,
        goal.out, goal.ends⟩ := by
    rintro state rfl
    have hprepare := ensures_prepare hapart hfind state ⟨hwork, rfl⟩
    exact (@Outcome.Meets.and _ _ (· = found) _ hprepare rfl).mono (fun _ hready => hready)
      (fun _ hready => hready) (fun _ hkept => ⟨hkept.1.1, 0, hkept.1.2⟩)
      (fun _ hkept => ⟨hkept.1.1, 0, hkept.1.2⟩)
  have hrest : Delivers (shelf root) (InOrder root) (Copying root found) (fun _ => True)
      (block [copyParts root, finish root flatpak]) (found.copies root) :=
    delivers_copyParts.seq ((delivers_finish hapart).mono (fun _ _ => trivial) fun _ _ => trivial)
  have hcopies : Ensures true (fun state => Ready root (shelf root start) state ∧ state = found)
      (block [copyParts root, finish root flatpak]) goal := by
    rintro state ⟨hready, rfl⟩
    have hcopying : Copying root found found :=
      ⟨hready.bin, hready.libs, rfl, fun _ _ => rfl, hforeign, hready.mimalloc⟩
    have hmeets := hrest.meets hready.kept.1 hcopying
    rwa [show shelf root found = shelf root start from hready.kept.2] at hmeets
  exact Ensures.seq hbegins hcopies hcopies start rfl

end Copying

end TizenRoblox.Release
