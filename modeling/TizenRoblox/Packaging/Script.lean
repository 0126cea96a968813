/-
# The packaging script

`package_tpk.sh` builds the directory of the application anew, `APP_DIR`, and packs it into
`tizenroblox.tpk`. With the Tizen command line tools and a certificate profile `tizen`
makes a signed package, which takes the place of the old one; otherwise `zip` adds the
directory to the package that is there.

The package is kept apart from the file tree: nothing that is staged is read from it.
File modes and the lines printed are left out.
-/

import TizenRoblox.Foundation.Archive
import TizenRoblox.Posix.Subtree
import TizenRoblox.Shell.Glob
import TizenRoblox.Shell.Logic

namespace TizenRoblox.Packaging

open TizenRoblox.Foundation TizenRoblox.Posix TizenRoblox.Shell TizenRoblox.Shell.Command
open TizenRoblox.Shell.Glob

/-! ## Packages -/

/-- What a name in an archive stands for. -/
abbrev Entries := Archive Bytes Node

/-- What is under the name of the package. -/
inductive Package
  | archive (entries : Entries)
  /-- A file that `zip` cannot read as an archive. -/
  | unreadable
  deriving DecidableEq

/-- The name that `zip` gives to what lies on a way: that of a directory ends in a slash. -/
def entryName (way : Path) : Node → Bytes
  | .dir => [slash].intercalate way ++ [slash]
  | _ => [slash].intercalate way

/-- `zip -y` stores directories, files and links; special files it skips. -/
def isStored : Node → Bool
  | .dir | .file _ | .link _ => true
  | .socket | .charDevice => false

/-- What `zip -ry` adds to an archive for a directory. -/
def entriesBelow (tree : Tree) (top : Path) : Entries :=
  ((tree.below top).filter fun entry => isStored entry.2).map fun entry =>
    (entryName entry.1 entry.2, entry.2)

/-- The package after `zip -r` has added some entries. -/
def zipped (added : Entries) : Option Package → Option Package
  | none => some (.archive added)
  | some (.archive found) => some (.archive (found.update added))
  | some .unreadable => none

/-! ## The script -/

/-- The host on which the script runs. -/
structure Host where
  /-- The directory of the repository, in which the script runs. -/
  root : Path
  /-- The first argument. -/
  certProfile : Bytes
  /-- What `scripts/build.sh` makes of the tree, and its status. -/
  build : Tree → Tree × ℕ
  globbing : Globbing
  /-- `python3` can be run. -/
  hasPython : Bool
  /-- What `tizen package` leaves as `*.tpk` in the directory of the application, and its
  status, for a profile and a tree; `none` without the Tizen command line tools. -/
  tizen : Option (Bytes → Tree → List Package × ℕ)
  /-- A `zip` that fails leaves this instead of the package. -/
  zipFailure : Option (Option Package)

/-- What the commands before the package work on. -/
structure Staging where
  tree : Tree
  /-- `MIMALLOC_SRC` -/
  mimallocSrc : Bytes

structure State where
  tree : Tree
  /-- What is under the name `tizenroblox.tpk`. -/
  package : Option Package

def distDir : Bytes := bytes "dist"
def pkgDir : Bytes := bytes "pkg_work"
def outputTpk : Bytes := bytes "tizenroblox.tpk"
def appId : Bytes := bytes "org.tizenroblox.app"
def appDir : Bytes := pkgDir ++ bytes "/" ++ appId

/-- `sed "s|old|new|g"` for texts without special characters. The number counts the bytes
that belong to an occurrence before. -/
def replaceFrom (old new : Bytes) : ℕ → Bytes → Bytes
  | _, [] => []
  | skipped + 1, _ :: rest => replaceFrom old new skipped rest
  | 0, byte :: rest =>
    if old.isPrefixOf (byte :: rest) then new ++ replaceFrom old new (old.length - 1) rest
    else byte :: replaceFrom old new 0 rest

def replaceAll (old new text : Bytes) : Bytes := replaceFrom old new 0 text

/-- The bytes of the placeholder icon, decoded. -/
def png : Bytes := [
  137, 80, 78, 71, 13, 10, 26, 10, 0, 0, 0, 13, 73, 72, 68, 82, 0, 0, 0, 1, 0, 0, 0, 1, 8, 6, 0,
  0, 0, 31, 21, 196, 137, 0, 0, 0, 13, 73, 68, 65, 84, 8, 215, 99, 96, 96, 96, 96, 0, 0, 5, 2, 4,
  0, 0, 0, 0, 0, 0, 0, 0, 0, 0, 0, 0, 0, 0, 0, 0, 0, 0, 0, 0, 0, 0, 0, 0, 0]

section Script

variable (host : Host)

/-- A command that changes the tree and has a status. -/
def treeStep (run : Tree → Tree × ℕ) : Command Staging := .simple fun staging =>
  ({ staging with tree := (run staging.tree).1 }, (run staging.tree).2)

/-- A command that changes the tree, or fails and leaves it. -/
def onTree (run : Staging → Option Tree) : Command Staging := .attempt fun staging =>
  (run staging).map fun tree => { staging with tree := tree }

/-- `[ -f name ]` -/
def testF (name : Bytes) : Command Staging := .test fun staging =>
  staging.tree.isFile host.root (.ofBytes name)

/-- `mkdir -p directory` -/
def mkdirP (directory : Bytes) : Command Staging := treeStep fun tree =>
  let next := tree.mkdirP host.root (.ofBytes directory)
  (next, if next.isDirectory host.root (.ofBytes directory) then 0 else 1)

/-- `rm -rf name` -/
def rmRf (name : Bytes) : Command Staging :=
  .act fun staging => { staging with tree := staging.tree.rmRf host.root (.ofBytes name) }

/-- `cp source directory` -/
def cp (source : Staging → Bytes) (directory : Bytes) : Command Staging :=
  onTree fun staging => staging.tree.cp host.root (.ofBytes (source staging)) (.ofBytes directory)

/-- A command in the directory of a name. -/
def inside (name : Bytes) (run : Path → Tree → Option Tree) : Command Staging :=
  onTree fun staging =>
    if staging.tree.isDirectory host.root (.ofBytes name) then
      (staging.tree.locate host.root (.ofBytes name)).bind fun cwd => run cwd staging.tree
    else none

/-- Build first if needed. -/
def buildFirst : Command Staging :=
  .ifThen (.negate (testF host (distDir ++ bytes "/bin/sober"))) (treeStep host.build)

/-- Create package structure. -/
def createStructure : Command Staging := .block [
  rmRf host pkgDir,
  mkdirP host (appDir ++ bytes "/bin"),
  mkdirP host (appDir ++ bytes "/lib"),
  mkdirP host (appDir ++ bytes "/data"),
  mkdirP host (appDir ++ bytes "/res")]

/-- Copy binaries. -/
def copyBinaries : Command Staging := .block [
  cp host (fun _ => distDir ++ bytes "/bin/sober") (appDir ++ bytes "/bin/"),
  .orTrue (cp host (fun _ => distDir ++ bytes "/bin/input_mapper") (appDir ++ bytes "/bin/")),
  cp host (fun _ => distDir ++ bytes "/bin/launch.sh") (appDir ++ bytes "/bin/")]

/-- `[ -f source ] && cp source directory || true` -/
def cpIfThere (source directory : Bytes) : Command Staging :=
  .orTrue (.andThen (testF host source) (cp host (fun _ => source) directory))

/-- Sober bundled libs — must be beside the sober binary. -/
def copyBundled : Command Staging :=
  .forEach [bytes "libloader.so", bytes "libbadcpu.so"] fun f => .block [
    cpIfThere host (distDir ++ bytes "/bin/" ++ f) (appDir ++ bytes "/bin/"),
    cpIfThere host (bytes "sober_bundle/libs/" ++ f) (appDir ++ bytes "/bin/")]

/-- `MIMALLOC_SRC=source` -/
def setMimallocSrc (source : Bytes) : Command Staging :=
  .act fun staging => { staging with mimallocSrc := source }

def mimallocDir : Bytes := appDir ++ bytes "/bin/subprojects/mimalloc"
def distMimalloc : Bytes := distDir ++ bytes "/bin/subprojects/mimalloc/libmimalloc.so.3"
def bundleMimalloc : Bytes := bytes "sober_bundle/libs/libmimalloc.so.3"

/-- mimalloc lives in a directory of its own. -/
def copyMimalloc : Command Staging := .block [
  mkdirP host mimallocDir,
  setMimallocSrc [],
  .andThen (testF host distMimalloc) (setMimallocSrc distMimalloc),
  .andThen (.andThen (.test fun staging => staging.mimallocSrc = []) (testF host bundleMimalloc))
    (setMimallocSrc bundleMimalloc),
  .ifThen (.test fun staging => staging.mimallocSrc ≠ []) <| .block [
    cp host Staging.mimallocSrc (mimallocDir ++ bytes "/"),
    .orTrue <| inside host mimallocDir fun cwd tree =>
      tree.lnSf cwd (.here (bytes "libmimalloc.so.3")) (.here (bytes "libmimalloc.so"))]]

/-- The tree after `cp -a` has copied what it can to `lib/`. -/
def copiedAll (sources : List Bytes) (tree : Tree) : Tree :=
  sources.foldl (fun tree source =>
    (tree.cpA host.root (.ofBytes source) (.ofBytes (appDir ++ bytes "/lib/"))).getD tree) tree

/-- Copy stub/shim libraries (preserve symlinks). What the status of `cp` would be is not
asked. -/
def copyLibraries : Command Staging := .orTrue <| treeStep fun tree =>
  (copiedAll host (host.globbing.expand tree host.root (distDir ++ bytes "/lib/*.so*")) tree, 0)

/-- Diagnostic script -/
def copyDiagnose : Command Staging := .block [
  mkdirP host (appDir ++ bytes "/scripts"),
  .orTrue (cp host (fun _ => bytes "scripts/diagnose.sh") (appDir ++ bytes "/scripts/"))]

def manifest : Bytes := appDir ++ bytes "/tizen-manifest.xml"

/-- Copy manifest, and update its paths. -/
def copyManifest : Command Staging := .block [
  cp host (fun _ => bytes "tizen/pkg/tizen-manifest.xml") (appDir ++ bytes "/"),
  .orTrue <| onTree fun staging => staging.tree.sedI host.root (.ofBytes manifest) <|
    replaceAll (bytes "/opt/tizenroblox/bin") (bytes "/opt/usr/apps/" ++ appId ++ bytes "/bin")]

def icons : List Bytes := [
  appDir ++ bytes "/res/tizenroblox-86x86.png", appDir ++ bytes "/res/tizenroblox.png"]

/-- Write the icons one after the other, up to the first that cannot be written. -/
def writeIcons : List Bytes → Tree → Tree × ℕ
  | [], tree => (tree, 0)
  | icon :: rest, tree =>
    match tree.write host.root (.ofBytes icon) png with
    | none => (tree, 1)
    | some next => writeIcons rest next

/-- `touch icons`, in the other order. -/
def touchIcons : List Bytes → Tree → Tree × ℕ
  | [], tree => (tree, 0)
  | icon :: rest, tree =>
    match tree.touch host.root (.ofBytes icon) with
    | none => ((touchIcons rest tree).1, 1)
    | some next => touchIcons rest next

/-- Placeholder icon -/
def placeholderIcon : Command Staging :=
  .orElse (treeStep fun tree => if host.hasPython then writeIcons host icons tree else (tree, 127))
    (treeStep (touchIcons host icons.reverse))

/-- All that comes before the package. -/
def stage : Command Staging := .block [
  buildFirst host,
  createStructure host,
  copyBinaries host,
  copyBundled host,
  copyMimalloc host,
  copyLibraries host,
  copyDiagnose host,
  copyManifest host,
  placeholderIcon host]

/-- The entries of `APP_DIR`, in a tree in which it is a directory. -/
def appEntries (tree : Tree) : Entries :=
  ((tree.locate host.root (.ofBytes appDir)).map (entriesBelow tree)).getD []

/-- Use Tizen Studio CLI for signing. -/
def signedPackage (tizen : Bytes → Tree → List Package × ℕ) : Command State := .block [
  .simple fun state => (state, (tizen host.certProfile state.tree).2),
  -- `mv` takes a single `*.tpk`, and there is nothing else under its pattern.
  .attempt fun state =>
    match (tizen host.certProfile state.tree).1 with
    | [package] => some { state with package := some package }
    | _ => none]

/-- Unsigned package (dev sideloading): `(cd "${APP_DIR}" && zip -ry … .)` -/
def unsignedPackage : Command State := .simple fun state =>
  if state.tree.isDirectory host.root (.ofBytes appDir) then
    match host.zipFailure, zipped (appEntries host state.tree) state.package with
    | some left, _ => ({ state with package := left }, 1)
    | none, none => (state, 3)
    | none, some package => ({ state with package := some package }, 0)
  else (state, 1)

/-- The command that makes the package. -/
def makePackage : Command State :=
  match host.tizen with
  | some tizen =>
    .ifElse (.test fun _ => host.certProfile ≠ []) (signedPackage host tizen) (unsignedPackage host)
  | none => unsignedPackage host

/-- A command that leaves the package alone. -/
def onFiles (command : Command Staging) : Command State := fun strict state =>
  (command strict ⟨state.tree, []⟩).map fun staging => { state with tree := staging.tree }

def packageTpk : Command State := .block [
  onFiles (stage host),
  makePackage host,
  onFiles (rmRf host pkgDir)]

end Script

end TizenRoblox.Packaging
