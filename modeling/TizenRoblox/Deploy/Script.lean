/-
# The deployment script

`deploy.sh` runs on a host and works on the TV through `ssh` and `scp`. What it
changes there is the file tree; each `ssh` runs a script of its own, in which a
failing command does not end anything. `scp` follows the links it finds at its
destinations: it opens the file a name leads to and rewrites it.

A connection that stands at the first test stands to the end. The preparation of
`dist/`, file modes, the lines printed and the verification at the end, which
change no file, are left out.
-/

import TizenRoblox.Deploy.Soname
import TizenRoblox.Shell.Command

namespace TizenRoblox.Deploy

open TizenRoblox.Foundation TizenRoblox.Posix TizenRoblox.Shell TizenRoblox.Shell.Command

/-- A shell pattern matches a file of a directory listing. -/
def isListed (pattern name : Bytes) : Bool :=
  name.head? ≠ some 46 && globMatch pattern name

/-- The host and what its `dist/` holds; a file that is missing is `none`. -/
structure Host where
  /-- Whether the TV can be reached. -/
  connected : Bool
  /-- The directory in which a remote script starts. -/
  home : Path
  sober : Option Bytes
  inputMapper : Option Bytes
  launchScript : Option Bytes
  libloader : Option Bytes
  libbadcpu : Option Bytes
  mimalloc : Option Bytes
  diagnose : Option Bytes
  /-- The files that `dist/lib/*.so*` leads to, in the order of their names. -/
  libs : List (Name × Bytes)
  libs_listed : ∀ lib ∈ libs, isListed libraryPattern lib.1 = true
  libs_nodup : (libs.map Prod.fst).Nodup

/-- `INSTALL_DIR` -/
def installDir : Bytes := bytes "/opt/tizenroblox"

def binDir : Pathname := .ofBytes (installDir ++ bytes "/bin/")
def libDir : Pathname := .ofBytes (installDir ++ bytes "/lib/")
def dataDir : Pathname := .ofBytes (installDir ++ bytes "/data/.local/share/sober")
def logsDir : Pathname := .ofBytes (installDir ++ bytes "/logs")
def scriptsDir : Pathname := .ofBytes (installDir ++ bytes "/scripts/")
def mimallocDir : Pathname := .ofBytes (installDir ++ bytes "/bin/subprojects/mimalloc/")

/-- `mkdir -p directory` -/
def mkdirP (directory : Pathname) : Command Tree := .simple fun tree =>
  let next := tree.mkdirP [] directory
  (next, if next.isDirectory [] directory then 0 else 1)

/-- The tree after a file has been copied into a directory. -/
def copied (directory : Pathname) (name : Name) (data : Bytes) (tree : Tree) : Option Tree :=
  if tree.isDirectory [] directory then tree.write [] (directory.child name) data else none

/-- `scp file tv:directory/` -/
def scp (directory : Pathname) (name : Name) (file : Option Bytes) : Command Tree :=
  .attempt fun tree => file.bind fun data => copied directory name data tree

/-- The tree after a list of files has been copied: one that cannot be copied is
left out. -/
def copiedAll (directory : Pathname) : List (Name × Bytes) → Tree → Tree
  | [], tree => tree
  | lib :: rest, tree =>
      copiedAll directory rest ((copied directory lib.1 lib.2 tree).getD tree)

/-- `scp dist/lib/*.so* tv:lib/`; what its status would be is not asked. -/
def scpLibs (libs : List (Name × Bytes)) : Command Tree :=
  .orTrue (.act (copiedAll libDir libs))

/-- One turn of the loop over the libraries, in the directory it runs in. -/
def linkSoname (cwd : Path) (f : Name) : Command Tree := fun strict tree =>
  let soname := sonameOf (echoWords (tree.children cwd) f)
  orTrue (andThen (test fun tree => !tree.isLink cwd (.here soname))
    (attempt fun tree => tree.lnSf cwd (.here f) (.here soname))) strict tree

/-- Where a remote script is after `cd ${INSTALL_DIR}/lib`. -/
def workingDirectory (home : Path) (tree : Tree) : Path :=
  if tree.isDirectory [] libDir then (tree.locate [] libDir).getD home else home

/-- The loop `for f in *.so.*`. -/
def sonameLinks (home : Path) : Command Tree := fun strict tree =>
  let cwd := workingDirectory home tree
  forEach (expandWord (tree.children cwd) versionPattern) (linkSoname cwd) strict tree

section Script

variable (host : Host)

/-- `mkdir -p` of the installation's directories. -/
def makeDirectories : Command Tree := .subshell <| .block [
  mkdirP binDir, mkdirP libDir, mkdirP dataDir, mkdirP logsDir]

/-- The files of `bin/`. -/
def copyBinaries : Command Tree := .block [
  scp binDir (bytes "sober") host.sober,
  .orTrue (scp binDir (bytes "input_mapper") host.inputMapper),
  scp binDir (bytes "launch.sh") host.launchScript,
  .forEach [(bytes "libloader.so", host.libloader), (bytes "libbadcpu.so", host.libbadcpu)]
    fun lib => .andThen (.test fun _ => lib.2.isSome) (scp binDir lib.1 lib.2),
  .ifThen (.test fun _ => host.mimalloc.isSome) <| .block [
    .subshell (mkdirP mimallocDir),
    scp mimallocDir (bytes "libmimalloc.so.3") host.mimalloc]]

def copyScripts : Command Tree := .block [
  .subshell (mkdirP scriptsDir),
  scp scriptsDir (bytes "diagnose.sh") host.diagnose]

/-- The libraries, and the links under their sonames. -/
def copyLibraries : Command Tree := .block [
  scpLibs host.libs,
  .subshell (sonameLinks host.home)]

def deploy : Command Tree := .block [
  .ifThen (.test fun _ => host.sober.isNone) (.exit 1),
  .orElse (.test fun _ => host.connected) (.exit 1),
  makeDirectories,
  copyBinaries host,
  copyScripts host,
  copyLibraries host]

/-- The tree after a run of the script under `set -e`. -/
def deployed (tree : Tree) : Tree := (deploy host true tree).state

end Script

end TizenRoblox.Deploy
