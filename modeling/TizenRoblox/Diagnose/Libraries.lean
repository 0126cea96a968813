/-
# What the diagnostic says of a library

`diagnose.sh` tells, before a launch, which libraries the TV has: `find_lib` goes
through a list of directories of its own and then asks the cache of the loader. The
launcher looks in other places, and the loader in the directories of
`LD_LIBRARY_PATH`. The diagnostic is right about a library exactly if it is neither
misled, by a link to nothing or a file where the launcher does not look, nor
overlooks what the launcher or the loader finds elsewhere (`right_iff`).
-/

import TizenRoblox.Launcher.Reaching
import TizenRoblox.Shell.Text

namespace TizenRoblox.Diagnose

open TizenRoblox.Foundation TizenRoblox.Posix TizenRoblox.Shell TizenRoblox.Shell.Command
open TizenRoblox.Launcher

/-! ## `find_lib` -/

/-- A line of `ldconfig -p`: a tab, a soname, and what else is known of the library. -/
structure CacheLine where
  soname : Bytes
  details : Bytes
  plain : ∀ byte ∈ soname ++ details, byte ≠ nul ∧ byte ≠ newline

def CacheLine.text (line : CacheLine) : Bytes := tab :: (line.soname ++ line.details)

section FindLib

variable (cwd : Path) (tree : Tree) (cache : List CacheLine) (installDir soname : Bytes)

/-- The directories of `find_lib`. -/
def findDirectories : List Bytes := [
  installDir ++ bytes "/lib",
  bytes "/usr/lib/aarch64-linux-gnu",
  bytes "/usr/lib64",
  bytes "/usr/lib",
  bytes "/lib/aarch64-linux-gnu",
  bytes "/lib",
  bytes "/usr/lib/tizen",
  bytes "/opt/tizen/usr/lib"]

/-- `"${dir}/${SONAME}"` is a regular file or a link. -/
def taken (dir : Bytes) : Bool :=
  tree.isFile cwd (.ofBytes (inLibDir dir soname)) ||
    tree.isLink cwd (.ofBytes (inLibDir dir soname))

/-- `/sbin/ldconfig -p | grep " ${SONAME}" | awk '{print $NF}' | head -1` -/
def askCache : Bytes :=
  match cache.find? fun line => grepMatches (blank :: soname) line.text with
  | some line => lastField line.text ++ [newline]
  | none => []

/-- What `find_lib SONAME` prints. -/
def findLib : Bytes :=
  match (findDirectories installDir).find? (taken cwd tree soname) with
  | some dir => echoOutput (inLibDir dir soname)
  | none => askCache cache soname

/-- `path=$(find_lib "${lib}")`, and `[ -n "${path}" ]` -/
def Reported : Prop := commandSubstitution (findLib cwd tree cache installDir soname) ≠ []

instance : Decidable (Reported cwd tree cache installDir soname) :=
  inferInstanceAs (Decidable (¬ _ = _))

/-- A line of the cache lets the search for the soname succeed. -/
def Cached : Prop := ∃ line ∈ cache, grepMatches (blank :: soname) line.text = true

/-- One of the directories has the name. -/
def Taken : Prop := ∃ dir ∈ findDirectories installDir, taken cwd tree soname dir = true

instance : Decidable (Cached cache soname) := inferInstanceAs (Decidable (∃ _ ∈ _, _))

instance : Decidable (Taken cwd tree installDir soname) :=
  inferInstanceAs (Decidable (∃ _ ∈ _, _))

end FindLib

section Reports

variable {cwd : Path} {tree : Tree} {cache : List CacheLine} {installDir soname : Bytes}

theorem askCache_ne_nil_iff (hlib : bytes "lib" <+: soname) :
    commandSubstitution (askCache cache soname) ≠ [] ↔ Cached cache soname := by
  unfold askCache
  cases hline : cache.find? fun line => grepMatches (blank :: soname) line.text with
  | none =>
      simp only [List.find?_eq_none] at hline
      simpa [commandSubstitution, Cached] using hline
  | some line =>
      have hmatches : grepMatches (blank :: soname) line.text = true := by
        simpa using List.find?_some hline
      have hfirst : (108 : UInt8) ∈ line.text :=
        mem_of_grepMatches (List.mem_cons_of_mem _ (hlib.subset (by decide))) (by decide) hmatches
      have hplain : ∀ byte ∈ lastField line.text, byte ≠ nul ∧ byte ≠ newline := by
        intro byte hbyte
        rcases List.mem_cons.mp (lastField_subset _ hbyte) with rfl | hbyte
        · decide
        · exact line.plain byte hbyte
      simp only [commandSubstitution_echo (fun hnul => (hplain _ hnul).1 rfl)
        (fun hnewline => (hplain _ hnewline).2 rfl)]
      exact iff_of_true (lastField_ne_nil hfirst (by decide))
        ⟨line, List.mem_of_find?_eq_some hline, hmatches⟩

/-- A path is echoed, and not cut to nothing. -/
private theorem echo_inLibDir_ne_nil (dir soname : Bytes) :
    commandSubstitution (echoOutput (inLibDir dir soname)) ≠ [] := by
  have hslash : slash ∈ inLibDir dir soname := by simp [inLibDir]
  have hkept : slash ∈ commandSubstitution (inLibDir dir soname ++ [newline]) :=
    mem_commandSubstitution (List.mem_append_left _ hslash) (by decide) (by decide)
  rw [echoOutput_of_word (isEchoOption_of_slash hslash)]
  exact List.ne_nil_of_mem hkept

/-- The diagnostic reports a library that a directory or the cache has. -/
theorem reported_iff (hlib : bytes "lib" <+: soname) :
    Reported cwd tree cache installDir soname ↔
      Taken cwd tree installDir soname ∨ Cached cache soname := by
  unfold Reported findLib
  cases hdir : (findDirectories installDir).find? (taken cwd tree soname) with
  | some dir =>
      have htaken : Taken cwd tree installDir soname :=
        ⟨dir, List.mem_of_find?_eq_some hdir, List.find?_some hdir⟩
      exact iff_of_true (echo_inLibDir_ne_nil dir soname) (.inl htaken)
  | none =>
      have hnot : ¬ Taken cwd tree installDir soname := by
        rintro ⟨dir, hmem, htaken⟩
        exact List.find?_eq_none.mp hdir dir hmem htaken
      simp only [hnot, false_or]
      exact askCache_ne_nil_iff hlib

end Reports

/-! ## The search of the loader -/

section Loader

variable (world : World) (installDir : Bytes) (state : State) (lookup : Lookup)

/-- The directories of `LD_LIBRARY_PATH`, as the launcher sets it: they are separated by
colons or semicolons. -/
def loaderDirectories : List Bytes :=
  ((libraryPath world installDir (libDirOf installDir) true state).state.get
    "LD_LIBRARY_PATH").splitOnP (· ∈ bytes ":;")

/-- The file the loader looks for in a directory; an empty entry is the working
directory. -/
def loaderFile (dir soname : Bytes) : Bytes :=
  inLibDir (if dir = [] then bytes "." else dir) soname

/-- The first directory in which the loader finds a regular file of that name. -/
def loaderSearch (tree : Tree) (soname : Bytes) : Option Bytes :=
  (loaderDirectories world installDir state).find? fun dir =>
    tree.isFile world.cwd (.ofBytes (loaderFile dir soname))

/-- After the launcher's call for a library, the loader finds it. -/
def Reachable : Prop :=
  (loaderSearch world installDir state
    (lookup.command world (libDirOf installDir) true state).state.tree lookup.soname).isSome = true

instance : Decidable (Reachable world installDir state lookup) :=
  inferInstanceAs (Decidable (_ = _))

/-- After the call a name will lead to a regular file. A call whose line the log does not
take makes no link. -/
def willHave (name : Pathname) : Bool :=
  if world.logOk state.trace then lookup.willLead world (libDirOf installDir) state.tree name
  else state.tree.isFile world.cwd name

/-- Before the call, one of the directories has the library or will have it over the
link that the call makes. -/
def WillBeReachable : Prop :=
  ∃ dir ∈ loaderDirectories world installDir state,
    willHave world installDir state lookup (.ofBytes (loaderFile dir lookup.soname)) = true

instance : Decidable (WillBeReachable world installDir state lookup) :=
  inferInstanceAs (Decidable (∃ _ ∈ _, _))

theorem reachable_iff
    (habsolute : ∀ candidate ∈ lookup.candidates, (Pathname.ofBytes candidate).absolute = true) :
    Reachable world installDir state lookup ↔ WillBeReachable world installDir state lookup := by
  unfold Reachable WillBeReachable loaderSearch willHave
  rw [List.find?_isSome, Lookup.command_tree]
  cases world.logOk state.trace with
  | true => simp only [if_true, Lookup.isFile_linked_eq habsolute]
  | false => simp only [Bool.false_eq_true, if_false]

end Loader

/-! ## When the diagnostic is right -/

/-- The sonames that the diagnostic looks up. -/
def diagnosedSonames : List Bytes := [
  bytes "libwayland-client.so.0", bytes "libwayland-egl.so.1", bytes "libwayland-cursor.so.0",
  bytes "libxkbcommon.so.0",
  bytes "libEGL.so.1", bytes "libGLESv2.so.2",
  bytes "libasound.so.2", bytes "libpulse.so.0",
  bytes "libdbus-1.so.3",
  bytes "libc.so.6", bytes "libm.so.6", bytes "libz.so.1", bytes "libgcc_s.so.1"]

/-- The lookups of the launcher for them. -/
def sharedLookups : List Lookup :=
  launcherLookups.filter fun lookup => lookup.soname ∈ diagnosedSonames

example : sharedLookups.map Lookup.soname = [
    bytes "libwayland-client.so.0", bytes "libwayland-egl.so.1", bytes "libwayland-cursor.so.0",
    bytes "libxkbcommon.so.0", bytes "libasound.so.2", bytes "libpulse.so.0",
    bytes "libdbus-1.so.3", bytes "libEGL.so.1", bytes "libGLESv2.so.2"] := by decide +kernel

section Rightness

variable (world : World) (cache : List CacheLine) (installDir : Bytes) (state : State)
  (lookup : Lookup)

/-- The diagnostic reports a library exactly if the launcher makes it reachable. -/
def Right : Prop :=
  Reported world.cwd state.tree cache installDir lookup.soname ↔
    Reachable world installDir state lookup

/-- The name is taken in a directory of the diagnostic, or in the cache, but no
directory of the loader has the library or will have it over a link. -/
def Misled : Prop :=
  (Taken world.cwd state.tree installDir lookup.soname ∨ Cached cache lookup.soname) ∧
    ¬ WillBeReachable world installDir state lookup

/-- The name is not taken in any directory of the diagnostic, nor in the cache, but a
directory of the loader has the library or will have it over a link. -/
def Overlooks : Prop :=
  ¬ Taken world.cwd state.tree installDir lookup.soname ∧ ¬ Cached cache lookup.soname ∧
    WillBeReachable world installDir state lookup

instance : Decidable (Misled world cache installDir state lookup) :=
  inferInstanceAs (Decidable (_ ∧ _))

instance : Decidable (Overlooks world cache installDir state lookup) :=
  inferInstanceAs (Decidable (_ ∧ _))

variable {lookup}

/-- The diagnostic is right about a library exactly if nothing misleads it and it
overlooks nothing. -/
theorem right_iff (hshared : lookup ∈ sharedLookups) :
    Right world cache installDir state lookup ↔
      ¬ Misled world cache installDir state lookup ∧
        ¬ Overlooks world cache installDir state lookup := by
  have hcommon : ∀ lookup ∈ sharedLookups, bytes "lib" <+: lookup.soname ∧
      ∀ candidate ∈ lookup.candidates, (Pathname.ofBytes candidate).absolute = true := by
    decide +kernel
  obtain ⟨hlib, habsolute⟩ := hcommon lookup hshared
  rw [Right, reported_iff hlib, reachable_iff world installDir state lookup habsolute, Misled,
    Overlooks]
  tauto

end Rightness

/-! ## Four TVs -/

/-- The launcher's lookups of the Wayland client and of the keyboard library. -/
def waylandClient : Lookup := launcherLookups.head (by decide)

def xkbcommon : Lookup := launcherLookups[3]

private theorem waylandClient_mem : waylandClient ∈ sharedLookups :=
  List.mem_filter.mpr ⟨List.head_mem _, by decide⟩

private theorem xkbcommon_mem : xkbcommon ∈ sharedLookups :=
  List.mem_filter.mpr ⟨List.getElem_mem _, by decide⟩

/-- A line of the cache. Its soname follows a tab, so that no search finds it. -/
def clientLine : CacheLine where
  soname := bytes "libwayland-client.so.0"
  details := bytes " (libc6,AArch64) => /usr/lib/libwayland-client.so.0"
  plain := by decide +kernel

example : ¬ Cached [clientLine] (bytes "libwayland-client.so.0") := by decide +kernel

/-- The diagnostic is right about a library of `/usr/lib`. -/
theorem right_fullTv :
    Right quietWorld [clientLine] (bytes "/opt/tizenroblox") fullTv waylandClient :=
  (right_iff quietWorld [clientLine] (bytes "/opt/tizenroblox") fullTv waylandClient_mem).mpr
    (by decide +kernel)

/-- An installation on a TV with further files. -/
def tvWith (entries : List (Path × Node)) : State :=
  .initial ⟨installed ++ entries⟩ (fun _ => none) 0 []

/-- A link to nothing is left in `lib/`. -/
def danglingTv : State := tvWith [
  ([bytes "opt", bytes "tizenroblox", bytes "lib", bytes "libxkbcommon.so.0"],
    .link (.ofBytes (bytes "/usr/lib/libxkbcommon.so.0")))]

/-- A library is only where the launcher does not look for it. -/
def tizenTv : State := tvWith [
  ([bytes "usr"], .dir), ([bytes "usr", bytes "lib"], .dir),
  ([bytes "usr", bytes "lib", bytes "tizen"], .dir),
  ([bytes "usr", bytes "lib", bytes "tizen", bytes "libxkbcommon.so.0"], .file [])]

/-- A library is only where the diagnostic does not look for it. -/
def lib64Tv : State := tvWith [
  ([bytes "lib64"], .dir), ([bytes "lib64", bytes "libwayland-client.so.0"], .file [])]

/-- Links to nothing and files elsewhere mislead the diagnostic, and it overlooks
candidates of the launcher. -/
theorem not_right :
    (xkbcommon ∈ sharedLookups ∧ waylandClient ∈ sharedLookups) ∧
    ¬ Right quietWorld [] (bytes "/opt/tizenroblox") danglingTv xkbcommon ∧
    ¬ Right quietWorld [] (bytes "/opt/tizenroblox") tizenTv xkbcommon ∧
    ¬ Right quietWorld [] (bytes "/opt/tizenroblox") lib64Tv waylandClient := by
  refine ⟨⟨xkbcommon_mem, waylandClient_mem⟩, ?_⟩
  unfold Right
  decide +kernel

end TizenRoblox.Diagnose
