/-
# From a bundle to the TV

A deployment copies the parts of Sober that `dist/` has to the TV, and leaves there the parts
that it has not; launches and the system leave all of them alone. So after any history of a
TV each part is that of the last deployment that had it (`installed_of_run`), and a release
that has been built and deployed is on the TV as a whole until something else is deployed
(`tv_of_release`).
-/

import TizenRoblox.Deploy.History
import TizenRoblox.Release.History

namespace TizenRoblox.Deploy

open TizenRoblox.Foundation TizenRoblox.Posix TizenRoblox.Shell TizenRoblox.Shell.Command
open TizenRoblox.Launcher
open TizenRoblox.Release (Delivery Lib Part Slot held)

/-! ## The parts on the TV -/

/-- Where the TV has a part of Sober. -/
def partPlace : Part → Path
  | .sober => binPath ++ [bytes "sober"]
  | .lib .mimalloc => mimallocPath ++ [Lib.mimalloc.file]
  | .lib lib => binPath ++ [lib.file]

/-- What `dist/` has of a part. -/
def Host.part (host : Host) : Part → Option Bytes
  | .sober => host.sober
  | .lib .loader => host.libloader
  | .lib .badcpu => host.libbadcpu
  | .lib .mimalloc => host.mimalloc

def installed (tree : Tree) (part : Part) : Option Bytes := tree.fileAt (partPlace part)

theorem partPlace_mem (part : Part) : partPlace part ∈ binaries := by
  rcases part with _ | _ | _ | _ <;> decide

theorem partPlace_inj : ∀ one ∈ Release.parts, ∀ other ∈ Release.parts,
    partPlace one = partPlace other → one = other := by
  decide

theorem installed_congr {tree other : Tree}
    (hsame : ∀ place ∈ binaries, other.node place = tree.node place) :
    installed other = installed tree :=
  funext fun part => Tree.fileAt_congr (hsame _ (partPlace_mem part))

theorem installed_set_part (tree : Tree) (part : Part) (data : Bytes) :
    installed (tree.set (partPlace part) (.file data)) =
      Function.update (installed tree) part (some data) := by
  funext other
  by_cases heq : other = part
  · subst heq
    rw [Function.update_self]
    exact Tree.fileAt_set_file ..
  · rw [Function.update_of_ne heq]
    apply Tree.fileAt_set_of_ne
    exact fun hplace => heq (partPlace_inj other (Release.mem_parts other) part
      (Release.mem_parts part) hplace)

theorem installed_set_other {tree : Tree} {place : Path} {value : Node}
    (hplace : ∀ part ∈ Release.parts, partPlace part ≠ place) :
    installed (tree.set place value) = installed tree :=
  funext fun part => Tree.fileAt_set_of_ne _ (hplace part (Release.mem_parts part))

/-! ## A deployment -/

/-- The deployment is on its way, and these parts are on the TV. -/
structure Installing (before : Tree) (made : List Path) (parts : Part → Option Bytes)
    (tree : Tree) : Prop where
  prepared : Prepared before made tree
  planned : ∀ place ∈ made, place ∈ directories
  parts : installed tree = parts

section Deployment

variable {before tree : Tree} {made : List Path} {parts : Part → Option Bytes} {directory : Path}
  {name : Name} {data : Bytes} {host : Host} {strict : Bool}

theorem Installing.mkdirP (hinstalling : Installing before made parts tree)
    (hdirectory : directory ∈ directories) :
    Installing before (directory :: made) parts (tree.mkdirP [] (.ofPath directory)) := by
  have hclear := hinstalling.prepared.tidy.directories directory hdirectory
  have hbinaries : ∀ place ∈ binaries, ∀ directory ∈ directories, ¬ place <+: directory := by
    decide
  refine ⟨hinstalling.prepared.mkdirP hdirectory,
    List.forall_mem_cons.mpr ⟨hdirectory, hinstalling.planned⟩, ?_⟩
  rw [← hinstalling.parts]
  apply installed_congr
  intro place hplace
  rw [(Tree.mkdirP_of_clear hclear).2, if_neg]
  exact fun hprefix => hbinaries place hplace directory hdirectory hprefix.2

theorem Installing.of_subset {fewer : List Path} (hinstalling : Installing before made parts tree)
    (hfewer : fewer ⊆ made) : Installing before fewer parts tree :=
  ⟨hinstalling.prepared.of_subset hfewer, fun place hplace =>
    hinstalling.planned place (hfewer hplace), hinstalling.parts⟩

/-- `scp` of a file that `dist/` has sets it. -/
theorem Installing.scp_eq (hinstalling : Installing before made parts tree)
    (hdirectory : directory ∈ made) (hbinary : directory ++ [name] ∈ binaries)
    (hdots : ¬ IsDots name) :
    scp (.ofPath directory) name (some data) strict tree =
      .done 0 (tree.set (directory ++ [name]) (.file data)) := by
  have hreal := hinstalling.prepared.made directory hdirectory
  have hwrite := Tree.write_here data hreal.isDir hdots
    (hinstalling.prepared.tidy.binaries _ hbinary)
  apply attempt_eq_done
  rw [Option.bind_some, copied, hreal.isDirectory, if_pos rfl, hreal.write_child, hwrite]

theorem Installing.scp_part {part : Part} (hinstalling : Installing before made parts tree)
    (hdirectory : directory ∈ made) (hplace : partPlace part = directory ++ [name])
    (hdots : ¬ IsDots name) :
    Passes (scp (.ofPath directory) name (some data)) strict tree
        (tree.set (partPlace part) (.file data)) ∧
      Installing before made (Function.update parts part (some data))
        (tree.set (partPlace part) (.file data)) := by
  have hbinary : directory ++ [name] ∈ binaries := hplace ▸ partPlace_mem part
  refine ⟨⟨0, ?_⟩, ?_, hinstalling.planned, ?_⟩
  · rw [hplace]
    exact hinstalling.scp_eq hdirectory hbinary hdots
  · exact hinstalling.prepared.set_binary data hinstalling.planned (partPlace_mem part)
  · rw [installed_set_part, hinstalling.parts]

/-- The parts are kept by a copy of another file. -/
theorem Installing.scp_other (hinstalling : Installing before made parts tree)
    (hdirectory : directory ∈ made) (hbinary : directory ++ [name] ∈ binaries)
    (hother : ∀ part ∈ Release.parts, partPlace part ≠ directory ++ [name])
    (hdots : ¬ IsDots name) {file : Option Bytes} (hfile : file.isSome ∨ strict = false) :
    ∃ next, Passes (scp (.ofPath directory) name file) strict tree next ∧
      Installing before made parts next := by
  cases file with
  | none =>
      obtain rfl : strict = false := hfile.resolve_left (by simp)
      exact ⟨tree, ⟨1, by simp [scp, attempt, simple]⟩, hinstalling⟩
  | some data =>
      refine ⟨_, ⟨0, hinstalling.scp_eq hdirectory hbinary hdots⟩,
        hinstalling.prepared.set_binary data hinstalling.planned hbinary, hinstalling.planned, ?_⟩
      rw [installed_set_other hother, hinstalling.parts]

/-- `[ -f part ] && scp part` -/
theorem Installing.scpIfShipped {part : Part} (hinstalling : Installing before made parts tree)
    (hdirectory : directory ∈ made) (hplace : partPlace part = directory ++ [name])
    (hdots : ¬ IsDots name) (file : Option Bytes) :
    ∃ next, Passes (andThen (test fun _ => file.isSome) (scp (.ofPath directory) name file))
        strict tree next ∧
      Installing before made (Function.update parts part (file.or (parts part))) next := by
  cases file with
  | none =>
      refine ⟨tree, ⟨1, by simp [andThen]⟩, ?_⟩
      rw [Option.none_or, Function.update_eq_self]
      exact hinstalling
  | some data =>
      obtain ⟨⟨status, hdone⟩, hnext⟩ :=
        @Installing.scp_part before tree made parts directory name data strict part hinstalling
          hdirectory hplace hdots
      exact ⟨_, ⟨status, by simp [andThen, hdone]⟩, hnext⟩

/-- What is on the TV once a host has copied the parts that it has. -/
def Host.over (host : Host) (parts : Part → Option Bytes) : Part → Option Bytes := fun part =>
  (host.part part).or (parts part)

theorem Installing.copyMimalloc (hinstalling : Installing before made parts tree) :
    ∃ next, Passes (ifThen (test fun _ => host.mimalloc.isSome) <| block [
        subshell (Deploy.mkdirP mimallocDir),
        Deploy.scp mimallocDir (bytes "libmimalloc.so.3") host.mimalloc]) strict tree next ∧
      Installing before made (Function.update parts (.lib .mimalloc)
        (host.mimalloc.or (parts (.lib .mimalloc)))) next := by
  cases hmimalloc : host.mimalloc with
  | none =>
      refine ⟨tree, ⟨0, by simp [ifThen, ifElse]⟩, ?_⟩
      rw [Option.none_or, Function.update_eq_self]
      exact hinstalling
  | some data =>
      have hdirectory : mimallocPath ∈ directories := by decide
      have hmade := hinstalling.mkdirP hdirectory
      obtain ⟨⟨status, hscp⟩, hnext⟩ :=
        @Installing.scp_part before _ _ parts mimallocPath (bytes "libmimalloc.so.3") data strict
          (.lib .mimalloc) hmade List.mem_cons_self rfl (by decide)
      refine ⟨_, ⟨status, ?_⟩, hnext.of_subset (List.subset_cons_self _ _)⟩
      rw [mimallocDir_eq]
      simp only [ifThen, ifElse, test_tested, Option.isSome_some, if_true, block, seq, subshell,
        mkdirP_eq hinstalling.prepared hdirectory, ne_eq, not_true_eq_false, and_false, if_false]
      exact hscp

/-- The loop over the two libraries beside the binary. -/
theorem Installing.copyBeside (hinstalling : Installing before made parts tree)
    (hbin : binPath ∈ made) :
    ∃ next, Passes (forEach [(bytes "libloader.so", host.libloader),
          (bytes "libbadcpu.so", host.libbadcpu)]
        fun lib => .andThen (.test fun _ => lib.2.isSome) (Deploy.scp binDir lib.1 lib.2))
          strict tree next ∧
      Installing before made (Function.update
        (Function.update parts (.lib .loader) (host.libloader.or (parts (.lib .loader))))
        (.lib .badcpu) (host.libbadcpu.or (parts (.lib .badcpu)))) next := by
  obtain ⟨middle, ⟨_, hfirst⟩, hmiddle⟩ :=
    @Installing.scpIfShipped before tree made parts binPath (bytes "libloader.so") strict
      (.lib .loader) hinstalling hbin rfl (by decide) host.libloader
  obtain ⟨next, ⟨status, hsecond⟩, hnext⟩ :=
    @Installing.scpIfShipped before middle made _ binPath (bytes "libbadcpu.so") strict
      (.lib .badcpu) hmiddle hbin rfl (by decide) host.libbadcpu
  refine ⟨next, ⟨status, ?_⟩, hnext⟩
  rw [binDir_eq, forEach, forFrom, hfirst]
  simp only [forFrom, hsecond]

theorem Installing.copyBinaries (hinstalling : Installing before made parts tree)
    (hbin : binPath ∈ made) (hsober : host.sober.isSome) (hlaunch : host.launchScript.isSome) :
    ∃ next, Passes (Deploy.copyBinaries host) true tree next ∧
      Installing before made (host.over parts) next := by
  obtain ⟨data, hdata⟩ := Option.isSome_iff_exists.mp hsober
  obtain ⟨hbinary, hcopied⟩ :=
    @Installing.scp_part before tree made parts binPath (bytes "sober") data true .sober
      hinstalling hbin rfl (by decide)
  obtain ⟨mapped, hmapper, hmapped⟩ :=
    @Installing.scp_other before _ made _ binPath (bytes "input_mapper") false hcopied hbin
      (by decide) (by decide) (by decide) host.inputMapper (.inr rfl)
  obtain ⟨launchable, hscript, hlaunchable⟩ :=
    @Installing.scp_other before _ made _ binPath (bytes "launch.sh") true hmapped hbin
      (by decide) (by decide) (by decide) host.launchScript (.inl hlaunch)
  obtain ⟨complete, hbeside, hcomplete⟩ :=
    @Installing.copyBeside before _ made _ host true hlaunchable hbin
  obtain ⟨next, hmimalloc, hnext⟩ := @Installing.copyMimalloc before _ made _ host true hcomplete
  refine ⟨next, ?_, ?_⟩
  · rw [Deploy.copyBinaries, binDir_eq, hdata]
    rw [binDir_eq] at hbeside
    exact hbinary.block_cons (by simp) <| (hmapper.orTrue true).block_cons (by simp) <|
      hscript.block_cons (by simp) <| hbeside.block_cons (by simp) hmimalloc
  · convert hnext using 1
    funext part
    rcases part with _ | _ | _ | _ <;> simp [Host.over, Host.part, Function.update, hdata]

theorem Installing.copyScripts (hinstalling : Installing before made parts tree)
    (hdiagnose : host.diagnose.isSome) :
    ∃ next, Passes (Deploy.copyScripts host) true tree next ∧
      Installing before made parts next := by
  have hdirectory : scriptsPath ∈ directories := by decide
  obtain ⟨next, hscp, hnext⟩ :=
    @Installing.scp_other before _ (scriptsPath :: made) parts scriptsPath (bytes "diagnose.sh")
      true (hinstalling.mkdirP hdirectory) List.mem_cons_self (by decide) (by decide) (by decide)
      host.diagnose (.inl hdiagnose)
  have hmkdir : Passes (subshell (Deploy.mkdirP scriptsDir)) true tree
      (tree.mkdirP [] (.ofPath scriptsPath)) :=
    ⟨0, by simp [subshell, scriptsDir_eq, mkdirP_eq hinstalling.prepared hdirectory]⟩
  refine ⟨next, ?_, hnext.of_subset (List.subset_cons_self _ _)⟩
  rw [Deploy.copyScripts, scriptsDir_eq] at *
  exact hmkdir.block_cons (by simp) hscp

theorem preserves_mkdirP (hdirectory : directory ∈ directories) :
    Preserves (fun tree => Tidy tree ∧ installed tree = parts)
      (Deploy.mkdirP (.ofPath directory)) := by
  apply preserves_simple
  rintro tree ⟨htidy, hparts⟩
  have hinstalling : Installing tree [] parts tree :=
    ⟨⟨htidy, by simp, rfl, fun _ _ _ hfile => hfile⟩, by simp, hparts⟩
  have hnext := hinstalling.mkdirP hdirectory
  exact ⟨hnext.prepared.tidy, hnext.parts⟩

theorem makeDirectories_installing (htidy : Tidy tree) :
    ∃ next, Passes makeDirectories true tree next ∧
      Installing tree [libPath, binPath] (installed tree) next := by
  obtain ⟨next, hpasses, hprepared⟩ := makeDirectories_passes htidy
  have hpreserves : Preserves (fun other => Tidy other ∧ installed other = installed tree)
      makeDirectories := by
    rw [makeDirectories, binDir_eq, libDir_eq, dataDir_eq, logsDir_eq]
    exact preserves_subshell (preserves_block ⟨preserves_mkdirP (by decide),
      preserves_mkdirP (by decide), preserves_mkdirP (by decide), preserves_mkdirP (by decide)⟩)
  obtain ⟨_, hdone⟩ := hpasses
  exact ⟨next, ⟨_, hdone⟩, hprepared, by decide, (hpreserves.of_done hdone ⟨htidy, rfl⟩).2⟩

theorem SameElsewhere.installed {other : Tree} (hsame : SameElsewhere tree other) :
    installed other = installed tree :=
  installed_congr fun place hplace => hsame place (ne_libEntry_of_binary hplace)

/-- A safe deployment copies the parts that its host has, and leaves the others. -/
theorem installed_deployed (htidy : Tidy tree) (hsafe : Safe host (libEntries tree)) :
    installed (deployed host tree) = host.over (installed tree) := by
  obtain ⟨hsober, hlaunch, hdiagnose⟩ := hsafe.complete
  obtain ⟨made, hdirectories, hmade⟩ := makeDirectories_installing htidy
  obtain ⟨copied, hcopied, hbinaries⟩ := hmade.copyBinaries (by simp) hsober hlaunch
  obtain ⟨scripted, hscripted, hscripts⟩ := hbinaries.copyScripts hdiagnose
  have hready : Safe host (libEntries scripted) := hscripts.prepared.entries.symm ▸ hsafe
  obtain ⟨next, hlibraries, hsame, -⟩ := copyLibraries_libDir
    (hscripts.prepared.made libPath (by simp)) hscripts.prepared.tidy.libraries hready
  have hpresent : Passes (ifThen (test fun _ => host.sober.isNone) (Command.exit 1)) true
      tree tree :=
    ⟨0, by simp [ifThen, ifElse, Option.isSome_iff_ne_none.mp hsober]⟩
  have hconnected : Passes (orElse (test fun _ => host.connected) (Command.exit 1)) true
      tree tree :=
    ⟨0, by simp [orElse, hsafe.connected]⟩
  have hdeploy : Passes (deploy host) true tree next :=
    hpresent.block_cons (by simp) <| hconnected.block_cons (by simp) <|
      hdirectories.block_cons (by simp) <| hcopied.block_cons (by simp) <|
      hscripted.block_cons (by simp) hlibraries
  obtain ⟨status, hdone⟩ := hdeploy
  rw [deployed, hdone, Outcome.state, hsame.installed, hscripts.parts]

end Deployment

/-! ## A launch, and a change of the system -/

/-- Links under names of the system leave the parts alone. -/
theorem keptByLinks_installed (parts : Part → Option Bytes) :
    KeptByLinks fun tree => installed tree = parts := by
  intro tree target directory last hparts _ hname
  rw [installed_set_other, hparts]
  intro part _ hplace
  have hmem : last ∉ partPlace part :=
    hname.2 _ (List.mem_append_right _ (partPlace_mem part))
  exact hmem (hplace ▸ by simp)

theorem LeavesInstallation.installed {tree other : Tree} (hleaves : LeavesInstallation tree other) :
    installed other = installed tree :=
  installed_congr fun place hplace =>
    hleaves place (.inr (installPath_related place (List.mem_append_right _ hplace)))

/-! ## Histories -/

/-- The parts on the TV after what happens to it. -/
def Happening.over (parts : Part → Option Bytes) : Happening → Part → Option Bytes
  | .deploy host => host.over parts
  | .launch _ _ => parts
  | .change _ => parts

section History

variable {tree : Tree} {source target tv : Tv} {happening : Happening}
  {happenings : List Happening}

theorem Kept.installed_step (hkept : Kept source) (hsafe : SafeStep source happening)
    (hstep : Step source happening target) :
    installed target.tree = happening.over (installed source.tree) := by
  cases hstep with
  | deploy host => exact installed_deployed hkept.tidy hsafe
  | launch world state hstate =>
      exact preserves_resolveLibraries (keptByLinks_installed _) world _ _ true state
        (congrArg installed hstate)
  | change tree hleaves => exact hleaves.installed

theorem kept_of_run (htidy : Tidy tree)
    (hrun : Run (Guarded SafeStep Step) ⟨tree, []⟩ happenings tv) : Kept tv :=
  hrun.invariant
    (fun source happening target (hsource : Kept source) hstep => hsource.step hstep.1 hstep.2)
    ⟨htidy, by simp [Tv.Lawful]⟩

/-- After any history each part on the TV is that of the last deployment that had it. -/
theorem installed_of_run (htidy : Tidy tree)
    (hrun : Run (Guarded SafeStep Step) ⟨tree, []⟩ happenings tv) :
    installed tv.tree = happenings.foldl Happening.over (installed tree) := by
  generalize hstart : (⟨tree, []⟩ : Tv) = start at hrun
  induction hrun with
  | start => rw [← hstart, List.foldl_nil]
  | extend hfirst hlast ih =>
      subst hstart
      have hkept := kept_of_run htidy hfirst
      rw [hkept.installed_step hlast.1 hlast.2, ih, List.foldl_append]
      rfl

/-- Deployments that bring nothing else leave a release as it is. -/
theorem foldl_over_of_alike {release : Part → Option Bytes}
    (halike : ∀ host, .deploy host ∈ happenings →
      ∀ part, host.part part = none ∨ host.part part = release part) :
    happenings.foldl Happening.over release = release := by
  induction happenings with
  | nil => rfl
  | cons happening rest ih =>
      have hhere : happening.over release = release := by
        cases happening with
        | deploy host =>
            funext part
            rcases halike host List.mem_cons_self part with hnone | hsame
            · simp [Happening.over, Host.over, hnone]
            · cases hrelease : release part <;>
                simp [Happening.over, Host.over, hsame, hrelease]
        | launch world state => rfl
        | change tree => rfl
      rw [List.foldl_cons, hhere]
      exact ih fun host hhost => halike host (List.mem_cons_of_mem _ hhost)

/-- The host has the parts that are in its `dist/`. -/
def Host.Reads (host : Host) (root : Path) (tree : Tree) : Prop :=
  ∀ part, host.part part = held root tree (.beside part)

/-- When a release has been built and is deployed, then it is on the TV as a whole, whatever
the TV has seen before, until a deployment brings another part. Launches do not change it,
nor does the system. -/
theorem tv_of_release {root : Path} {start : Tree} {delivery : Delivery} {host : Host}
    {before after : List Happening} (hapart : Release.Apart root)
    (hwork : Release.Workplace root start) (hsucceeds : delivery.Succeeds root start)
    (hreads : host.Reads root (delivery.final root start)) (htidy : Tidy tree)
    (hrun : Run (Guarded SafeStep Step) ⟨tree, []⟩ (before ++ .deploy host :: after) tv)
    (halike : ∀ later, .deploy later ∈ after → ∀ part,
      later.part part = none ∨ later.part part = delivery.release root start part) :
    installed tv.tree = delivery.release root start := by
  have hover (parts : Part → Option Bytes) : host.over parts = delivery.release root start := by
    funext part
    obtain ⟨hthere, hdist⟩ :=
      @Release.Delivery.Succeeds.held_dist root start delivery hsucceeds hapart hwork
        (.beside part) trivial
    obtain ⟨data, hdata⟩ := Option.isSome_iff_exists.mp hthere
    rw [Host.over, hreads part, hdist, hdata, Option.some_or]
    exact hdata.symm
  rw [installed_of_run htidy hrun, List.foldl_append, List.foldl_cons]
  change after.foldl Happening.over (host.over _) = _
  rw [hover]
  exact foldl_over_of_alike halike

end History

/-! ### An example -/

/-- The working copy in which another bundle has been extracted since the release. -/
def releaseHost : Host where
  connected := true
  home := [bytes "root"]
  sober := some [1]
  inputMapper := some [7]
  launchScript := some [9]
  libloader := some [2]
  libbadcpu := some [3]
  mimalloc := some [4]
  diagnose := some [8]
  libs := [(bytes "libbadcpu.so", [3]), (bytes "libloader.so", [2]), (bytes "libmimalloc.so", [4]),
    (bytes "libmimalloc.so.3", [4])]
  libs_listed := by decide
  libs_nodup := by decide

/-- The TV after the release has come to it, and the state in which a launcher starts there. -/
def releasedTv : Tv := deployedTv.deploy releaseHost

def releasedState : State := .initial releasedTv.tree (fun _ => none) 0 []

def relaunchedTv : Tv := { releasedTv with tree := resolved quietWorld releasedState }

theorem reads_releaseHost :
    releaseHost.Reads Release.repository (Release.overtaken.final Release.repository
      Release.prepared) := by
  have hparts : ∀ part ∈ Release.parts, releaseHost.part part = held Release.repository
      (Release.overtaken.final Release.repository Release.prepared) (.beside part) := by
    decide +kernel
  exact fun part => hparts part (Release.mem_parts part)

theorem deploy_notMem_launch {host : Host} {world : World} {state : State} :
    Happening.deploy host ∉ [.launch world state] := by
  simp

theorem run_relaunched :
    Run (Guarded SafeStep Step) ⟨newTv, []⟩
      ([.deploy stubHost] ++ .deploy releaseHost :: [.launch quietWorld releasedState])
      relaunchedTv := by
  have hfirst : Run (Guarded SafeStep Step) ⟨newTv, []⟩ [.deploy stubHost] deployedTv :=
    .extend (.start _) ⟨safe_stubHost, .deploy _ _⟩
  have hsafe : SafeStep deployedTv (.deploy releaseHost) :=
    safe_of_unlinked rfl (by decide) (by decide +kernel) (by decide +kernel) (by decide +kernel)
  exact (hfirst.extend ⟨hsafe, .deploy _ _⟩).extend
    ⟨trivial, .launch releasedTv quietWorld releasedState (by rw [releasedState, State.initial])⟩

theorem tv_relaunched :
    installed relaunchedTv.tree = Release.overtaken.release Release.repository Release.prepared :=
  @tv_of_release newTv relaunchedTv Release.repository Release.prepared Release.overtaken
    releaseHost [.deploy stubHost] [.launch quietWorld releasedState] Release.apart_repository
    Release.workplace_prepared Release.succeeds_overtaken reads_releaseHost tidy_newTv
    run_relaunched fun _ hlater => absurd hlater deploy_notMem_launch

end TizenRoblox.Deploy
