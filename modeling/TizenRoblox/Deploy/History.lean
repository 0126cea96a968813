/-
# Deployments and launches on one TV

The deployer copies libraries onto the names of `lib/`; the launcher replaces some
of these names by links to the libraries of the system. In a history of both, in
any order and with the system's own files changing in between, a TV that was tidy
stays tidy, and every deployment that is safe at its time is lawful
(`lawful_of_safe`).

A deployment after a launch need not be safe: it writes its library through the
launcher's link, into the file of the system (`not_lawful_redeployed`).
-/

import TizenRoblox.Deploy.Deployment
import TizenRoblox.Foundation.Runs
import TizenRoblox.Launcher.Reaching

namespace TizenRoblox.Deploy

open TizenRoblox.Foundation TizenRoblox.Posix TizenRoblox.Shell TizenRoblox.Shell.Command
open TizenRoblox.Launcher

/-! ## A launch -/

/-- The last name of a link of the launcher: its own soname, and on no way of the
deployment's. -/
def IsSystemName (name : Name) : Prop :=
  sonameOf name = name ∧ ∀ place ∈ directories ++ binaries, name ∉ place

instance (name : Name) : Decidable (IsSystemName name) := inferInstanceAs (Decidable (_ ∧ _))

/-- What all lookups of the launcher have in common. -/
def IsSystemLookup (lookup : Lookup) : Prop :=
  Pathname.partsOf lookup.soname = [lookup.soname] ∧ IsSystemName lookup.soname ∧
    ∀ candidate ∈ lookup.candidates, (Pathname.ofBytes candidate).absolute = true ∧
      ∀ last ∈ (Pathname.partsOf candidate).getLast?, IsSystemName last

instance (lookup : Lookup) : Decidable (IsSystemLookup lookup) :=
  inferInstanceAs (Decidable (_ ∧ _ ∧ _))

theorem isSystemLookup_of_mem : ∀ lookup ∈ launcherLookups, IsSystemLookup lookup := by
  decide +kernel

section Launch

variable {tree : Tree}

/-- A link out of the directory, under a name of the system, leaves a tree tidy
wherever it is put. -/
theorem Tidy.set_link (htidy : Tidy tree) {target : Pathname} (habsolute : target.absolute = true)
    {last : Name} (hname : IsSystemName last) (directory : Path) :
    Tidy (tree.set (directory ++ [last]) (.link target)) where
  directories place hplace front name hfront := by
    rw [Tree.node_set_of_ne]
    · exact htidy.directories place hplace front name hfront
    · intro heq
      have hmem : last ∈ place := hfront.subset (heq ▸ by simp)
      exact hname.2 place (List.mem_append_left _ hplace) hmem
  binaries place hplace := by
    rw [Tree.Writable, Tree.node_set_of_ne]
    · exact htidy.binaries place hplace
    · intro heq
      exact hname.2 place (List.mem_append_right _ hplace) (heq ▸ by simp)
  libraries name := by
    by_cases hhere : libPath ++ [name] = directory ++ [last]
    · obtain rfl : name = last := by simpa using (List.append_inj' hhere rfl).2
      rw [libEntries, hhere, Tree.node_set_self]
      exact .system target hname.1 habsolute
    · rw [libEntries, Tree.node_set_of_ne _ _ hhere]
      exact htidy.libraries name

/-- Links out of the directory, under names of the system, keep the property. -/
def KeptByLinks (property : Tree → Prop) : Prop :=
  ∀ tree target directory last, property tree → target.absolute = true → IsSystemName last →
    property (tree.set (directory ++ [last]) (.link target))

section Links

variable {property : Tree → Prop} (hlinks : KeptByLinks property)
include hlinks

theorem KeptByLinks.linked (world : World) (libDir : Bytes) {lookup : Lookup}
    (hlookup : IsSystemLookup lookup) (htree : property tree) :
    property (lookup.linked world libDir tree) := by
  obtain ⟨hparts, hsoname, hcandidates⟩ := hlookup
  unfold Lookup.linked
  split
  · exact htree
  · split
    · exact htree
    · next candidate hchoice =>
        obtain ⟨habsolute, hlast⟩ := hcandidates candidate (List.mem_of_find?_eq_some hchoice)
        cases hnext : linkedTree world candidate (inLibDir libDir lookup.soname) tree with
        | none => exact htree
        | some next =>
            obtain ⟨directory, last, rfl, hname⟩ :=
              Tree.lnSf_eq_some (lnSf_of_linkedTree world hnext)
            refine hlinks tree _ directory last htree habsolute ?_
            rcases hname with hname | hname
            · have htarget : (lookup.target libDir).parts.getLast? = some lookup.soname := by
                rw [Lookup.target, inLibDir, Pathname.ofBytes, Pathname.partsOf_append_slash,
                  hparts]
                simp
              obtain rfl : lookup.soname = last := Option.some.inj (htarget.symm.trans hname)
              exact hsoname
            · exact hlast last hname

variable (world : World) (installDir libDir : Bytes)

theorem preserves_lookup {lookup : Lookup} (hlookup : IsSystemLookup lookup) :
    Preserves (fun state : State => property state.tree) (lookup.command world libDir) := by
  intro strict state htree
  have hlinked := hlinks.linked world libDir hlookup htree
  cases strict with
  | false => rwa [Lookup.command_tree_of_heard (.inl rfl)]
  | true =>
      rw [Lookup.command_tree]
      split
      · exact hlinked
      · exact htree

theorem preserves_lookups {lookups : List Lookup} (hlookups : lookups ⊆ launcherLookups) :
    Preserves (fun state : State => property state.tree)
      (lookupCommands world libDir lookups) := by
  apply preserves_block
  rw [List.forall_map_iff, List.forall_iff_forall_mem]
  intro lookup hlookup
  exact preserves_lookup hlinks world libDir (isSystemLookup_of_mem lookup (hlookups hlookup))

/-- So does a pass of the launcher over its libraries, however far it gets. -/
theorem preserves_resolveLibraries :
    Preserves (fun state : State => property state.tree)
      (resolveLibraries world installDir libDir) := by
  have hearly := preserves_lookups hlinks world libDir (List.subset_append_left earlyLookups _)
  have hgraphics := preserves_lookups hlinks world libDir (List.subset_append_right _ _)
  rw [resolveLibraries_eq]
  exact hearly.seq ((preserves_middle world installDir libDir property).seq hgraphics)

end Links

/-- A tidy tree stays tidy. -/
theorem keptByLinks_tidy : KeptByLinks Tidy :=
  fun _ _ directory _ htidy habsolute hname => htidy.set_link habsolute hname directory

end Launch

/-! ## Histories -/

/-- A run of the deployment script. -/
structure Deployment where
  host : Host
  before : Tree
  after : Tree

def Deployment.Lawful (deployment : Deployment) : Prop :=
  Deploy.Lawful deployment.host deployment.before deployment.after

/-- A TV, and the deployments it has seen. -/
structure Tv where
  tree : Tree
  deployments : List Deployment

/-- All deployments so far were lawful. -/
def Tv.Lawful (tv : Tv) : Prop := ∀ deployment ∈ tv.deployments, deployment.Lawful

/-- The TV after a deployment. -/
def Tv.deploy (tv : Tv) (host : Host) : Tv where
  tree := deployed host tv.tree
  deployments := tv.deployments ++ [⟨host, tv.tree, deployed host tv.tree⟩]

/-- What happens to a TV. -/
inductive Happening
  /-- The deployment script is run. -/
  | deploy (host : Host)
  /-- The launcher resolves its libraries, from this state. -/
  | launch (world : World) (state : State)
  /-- The system's files become those of this tree. -/
  | change (tree : Tree)

/-- The tree of the TV after the launcher has gone through its libraries. -/
def resolved (world : World) (state : State) : Tree :=
  let installDir := detectInstallDir world state
  (resolveLibraries world installDir (libDirOf installDir) true state).state.tree

/-- The system may do what it likes with its own files. -/
def LeavesInstallation (tree other : Tree) : Prop :=
  ∀ place, place <+: installPath ∨ installPath <+: place → other.node place = tree.node place

inductive Step : Tv → Happening → Tv → Prop
  | deploy (tv : Tv) (host : Host) : Step tv (.deploy host) (tv.deploy host)
  | launch (tv : Tv) (world : World) (state : State) (hstate : state.tree = tv.tree) :
      Step tv (.launch world state) { tv with tree := resolved world state }
  | change (tv : Tv) (tree : Tree) (hleaves : LeavesInstallation tv.tree tree) :
      Step tv (.change tree) { tv with tree := tree }

/-- A deployment is made only where it is safe. -/
def SafeStep (tv : Tv) : Happening → Prop
  | .deploy host => Safe host (libEntries tv.tree)
  | .launch _ _ => True
  | .change _ => True

/-- What a history keeps. -/
structure Kept (tv : Tv) : Prop where
  tidy : Tidy tv.tree
  lawful : tv.Lawful

theorem installPath_related : ∀ place ∈ directories ++ binaries, installPath <+: place := by
  decide

theorem LeavesInstallation.tidy {tree other : Tree} (hleaves : LeavesInstallation tree other)
    (htidy : Tidy tree) : Tidy other where
  directories place hplace front name hfront := by
    have hinside := installPath_related place (List.mem_append_left _ hplace)
    rw [hleaves _ (List.prefix_or_prefix_of_prefix hfront hinside)]
    exact htidy.directories place hplace front name hfront
  binaries place hplace := by
    have hrelated := installPath_related place (List.mem_append_right _ hplace)
    rw [Tree.Writable, hleaves _ (Or.inr hrelated)]
    exact htidy.binaries place hplace
  libraries name := by
    have hinside : installPath <+: libPath ++ [name] := ⟨[bytes "lib", name], by simp [libPath]⟩
    rw [libEntries, hleaves _ (Or.inr hinside)]
    exact htidy.libraries name

theorem Kept.step {source target : Tv} {happening : Happening} (hkept : Kept source)
    (hsafe : SafeStep source happening) (hstep : Step source happening target) : Kept target := by
  cases hstep with
  | deploy host =>
      obtain ⟨hlawful, htidy⟩ := deployed_of_safe hkept.tidy hsafe
      refine ⟨htidy, fun deployment hmem => ?_⟩
      rcases List.mem_append.mp hmem with hold | hnew
      · exact hkept.lawful deployment hold
      · obtain rfl := List.mem_singleton.mp hnew
        exact hlawful
  | launch world state hstate =>
      have htidy : Tidy state.tree := by
        rw [hstate]
        exact hkept.tidy
      exact ⟨preserves_resolveLibraries keptByLinks_tidy world _ _ true state htidy, hkept.lawful⟩
  | change tree hleaves => exact ⟨hleaves.tidy hkept.tidy, hkept.lawful⟩

/-- In every history of a TV that was tidy at first, in which deployments are made
where they are safe, every deployment is lawful. -/
theorem lawful_of_safe {tree : Tree} {happenings : List Happening} {tv : Tv} (htidy : Tidy tree)
    (hrun : Run (Guarded SafeStep Step) ⟨tree, []⟩ happenings tv) : tv.Lawful := by
  have hkept : Kept tv := hrun.invariant
    (fun source happening target (hsource : Kept source) hstep => hsource.step hstep.1 hstep.2)
    ⟨htidy, by simp [Tv.Lawful]⟩
  exact hkept.lawful

/-- It is safe to copy libraries whose names are no links, where no longer name has
one of them for its soname. -/
theorem safe_of_unlinked {host : Host} {tree : Tree} (hconnected : host.connected = true)
    (hcomplete : host.sober.isSome ∧ host.launchScript.isSome ∧ host.diagnose.isSome)
    (hunlinked : ∀ lib ∈ host.libs, isLinkEntry (libEntries tree lib.1) = false)
    (halone : ∀ lib ∈ host.libs, ∀ name ∈ tree.children libPath ++ host.libs.map Prod.fst,
      sonameOf name = lib.1 → name = lib.1)
    (hplain : ∀ name ∈ tree.children libPath ++ host.libs.map Prod.fst,
      isListed versionPattern name = true → IsPlainWord name) :
    Safe host (libEntries tree) := by
  have hlanding : ∀ lib ∈ host.libs, landing (libEntries tree) lib.1 = lib.1 :=
    fun lib hlib => landing_of_not_link (hunlinked lib hlib)
  have harrives : ∀ name, Arrives host (libEntries tree) name →
      name ∈ tree.children libPath ++ host.libs.map Prod.fst := by
    rintro name (hentry | ⟨lib, hlib, rfl⟩)
    · exact List.mem_append_left _ ((Tree.mem_children tree libPath name).mpr hentry)
    · rw [hlanding lib hlib]
      exact List.mem_append_right _ (List.mem_map_of_mem hlib)
  refine ⟨hconnected, hcomplete, ?_, ?_, ?_, fun name hlisted hname =>
    hplain name (harrives name hname) hlisted⟩
  · intro lib hlib target htarget
    have hlink := hunlinked lib hlib
    rw [htarget] at hlink
    cases hlink
  · intro lib hlib other hother hsame
    rw [hlanding lib hlib, hlanding other hother] at hsame
    rw [List.inj_on_of_nodup_map host.libs_nodup hother hlib hsame]
  · intro lib hlib _ rival hrival _
    exact absurd (halone lib hlib rival (harrives rival hrival.arrives) hrival.derives)
      hrival.longer

/-! ## Two histories -/

/-- A host whose only library is a stub of the Wayland client. -/
def stubHost : Host where
  connected := true
  home := [bytes "root"]
  sober := some []
  inputMapper := none
  launchScript := some []
  libloader := none
  libbadcpu := none
  mimalloc := none
  diagnose := some []
  libs := [(bytes "libwayland-client.so.0", bytes "stub")]
  libs_listed := by decide
  libs_nodup := by decide

/-- A TV with the libraries of the system and nothing installed. -/
def newTv : Tree := ⟨systemLibraries⟩

/-- The state in which a launcher starts on it after the first deployment. -/
def launchState : State := .initial (deployed stubHost newTv) (fun _ => none) 0 []

/-- A host with a library that the launcher does not look for. -/
def otherHost : Host where
  connected := true
  home := [bytes "root"]
  sober := some []
  inputMapper := none
  launchScript := some []
  libloader := none
  libbadcpu := none
  mimalloc := none
  diagnose := some []
  libs := [(bytes "libsecret-1.so.0", bytes "shim")]
  libs_listed := by decide
  libs_nodup := by decide

/-- The TV after the first deployment, and after the launch. -/
def deployedTv : Tv := Tv.deploy ⟨newTv, []⟩ stubHost

def launchedTv : Tv := { deployedTv with tree := resolved quietWorld launchState }

theorem tidy_newTv : Tidy newTv where
  directories place hplace front name hfront := by
    have hnames : ∀ place ∈ directories, (∀ name ∈ place, ¬ IsDots name) ∧
        ∀ way ∈ place.inits, newTv.node way = none := by
      decide +kernel
    obtain ⟨hdots, hnone⟩ := hnames place hplace
    exact ⟨hdots name (hfront.subset (by simp)),
      Or.inl (hnone _ ((List.mem_inits _ _).mpr hfront))⟩
  binaries place hplace := by
    have hnone : ∀ place ∈ binaries, newTv.node place = none := by decide +kernel
    exact Or.inl (hnone place hplace)
  libraries name := by
    have hchildren : newTv.children libPath = [] := by decide +kernel
    have hnone : libEntries newTv name = none := by
      by_contra hentry
      have hmem := (Tree.mem_children newTv libPath name).mpr hentry
      simp [hchildren] at hmem
    rw [hnone]
    exact .missing

theorem safe_stubHost : Safe stubHost (libEntries newTv) :=
  safe_of_unlinked rfl (by decide) (by decide +kernel) (by decide +kernel) (by decide +kernel)

/-- A deployment after a launch is lawful where it copies other libraries. -/
theorem lawful_otherHost : (launchedTv.deploy otherHost).Lawful := by
  have hfirst : Run (Guarded SafeStep Step) ⟨newTv, []⟩ [.deploy stubHost] deployedTv :=
    .extend (.start _) ⟨safe_stubHost, .deploy _ _⟩
  have hlaunch : Run (Guarded SafeStep Step) ⟨newTv, []⟩
      [.deploy stubHost, .launch quietWorld launchState] launchedTv :=
    hfirst.extend ⟨trivial, .launch _ quietWorld launchState rfl⟩
  have hsafe : SafeStep launchedTv (.deploy otherHost) :=
    safe_of_unlinked rfl (by decide) (by decide +kernel) (by decide +kernel) (by decide +kernel)
  exact lawful_of_safe tidy_newTv (hlaunch.extend ⟨hsafe, .deploy launchedTv otherHost⟩)

/-- A deployment of the stub after a launch overwrites the system's library. -/
theorem not_lawful_redeployed :
    Run Step ⟨newTv, []⟩ [.deploy stubHost, .launch quietWorld launchState, .deploy stubHost]
        (launchedTv.deploy stubHost) ∧
      ¬ (launchedTv.deploy stubHost).Lawful := by
  have hfirst : Run Step ⟨newTv, []⟩ [.deploy stubHost] deployedTv :=
    .extend (.start _) (.deploy _ _)
  have hlaunch : Run Step ⟨newTv, []⟩ [.deploy stubHost, .launch quietWorld launchState]
      launchedTv :=
    hfirst.extend (.launch _ quietWorld launchState rfl)
  refine ⟨hlaunch.extend (.deploy launchedTv stubHost), fun hlawful => ?_⟩
  have hframe := (hlawful ⟨stubHost, launchedTv.tree, deployed stubHost launchedTv.tree⟩
    (by simp [Tv.deploy])).frame
  have hkept := hframe [bytes "usr", bytes "lib", bytes "libwayland-client.so.0"] []
    (by decide) (by decide +kernel)
  revert hkept
  decide +kernel

end TizenRoblox.Deploy
