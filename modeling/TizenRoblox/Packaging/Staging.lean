/-
# Staging

Every run stages the application anew: `pkg_work` is removed before anything is put into
it. From there on the commands of the script only add to it, so when the package is made
`APP_DIR` is a directory right below the repository (`rooted_stage`), and
`../../tizenroblox.tpk` is the package in the repository's own directory.
-/

import TizenRoblox.Packaging.Script

namespace TizenRoblox.Packaging

open TizenRoblox.Foundation TizenRoblox.Posix TizenRoblox.Shell TizenRoblox.Shell.Command

/-! ## Steps that only add -/

/-- A property of trees that lives on when directories stay directories. -/
def Stable (property : Tree → Prop) : Prop :=
  ∀ tree other : Tree, tree.KeepsDirs other → property tree → property other

theorem keepsDirs_copiedAll (host : Host) (sources : List Bytes) (tree : Tree) :
    tree.KeepsDirs (copiedAll host sources tree) := by
  induction sources generalizing tree with
  | nil => exact .refl _
  | cons source rest ih =>
      refine Tree.KeepsDirs.trans ?_ (ih _)
      cases hcp : tree.cpA host.root (.ofBytes source) (.ofBytes (appDir ++ bytes "/lib/")) with
      | none =>
          simp only [hcp, Option.getD_none]
          exact .refl _
      | some next =>
          simp only [hcp, Option.getD_some]
          exact Tree.keepsDirs_cpA hcp

theorem preserves_setMimallocSrc {property : Tree → Prop} (source : Bytes) :
    Preserves (property ·.tree) (setMimallocSrc source) :=
  preserves_act fun _ hstaging => hstaging

section Stable

variable {host : Host} {property : Tree → Prop} (hstable : Stable property)
include hstable

theorem preserves_treeStep {run : Tree → Tree × ℕ}
    (hrun : ∀ tree : Tree, tree.KeepsDirs (run tree).1) :
    Preserves (property ·.tree) (treeStep run) :=
  preserves_simple fun staging hstaging => hstable _ _ (hrun staging.tree) hstaging

theorem preserves_onTree {run : Staging → Option Tree}
    (hrun : ∀ staging tree, run staging = some tree → staging.tree.KeepsDirs tree) :
    Preserves (property ·.tree) (onTree run) := by
  apply preserves_attempt
  intro staging next hstaging hnext
  obtain ⟨tree, htree, rfl⟩ := Option.map_eq_some_iff.mp hnext
  exact hstable _ _ (hrun staging tree htree) hstaging

theorem preserves_mkdirP (directory : Bytes) :
    Preserves (property ·.tree) (mkdirP host directory) :=
  preserves_treeStep hstable fun _ => Tree.keepsDirs_mkdirP

theorem preserves_cp (source : Staging → Bytes) (directory : Bytes) :
    Preserves (property ·.tree) (cp host source directory) :=
  preserves_onTree hstable fun _ _ => Tree.keepsDirs_cp

theorem preserves_cpIfThere (source directory : Bytes) :
    Preserves (property ·.tree) (cpIfThere host source directory) :=
  (preserves_test.andThen (preserves_cp hstable _ _)).orTrue

theorem preserves_linkMimalloc :
    Preserves (property ·.tree) (inside host mimallocDir fun cwd tree =>
      tree.lnSf cwd (.here (bytes "libmimalloc.so.3")) (.here (bytes "libmimalloc.so"))) := by
  apply preserves_onTree hstable
  intro staging tree hrun
  split at hrun
  · obtain ⟨cwd, _, hln⟩ := Option.bind_eq_some_iff.mp hrun
    exact Tree.keepsDirs_lnSf hln
  · cases hrun

theorem preserves_copyMimalloc : Preserves (property ·.tree) (copyMimalloc host) := by
  have hset (source : Bytes) := @preserves_setMimallocSrc property source
  refine preserves_block ⟨preserves_mkdirP hstable _, hset _, preserves_test.andThen (hset _),
    (preserves_test.andThen preserves_test).andThen (hset _), ?_⟩
  exact preserves_ifThen preserves_test
    (preserves_block ⟨preserves_cp hstable _ _, (preserves_linkMimalloc hstable).orTrue⟩)

theorem preserves_copyLibraries : Preserves (property ·.tree) (copyLibraries host) :=
  (preserves_treeStep hstable fun tree => keepsDirs_copiedAll host _ tree).orTrue

theorem preserves_copyManifest : Preserves (property ·.tree) (copyManifest host) :=
  preserves_block ⟨preserves_cp hstable _ _,
    (preserves_onTree hstable fun _ _ => Tree.keepsDirs_sedI).orTrue⟩

end Stable

section Icons

variable (host : Host)

theorem keepsDirs_writeIcons (names : List Bytes) (tree : Tree) :
    tree.KeepsDirs (writeIcons host names tree).1 := by
  induction names generalizing tree with
  | nil => exact .refl _
  | cons icon rest ih =>
      unfold writeIcons
      split
      · exact .refl _
      · next next hwrite => exact (Tree.keepsDirs_write hwrite).trans (ih next)

theorem keepsDirs_touchIcons (names : List Bytes) (tree : Tree) :
    tree.KeepsDirs (touchIcons host names tree).1 := by
  induction names generalizing tree with
  | nil => exact .refl _
  | cons icon rest ih =>
      unfold touchIcons
      split
      · exact ih tree
      · next next htouch => exact (Tree.keepsDirs_touch htouch).trans (ih next)

theorem preserves_placeholderIcon {property : Tree → Prop} (hstable : Stable property) :
    Preserves (property ·.tree) (placeholderIcon host) := by
  refine (preserves_treeStep hstable fun tree => ?_).orElse
    (preserves_treeStep hstable (keepsDirs_touchIcons host _))
  split
  · exact keepsDirs_writeIcons host _ tree
  · exact .refl _

/-- From the binaries on, the commands only add. -/
theorem preserves_afterStructure {host : Host} {property : Tree → Prop}
    (hstable : Stable property) :
    Preserves (property ·.tree) (block [copyBinaries host, copyBundled host, copyMimalloc host,
      copyLibraries host, copyDiagnose host, copyManifest host, placeholderIcon host]) := by
  have hcp (source : Staging → Bytes) (directory : Bytes) :=
    @preserves_cp host property hstable source directory
  have hbinaries : Preserves (property ·.tree) (copyBinaries host) :=
    preserves_block ⟨hcp _ _, (hcp _ _).orTrue, hcp _ _⟩
  have hbundled : Preserves (property ·.tree) (copyBundled host) := preserves_forEach fun _ _ =>
    preserves_block ⟨preserves_cpIfThere hstable _ _, preserves_cpIfThere hstable _ _⟩
  have hdiagnose : Preserves (property ·.tree) (copyDiagnose host) :=
    preserves_block ⟨preserves_mkdirP hstable _, (hcp _ _).orTrue⟩
  exact preserves_block ⟨hbinaries, hbundled, preserves_copyMimalloc hstable,
    preserves_copyLibraries hstable, hdiagnose, preserves_copyManifest hstable,
    preserves_placeholderIcon host hstable⟩

end Icons

/-! ## The directory of the application -/

/-- `APP_DIR` is a directory below the repository. -/
structure Rooted (root : Path) (tree : Tree) : Prop where
  here : tree.isDir root = true
  pkg : tree.node (root ++ [pkgDir]) = some .dir
  app : tree.node (root ++ [pkgDir] ++ [appId]) = some .dir

section Rooted

variable {root : Path} {tree other : Tree}

theorem isDir_of_keepsDirs {place : Path} (hkeeps : tree.KeepsDirs other)
    (hisDir : tree.isDir place = true) : other.isDir place = true := by
  unfold Tree.isDir at hisDir ⊢
  rw [Bool.or_eq_true] at hisDir ⊢
  exact hisDir.imp_right fun hdir => decide_eq_true (hkeeps place (of_decide_eq_true hdir))

theorem Rooted.keepsDirs (hrooted : Rooted root tree) (hkeeps : tree.KeepsDirs other) :
    Rooted root other :=
  ⟨isDir_of_keepsDirs hkeeps hrooted.here, hkeeps _ hrooted.pkg, hkeeps _ hrooted.app⟩

theorem stable_rooted : Stable (Rooted root) :=
  fun _ _ hkeeps hrooted => hrooted.keepsDirs hkeeps

theorem not_isDots_appDir : ¬ IsDots pkgDir ∧ ¬ IsDots appId := by decide

theorem ofBytes_appDir : Pathname.ofBytes appDir = ⟨false, [pkgDir, appId]⟩ := by decide

theorem ofBytes_binDir :
    Pathname.ofBytes (appDir ++ bytes "/bin") = ⟨false, [pkgDir, appId, bytes "bin"]⟩ := by decide

theorem Rooted.locate_appDir (hrooted : Rooted root tree) :
    tree.locate root (.ofBytes appDir) = some (root ++ [pkgDir] ++ [appId]) := by
  rw [ofBytes_appDir]
  obtain ⟨hpkg, happ⟩ := not_isDots_appDir
  exact (Tree.walk_cons_of_dir _ _ hpkg hrooted.pkg).trans
    (Tree.walk_cons_of_dir _ _ happ hrooted.app)

theorem Rooted.isDirectory_appDir (hrooted : Rooted root tree) :
    tree.isDirectory root (.ofBytes appDir) = true := by
  rw [Tree.isDirectory, Tree.stat_of_locate hrooted.locate_appDir, if_neg (by simp), hrooted.app]
  rfl

theorem mem_entriesBelow {top : Path} {name : Bytes} {value : Node} :
    (name, value) ∈ entriesBelow tree top ↔ ∃ way, tree.leadsDown top way = true ∧
      tree.node (top ++ way) = some value ∧ isStored value = true ∧ entryName way value = name := by
  rw [entriesBelow, List.mem_map]
  constructor
  · rintro ⟨⟨way, other⟩, hentry, heq⟩
    obtain ⟨hname, rfl⟩ := Prod.mk.inj heq
    obtain ⟨hbelow, hstored⟩ := List.mem_filter.mp hentry
    obtain ⟨hdown, hnode⟩ := Tree.mem_below.mp hbelow
    exact ⟨way, hdown, hnode, hstored, hname⟩
  · rintro ⟨way, hdown, hnode, hstored, rfl⟩
    exact ⟨(way, value), List.mem_filter.mpr ⟨Tree.mem_below.mpr ⟨hdown, hnode⟩, hstored⟩, rfl⟩

/-- What is packed is what is below `APP_DIR`. -/
theorem Rooted.appEntries {host : Host} (hrooted : Rooted host.root tree) :
    appEntries host tree = entriesBelow tree (host.root ++ [pkgDir] ++ [appId]) := by
  rw [Packaging.appEntries, hrooted.locate_appDir]
  rfl

/-- What `zip` calls `../../tizenroblox.tpk` is the package of the repository. -/
theorem Rooted.entry_output (hrooted : Rooted root tree) :
    tree.entry (root ++ [pkgDir] ++ [appId]) (.ofBytes (bytes "../../" ++ outputTpk)) =
      some (root ++ [outputTpk]) := by
  have hup : Pathname.ofBytes (bytes "../../" ++ outputTpk) =
      ⟨false, [dotdot, dotdot, outputTpk]⟩ := by
    decide
  have hroot : tree.locate (root ++ [pkgDir] ++ [appId]) ⟨false, [dotdot, dotdot]⟩ = some root := by
    have hne : dotdot ≠ dot := by decide
    simp [Tree.locate, Tree.linkLimit, Tree.walk, Tree.walkWith, hne]
  have hdots : ¬ (outputTpk = dot ∨ outputTpk = dotdot) := by decide
  rw [hup]
  simp only [Tree.entry, List.getLast?_cons_cons, List.getLast?_singleton, List.dropLast_cons_cons,
    List.dropLast_singleton, hroot, hdots, hrooted.here, if_true, if_false]

/-- What earlier runs have left in `pkg_work` makes no difference. -/
theorem createStructure_forgets {host : Host}
    (hsame : tree.rmRf host.root (.ofBytes pkgDir) = other.rmRf host.root (.ofBytes pkgDir))
    (strict : Bool) (source : Bytes) :
    createStructure host strict ⟨tree, source⟩ = createStructure host strict ⟨other, source⟩ := by
  unfold createStructure block
  simp only [seq, rmRf, act_eq, hsame]

/-- The directories are made where nothing is left of them. -/
theorem rooted_createStructure {host : Host} {start next : Staging} {status : ℕ}
    (hisDir : start.tree.isDir host.root = true)
    (hdone : createStructure host true start = .done status next) :
    Rooted host.root next.tree := by
  unfold createStructure block at hdone
  obtain ⟨_, removed, hremoved, hdone⟩ := seq_eq_done hdone
  obtain ⟨_, made, hmade, hrest⟩ := seq_eq_done hdone
  have htree : removed.tree = start.tree.rmRf host.root (.ofBytes pkgDir) := by
    have hstate := congrArg Outcome.state hremoved
    rw [rmRf, act, simple_state] at hstate
    exact (congrArg Staging.tree hstate).symm
  have hentry : start.tree.entry host.root (.ofBytes pkgDir) = some (host.root ++ [pkgDir]) :=
    Tree.entry_here hisDir not_isDots_appDir.1
  have hnode (place : Path) := Tree.node_rmRf hentry place
  rw [← htree] at hnode
  have hrooted : Rooted host.root made.tree := by
    have hstate := congrArg Outcome.state hmade
    rw [mkdirP, treeStep, simple_state] at hstate
    have hmadeTree :
        removed.tree.mkdirP host.root (.ofBytes (appDir ++ bytes "/bin")) = made.tree :=
      congrArg Staging.tree hstate
    have hhere : removed.tree.isDir host.root = true := by
      unfold Tree.isDir at hisDir ⊢
      rwa [hnode, if_neg]
      intro hprefix
      exact absurd hprefix.length_le (by simp)
    have hmissing := Tree.mkdirP_missing [bytes "bin"] hhere not_isDots_appDir.1 not_isDots_appDir.2
      fun way => by rw [hnode, if_pos (List.prefix_append _ _)]
    rw [← hmadeTree, ofBytes_binDir]
    exact ⟨isDir_of_keepsDirs Tree.keepsDirs_mkdirP hhere, hmissing.1, hmissing.2⟩
  have hrest' : Preserves (fun staging : Staging => Rooted host.root staging.tree) (block [
      mkdirP host (appDir ++ bytes "/lib"), mkdirP host (appDir ++ bytes "/data"),
      mkdirP host (appDir ++ bytes "/res")]) :=
    preserves_block ⟨preserves_mkdirP stable_rooted _, preserves_mkdirP stable_rooted _,
      preserves_mkdirP stable_rooted _⟩
  exact hrest'.of_done hrest hrooted

/-- Every run that gets to the package has staged `APP_DIR` right below the repository. -/
theorem rooted_stage {host : Host} {start next : Staging} {status : ℕ}
    (hisDir : start.tree.isDir host.root = true)
    (hbuild : ∀ tree : Tree, tree.isDir host.root = true →
      (host.build tree).1.isDir host.root = true)
    (hdone : stage host true start = .done status next) : Rooted host.root next.tree := by
  unfold stage block at hdone
  obtain ⟨_, built, hbuilt, hdone⟩ := seq_eq_done hdone
  obtain ⟨_, made, hmade, hrest⟩ := seq_eq_done hdone
  have hkept : Preserves (fun staging : Staging => staging.tree.isDir host.root = true)
      (buildFirst host) :=
    preserves_ifThen preserves_test.negate
      (preserves_simple fun staging hstaging => hbuild staging.tree hstaging)
  have hrooted := rooted_createStructure (hkept.of_done hbuilt hisDir) hmade
  exact (preserves_afterStructure stable_rooted).of_done hrest hrooted

end Rooted

end TizenRoblox.Packaging
