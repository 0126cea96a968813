/-
# One deployment

From a tidy tree, a deployment that is safe for its `lib/` leaves the files outside
of `INSTALL_DIR` alone and every library it copied under its own name, and the tree
is tidy again (`deployed_of_safe`).
-/

import TizenRoblox.Deploy.Preparation

namespace TizenRoblox.Deploy

open TizenRoblox.Foundation TizenRoblox.Posix TizenRoblox.Shell TizenRoblox.Shell.Command

/-- What a deployment owes to the TV: it keeps to its own directory, and each library
of `dist/lib` is what its name in `lib/` leads to. -/
structure Lawful (host : Host) (before after : Tree) : Prop where
  frame : Frame before after
  shipped : ∀ lib ∈ host.libs, after.contents [] (libDir.child lib.1) = some lib.2

section Deployment

variable {host : Host} {before tree : Tree}

theorem SameElsewhere.tidy {other : Tree} (hsame : SameElsewhere tree other) (htidy : Tidy tree)
    (hsound : Sound (libEntries other)) : Tidy other where
  directories directory hdirectory front last hfront := by
    rw [hsame]
    · exact htidy.directories directory hdirectory front last hfront
    · intro name heq
      exact not_prefix_directory name hdirectory (heq ▸ hfront)
  binaries place hplace := by
    rw [Tree.Writable, hsame place (ne_libEntry_of_binary hplace)]
    exact htidy.binaries place hplace
  libraries := hsound

/-- Copying the libraries and linking their sonames changes `lib/` only. -/
theorem copyLibraries_libDir (hreal : tree.RealDir libPath) (hsound : Sound (libEntries tree))
    (hsafe : Safe host (libEntries tree)) :
    ∃ next, Passes (copyLibraries host) true tree next ∧ SameElsewhere tree next ∧
      next.RealDir libPath ∧ Sound (libEntries next) ∧
      ∀ lib ∈ host.libs, bytesOf (libEntries next) lib.1 = some lib.2 := by
  have hdots : ∀ lib ∈ host.libs, ¬ IsDots lib.1 :=
    fun lib hmem => not_isDots_of_listed (host.libs_listed lib hmem)
  obtain ⟨hentries, hcopied⟩ := copiedAll_libDir host.libs hreal hsound hsafe.ours hdots
  have hscp : Passes (scpLibs host.libs) true tree (copiedAll libDir host.libs tree) :=
    (passes_act (copiedAll libDir host.libs) false tree).orTrue true
  have hrealCopied := hcopied.realDir hreal
  have hsoundCopied : Sound (libEntries (copiedAll libDir host.libs tree)) :=
    hentries ▸ hsound.putAll host.libs
  obtain ⟨next, hlinks, hafter, hlinked⟩ := sonameLinks_libDir host.home false hrealCopied
    hsoundCopied fun name hlisted hentry =>
      hsafe.plain name hlisted ((arrives_iff hsound hsafe name).mp (hentries ▸ hentry))
  refine ⟨next, ?_, hcopied.trans hlinked, hlinked.realDir hrealCopied,
    hafter ▸ hsoundCopied.relinkAll _, fun lib hmem => ?_⟩
  · rw [Passes, copyLibraries, block_cons_of_passes _ (by simp) hscp]
    exact ⟨0, by simp [block, subshell, hlinks]⟩
  · rw [hafter, hentries]
    exact bytesOf_relinkAll hsound hsafe (hentries ▸ isLoopOver_libPath _) hmem

theorem copyLibraries_passes {made : List Path} (hprepared : Prepared before made tree)
    (hlib : libPath ∈ made) (hsafe : Safe host (libEntries before)) :
    ∃ next, Passes (copyLibraries host) true tree next ∧ Lawful host before next ∧ Tidy next := by
  rw [← hprepared.entries] at hsafe
  obtain ⟨next, hpasses, hsame, hreal, hsound, hbytes⟩ :=
    copyLibraries_libDir (hprepared.made libPath hlib) hprepared.tidy.libraries hsafe
  refine ⟨next, hpasses, ⟨?_, ?_⟩, hsame.tidy hprepared.tidy hsound⟩
  · intro place data houtside hfile
    rw [hsame]
    · exact hprepared.frame place data houtside hfile
    · rintro name rfl
      exact houtside ⟨[bytes "lib", name], by simp [libPath]⟩
  · intro lib hmem
    have hdots := not_isDots_of_listed (host.libs_listed lib hmem)
    exact contents_libDir hreal hsound hdots (hbytes lib hmem)

/-- A safe deployment on a tidy TV is lawful and leaves the TV tidy. -/
theorem deployed_of_safe (htidy : Tidy tree) (hsafe : Safe host (libEntries tree)) :
    Lawful host tree (deployed host tree) ∧ Tidy (deployed host tree) := by
  obtain ⟨hsober, hlaunch, hdiagnose⟩ := hsafe.complete
  obtain ⟨made, hdirectories, hmade⟩ := makeDirectories_passes htidy
  have hlisted : ∀ place ∈ [libPath, binPath], place ∈ directories := by decide
  obtain ⟨copied, hcopied, hbinaries⟩ := (keeps_copyBinaries hsober hlaunch hlisted (by simp)
    true : KeepsIn true 0 _ _).passes made hmade
  obtain ⟨scripted, hscripted, hscripts⟩ :=
    (keeps_copyScripts hdiagnose hlisted true : KeepsIn true 0 _ _).passes copied hcopied
  obtain ⟨next, ⟨status, hlibraries⟩, hlawful, hnext⟩ :=
    copyLibraries_passes hscripted (by simp) hsafe
  have hpresent : Passes (ifThen (test fun _ => host.sober.isNone) (Command.exit 1)) true
      tree tree :=
    ⟨0, by simp [ifThen, ifElse, Option.isSome_iff_ne_none.mp hsober]⟩
  have hconnected : Passes (orElse (test fun _ => host.connected) (Command.exit 1)) true
      tree tree :=
    ⟨0, by simp [orElse, hsafe.connected]⟩
  have hafter : deployed host tree = next := by
    rw [deployed, deploy, block_cons_of_passes _ (by simp) hpresent,
      block_cons_of_passes _ (by simp) hconnected, block_cons_of_passes _ (by simp) hdirectories,
      block_cons_of_passes _ (by simp) hbinaries, block_cons_of_passes _ (by simp) hscripts,
      block, hlibraries]
    rfl
  rw [hafter]
  exact ⟨hlawful, hnext⟩

end Deployment

end TizenRoblox.Deploy
