/-
# The deployment and its library directory

Where `lib/` is a directory reached without a link and holds what the deployment
and the launcher put there, the commands of the script do to it what is said of the
bare directory: `scp` puts the files (`copiedAll_libDir`), the loop links the
sonames (`sonameLinks_libDir`), and a name leads to the bytes that the directory
gives it (`contents_libDir`). No location elsewhere changes.
-/

import TizenRoblox.Deploy.Entries

namespace TizenRoblox.Deploy

open TizenRoblox.Foundation TizenRoblox.Posix TizenRoblox.Shell TizenRoblox.Shell.Command

/-- The location of `INSTALL_DIR`. -/
def installPath : Path := [bytes "opt", bytes "tizenroblox"]

def libPath : Path := installPath ++ [bytes "lib"]

/-- What `lib/` holds. -/
def libEntries (tree : Tree) : Entries := fun name => tree.node (libPath ++ [name])

/-- Two trees differ in the entries of `lib/` only. -/
def SameElsewhere (tree other : Tree) : Prop :=
  ∀ place, (∀ name, place ≠ libPath ++ [name]) → other.node place = tree.node place

theorem libDir_eq : libDir = .ofPath libPath := by decide

theorem libEntries_set (tree : Tree) (name : Name) (value : Node) :
    libEntries (tree.set (libPath ++ [name]) value) =
      Function.update (libEntries tree) name (some value) := by
  funext other
  by_cases hname : other = name
  · subst hname
    simp [libEntries]
  · simp [libEntries, hname]

theorem sameElsewhere_set (tree : Tree) (name : Name) (value : Node) :
    SameElsewhere tree (tree.set (libPath ++ [name]) value) :=
  fun _ hplace => Tree.node_set_of_ne tree value (hplace name)

theorem SameElsewhere.trans {tree middle other : Tree} (hfirst : SameElsewhere tree middle)
    (hsecond : SameElsewhere middle other) : SameElsewhere tree other :=
  fun place hplace => (hsecond place hplace).trans (hfirst place hplace)

/-- A prefix of the directory's own location is no entry of it. -/
theorem SameElsewhere.realDir {tree other : Tree} (hsame : SameElsewhere tree other)
    (hreal : tree.RealDir libPath) : other.RealDir libPath := by
  intro front last hfront
  obtain ⟨hdots, hdir⟩ := hreal front last hfront
  refine ⟨hdots, (hsame _ fun name heq => ?_).trans hdir⟩
  have hlength := hfront.length_le
  rw [heq, List.length_append] at hlength
  exact absurd hlength (by simp)

section Commands

variable {tree : Tree} {name : Name} {data : Bytes}

theorem writable_of_not_link (hsound : Sound (libEntries tree))
    (hlink : isLinkEntry (libEntries tree name) = false) : tree.Writable (libPath ++ [name]) := by
  have hentry := hsound name
  cases hnode : libEntries tree name with
  | none => exact Or.inl hnode
  | some node =>
      rw [hnode] at hentry hlink
      cases hentry with
      | file data => exact Or.inr ⟨data, hnode⟩
      | system target hsoname habsolute => cases hlink
      | neighbour file hsoname hne => cases hlink

/-- `scp` puts a file where its name lands. -/
theorem copied_libDir (data : Bytes) (hreal : tree.RealDir libPath)
    (hsound : Sound (libEntries tree)) (hours : Ours (libEntries tree) name)
    (hdots : ¬ IsDots name) :
    copied libDir name data tree =
      some (tree.set (libPath ++ [landing (libEntries tree) name]) (.file data)) := by
  have hwritable := writable_of_not_link hsound (hsound.not_link_landing hours)
  rw [copied, libDir_eq, hreal.isDirectory, if_pos rfl, hreal.write_child]
  cases hlink : isLinkEntry (libEntries tree name) with
  | false =>
      rw [landing_of_not_link hlink] at hwritable ⊢
      exact Tree.write_here data hreal.isDir hdots hwritable
  | true =>
      obtain ⟨file, hentry, hsoname, hne⟩ := hsound.neighbour_of_link hours hlink
      rw [landing_of_neighbour hentry] at hwritable ⊢
      refine Tree.write_through data hreal.isDir hdots (fun hdots' => ?_) hentry hwritable
      exact hne ((sonameOf_dots hdots').symm.trans hsoname)

theorem copiedAll_libDir (libs : List (Name × Bytes)) (hreal : tree.RealDir libPath)
    (hsound : Sound (libEntries tree)) (hours : ∀ lib ∈ libs, Ours (libEntries tree) lib.1)
    (hdots : ∀ lib ∈ libs, ¬ IsDots lib.1) :
    libEntries (copiedAll libDir libs tree) = putAll libs (libEntries tree) ∧
      SameElsewhere tree (copiedAll libDir libs tree) := by
  induction libs generalizing tree with
  | nil => exact ⟨rfl, fun _ _ => rfl⟩
  | cons lib rest ih =>
      have hcopied := copied_libDir lib.2 hreal hsound (hours lib (by simp)) (hdots lib (by simp))
      have hentries : libEntries (tree.set (libPath ++ [landing (libEntries tree) lib.1])
          (.file lib.2)) = put (libEntries tree) lib :=
        libEntries_set tree _ _
      have hsame := sameElsewhere_set tree (landing (libEntries tree) lib.1) (.file lib.2)
      rw [copiedAll, hcopied, Option.getD_some]
      have hrest := ih (hsame.realDir hreal) (hentries ▸ hsound.put lib)
        (fun later hlater => hentries ▸ (hours later (by simp [hlater])).put)
        fun later hlater => hdots later (by simp [hlater])
      rw [hentries] at hrest
      exact ⟨hrest.1, hsame.trans hrest.2⟩

theorem isLink_libPath (hreal : tree.RealDir libPath) (hdots : ¬ IsDots name) :
    tree.isLink libPath (.here name) = isLinkEntry (libEntries tree name) := by
  rw [Tree.isLink, Tree.lstat, Tree.entry_here hreal.isDir hdots]
  rfl

/-- One turn of the loop links one soname. -/
theorem linkSoname_libPath (strict : Bool) (hreal : tree.RealDir libPath)
    (hsound : Sound (libEntries tree)) (hdots : ¬ IsDots name)
    (hecho : echoWords (tree.children libPath) name = name)
    (hpresent : sonameOf name = name → libEntries tree name ≠ none) :
    ∃ next, linkSoname libPath name strict tree = .done 0 next ∧
      libEntries next = relink (libEntries tree) name ∧ SameElsewhere tree next := by
  have hsoname : ¬ IsDots (sonameOf name) := by
    by_cases hself : sonameOf name = name
    · rwa [hself]
    · exact not_isDots_sonameOf hself
  have htest := isLink_libPath hreal hsoname
  cases hlink : isLinkEntry (libEntries tree (sonameOf name)) with
  | true =>
      rw [hlink] at htest
      refine ⟨tree, ?_, by simp [relink, hlink], fun _ _ => rfl⟩
      simp [linkSoname, hecho, orTrue, orElse, andThen, htest]
  | false =>
      rw [hlink] at htest
      have hwritable := writable_of_not_link hsound hlink
      by_cases hself : sonameOf name = name
      · rw [hself] at hwritable hlink htest
        have hlnSf := Tree.lnSf_here hreal.isDir hdots hdots hwritable.not_link hwritable
        rw [if_pos ⟨rfl, hpresent hself⟩] at hlnSf
        refine ⟨tree, ?_, by simp [relink, hself], fun _ _ => rfl⟩
        simp [linkSoname, hecho, hself, orTrue, orElse, andThen, htest, attempt, simple, hlnSf]
      · have hname := writable_of_not_link hsound (hsound.not_link_of_longer hself)
        have hlnSf := Tree.lnSf_here hreal.isDir hsoname hdots hname.not_link hwritable
        rw [if_neg fun hboth => hself hboth.1.symm] at hlnSf
        refine ⟨_, ?_, ?_, sameElsewhere_set tree (sonameOf name) (.link (.here name))⟩
        · simp [linkSoname, hecho, orTrue, orElse, andThen, htest, attempt, simple, hlnSf]
        · rw [libEntries_set, relink, if_neg (by simp [hself, hlink])]

theorem forFrom_linkSoname (names : List Name) (strict : Bool) (hreal : tree.RealDir libPath)
    (hsound : Sound (libEntries tree)) (hdots : ∀ name ∈ names, ¬ IsDots name)
    (hplain : ∀ name ∈ names, IsPlainWord name)
    (hpresent : ∀ name ∈ names, libEntries tree name ≠ none) :
    ∃ next, forFrom (linkSoname libPath) 0 names strict tree = .done 0 next ∧
      libEntries next = relinkAll names (libEntries tree) ∧ SameElsewhere tree next := by
  induction names generalizing tree with
  | nil => exact ⟨tree, rfl, rfl, fun _ _ => rfl⟩
  | cons name rest ih =>
      obtain ⟨middle, hturn, hentries, hsame⟩ := linkSoname_libPath strict hreal hsound
        (hdots name (by simp)) ((hplain name (by simp)).echoWords _)
        fun _ => hpresent name (by simp)
      obtain ⟨next, hloop, hafter, helsewhere⟩ := ih (hsame.realDir hreal)
        (hentries ▸ hsound.relink name) (fun later hlater => hdots later (by simp [hlater]))
        (fun later hlater => hplain later (by simp [hlater])) fun later hlater => by
          rw [hentries]
          exact relink_ne_none (hpresent later (by simp [hlater]))
      refine ⟨next, ?_, by rw [hafter, hentries]; rfl, hsame.trans helsewhere⟩
      rw [forFrom, hturn]
      exact hloop

theorem not_isDots_of_listed {pattern : Bytes} (hlisted : isListed pattern name = true) :
    ¬ IsDots name := by
  rintro (rfl | rfl)
  · simp [isListed, show dot.head? = some 46 from by decide] at hlisted
  · simp [isListed, show dotdot.head? = some 46 from by decide] at hlisted

theorem workingDirectory_eq (home : Path) (hreal : tree.RealDir libPath) :
    workingDirectory home tree = libPath := by
  rw [workingDirectory, libDir_eq, hreal.isDirectory, if_pos rfl, hreal.locate, Option.getD_some]

private theorem expandWord_versionPattern (names : List Name) :
    expandWord names versionPattern =
      if names.filter (isListed versionPattern) ≠ [] then names.filter (isListed versionPattern)
      else [versionPattern] := by
  have hpattern : versionPattern.any (· ∈ patternBytes) = true := by decide
  have hhead : decide (versionPattern.head? = some 46) = false := by decide
  simp only [expandWord, hpattern, hhead, Bool.or_false, true_and]
  rfl

/-- The loop runs over what its pattern stands for in `lib/`. -/
theorem isLoopOver_libPath (tree : Tree) :
    IsLoopOver (expandWord (tree.children libPath) versionPattern) (libEntries tree) := by
  rw [expandWord_versionPattern]
  split
  · refine Or.inl ⟨(tree.children_pairwise libPath).filter _, fun name => ?_⟩
    rw [List.mem_filter, Tree.mem_children]
    exact and_comm
  · next hempty =>
      refine Or.inr ⟨rfl, fun name hlisted => ?_⟩
      have hnone := not_not.mp hempty
      rw [List.filter_eq_nil_iff] at hnone
      by_contra hentry
      exact hnone name ((Tree.mem_children tree libPath name).mpr hentry) hlisted

/-- The loop links the sonames, and ends. -/
theorem sonameLinks_libDir (home : Path) (strict : Bool) (hreal : tree.RealDir libPath)
    (hsound : Sound (libEntries tree))
    (hplain : ∀ name, isListed versionPattern name = true → libEntries tree name ≠ none →
      IsPlainWord name) :
    ∃ next, sonameLinks home strict tree = .done 0 next ∧
      libEntries next = relinkAll (expandWord (tree.children libPath) versionPattern)
        (libEntries tree) ∧ SameElsewhere tree next := by
  have hstart : sonameLinks home strict tree =
      forFrom (linkSoname libPath) 0 (expandWord (tree.children libPath) versionPattern)
        strict tree := by
    simp only [sonameLinks, workingDirectory_eq home hreal]
    rfl
  rw [hstart]
  rcases isLoopOver_libPath tree with ⟨_, hnames⟩ | ⟨hpattern, hnone⟩
  · exact forFrom_linkSoname _ strict hreal hsound
      (fun name hname => not_isDots_of_listed ((hnames name).mp hname).1)
      (fun name hname => hplain name ((hnames name).mp hname).1 ((hnames name).mp hname).2)
      fun name hname => ((hnames name).mp hname).2
  · -- nothing matches, and the loop makes one turn with the pattern
    have hecho : echoWords (tree.children libPath) versionPattern = versionPattern := by
      have hfields : fieldsOf versionPattern = [versionPattern] := by decide
      have hoption : isEchoOption versionPattern = false := by decide
      simp [echoWords, hfields, hpattern, hoption, joinArguments]
    obtain ⟨next, hturn, hentries, hsame⟩ := linkSoname_libPath strict hreal hsound
      (by decide) hecho (fun hself => absurd hself (by decide))
    rw [hpattern]
    refine ⟨next, ?_, hentries, hsame⟩
    rw [forFrom, hturn]
    rfl

/-- A name of `lib/` leads to the bytes the directory gives it. -/
theorem contents_libDir (hreal : tree.RealDir libPath) (hsound : Sound (libEntries tree))
    (hdots : ¬ IsDots name) (hbytes : bytesOf (libEntries tree) name = some data) :
    tree.contents [] (libDir.child name) = some data := by
  have hfile : libEntries tree (landing (libEntries tree) name) = some (.file data) := by
    unfold bytesOf at hbytes
    split at hbytes
    · next hentry =>
        rw [hentry]
        simpa using hbytes
    · cases hbytes
  have hlocate : tree.locate libPath (.here name) =
      some (libPath ++ [landing (libEntries tree) name]) := by
    cases hlink : isLinkEntry (libEntries tree name) with
    | false =>
        rw [landing_of_not_link hlink]
        exact Tree.locate_here hreal.isDir hdots (writable_of_not_link hsound hlink).not_link
    | true =>
        have hours : Ours (libEntries tree) name := by
          intro target htarget
          by_contra habsolute
          have hself : landing (libEntries tree) name = name := by
            unfold landing
            split
            · next hentry =>
                rw [hentry] at htarget
                cases htarget
                simp at habsolute
            · rfl
          rw [hself, htarget] at hfile
          cases hfile
        obtain ⟨file, hentry, hsoname, hne⟩ := hsound.neighbour_of_link hours hlink
        have hwritable := writable_of_not_link hsound (hsound.not_link_landing hours)
        rw [landing_of_neighbour hentry] at hwritable ⊢
        refine Tree.locate_here_of_link hreal.isDir hdots (fun hdots' => ?_) hentry
          hwritable.not_link
        exact hne ((sonameOf_dots hdots').symm.trans hsoname)
  rw [libDir_eq, hreal.contents_child]
  exact Tree.contents_of_locate hlocate hfile

end Commands

end TizenRoblox.Deploy
