/-
# Directories reached without a link

Where every directory on the way to a location is a directory and no link, the
location is where its own pathname leads, and what happens to its entries is
decided by the nodes of these entries alone: a name that is no link is written in
place, a link to a neighbour is written through, `ln -sf` replaces the entry, and
`mkdir -p` creates what is missing on the way and touches nothing else.
-/

import TizenRoblox.Posix.Tree

namespace TizenRoblox.Posix

open TizenRoblox.Foundation

/-- The name of an entry of the working directory. -/
def Pathname.here (name : Name) : Pathname where
  absolute := false
  parts := [name]

/-- A name that resolution interprets. -/
def IsDots (name : Name) : Prop := name = dot ∨ name = dotdot

instance (name : Name) : Decidable (IsDots name) := inferInstanceAs (Decidable (_ ∨ _))

namespace Tree

/-- Every directory on the way to a location, itself included, is one. -/
def RealDir (tree : Tree) (place : Path) : Prop :=
  ∀ front name, front ++ [name] <+: place →
    ¬ IsDots name ∧ tree.node (front ++ [name]) = some .dir

/-- Every directory on the way to a location, itself included, is one or can be
made. -/
def ClearDir (tree : Tree) (place : Path) : Prop :=
  ∀ front name, front ++ [name] <+: place →
    ¬ IsDots name ∧ (tree.node (front ++ [name]) = none ∨ tree.node (front ++ [name]) = some .dir)

/-- A location that can be written as a regular file. -/
def Writable (tree : Tree) (place : Path) : Prop :=
  tree.node place = none ∨ ∃ data, tree.node place = some (.file data)

theorem Writable.not_link {tree : Tree} {place : Path} (hwritable : tree.Writable place)
    (target : Pathname) : tree.node place ≠ some (.link target) := by
  rcases hwritable with hnone | ⟨data, hfile⟩ <;> simp [*]

section Real

variable {tree : Tree} {place : Path} {name : Name} {cwd : Path}

theorem RealDir.isDir (hreal : tree.RealDir place) : tree.isDir place = true := by
  rcases List.eq_nil_or_concat place with rfl | ⟨front, last, rfl⟩
  · rfl
  · rw [List.concat_eq_append] at hreal ⊢
    simp [Tree.isDir, (hreal front last (List.prefix_refl _)).2]

private theorem walkWith_real {follow : Path → List Name → Option Path} (current path rest : Path)
    (hreal : tree.RealDir (current ++ path)) :
    walkWith tree follow current (path ++ rest) = walkWith tree follow (current ++ path) rest := by
  induction path generalizing current with
  | nil => simp
  | cons name path ih =>
      have hhere := hreal current name ⟨path, by simp⟩
      have hdots := not_or.mp hhere.1
      have hnext := ih (current ++ [name]) (by simpa using hreal)
      simp only [List.cons_append, walkWith, if_neg hdots.1, if_neg hdots.2, hhere.2]
      simpa using hnext

/-- Resolution goes down a real directory component by component. -/
theorem walk_real (links : ℕ) (hreal : tree.RealDir place) (rest : Path) :
    walk tree links [] (place ++ rest) = walk tree links place rest := by
  cases links with
  | zero => exact walkWith_real [] place rest hreal
  | succ links => exact walkWith_real [] place rest hreal

theorem RealDir.locate (hreal : tree.RealDir place) :
    tree.locate cwd (.ofPath place) = some place := by
  have hwalk := walk_real linkLimit hreal []
  rw [List.append_nil] at hwalk
  exact hwalk

/-- A directory of the root. -/
theorem realDir_singleton (hdots : ¬ IsDots name) (hnode : tree.node [name] = some .dir) :
    tree.RealDir [name] := by
  intro front last hfront
  rcases List.prefix_cons_iff.mp hfront with hnil | ⟨rest, hcons, hrest⟩
  · simp at hnil
  · rw [List.prefix_nil.mp hrest] at hcons
    obtain ⟨rfl, hlast⟩ : front = [] ∧ [last] = [name] :=
      List.append_inj' (hcons.trans (List.nil_append _).symm) rfl
    rw [List.singleton_inj.mp hlast]
    exact ⟨hdots, hnode⟩

/-- An entry of a real directory is the same from outside as from inside. -/
theorem RealDir.locate_child (hreal : tree.RealDir place) :
    tree.locate cwd ((Pathname.ofPath place).child name) = tree.locate place (.here name) :=
  walk_real linkLimit hreal [name]

theorem RealDir.write_child (data : Bytes) (hreal : tree.RealDir place) :
    tree.write cwd ((Pathname.ofPath place).child name) data =
      tree.write place (.here name) data := by
  rw [write, hreal.locate_child]
  rfl

theorem RealDir.contents_child (hreal : tree.RealDir place) :
    tree.contents cwd ((Pathname.ofPath place).child name) = tree.contents place (.here name) := by
  rw [contents, contents, stat, stat, hreal.locate_child]

theorem RealDir.isDirectory (hreal : tree.RealDir place) :
    tree.isDirectory cwd (.ofPath place) = true := by
  have hisDir := hreal.isDir
  unfold Tree.isDirectory stat
  rw [hreal.locate]
  cases place with
  | nil => rfl
  | cons head rest => simpa [Tree.isDir] using hisDir

theorem RealDir.entry_child (hreal : tree.RealDir place) (hdots : ¬ IsDots name) :
    tree.entry cwd ((Pathname.ofPath place).child name) = some (place ++ [name]) := by
  have hlocate : tree.locate cwd ⟨true, place⟩ = some place := hreal.locate
  unfold IsDots at hdots
  simp [entry, Pathname.child, Pathname.ofPath, hdots, hlocate, hreal.isDir]

/-- A place below a directory is none of the places on the way to it. -/
private theorem front_ne_child {front : Path} (hfront : front <+: place) :
    front ≠ place ++ [name] := by
  intro heq
  have hlength := hfront.length_le
  rw [heq, List.length_append] at hlength
  exact absurd hlength (by simp)

/-- Replacing an entry leaves its directory where it is. -/
theorem RealDir.set (hreal : tree.RealDir place) (name : Name) (value : Node) :
    (tree.set (place ++ [name]) value).RealDir place := by
  intro front last hfront
  refine ⟨(hreal front last hfront).1, ?_⟩
  rw [node_set_of_ne _ _ (front_ne_child hfront), (hreal front last hfront).2]

/-- Removing an entry leaves its directory where it is. -/
theorem RealDir.erase (hreal : tree.RealDir place) (name : Name) :
    (tree.erase (place ++ [name])).RealDir place := by
  intro front last hfront
  refine ⟨(hreal front last hfront).1, ?_⟩
  rw [node_erase, if_neg (front_ne_child hfront), (hreal front last hfront).2]

theorem entry_here (hisDir : tree.isDir place = true) (hdots : ¬ IsDots name) :
    tree.entry place (.here name) = some (place ++ [name]) := by
  have hplace : tree.locate place { Pathname.here name with parts := [] } = some place := rfl
  unfold IsDots at hdots
  simp [entry, Pathname.here, hdots, show tree.locate place ⟨false, []⟩ = some place from hplace,
    hisDir]

/-- An entry that is no link is where its name leads. -/
theorem locate_here (hisDir : tree.isDir place = true) (hdots : ¬ IsDots name)
    (hlink : ∀ target, tree.node (place ++ [name]) ≠ some (.link target)) :
    tree.locate place (.here name) = some (place ++ [name]) :=
  locate_of_entry (entry_here hisDir hdots) hlink

private theorem walk_of_link {target : Name} (links : ℕ) (hisDir : tree.isDir place = true)
    (hdots : ¬ IsDots name) (hdots' : ¬ IsDots target)
    (hlink : tree.node (place ++ [name]) = some (.link (.here target)))
    (htarget : ∀ other, tree.node (place ++ [target]) ≠ some (.link other)) :
    walk tree (links + 1) place [name] = some (place ++ [target]) := by
  have hname := not_or.mp hdots
  have hnext : walk tree links place ([] ++ [target]) = some (place ++ [target]) := by
    apply walk_snoc hisDir hdots' htarget
    cases links <;> rfl
  simp only [walk, walkWith, if_neg hname.1, if_neg hname.2, hlink]
  exact hnext

/-- A link to a neighbour leads where the neighbour's name leads, if that is no
link. -/
theorem locate_here_of_link {target : Name} (hisDir : tree.isDir place = true)
    (hdots : ¬ IsDots name) (hdots' : ¬ IsDots target)
    (hlink : tree.node (place ++ [name]) = some (.link (.here target)))
    (htarget : ∀ other, tree.node (place ++ [target]) ≠ some (.link other)) :
    tree.locate place (.here name) = some (place ++ [target]) :=
  walk_of_link 39 hisDir hdots hdots' hlink htarget

end Real

/-! ## Making directories -/

/-- What `mkdir -p` does for one directory on the way. -/
def makeDir (tree : Tree) (cwd : Path) (name : Pathname) : Tree :=
  match tree.locate cwd name with
  | none => tree
  | some place => if place = [] ∨ tree.node place ≠ none then tree else tree.set place .dir

private theorem mkdirP_snoc (tree : Tree) (cwd place : Path) (name : Name) :
    tree.mkdirP cwd (.ofPath (place ++ [name])) =
      makeDir (tree.mkdirP cwd (.ofPath place)) cwd (.ofPath (place ++ [name])) := by
  have hinits : (place ++ [name]).inits.drop 1 = place.inits.drop 1 ++ [place ++ [name]] := by
    rw [List.inits_append]
    cases place <;> simp
  simp only [mkdirP, Pathname.ofPath, hinits, List.foldl_append]
  rfl

/-- On the way to an entry are the entry and what is on the way to its directory. -/
private theorem onTheWay_snoc_iff {other place : Path} {name : Name} :
    (other ≠ [] ∧ other <+: place ++ [name]) ↔
      other = place ++ [name] ∨ (other ≠ [] ∧ other <+: place) := by
  rw [List.prefix_concat_iff]
  constructor
  · rintro ⟨hne, heq | hpre⟩
    · exact Or.inl heq
    · exact Or.inr ⟨hne, hpre⟩
  · rintro (heq | ⟨hne, hpre⟩)
    · exact ⟨by simp [heq], Or.inl heq⟩
    · exact ⟨hne, Or.inr hpre⟩

section Making

variable {tree : Tree} {cwd place : Path}

/-- `mkdir -p` makes a directory of every location on a clear way, and touches
nothing else. -/
theorem mkdirP_of_clear (hclear : tree.ClearDir place) :
    (tree.mkdirP cwd (.ofPath place)).RealDir place ∧
      ∀ other, (tree.mkdirP cwd (.ofPath place)).node other =
        if other ≠ [] ∧ other <+: place then some .dir else tree.node other := by
  suffices hnode : ∀ other, (tree.mkdirP cwd (.ofPath place)).node other =
      if other ≠ [] ∧ other <+: place then some .dir else tree.node other by
    refine ⟨fun front name hfront => ⟨(hclear front name hfront).1, ?_⟩, hnode⟩
    rw [hnode, if_pos ⟨by simp, hfront⟩]
  induction place using List.reverseRecOn with
  | nil => intro other; simp [mkdirP, Pathname.ofPath]
  | append_singleton place name ih =>
      have hbefore := ih fun front last hfront =>
        hclear front last (hfront.trans (List.prefix_append _ _))
      obtain ⟨hdots, hlast⟩ := hclear place name (List.prefix_refl _)
      have hreal : (tree.mkdirP cwd (.ofPath place)).RealDir place := fun front last hfront =>
        ⟨(hclear front last (hfront.trans (List.prefix_append _ _))).1, by
          rw [hbefore, if_pos ⟨by simp, hfront⟩]⟩
      have hkept : (tree.mkdirP cwd (.ofPath place)).node (place ++ [name]) =
          tree.node (place ++ [name]) := by
        rw [hbefore, if_neg]
        rintro ⟨_, hprefix⟩
        exact absurd hprefix.length_le (by simp)
      have hlocate : (tree.mkdirP cwd (.ofPath place)).locate cwd (.ofPath (place ++ [name])) =
          some (place ++ [name]) := by
        refine Eq.trans hreal.locate_child (locate_here hreal.isDir hdots fun target => ?_)
        rw [hkept]
        rcases hlast with hnone | hdir
        · simp [hnone]
        · simp [hdir]
      intro other
      rw [mkdirP_snoc, makeDir, hlocate]
      simp only [List.append_eq_nil_iff, List.cons_ne_nil, and_false, false_or, hkept,
        onTheWay_snoc_iff]
      rcases hlast with hnone | hdir
      · rw [if_neg (by simp [hnone]), node_set, hbefore]
        by_cases heq : other = place ++ [name] <;> simp [heq]
      · rw [if_pos (by simp [hdir]), hbefore]
        by_cases heq : other = place ++ [name]
        · simp [heq, hdir]
        · simp [heq]

theorem RealDir.mkdirP {made : Path} (hreal : tree.RealDir made) (hclear : tree.ClearDir place) :
    (tree.mkdirP cwd (.ofPath place)).RealDir made := by
  intro front name hfront
  refine ⟨(hreal front name hfront).1, ?_⟩
  rw [(mkdirP_of_clear hclear).2]
  split
  · rfl
  · exact (hreal front name hfront).2

theorem ClearDir.mkdirP {other : Path} (hother : tree.ClearDir other)
    (hclear : tree.ClearDir place) : (tree.mkdirP cwd (.ofPath place)).ClearDir other := by
  intro front name hfront
  refine ⟨(hother front name hfront).1, ?_⟩
  rw [(mkdirP_of_clear hclear).2]
  split
  · exact Or.inr rfl
  · exact (hother front name hfront).2

/-- No file is where a directory is or can be made. -/
theorem mkdirP_node_of_file {other : Path} {data : Bytes} (hclear : tree.ClearDir place)
    (hfile : tree.node other = some (.file data)) :
    (tree.mkdirP cwd (.ofPath place)).node other = some (.file data) := by
  rw [(mkdirP_of_clear hclear).2, if_neg, hfile]
  rintro ⟨hne, hprefix⟩
  obtain ⟨front, name, rfl⟩ := List.eq_nil_or_concat' other |>.resolve_left hne
  rcases (hclear front name hprefix).2 with hnone | hdir <;> simp_all

end Making

/-! ## The entries of a directory -/

section Entries

variable {tree : Tree} {place : Path} {name target : Name}

theorem mem_children (tree : Tree) (place : Path) (name : Name) :
    name ∈ tree.children place ↔ tree.node (place ++ [name]) ≠ none := by
  have hsplit : ∀ path : Path, (if path.dropLast = place then path.getLast? else none) = some name ↔
      path = place ++ [name] := by
    intro path
    constructor
    · intro hlast
      split at hlast
      · next hdrop =>
          rw [← hdrop]
          exact (List.dropLast_append_getLast? name hlast).symm
      · cases hlast
    · rintro rfl
      simp
  rw [children, List.mem_insertionSort, List.mem_dedup, List.mem_filterMap, node, Ne,
    List.lookup_eq_none_iff]
  simp only [hsplit, not_forall]
  constructor
  · rintro ⟨entry, hentry, heq⟩
    exact ⟨entry, hentry, by simp [heq]⟩
  · rintro ⟨entry, hentry, heq⟩
    have hsame : place ++ [name] = entry.1 := by simpa using heq
    exact ⟨entry, hentry, hsame.symm⟩

/-- Names come in the order of their bytes. -/
theorem children_pairwise (tree : Tree) (place : Path) :
    (tree.children place).Pairwise (· ≤ ·) :=
  List.pairwise_insertionSort (· ≤ ·) _

/-- What a name leads to is written, if it can be. -/
theorem write_of_locate {cwd : Path} {pathname : Pathname} (data : Bytes)
    (hlocate : tree.locate cwd pathname = some (place ++ [name]))
    (hwritable : tree.Writable (place ++ [name])) :
    tree.write cwd pathname data = some (tree.set (place ++ [name]) (.file data)) := by
  rw [write, hlocate]
  rcases hwritable with hnone | ⟨old, hold⟩ <;> simp [Tree.isDir, *]

/-- What a name leads to is what it holds. -/
theorem contents_of_locate {cwd : Path} {pathname : Pathname} {data : Bytes}
    (hlocate : tree.locate cwd pathname = some (place ++ [name]))
    (hfile : tree.node (place ++ [name]) = some (.file data)) :
    tree.contents cwd pathname = some data := by
  have hstat : tree.stat cwd pathname = some (.file data) := by
    rw [stat_of_locate hlocate, if_neg (by simp), hfile]
  rw [contents, hstat]

/-- An entry of a real directory that is no link is where its name leads. -/
theorem RealDir.locate_child_of_not_link {cwd : Path} (hreal : tree.RealDir place)
    (hdots : ¬ IsDots name) (hlink : ∀ target, tree.node (place ++ [name]) ≠ some (.link target)) :
    tree.locate cwd ((Pathname.ofPath place).child name) = some (place ++ [name]) :=
  hreal.locate_child.trans (locate_here hreal.isDir hdots hlink)

/-- To write an entry that is no link sets it or leaves the tree alone. -/
theorem RealDir.write_child_eq {cwd : Path} {data : Bytes} {next : Tree}
    (hreal : tree.RealDir place) (hdots : ¬ IsDots name)
    (hlink : ∀ target, tree.node (place ++ [name]) ≠ some (.link target))
    (hnext : tree.write cwd ((Pathname.ofPath place).child name) data = some next) :
    next = tree ∨ next = tree.set (place ++ [name]) (.file data) := by
  rw [write, hreal.locate_child_of_not_link hdots hlink] at hnext
  simp only at hnext
  split_ifs at hnext
  · exact .inl (Option.some.inj hnext).symm
  · exact .inr (Option.some.inj hnext).symm

theorem RealDir.rmF_child_eq {cwd : Path} {next : Tree} (hreal : tree.RealDir place)
    (hdots : ¬ IsDots name)
    (hnext : tree.rmF cwd ((Pathname.ofPath place).child name) = some next) :
    next = tree.erase (place ++ [name]) := by
  simp only [rmF, hreal.entry_child hdots] at hnext
  split_ifs at hnext
  exact (Option.some.inj hnext).symm

/-- What an entry that is no link leads to is what it holds. -/
theorem RealDir.stat_child {cwd : Path} (hreal : tree.RealDir place) (hdots : ¬ IsDots name)
    (hlink : ∀ target, tree.node (place ++ [name]) ≠ some (.link target)) :
    tree.stat cwd ((Pathname.ofPath place).child name) = tree.node (place ++ [name]) := by
  rw [stat_of_locate (hreal.locate_child_of_not_link hdots hlink), if_neg (by simp)]

/-- What an entry that is no link holds. -/
theorem RealDir.node_of_contents {cwd : Path} {data : Bytes} (hreal : tree.RealDir place)
    (hdots : ¬ IsDots name) (hlink : ∀ target, tree.node (place ++ [name]) ≠ some (.link target))
    (hdata : tree.contents cwd ((Pathname.ofPath place).child name) = some data) :
    tree.node (place ++ [name]) = some (.file data) := by
  rw [contents, hreal.stat_child hdots hlink] at hdata
  split at hdata
  · next hnode => rw [hnode, Option.some.inj hdata]
  · cases hdata

/-- An entry that can be written as a regular file can be removed. -/
theorem RealDir.rmF_of_writable {cwd : Path} (hreal : tree.RealDir place) (hdots : ¬ IsDots name)
    (hwritable : tree.Writable (place ++ [name])) :
    tree.rmF cwd ((Pathname.ofPath place).child name) = some (tree.erase (place ++ [name])) := by
  have hfile : tree.node (place ++ [name]) ≠ some .dir := by
    rcases hwritable with hnone | ⟨data, hdata⟩ <;> simp [*]
  simp [rmF, hreal.entry_child hdots, hfile]

/-- What has been written into a real directory is there. -/
theorem RealDir.contents_write {cwd : Path} (data : Bytes) (hreal : tree.RealDir place)
    (hdots : ¬ IsDots name) (hwritable : tree.Writable (place ++ [name])) :
    ∃ next, tree.write cwd ((Pathname.ofPath place).child name) data = some next ∧
      next.contents cwd ((Pathname.ofPath place).child name) = some data := by
  have hlocate : tree.locate place (.here name) = some (place ++ [name]) :=
    locate_here hreal.isDir hdots hwritable.not_link
  have hafter := hreal.set name (.file data)
  have hfile : (tree.set (place ++ [name]) (.file data)).node (place ++ [name]) =
      some (.file data) := node_set_self ..
  refine ⟨tree.set (place ++ [name]) (.file data), ?_, ?_⟩
  · rw [hreal.write_child, write_of_locate data hlocate hwritable]
  · rw [hafter.contents_child]
    exact contents_of_locate
      (locate_here hafter.isDir hdots (Writable.not_link (Or.inr ⟨data, hfile⟩))) hfile

/-- What `rm -f` has removed from a real directory is not there. -/
theorem RealDir.contents_rmF {cwd : Path} {next : Tree} (hreal : tree.RealDir place)
    (hdots : ¬ IsDots name)
    (hnext : tree.rmF cwd ((Pathname.ofPath place).child name) = some next) :
    next.contents cwd ((Pathname.ofPath place).child name) = none := by
  have hmissing : (tree.erase (place ++ [name])).node (place ++ [name]) = none := by
    simp [node_erase]
  rw [hreal.rmF_child_eq hdots hnext, Option.eq_none_iff_forall_ne_some]
  intro data hdata
  have hnode := (hreal.erase name).node_of_contents hdots (by simp [hmissing]) hdata
  simp [hmissing] at hnode

/-- A name that is no link is written in place. -/
theorem write_here (data : Bytes) (hisDir : tree.isDir place = true) (hdots : ¬ IsDots name)
    (hwritable : tree.Writable (place ++ [name])) :
    tree.write place (.here name) data = some (tree.set (place ++ [name]) (.file data)) :=
  write_of_locate data (locate_here hisDir hdots hwritable.not_link) hwritable

/-- A link to a neighbour is written through. -/
theorem write_through (data : Bytes) (hisDir : tree.isDir place = true) (hdots : ¬ IsDots name)
    (hdots' : ¬ IsDots target) (hlink : tree.node (place ++ [name]) = some (.link (.here target)))
    (hwritable : tree.Writable (place ++ [target])) :
    tree.write place (.here name) data = some (tree.set (place ++ [target]) (.file data)) :=
  write_of_locate data (locate_here_of_link hisDir hdots hdots' hlink hwritable.not_link) hwritable

/-- `ln -sf source name` in a directory replaces an entry by a link to a neighbour
that is no link, unless they are the same entry. -/
theorem lnSf_here {source : Name} (hisDir : tree.isDir place = true) (hdots : ¬ IsDots name)
    (hdots' : ¬ IsDots source)
    (hsource : ∀ other, tree.node (place ++ [source]) ≠ some (.link other))
    (hwritable : tree.Writable (place ++ [name])) :
    tree.lnSf place (.here source) (.here name) =
      if source = name ∧ tree.node (place ++ [name]) ≠ none then none
      else some (tree.set (place ++ [name]) (.link (.here source))) := by
  have hnodir : tree.node (place ++ [name]) ≠ some .dir := by
    rcases hwritable with hnone | ⟨old, hold⟩ <;> simp [*]
  have hstat : tree.stat place (.here name) = tree.node (place ++ [name]) := by
    rw [stat_of_locate (locate_here hisDir hdots hwritable.not_link), if_neg (by simp)]
  have hdestination :
      tree.destination place (.here source) (.here name) = some (place ++ [name]) := by
    rw [destination, isDirectory, hstat, if_neg (by simpa using hnodir), entry_here hisDir hdots]
  rw [lnSf, hdestination, locate_here hisDir hdots' hsource]
  simp [hnodir]

/-- All that `ln -sf` does is put its link at an entry with the last name of the
source or of the target. -/
theorem lnSf_eq_some {cwd : Path} {source destination : Pathname} {next : Tree}
    (hnext : tree.lnSf cwd source destination = some next) :
    ∃ directory last, next = tree.set (directory ++ [last]) (.link source) ∧
      (destination.parts.getLast? = some last ∨ source.parts.getLast? = some last) := by
  unfold lnSf at hnext
  split at hnext
  · cases hnext
  · next place hplace =>
      have hlast : ∃ directory last, place = directory ++ [last] ∧
          (destination.parts.getLast? = some last ∨ source.parts.getLast? = some last) := by
        unfold Tree.destination at hplace
        split at hplace
        · obtain ⟨own, hown, hentry⟩ := Option.bind_eq_some_iff.mp hplace
          obtain ⟨directory, last, hlast, hsplit, -⟩ := entry_eq_some hentry
          have hsame : own = last := by simpa [Pathname.child] using hlast
          exact ⟨directory, last, hsplit, Or.inr (hsame ▸ hown)⟩
        · obtain ⟨directory, last, hlast, hsplit, -⟩ := entry_eq_some hplace
          exact ⟨directory, last, hsplit, Or.inl hlast⟩
      obtain ⟨directory, last, rfl, hnames⟩ := hlast
      split at hnext
      · cases hnext
      · split at hnext
        · cases hnext
        · exact ⟨directory, last, (Option.some.inj hnext).symm, hnames⟩

end Entries

end Tree

end TizenRoblox.Posix
