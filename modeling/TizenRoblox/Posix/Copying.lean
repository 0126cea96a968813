/-
# Copying files

`cp` writes what its source leads to under the name of its target, and through a link that
has this name. A regular file makes no difference to a resolution, so where names lead stays
as it is while files are written in place (`locate_set_file`).

From a real directory a relative name leads where the absolute one leads through it, and
names whose links are all to neighbours of theirs lead to neighbours (`walk_neighbours`).
-/

import TizenRoblox.Posix.Subtree

namespace TizenRoblox.Posix

open TizenRoblox.Foundation

/-- The relative pathname with these components. -/
def Pathname.relative (parts : List Name) : Pathname where
  absolute := false
  parts := parts

namespace Tree

/-! ## Commands -/

/-- Bytes are written under a name, but not through a link that leads nowhere. -/
def overwrite (tree : Tree) (cwd : Path) (name : Pathname) (data : Bytes) : Option Tree :=
  if tree.isLink cwd name && (tree.stat cwd name).isNone then none else tree.write cwd name data

/-- The bytes that the source leads to are written under another name, unless that leads to
the source. -/
def copyAs (tree : Tree) (cwd : Path) (source name : Pathname) : Option Tree :=
  (tree.contents cwd source).bind fun data =>
    if tree.locate cwd source = tree.locate cwd name then none else tree.overwrite cwd name data

/-- `cp source directory/` -/
def copyInto (tree : Tree) (cwd : Path) (source directory : Pathname) : Option Tree :=
  if tree.isDirectory cwd directory then
    source.parts.getLast?.bind fun last => tree.copyAs cwd source (directory.child last)
  else none

/-- `cp source target`: a directory takes the file under its own name. -/
def copyTo (tree : Tree) (cwd : Path) (source target : Pathname) : Option Tree :=
  if tree.isDirectory cwd target then tree.copyInto cwd source target
  else tree.copyAs cwd source target

/-- The bytes of the regular file at a place. -/
def fileAt (tree : Tree) (place : Path) : Option Bytes :=
  match tree.node place with
  | some (.file data) => some data
  | _ => none

/-! ## Names that lead to the same place -/

section Names

variable {tree : Tree} {cwd other : Path} {name target : Pathname}

theorem stat_of_locate_eq (hlocate : tree.locate cwd name = tree.locate other target) :
    tree.stat cwd name = tree.stat other target := by
  rw [stat, stat, hlocate]

theorem contents_of_locate_eq (hlocate : tree.locate cwd name = tree.locate other target) :
    tree.contents cwd name = tree.contents other target := by
  rw [contents, contents, stat_of_locate_eq hlocate]

theorem isDirectory_of_locate_eq (hlocate : tree.locate cwd name = tree.locate other target) :
    tree.isDirectory cwd name = tree.isDirectory other target := by
  rw [isDirectory, isDirectory, stat_of_locate_eq hlocate]

theorem RealDir.locate_relative (hreal : tree.RealDir cwd) (parts : Path) :
    tree.locate cwd (.relative parts) = tree.locate other (.ofPath (cwd ++ parts)) :=
  (walk_real linkLimit hreal parts).symm

theorem RealDir.entry_relative {front : Path} {last : Name} (hreal : tree.RealDir cwd)
    (hfront : tree.RealDir (cwd ++ front)) (hdots : ¬ IsDots last) :
    tree.entry cwd (.relative (front ++ [last])) = some (cwd ++ front ++ [last]) := by
  have hlocate : tree.locate cwd ⟨false, front⟩ = some (cwd ++ front) :=
    (hreal.locate_relative front).trans (@RealDir.locate tree (cwd ++ front) [] hfront)
  unfold IsDots at hdots
  simp [entry, Pathname.relative, hdots, hlocate, hfront.isDir]

/-- What was real stays real when directories stay. -/
theorem RealDir.keepsDirs {place : Path} {next : Tree} (hreal : tree.RealDir place)
    (hkeeps : tree.KeepsDirs next) : next.RealDir place :=
  fun front last hfront =>
    ⟨(hreal front last hfront).1, hkeeps _ (hreal front last hfront).2⟩

/-- Real directories are not made again. -/
theorem RealDir.mkdirP_self {place : Path} (hreal : tree.RealDir place) :
    tree.mkdirP cwd (.ofPath place) = tree := by
  have hmade : ∀ fronts : List Path, (∀ front ∈ fronts, front <+: place) →
      fronts.foldl (fun next parts => next.makeDir cwd ⟨true, parts⟩) tree = tree := by
    intro fronts hfronts
    induction fronts with
    | nil => rfl
    | cons front rest ih =>
        have hprefix := hfronts front (by simp)
        have hfront : tree.RealDir front := fun above last habove =>
          hreal above last (habove.trans hprefix)
        have hlocate : tree.locate cwd ⟨true, front⟩ = some front := hfront.locate
        have hthere : front = [] ∨ tree.node front ≠ none := by
          rcases List.eq_nil_or_concat' front with rfl | ⟨above, last, rfl⟩
          · exact .inl rfl
          · exact .inr (by simp [(hfront above last (List.prefix_refl _)).2])
        have hsame : tree.makeDir cwd ⟨true, front⟩ = tree := by
          rw [makeDir, hlocate]
          exact if_pos hthere
        rw [List.foldl_cons, hsame]
        exact ih fun other hother => hfronts other (List.mem_cons_of_mem _ hother)
  refine hmade _ fun front hfront => ?_
  exact (List.mem_inits _ _).mp (List.mem_of_mem_drop hfront)

/-- `mkdir -p` makes the same directories under a relative name. -/
theorem RealDir.mkdirP_relative (hreal : tree.RealDir cwd) (parts : Path) :
    tree.mkdirP cwd (.relative parts) = tree.mkdirP cwd (.ofPath (cwd ++ parts)) := by
  have hfold : ∀ (fronts : List Path) (next : Tree), next.RealDir cwd →
      fronts.foldl (fun next parts => next.makeDir cwd ⟨false, parts⟩) next =
        (fronts.map (cwd ++ ·)).foldl (fun next parts => next.makeDir cwd ⟨true, parts⟩) next := by
    intro fronts
    induction fronts with
    | nil => exact fun _ _ => rfl
    | cons front rest ih =>
        intro next hnext
        have hmade : next.makeDir cwd ⟨false, front⟩ = next.makeDir cwd ⟨true, cwd ++ front⟩ := by
          have hlocate : next.locate cwd ⟨false, front⟩ = next.locate cwd ⟨true, cwd ++ front⟩ :=
            hnext.locate_relative front
          rw [makeDir, makeDir, hlocate]
        rw [List.map_cons, List.foldl_cons, List.foldl_cons, hmade]
        refine ih _ (hnext.keepsDirs ?_)
        intro place hdir
        unfold makeDir
        split
        · exact hdir
        · next made _ =>
            split
            · exact hdir
            · next hnew =>
                rw [node_set_of_ne _ _ ?_, hdir]
                rintro rfl
                exact hnew (.inr (by simp [hdir]))
  have hinits : (cwd ++ parts).inits.drop 1 =
      cwd.inits.drop 1 ++ (parts.inits.drop 1).map (cwd ++ ·) := by
    rw [List.inits_append]
    cases cwd <;> simp [List.map_tail]
  have hself := @RealDir.mkdirP_self tree cwd cwd hreal
  have hbelow : tree.mkdirP cwd (.ofPath (cwd ++ parts)) =
      ((parts.inits.drop 1).map (cwd ++ ·)).foldl
        (fun next parts => next.makeDir cwd ⟨true, parts⟩) (tree.mkdirP cwd (.ofPath cwd)) := by
    change ((cwd ++ parts).inits.drop 1).foldl _ _ = _
    rw [hinits, List.foldl_append]
    rfl
  rw [hbelow, hself]
  exact hfold (parts.inits.drop 1) tree hreal

end Names

/-! ## Files written in place -/

section Files

variable {tree : Tree} {place cwd : Path} {name : Name} {data : Bytes}

/-- A regular file is no way further, no more than a place where nothing is. -/
theorem walk_set_file (hwritable : tree.Writable place) (links : ℕ) (current : Path)
    (parts : List Name) :
    walk (tree.set place (.file data)) links current parts = walk tree links current parts := by
  have hwith : ∀ (follow : Path → List Name → Option Path) (parts : List Name) (current : Path),
      walkWith (tree.set place (.file data)) follow current parts =
        walkWith tree follow current parts := by
    intro follow parts
    induction parts with
    | nil => exact fun _ => rfl
    | cons name rest ih =>
        intro current
        simp only [walkWith, ih]
        by_cases hplace : current ++ [name] = place
        · rcases hwritable with hnone | ⟨old, hold⟩
          · simp [hplace, hnone]
          · simp [hplace, hold]
        · rw [node_set_of_ne _ _ hplace]
  induction links generalizing current parts with
  | zero => exact hwith _ parts current
  | succ links ih =>
      have hfollow : walk (tree.set place (.file data)) links = walk tree links := by
        funext current parts
        exact ih current parts
      change walkWith _ (walk (tree.set place (.file data)) links) current parts = _
      rw [hfollow]
      exact hwith _ parts current

theorem locate_set_file (hwritable : tree.Writable place) (pathname : Pathname) :
    (tree.set place (.file data)).locate cwd pathname = tree.locate cwd pathname :=
  walk_set_file hwritable linkLimit _ _

/-- Other names lead to what they did. -/
theorem contents_set_file (hwritable : tree.Writable place) {pathname : Pathname}
    (hother : tree.locate cwd pathname ≠ some place) :
    (tree.set place (.file data)).contents cwd pathname = tree.contents cwd pathname := by
  have hstat : (tree.set place (.file data)).stat cwd pathname = tree.stat cwd pathname := by
    rw [stat, stat, locate_set_file hwritable]
    rcases hlocate : tree.locate cwd pathname with _ | _ | ⟨first, rest⟩
    · rfl
    · rfl
    · apply node_set_of_ne
      rintro rfl
      exact hother hlocate
  rw [contents, contents, hstat]

theorem fileAt_eq_some {found : Bytes} :
    tree.fileAt place = some found ↔ tree.node place = some (.file found) := by
  unfold fileAt
  split <;> simp_all

@[simp]
theorem fileAt_set_file (tree : Tree) (place : Path) (data : Bytes) :
    (tree.set place (.file data)).fileAt place = some data := by
  simp [fileAt]

theorem fileAt_set_of_ne {other : Path} (value : Node) (hne : other ≠ place) :
    (tree.set place value).fileAt other = tree.fileAt other := by
  simp [fileAt, hne]

theorem fileAt_congr {next : Tree} (hnode : next.node place = tree.node place) :
    next.fileAt place = tree.fileAt place := by
  rw [fileAt, fileAt, hnode]

/-- What the name of an entry that can be written leads to is what stands there. -/
theorem RealDir.contents_child_eq (hreal : tree.RealDir place) (hdots : ¬ IsDots name)
    (hwritable : tree.Writable (place ++ [name])) :
    tree.contents cwd (.ofPath (place ++ [name])) = tree.fileAt (place ++ [name]) := by
  have hstat : tree.stat cwd (.ofPath (place ++ [name])) = tree.node (place ++ [name]) :=
    hreal.stat_child hdots hwritable.not_link
  rw [contents, hstat]
  rfl

/-- To write an entry in place. -/
theorem RealDir.overwrite_child {pathname : Pathname} (hreal : tree.RealDir place)
    (hdots : ¬ IsDots name) (hwritable : tree.Writable (place ++ [name]))
    (hlocate : tree.locate cwd pathname = tree.locate cwd (.ofPath (place ++ [name])))
    (hentry : tree.entry cwd pathname = some (place ++ [name])) :
    tree.overwrite cwd pathname data = some (tree.set (place ++ [name]) (.file data)) := by
  have hhere : tree.locate cwd (.ofPath (place ++ [name])) = some (place ++ [name]) :=
    hreal.locate_child_of_not_link hdots hwritable.not_link
  have hlink : tree.isLink cwd pathname = false := by
    rw [isLink, lstat, hentry, Option.bind_some]
    split
    · next target hnode => exact absurd hnode (hwritable.not_link target)
    · rfl
  rw [overwrite, hlink, Bool.false_and, if_neg (by simp)]
  exact write_of_locate data (hlocate.trans hhere) hwritable

/-- To copy a file to an entry that can be written. -/
theorem RealDir.copyAs_child {source pathname : Pathname} (hreal : tree.RealDir place)
    (hdots : ¬ IsDots name) (hwritable : tree.Writable (place ++ [name]))
    (hlocate : tree.locate cwd pathname = tree.locate cwd (.ofPath (place ++ [name])))
    (hentry : tree.entry cwd pathname = some (place ++ [name])) :
    tree.copyAs cwd source pathname =
      if tree.locate cwd source = some (place ++ [name]) then none
      else (tree.contents cwd source).map fun data => tree.set (place ++ [name]) (.file data) := by
  have hhere : tree.locate cwd (.ofPath (place ++ [name])) = some (place ++ [name]) :=
    hreal.locate_child_of_not_link hdots hwritable.not_link
  rw [copyAs, hlocate, hhere]
  cases hdata : tree.contents cwd source with
  | none => simp
  | some data =>
      rw [Option.bind_some, Option.map_some]
      split
      · rfl
      · exact hreal.overwrite_child hdots hwritable hlocate hentry

end Files

/-! ## Links among neighbours -/

section Neighbours

variable {tree : Tree} {place goal : Path} {ours : Name → Prop}

/-- Names whose links are all to names of the same kind lead to such names. -/
theorem walk_neighbours (hdots : ∀ name, ours name → ¬ IsDots name)
    (hlinks : ∀ name, ours name → ∀ target, tree.node (place ++ [name]) = some (.link target) →
      ∃ other, ours other ∧ target = .here other) {links : ℕ} {name : Name} (hours : ours name)
    (hwalk : walk tree links place [name] = some goal) :
    ∃ other, ours other ∧ goal = place ++ [other] := by
  induction links generalizing name with
  | zero =>
      obtain ⟨hdot, hdotdot⟩ := not_or.mp (hdots name hours)
      simp only [walk, walkWith, if_neg hdot, if_neg hdotdot] at hwalk
      split at hwalk
      · exact ⟨name, hours, (Option.some.inj hwalk).symm⟩
      · cases hwalk
      · exact ⟨name, hours, (Option.some.inj hwalk).symm⟩
  | succ links ih =>
      obtain ⟨hdot, hdotdot⟩ := not_or.mp (hdots name hours)
      simp only [walk, walkWith, if_neg hdot, if_neg hdotdot] at hwalk
      split at hwalk
      · exact ⟨name, hours, (Option.some.inj hwalk).symm⟩
      · next target hnode =>
          obtain ⟨other, hother, rfl⟩ := hlinks name hours target hnode
          exact ih hother hwalk
      · exact ⟨name, hours, (Option.some.inj hwalk).symm⟩

/-- A file, or a link to a neighbour that is a file, leads to no directory. -/
theorem RealDir.isDirectory_here {name other : Name} (hreal : tree.RealDir place)
    (hname : ¬ IsDots name) (hother : ¬ IsDots other)
    (hnode : tree.Writable (place ++ [name]) ∨
      tree.node (place ++ [name]) = some (.link (.here other)))
    (hregular : tree.Writable (place ++ [other])) :
    tree.isDirectory place (.here name) = false := by
  have hplain : ∀ place, tree.Writable place → tree.node place ≠ some .dir := by
    rintro place (hnone | ⟨data, hdata⟩) <;> simp [*]
  have hlocate : ∃ last, tree.Writable (place ++ [last]) ∧
      tree.locate place (.here name) = some (place ++ [last]) := by
    rcases hnode with hwritable | hlink
    · exact ⟨name, hwritable, locate_here hreal.isDir hname hwritable.not_link⟩
    · exact ⟨other, hregular,
        locate_here_of_link hreal.isDir hname hother hlink hregular.not_link⟩
  obtain ⟨last, hwritable, hlast⟩ := hlocate
  rw [Tree.isDirectory, stat_of_locate hlast, if_neg (by simp)]
  exact decide_eq_false (hplain _ hwritable)

end Neighbours

/-! ## Elsewhere -/

section Elsewhere

variable {tree : Tree} {place other : Path}

theorem node_put_of_ne {value : Node} (hne : other ≠ place) :
    (tree.put place value).node other = tree.node other := by
  unfold put
  split
  · rfl
  · rfl
  · exact node_set_of_ne _ _ hne

/-- What is put below a place changes nothing elsewhere. -/
theorem node_putBelow {copied : List (Path × Node)} (hother : ¬ place <+: other) :
    (tree.putBelow place copied).node other = tree.node other := by
  unfold putBelow
  induction copied generalizing tree with
  | nil => rfl
  | cons entry rest ih =>
      rw [List.foldl_cons, ih]
      apply node_put_of_ne
      rintro rfl
      exact hother (List.prefix_append _ _)

/-- What `ln -sf` does to a name that leads to no directory. -/
theorem lnSf_eq_set_entry {cwd : Path} {source name : Pathname} {next : Tree}
    (hdirectory : tree.isDirectory cwd name = false) (hentry : tree.entry cwd name = some place)
    (hnext : tree.lnSf cwd source name = some next) : next = tree.set place (.link source) := by
  have hdestination : tree.destination cwd source name = some place := by
    rw [destination, hdirectory]
    exact hentry
  rw [lnSf, hdestination] at hnext
  simp only at hnext
  split_ifs at hnext
  exact (Option.some.inj hnext).symm

end Elsewhere

end Tree

end TizenRoblox.Posix
