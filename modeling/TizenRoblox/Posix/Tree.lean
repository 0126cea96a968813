/-
# File trees with symbolic links

A tree maps locations to nodes. Pathname resolution follows symbolic links, in
the middle of a pathname and at its end, up to the kernel's limit on the number
of links one resolution may follow; `.` and `..` are interpreted on the way. The
result of a resolution is a *location*: where the named file is, or where a file
of that name would be created.

One fact carries the later arguments about trees. A resolution reads only the
entries on its *trail*, so trees that agree on the trail resolve alike
(`walk_congr`).
-/

import Mathlib.Data.List.Sort
import Mathlib.Data.List.Dedup
import TizenRoblox.Posix.Pathname

namespace TizenRoblox.Posix

open TizenRoblox.Foundation

/-- What a location holds. -/
inductive Node
  | file (data : Bytes)
  | dir
  | link (target : Pathname)
  | socket
  | charDevice
  deriving DecidableEq

/-- A file tree, as the list of its locations and what they hold; the first
entry for a location counts. The root is a directory without an entry. -/
structure Tree where
  entries : List (Path × Node)

namespace Tree

/-- What the tree holds at a location. -/
def node (tree : Tree) (place : Path) : Option Node := tree.entries.lookup place

/-- Put a node at a location, whatever was there. -/
def set (tree : Tree) (place : Path) (value : Node) : Tree :=
  ⟨(place, value) :: tree.entries⟩

/-- Remove whatever a location holds. -/
def erase (tree : Tree) (place : Path) : Tree :=
  ⟨tree.entries.filter fun entry => entry.1 ≠ place⟩

@[simp]
theorem node_set_self (tree : Tree) (place : Path) (value : Node) :
    (tree.set place value).node place = some value := by
  simp [node, set]

@[simp]
theorem node_set_of_ne (tree : Tree) {place other : Path} (value : Node)
    (hne : other ≠ place) : (tree.set place value).node other = tree.node other := by
  have hbeq : (other == place) = false := by simpa using hne
  simp [node, set, List.lookup_cons, hbeq]

theorem node_set (tree : Tree) (place other : Path) (value : Node) :
    (tree.set place value).node other =
      if other = place then some value else tree.node other := by
  by_cases heq : other = place
  · simp [heq]
  · simp [heq]

private theorem lookup_filter_ne (entries : List (Path × Node)) (place other : Path) :
    (entries.filter fun entry => entry.1 ≠ place).lookup other =
      if other = place then none else entries.lookup other := by
  induction entries with
  | nil => simp
  | cons entry rest ih =>
      obtain ⟨key, value⟩ := entry
      by_cases hkey : key = place
      · subst key
        by_cases hother : other = place
        · simpa [hother] using ih
        · have hbeq : (other == place) = false := by simpa using hother
          simpa [List.lookup_cons, hother, hbeq] using ih
      · by_cases hother : other = key
        · subst other
          simp [hkey]
        · have hbeq : (other == key) = false := by simpa using hother
          simpa [List.lookup_cons, hkey, hbeq] using ih

theorem node_erase (tree : Tree) (place other : Path) :
    (tree.erase place).node other = if other = place then none else tree.node other :=
  lookup_filter_ne tree.entries place other

/-! ## Resolution -/

/-- Follow the components of a pathname from a directory. `follow` takes over at
a symbolic link; a component that is neither a directory nor a link can only be
the last one. -/
def walkWith (tree : Tree) (follow : Path → List Name → Option Path) :
    Path → List Name → Option Path
  | current, [] => some current
  | current, name :: rest =>
    if name = dot then walkWith tree follow current rest
    else if name = dotdot then walkWith tree follow current.dropLast rest
    else
      match tree.node (current ++ [name]) with
      | some .dir => walkWith tree follow (current ++ [name]) rest
      | some (.link target) =>
          follow (if target.absolute then [] else current) (target.parts ++ rest)
      | _ => if rest = [] then some (current ++ [name]) else none

/-- Resolution that follows at most the given number of links. -/
def walk (tree : Tree) : ℕ → Path → List Name → Option Path
  | 0 => walkWith tree fun _ _ => none
  | links + 1 => walkWith tree (walk tree links)

/-- The kernel's limit on the links of one resolution. -/
def linkLimit : ℕ := 40

/-- Where a pathname leads, seen from a working directory. -/
def locate (tree : Tree) (cwd : Path) (name : Pathname) : Option Path :=
  walk tree linkLimit (if name.absolute then [] else cwd) name.parts

/-- The root is a directory; any other directory has an entry that says so. -/
def isDir (tree : Tree) (place : Path) : Bool :=
  place = [] || tree.node place = some .dir

/-- What a pathname leads to, every link followed. -/
def stat (tree : Tree) (cwd : Path) (name : Pathname) : Option Node :=
  match tree.locate cwd name with
  | none => none
  | some [] => some .dir
  | some place => tree.node place

/-- The location of the last component's own entry: links are followed in the
directory part only. -/
def entry (tree : Tree) (cwd : Path) (name : Pathname) : Option Path :=
  match name.parts.getLast? with
  | none => none
  | some last =>
    if last = dot ∨ last = dotdot then none
    else
      match tree.locate cwd { name with parts := name.parts.dropLast } with
      | none => none
      | some directory => if tree.isDir directory then some (directory ++ [last]) else none

/-- What the last component's own entry holds. -/
def lstat (tree : Tree) (cwd : Path) (name : Pathname) : Option Node :=
  (tree.entry cwd name).bind tree.node

/-- The names a directory holds, in the order of their bytes. -/
def children (tree : Tree) (directory : Path) : List Name :=
  ((tree.entries.filterMap fun entry =>
    if entry.1.dropLast = directory then entry.1.getLast? else none).dedup).insertionSort (· ≤ ·)

/-! ## The tests of the shell -/

/-- `[ -f name ]` -/
def isFile (tree : Tree) (cwd : Path) (name : Pathname) : Bool :=
  match tree.stat cwd name with
  | some (.file _) => true
  | _ => false

/-- `[ -L name ]` -/
def isLink (tree : Tree) (cwd : Path) (name : Pathname) : Bool :=
  match tree.lstat cwd name with
  | some (.link _) => true
  | _ => false

/-- `[ -d name ]` -/
def isDirectory (tree : Tree) (cwd : Path) (name : Pathname) : Bool :=
  tree.stat cwd name = some .dir

/-- `[ -S name ]` -/
def isSocket (tree : Tree) (cwd : Path) (name : Pathname) : Bool :=
  tree.stat cwd name = some .socket

/-- `[ -c name ]` -/
def isCharDevice (tree : Tree) (cwd : Path) (name : Pathname) : Bool :=
  tree.stat cwd name = some .charDevice

/-- The bytes a pathname leads to, if it leads to a regular file. -/
def contents (tree : Tree) (cwd : Path) (name : Pathname) : Option Bytes :=
  match tree.stat cwd name with
  | some (.file data) => some data
  | _ => none

theorem isFile_eq_isSome_contents (tree : Tree) (cwd : Path) (name : Pathname) :
    tree.isFile cwd name = (tree.contents cwd name).isSome := by
  unfold isFile contents
  split <;> rfl

/-! ## The commands of the shell -/

/-- Open for writing, truncate and write: the file a pathname leads to is
rewritten, or created where the pathname leads. A device takes the bytes. -/
def write (tree : Tree) (cwd : Path) (name : Pathname) (data : Bytes) : Option Tree :=
  match tree.locate cwd name with
  | none => none
  | some place =>
    if tree.isDir place then none
    else if tree.node place = some .socket then none
    else if tree.node place = some .charDevice then some tree
    else some (tree.set place (.file data))

/-- `mkdir -p`: every missing directory along the pathname. -/
def mkdirP (tree : Tree) (cwd : Path) (name : Pathname) : Tree :=
  (name.parts.inits.drop 1).foldl (fun tree parts =>
    match tree.locate cwd { name with parts := parts } with
    | none => tree
    | some place =>
      if place = [] ∨ tree.node place ≠ none then tree else tree.set place .dir) tree

/-- The entry a file named `source` gets under the destination: inside it when it
is a directory, in its place otherwise. -/
def destination (tree : Tree) (cwd : Path) (source target : Pathname) : Option Path :=
  if tree.isDirectory cwd target then
    (source.parts.getLast?).bind fun last => tree.entry cwd (target.child last)
  else tree.entry cwd target

/-- `ln -sf source target`: the target's entry becomes a link, unless it is a
directory or the very file the source leads to. -/
def lnSf (tree : Tree) (cwd : Path) (source target : Pathname) : Option Tree :=
  match tree.destination cwd source target with
  | none => none
  | some place =>
    if tree.node place = some .dir then none
    else if tree.locate cwd source = some place ∧ tree.node place ≠ none then none
    else some (tree.set place (.link source))

/-- `rm -f name`: the last component's own entry goes; a directory stays. -/
def rmF (tree : Tree) (cwd : Path) (name : Pathname) : Option Tree :=
  match tree.entry cwd name with
  | none => some tree
  | some place =>
    if tree.node place = some .dir then none else some (tree.erase place)

/-- `mv -f source target` for a source that is not a directory. -/
def mvF (tree : Tree) (cwd : Path) (source target : Pathname) : Option Tree :=
  match tree.entry cwd source, tree.destination cwd source target with
  | some old, some new =>
    match tree.node old with
    | none | some .dir => none
    | some value =>
      if tree.node new = some .dir then none else some ((tree.erase old).set new value)
  | _, _ => none

/-! ## Resolution reads its trail only -/

/-- The locations whose nodes a resolution reads, in order. -/
def trailWith (tree : Tree) (follow : Path → List Name → List Path) :
    Path → List Name → List Path
  | _, [] => []
  | current, name :: rest =>
    if name = dot then trailWith tree follow current rest
    else if name = dotdot then trailWith tree follow current.dropLast rest
    else
      (current ++ [name]) ::
        match tree.node (current ++ [name]) with
        | some .dir => trailWith tree follow (current ++ [name]) rest
        | some (.link target) =>
            follow (if target.absolute then [] else current) (target.parts ++ rest)
        | _ => []

/-- The trail of `walk`. -/
def trail (tree : Tree) : ℕ → Path → List Name → List Path
  | 0 => trailWith tree fun _ _ => []
  | links + 1 => trailWith tree (trail tree links)

private theorem walkWith_congr {tree other : Tree}
    {follow follow' : Path → List Name → Option Path}
    {followTrail : Path → List Name → List Path}
    (hfollow : ∀ current parts, (∀ place ∈ followTrail current parts,
      other.node place = tree.node place) → follow' current parts = follow current parts)
    (current : Path) (parts : List Name)
    (hagree : ∀ place ∈ trailWith tree followTrail current parts,
      other.node place = tree.node place) :
    walkWith other follow' current parts = walkWith tree follow current parts := by
  induction parts generalizing current with
  | nil => rfl
  | cons name rest ih =>
      simp only [walkWith, trailWith] at hagree ⊢
      by_cases hdot : name = dot
      · simp only [if_pos hdot] at hagree ⊢
        exact ih current hagree
      by_cases hdotdot : name = dotdot
      · simp only [if_neg hdot, if_pos hdotdot] at hagree ⊢
        exact ih _ hagree
      simp only [if_neg hdot, if_neg hdotdot, List.mem_cons, forall_eq_or_imp] at hagree ⊢
      obtain ⟨hhere, hrest⟩ := hagree
      rw [hhere]
      cases hnode : tree.node (current ++ [name]) with
      | none => rfl
      | some value =>
          rw [hnode] at hrest
          cases value with
          | dir => exact ih _ hrest
          | link target => exact hfollow _ _ hrest
          | file data => rfl
          | socket => rfl
          | charDevice => rfl

/-- Trees that agree on the trail of a resolution resolve it alike. -/
theorem walk_congr {tree other : Tree} (links : ℕ) (current : Path) (parts : List Name)
    (hagree : ∀ place ∈ trail tree links current parts,
      other.node place = tree.node place) :
    walk other links current parts = walk tree links current parts := by
  induction links generalizing current parts with
  | zero => exact walkWith_congr (fun _ _ _ => rfl) current parts hagree
  | succ links ih => exact walkWith_congr (fun here names h => ih here names h) current parts hagree

/-- Every location that a test of a pathname reads, links followed. -/
def reads (tree : Tree) (cwd : Path) (name : Pathname) : List Path :=
  trail tree linkLimit (if name.absolute then [] else cwd) name.parts ++
    (tree.locate cwd name).toList

/-- Every location that a test of a pathname's own entry reads. -/
def entryReads (tree : Tree) (cwd : Path) (name : Pathname) : List Path :=
  tree.reads cwd { name with parts := name.parts.dropLast } ++ (tree.entry cwd name).toList

section Congruence

variable {tree other : Tree} {cwd : Path} {name : Pathname}

theorem locate_congr (hagree : ∀ place ∈ tree.reads cwd name, other.node place = tree.node place) :
    other.locate cwd name = tree.locate cwd name :=
  walk_congr _ _ _ fun place hplace => hagree place (List.mem_append_left _ hplace)

theorem stat_congr (hagree : ∀ place ∈ tree.reads cwd name, other.node place = tree.node place) :
    other.stat cwd name = tree.stat cwd name := by
  unfold stat
  rw [locate_congr hagree]
  cases hplace : tree.locate cwd name with
  | none => rfl
  | some place =>
      have hnode := hagree place (by simp [reads, hplace])
      cases place with
      | nil => rfl
      | cons first rest => exact hnode

theorem isFile_congr (hagree : ∀ place ∈ tree.reads cwd name, other.node place = tree.node place) :
    other.isFile cwd name = tree.isFile cwd name := by
  simp only [isFile, stat_congr hagree]

theorem contents_congr
    (hagree : ∀ place ∈ tree.reads cwd name, other.node place = tree.node place) :
    other.contents cwd name = tree.contents cwd name := by
  simp only [contents, stat_congr hagree]

theorem isDirectory_congr
    (hagree : ∀ place ∈ tree.reads cwd name, other.node place = tree.node place) :
    other.isDirectory cwd name = tree.isDirectory cwd name := by
  simp only [isDirectory, stat_congr hagree]

theorem entry_congr
    (hagree : ∀ place ∈ tree.entryReads cwd name, other.node place = tree.node place) :
    other.entry cwd name = tree.entry cwd name := by
  have hdirectory : ∀ place ∈ tree.reads cwd { name with parts := name.parts.dropLast },
      other.node place = tree.node place :=
    fun place hplace => hagree place (List.mem_append_left _ hplace)
  unfold entry
  cases name.parts.getLast? with
  | none => rfl
  | some last =>
      by_cases hdots : last = dot ∨ last = dotdot
      · simp only [if_pos hdots]
      · simp only [if_neg hdots]
        rw [locate_congr hdirectory]
        cases hplace : tree.locate cwd { name with parts := name.parts.dropLast } with
        | none => rfl
        | some place =>
            have hisDir : other.isDir place = tree.isDir place := by
              rw [isDir, isDir, hdirectory place (by simp [reads, hplace])]
            simp only [hisDir]

theorem isLink_congr
    (hagree : ∀ place ∈ tree.entryReads cwd name, other.node place = tree.node place) :
    other.isLink cwd name = tree.isLink cwd name := by
  have hlstat : other.lstat cwd name = tree.lstat cwd name := by
    unfold lstat
    rw [entry_congr hagree]
    cases hplace : tree.entry cwd name with
    | none => rfl
    | some place => exact hagree place (by simp [entryReads, hplace])
  simp only [isLink, hlstat]

end Congruence

/-! ## The last component -/

/-- After a pathname that leads to a directory, one more component leads where it leads
from there. -/
private theorem walkWith_snoc {tree : Tree} {follow : Path → List Name → Option Path}
    {directory place : Path} {last : Name}
    (hfollow : ∀ current parts, follow current parts = some directory →
      follow current (parts ++ [last]) = some place)
    (hdirectory : tree.isDir directory = true)
    (hlast : walkWith tree follow directory [last] = some place)
    (current : Path) (front : List Name)
    (hfront : walkWith tree follow current front = some directory) :
    walkWith tree follow current (front ++ [last]) = some place := by
  induction front generalizing current with
  | nil =>
      obtain rfl : current = directory := by simpa [walkWith] using hfront
      exact hlast
  | cons name rest ih =>
      simp only [List.cons_append, walkWith] at hfront ⊢
      by_cases hdot : name = dot
      · simp only [if_pos hdot] at hfront ⊢
        exact ih current hfront
      by_cases hdotdot : name = dotdot
      · simp only [if_neg hdot, if_pos hdotdot] at hfront ⊢
        exact ih _ hfront
      simp only [if_neg hdot, if_neg hdotdot] at hfront ⊢
      -- a component that is neither a directory nor a link leads to no directory
      have hend : tree.node (current ++ [name]) ≠ some .dir →
          (if rest = [] then some (current ++ [name]) else none) ≠ some directory := by
        intro hnode hplace
        split at hplace
        · obtain rfl : current ++ [name] = directory := by simpa using hplace
          simp [isDir, hnode] at hdirectory
        · cases hplace
      cases hnode : tree.node (current ++ [name]) with
      | none =>
          rw [hnode] at hfront
          exact absurd hfront (hend (by simp [hnode]))
      | some value =>
          rw [hnode] at hfront
          cases value with
          | dir => exact ih _ hfront
          | link target =>
              simpa [List.append_assoc] using hfollow _ _ hfront
          | file data => exact absurd hfront (hend (by simp [hnode]))
          | socket => exact absurd hfront (hend (by simp [hnode]))
          | charDevice => exact absurd hfront (hend (by simp [hnode]))

/-- A component that is no link, after a pathname that leads to a directory, leads
to the directory's entry. -/
theorem walk_snoc {tree : Tree} {directory : Path} {last : Name} {front : List Name}
    {current : Path} {links : ℕ} (hdirectory : tree.isDir directory = true)
    (hdots : ¬ (last = dot ∨ last = dotdot))
    (hlink : ∀ target, tree.node (directory ++ [last]) ≠ some (.link target))
    (hfront : walk tree links current front = some directory) :
    walk tree links current (front ++ [last]) = some (directory ++ [last]) := by
  have hlast (follow : Path → List Name → Option Path) :
      walkWith tree follow directory [last] = some (directory ++ [last]) := by
    rw [not_or] at hdots
    simp only [walkWith, if_neg hdots.1, if_neg hdots.2]
    cases hnode : tree.node (directory ++ [last]) with
    | none => rfl
    | some value =>
        cases value with
        | link target => exact absurd hnode (hlink target)
        | dir => rfl
        | file data => rfl
        | socket => rfl
        | charDevice => rfl
  induction links generalizing current front with
  | zero => exact walkWith_snoc (fun _ _ h => by cases h) hdirectory (hlast _) _ _ hfront
  | succ links ih => exact walkWith_snoc (fun _ _ h => ih h) hdirectory (hlast _) _ _ hfront

/-- A name's own entry is in the directory the rest of the name leads to. -/
theorem entry_eq_some {tree : Tree} {cwd : Path} {name : Pathname} {place : Path}
    (hentry : tree.entry cwd name = some place) :
    ∃ directory last, name.parts.getLast? = some last ∧ place = directory ++ [last] ∧
      ¬ (last = dot ∨ last = dotdot) ∧ tree.isDir directory = true ∧
      tree.locate cwd { name with parts := name.parts.dropLast } = some directory := by
  unfold entry at hentry
  cases hlast : name.parts.getLast? with
  | none => simp [hlast] at hentry
  | some last =>
      simp only [hlast] at hentry
      by_cases hdots : last = dot ∨ last = dotdot
      · simp [hdots] at hentry
      simp only [if_neg hdots] at hentry
      cases hfront : tree.locate cwd { name with parts := name.parts.dropLast } with
      | none => simp [hfront] at hentry
      | some directory =>
          simp only [hfront] at hentry
          split at hentry
          · rename_i hdirectory
            exact ⟨directory, last, rfl, (Option.some.inj hentry).symm, hdots, hdirectory, rfl⟩
          · cases hentry

/-- Where a pathname's own entry is no link, the pathname leads there. -/
theorem locate_of_entry {tree : Tree} {cwd : Path} {name : Pathname} {place : Path}
    (hentry : tree.entry cwd name = some place)
    (hlink : ∀ target, tree.node place ≠ some (.link target)) :
    tree.locate cwd name = some place := by
  obtain ⟨directory, last, hlast, rfl, hdots, hdirectory, hfront⟩ := entry_eq_some hentry
  have hparts : name.parts.dropLast ++ [last] = name.parts :=
    List.dropLast_append_getLast? last hlast
  have hwalk := walk_snoc hdirectory hdots hlink hfront
  rwa [hparts] at hwalk

/-- An absolute pathname leads to the same place from everywhere. -/
theorem locate_of_absolute {name : Pathname} (habsolute : name.absolute = true) (tree : Tree)
    (cwd other : Path) : tree.locate cwd name = tree.locate other name := by
  simp only [locate, if_pos habsolute]

theorem stat_of_locate {tree : Tree} {cwd : Path} {name : Pathname} {place : Path}
    (hlocate : tree.locate cwd name = some place) :
    tree.stat cwd name = if place = [] then some .dir else tree.node place := by
  unfold stat
  rw [hlocate]
  cases place <;> rfl

/-- `rm -f` removes what is, links followed, a regular file. -/
theorem rmF_of_isFile {tree : Tree} {cwd : Path} {name : Pathname}
    (hfile : tree.isFile cwd name = true) : ∃ next, tree.rmF cwd name = some next := by
  unfold rmF
  cases hentry : tree.entry cwd name with
  | none => exact ⟨tree, rfl⟩
  | some place =>
      by_cases hdir : tree.node place = some .dir
      · have hlocate := locate_of_entry hentry (by simp [hdir])
        have hstat : tree.stat cwd name = some .dir := by
          rw [stat_of_locate hlocate, hdir, ite_self]
        simp [isFile, hstat] at hfile
      · exact ⟨tree.erase place, by simp [hdir]⟩

end Tree

end TizenRoblox.Posix
