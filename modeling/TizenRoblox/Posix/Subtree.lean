/-
# What is below a directory

`rm -rf` and `cp -a` work on a directory together with all that is below it, and so does
a program that packs a directory. None of the commands that make and copy files puts
anything in the place of a directory, so a directory stays where it is (`KeepsDirs`).
-/

import TizenRoblox.Posix.Directories

namespace TizenRoblox.Posix

open TizenRoblox.Foundation

namespace Tree

/-! ## Commands -/

/-- `rm -rf name`: the last component's own entry, and all that is below it. -/
def rmRf (tree : Tree) (cwd : Path) (name : Pathname) : Tree :=
  match tree.entry cwd name with
  | none => tree
  | some place => ⟨tree.entries.filter fun entry => !place.isPrefixOf entry.1⟩

/-- Whether a way leads down from a directory, through directories. -/
def leadsDown (tree : Tree) (top way : Path) : Bool :=
  way ≠ [] && way.dropLast.inits.all fun front => tree.isDir (top ++ front)

/-- What is below a directory, with the way that leads there. -/
def below (tree : Tree) (top : Path) : List (Path × Node) :=
  (tree.entries.map Prod.fst).dedup.filterMap fun place =>
    if top.isPrefixOf place && tree.leadsDown top (place.drop top.length) then
      (tree.node place).map (place.drop top.length, ·)
    else none

/-- Copy a node to a place. A directory is not replaced, and replaces nothing. -/
def put (tree : Tree) (place : Path) (value : Node) : Tree :=
  match tree.node place, value with
  | some .dir, _ => tree
  | some _, .dir => tree
  | _, _ => tree.set place value

/-- Copy a list of nodes to their places below a place. -/
def putBelow (tree : Tree) (place : Path) (copied : List (Path × Node)) : Tree :=
  copied.foldl (fun next entry => next.put (place ++ entry.1) entry.2) tree

/-- `cp source directory/`: the bytes that the source leads to are written under its last
name. -/
def cp (tree : Tree) (cwd : Path) (source directory : Pathname) : Option Tree :=
  match tree.contents cwd source, source.parts.getLast? with
  | some data, some last =>
    if tree.isDirectory cwd directory then tree.write cwd (directory.child last) data else none
  | _, _ => none

/-- `cp -a source directory/`: the source's own entry, with all that is below it, is copied
to a place where nothing is yet. -/
def cpA (tree : Tree) (cwd : Path) (source directory : Pathname) : Option Tree :=
  if tree.isDirectory cwd directory then
    match tree.entry cwd source, tree.destination cwd source directory with
    | some old, some new =>
      (tree.node old).map fun value => tree.putBelow new (([], value) :: tree.below old)
    | _, _ => none
  else none

/-- `sed -i` puts a new file in the place of the old one. -/
def sedI (tree : Tree) (cwd : Path) (name : Pathname) (edit : Bytes → Bytes) : Option Tree :=
  match tree.contents cwd name, tree.entry cwd name with
  | some data, some place => some (tree.set place (.file (edit data)))
  | _, _ => none

/-- `touch name` -/
def touch (tree : Tree) (cwd : Path) (name : Pathname) : Option Tree :=
  if (tree.stat cwd name).isSome then some tree else tree.write cwd name []

/-! ## What is below -/

section Below

variable {tree : Tree} {top way : Path} {value : Node}

theorem mem_below : (way, value) ∈ tree.below top ↔
    tree.leadsDown top way = true ∧ tree.node (top ++ way) = some value := by
  rw [below, List.mem_filterMap]
  constructor
  · rintro ⟨place, _, hplace⟩
    split at hplace
    · next hbelow =>
        obtain ⟨other, hnode, heq⟩ := Option.map_eq_some_iff.mp hplace
        obtain ⟨rfl, rfl⟩ := Prod.mk.inj heq
        obtain ⟨hstart, hdown⟩ := Bool.and_eq_true_iff.mp hbelow
        obtain ⟨rest, rfl⟩ := List.isPrefixOf_iff_prefix.mp hstart
        rw [List.drop_left] at hdown ⊢
        exact ⟨hdown, hnode⟩
    · cases hplace
  · rintro ⟨hdown, hnode⟩
    refine ⟨top ++ way, ?_, ?_⟩
    · rw [List.mem_dedup, List.mem_map]
      by_contra hnone
      have hlookup : tree.node (top ++ way) = none := by
        rw [node, List.lookup_eq_none_iff]
        intro entry hentry
        simpa using fun heq : top ++ way = entry.1 => hnone ⟨entry, hentry, heq.symm⟩
      rw [hlookup] at hnode
      cases hnode
    · have hstart : top.isPrefixOf (top ++ way) = true :=
        List.isPrefixOf_iff_prefix.mpr (List.prefix_append _ _)
      simp [hstart, hdown, hnode]

private theorem lookup_filter (keep : Path → Bool) (entries : List (Path × Node)) (place : Path) :
    (entries.filter fun entry => keep entry.1).lookup place =
      if keep place then entries.lookup place else none := by
  induction entries with
  | nil => simp
  | cons entry rest ih =>
      obtain ⟨key, value⟩ := entry
      by_cases hkey : keep key = true
      · rw [List.filter_cons_of_pos (p := fun entry : Path × Node => keep entry.1) hkey]
        by_cases hplace : place = key
        · simp [hplace, hkey]
        · have hbeq : (place == key) = false := by simpa using hplace
          simp only [List.lookup_cons, hbeq, ih]
      · rw [List.filter_cons_of_neg (p := fun entry : Path × Node => keep entry.1) hkey, ih]
        by_cases hplace : place = key
        · simp [hplace, hkey]
        · have hbeq : (place == key) = false := by simpa using hplace
          simp only [List.lookup_cons, hbeq]

/-- After `rm -rf` nothing is where it was, and elsewhere all is as before. -/
theorem node_rmRf {cwd : Path} {name : Pathname} {place : Path}
    (hentry : tree.entry cwd name = some place) (other : Path) :
    (tree.rmRf cwd name).node other = if place <+: other then none else tree.node other := by
  rw [rmRf, hentry]
  refine (lookup_filter (fun key => !place.isPrefixOf key) tree.entries other).trans ?_
  by_cases hstart : place <+: other
  · have hbool := List.isPrefixOf_iff_prefix.mpr hstart
    simp [hstart, hbool]
  · have hbool : place.isPrefixOf other = false :=
      Bool.eq_false_iff.mpr fun htrue => hstart (List.isPrefixOf_iff_prefix.mp htrue)
    simp [hstart, hbool, node]

end Below

/-! ## Directories stay -/

/-- What was a directory is one still. -/
def KeepsDirs (tree other : Tree) : Prop :=
  ∀ place, tree.node place = some .dir → other.node place = some .dir

section Keeping

variable {tree other : Tree} {cwd : Path} {name : Pathname}

theorem KeepsDirs.refl (tree : Tree) : tree.KeepsDirs tree := fun _ hdir => hdir

theorem KeepsDirs.trans {next : Tree} (hfirst : tree.KeepsDirs other)
    (hsecond : other.KeepsDirs next) : tree.KeepsDirs next :=
  fun place hdir => hsecond place (hfirst place hdir)

/-- A node that is put where there is no directory. -/
theorem keepsDirs_set {place : Path} (value : Node) (hplace : tree.node place ≠ some .dir) :
    tree.KeepsDirs (tree.set place value) := by
  intro kept hdir
  have hne : kept ≠ place := by
    rintro rfl
    exact hplace hdir
  rw [node_set_of_ne _ _ hne, hdir]

theorem keepsDirs_write {data : Bytes} (hwrite : tree.write cwd name data = some other) :
    tree.KeepsDirs other := by
  unfold write at hwrite
  split at hwrite
  · cases hwrite
  · next place hlocate =>
      split at hwrite
      · cases hwrite
      · next hdir =>
          split at hwrite
          · cases hwrite
          · split at hwrite
            · cases hwrite
              exact .refl _
            · cases hwrite
              apply keepsDirs_set
              intro hnode
              have hisDir : tree.isDir place = true := by simp [isDir, hnode]
              exact hdir hisDir

theorem keepsDirs_put (place : Path) (value : Node) : tree.KeepsDirs (tree.put place value) := by
  unfold put
  split
  · exact .refl _
  · exact .refl _
  · next hdir _ => exact keepsDirs_set _ hdir

theorem keepsDirs_putBelow (place : Path) (copied : List (Path × Node)) :
    tree.KeepsDirs (tree.putBelow place copied) := by
  unfold putBelow
  induction copied generalizing tree with
  | nil => exact .refl _
  | cons entry rest ih => exact (keepsDirs_put _ _).trans ih

theorem keepsDirs_cp {source directory : Pathname}
    (hcp : tree.cp cwd source directory = some other) :
    tree.KeepsDirs other := by
  unfold cp at hcp
  split at hcp
  · split at hcp
    · exact keepsDirs_write hcp
    · cases hcp
  · cases hcp

theorem keepsDirs_cpA {source directory : Pathname}
    (hcp : tree.cpA cwd source directory = some other) : tree.KeepsDirs other := by
  unfold cpA at hcp
  split at hcp
  · split at hcp
    · obtain ⟨value, _, rfl⟩ := Option.map_eq_some_iff.mp hcp
      exact keepsDirs_putBelow _ _
    · cases hcp
  · cases hcp

theorem keepsDirs_sedI {edit : Bytes → Bytes} (hsed : tree.sedI cwd name edit = some other) :
    tree.KeepsDirs other := by
  unfold sedI at hsed
  split at hsed
  · next data place hdata hentry =>
      cases hsed
      apply keepsDirs_set
      intro hdir
      -- The bytes are those of a file, so what has the name is no directory.
      have hlocate := locate_of_entry hentry fun target => by simp [hdir]
      rw [contents, stat_of_locate hlocate, hdir] at hdata
      split at hdata <;> simp_all
  · cases hsed

theorem keepsDirs_touch (htouch : tree.touch cwd name = some other) : tree.KeepsDirs other := by
  unfold touch at htouch
  split at htouch
  · cases htouch
    exact .refl _
  · exact keepsDirs_write htouch

theorem keepsDirs_lnSf {source target : Pathname} (hln : tree.lnSf cwd source target = some other) :
    tree.KeepsDirs other := by
  unfold lnSf at hln
  split at hln
  · cases hln
  · next place hplace =>
      split at hln
      · cases hln
      · next hdir =>
          split at hln
          · cases hln
          · cases hln
            exact keepsDirs_set _ hdir

private theorem keepsDirs_makeDir : tree.KeepsDirs (tree.makeDir cwd name) := by
  unfold makeDir
  split
  · exact .refl _
  · next place _ =>
      split
      · exact .refl _
      · next hnew =>
          refine keepsDirs_set _ fun hdir => hnew (.inr ?_)
          simp [hdir]

private theorem keepsDirs_makeAll (tree : Tree) (cwd : Path) (absolute : Bool) (all : List Path) :
    tree.KeepsDirs (all.foldl (fun next parts => next.makeDir cwd ⟨absolute, parts⟩) tree) := by
  induction all generalizing tree with
  | nil => exact .refl _
  | cons parts rest ih => exact keepsDirs_makeDir.trans (ih _)

theorem keepsDirs_mkdirP : tree.KeepsDirs (tree.mkdirP cwd name) :=
  keepsDirs_makeAll tree cwd name.absolute (name.parts.inits.drop 1)

/-- Resolution goes down to a directory. -/
theorem walk_cons_of_dir {current : Path} {name : Name} (links : ℕ) (rest : Path)
    (hdots : ¬ IsDots name) (hdir : tree.node (current ++ [name]) = some .dir) :
    walk tree links current (name :: rest) = walk tree links (current ++ [name]) rest := by
  unfold IsDots at hdots
  rw [not_or] at hdots
  cases links <;> simp only [walk, walkWith, hdots, hdir, if_false]

/-- A directory that is missing in another one is made there, and one below it. -/
theorem mkdirP_missing {above below : Name} (rest : List Name) (hisDir : tree.isDir cwd = true)
    (habove : ¬ IsDots above) (hbelow : ¬ IsDots below)
    (hnone : ∀ way, tree.node (cwd ++ [above] ++ way) = none) :
    (tree.mkdirP cwd ⟨false, above :: below :: rest⟩).node (cwd ++ [above]) = some .dir ∧
      (tree.mkdirP cwd ⟨false, above :: below :: rest⟩).node (cwd ++ [above] ++ [below]) =
        some .dir := by
  let first := tree.set (cwd ++ [above]) .dir
  let second := first.set (cwd ++ [above] ++ [below]) .dir
  have hmissing : tree.node (cwd ++ [above]) = none := by simpa using hnone []
  have hfirst : tree.makeDir cwd ⟨false, [above]⟩ = first := by
    have hlocate : tree.locate cwd ⟨false, [above]⟩ = some (cwd ++ [above]) :=
      locate_here hisDir habove fun target => by simp [hmissing]
    simp [makeDir, hlocate, hmissing, first]
  have hsecond : first.makeDir cwd ⟨false, [above, below]⟩ = second := by
    have hdir : first.node (cwd ++ [above]) = some .dir := by simp [first]
    have hmissing : first.node (cwd ++ [above] ++ [below]) = none := by
      rw [node_set_of_ne _ _ (by simp), hnone]
    have hlocate : first.locate cwd ⟨false, [above, below]⟩ = some (cwd ++ [above] ++ [below]) :=
      (walk_cons_of_dir _ _ habove hdir).trans
        (locate_here (by simp [isDir, hdir]) hbelow fun target hlink => by
          rw [hmissing] at hlink
          cases hlink)
    rw [makeDir, hlocate]
    exact if_neg (by simpa using hmissing)
  have hkeeps : second.KeepsDirs (tree.mkdirP cwd ⟨false, above :: below :: rest⟩) := by
    have hsplit : (above :: below :: rest).inits.drop 1 =
        [above] :: [above, below] :: (rest.inits.drop 1).map (above :: below :: ·) := by
      cases rest <;> simp
    have hmade : tree.mkdirP cwd ⟨false, above :: below :: rest⟩ =
        ((rest.inits.drop 1).map (above :: below :: ·)).foldl
          (fun next parts => next.makeDir cwd ⟨false, parts⟩) second := by
      change ((above :: below :: rest).inits.drop 1).foldl
        (fun next parts => next.makeDir cwd ⟨false, parts⟩) tree = _
      rw [hsplit, List.foldl_cons, List.foldl_cons, hfirst, hsecond]
    rw [hmade]
    exact keepsDirs_makeAll second cwd false _
  exact ⟨hkeeps _ (by simp [second, first, node_set_of_ne]), hkeeps _ (by simp [second])⟩

end Keeping

end Tree

end TizenRoblox.Posix
