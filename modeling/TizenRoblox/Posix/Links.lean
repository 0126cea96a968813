/-
# What a new link does to resolution

`ln -sf` turns one entry of a tree into a link. A resolution that keeps off the
entry is not affected. One that ends at the entry goes on to the source of the
link, and one that passes through the entry fails once the source is a file. So
the tree before the link decides which names lead to a regular file after it
(`isFile_set_link_iff`).
-/

import Mathlib.Data.List.Infix
import TizenRoblox.Posix.Tree

namespace TizenRoblox.Posix.Tree

open TizenRoblox.Foundation

/-! ## Resolution, one component at a time -/

section Components

variable {tree : Tree} {links : ℕ} {current : Path} {name : Name} {rest : List Name}

theorem walk_cons :
    walk tree links current (name :: rest) =
      if name = dot then walk tree links current rest
      else if name = dotdot then walk tree links current.dropLast rest
      else
        match tree.node (current ++ [name]), links with
        | some .dir, _ => walk tree links (current ++ [name]) rest
        | some (.link _), 0 => none
        | some (.link target), less + 1 =>
            walk tree less (if target.absolute then [] else current) (target.parts ++ rest)
        | _, _ => if rest = [] then some (current ++ [name]) else none := by
  cases links with
  | zero =>
      simp only [walk, walkWith]
      cases tree.node (current ++ [name]) with
      | none => rfl
      | some value => cases value <;> rfl
  | succ less =>
      simp only [walk, walkWith]
      cases tree.node (current ++ [name]) with
      | none => rfl
      | some value => cases value <;> rfl

theorem trail_cons :
    trail tree links current (name :: rest) =
      if name = dot then trail tree links current rest
      else if name = dotdot then trail tree links current.dropLast rest
      else
        (current ++ [name]) ::
          match tree.node (current ++ [name]), links with
          | some .dir, _ => trail tree links (current ++ [name]) rest
          | some (.link _), 0 => []
          | some (.link target), less + 1 =>
              trail tree less (if target.absolute then [] else current) (target.parts ++ rest)
          | _, _ => [] := by
  cases links with
  | zero =>
      simp only [trail, trailWith]
      cases tree.node (current ++ [name]) with
      | none => rfl
      | some value => cases value <;> rfl
  | succ less =>
      simp only [trail, trailWith]
      cases tree.node (current ++ [name]) with
      | none => rfl
      | some value => cases value <;> rfl

end Components

/-- The way of a resolution: through the components, directories and links of a tree,
with the links it may still follow. -/
theorem resolution_induction (tree : Tree) {motive : ℕ → Path → List Name → Prop}
    (nil : ∀ links current, motive links current [])
    (here : ∀ links current rest, motive links current rest → motive links current (dot :: rest))
    (up : ∀ links current rest, motive links current.dropLast rest →
      motive links current (dotdot :: rest))
    (dir : ∀ links current name rest, name ≠ dot → name ≠ dotdot →
      tree.node (current ++ [name]) = some .dir → motive links (current ++ [name]) rest →
        motive links current (name :: rest))
    (stuck : ∀ current name rest target, name ≠ dot → name ≠ dotdot →
      tree.node (current ++ [name]) = some (.link target) → motive 0 current (name :: rest))
    (link : ∀ less current name rest target, name ≠ dot → name ≠ dotdot →
      tree.node (current ++ [name]) = some (.link target) →
        motive less (if target.absolute then [] else current) (target.parts ++ rest) →
          motive (less + 1) current (name :: rest))
    (stop : ∀ links current name rest, name ≠ dot → name ≠ dotdot →
      tree.node (current ++ [name]) ≠ some .dir →
        (∀ target, tree.node (current ++ [name]) ≠ some (.link target)) →
          motive links current (name :: rest))
    (links : ℕ) (current : Path) (parts : List Name) : motive links current parts := by
  induction links using Nat.strong_induction_on generalizing current parts with
  | _ links ihLinks =>
      induction parts generalizing current with
      | nil => exact nil links current
      | cons name rest ih =>
          by_cases hdot : name = dot
          · subst hdot
            exact here links current rest (ih current)
          by_cases hdotdot : name = dotdot
          · subst hdotdot
            exact up links current rest (ih current.dropLast)
          by_cases hdir : tree.node (current ++ [name]) = some .dir
          · exact dir links current name rest hdot hdotdot hdir (ih _)
          by_cases hlink : ∃ target, tree.node (current ++ [name]) = some (.link target)
          · obtain ⟨target, hlink⟩ := hlink
            cases links with
            | zero => exact stuck current name rest target hdot hdotdot hlink
            | succ less =>
                exact link less current name rest target hdot hdotdot hlink
                  (ihLinks less (Nat.lt_succ_self less) _ _)
          · exact stop links current name rest hdot hdotdot hdir (not_exists.mp hlink)

section Stopping

variable {tree : Tree} {links : ℕ} {current : Path} {name : Name} {rest : List Name}

theorem walk_stop (hdot : name ≠ dot) (hdotdot : name ≠ dotdot)
    (hdir : tree.node (current ++ [name]) ≠ some .dir)
    (hlink : ∀ target, tree.node (current ++ [name]) ≠ some (.link target)) :
    walk tree links current (name :: rest) =
      if rest = [] then some (current ++ [name]) else none := by
  rw [walk_cons, if_neg hdot, if_neg hdotdot]
  cases hnode : tree.node (current ++ [name]) with
  | none => rfl
  | some value =>
      cases value with
      | dir => exact absurd hnode hdir
      | link target => exact absurd hnode (hlink target)
      | file data => rfl
      | socket => rfl
      | charDevice => rfl

theorem trail_stop (hdot : name ≠ dot) (hdotdot : name ≠ dotdot)
    (hdir : tree.node (current ++ [name]) ≠ some .dir)
    (hlink : ∀ target, tree.node (current ++ [name]) ≠ some (.link target)) :
    trail tree links current (name :: rest) = [current ++ [name]] := by
  rw [trail_cons, if_neg hdot, if_neg hdotdot]
  cases hnode : tree.node (current ++ [name]) with
  | none => rfl
  | some value =>
      cases value with
      | dir => exact absurd hnode hdir
      | link target => exact absurd hnode (hlink target)
      | file data => rfl
      | socket => rfl
      | charDevice => rfl

end Stopping

/-- What is reached over some links is reached over more. -/
theorem walk_mono {tree : Tree} {links more : ℕ} {current place : Path} {parts : List Name}
    (hle : links ≤ more) (hwalk : walk tree links current parts = some place) :
    walk tree more current parts = some place := by
  induction links, current, parts using resolution_induction tree generalizing more with
  | nil links current => cases links <;> cases more <;> exact hwalk
  | here links current rest ih =>
      rw [walk_cons, if_pos rfl] at hwalk ⊢
      exact ih hle hwalk
  | up links current rest ih =>
      rw [walk_cons, if_neg (by decide), if_pos rfl] at hwalk ⊢
      exact ih hle hwalk
  | dir links current name rest hdot hdotdot hdir ih =>
      simp only [walk_cons, if_neg hdot, if_neg hdotdot, hdir] at hwalk ⊢
      exact ih hle hwalk
  | stuck current name rest target hdot hdotdot hlink =>
      simp [walk_cons, hdot, hdotdot, hlink] at hwalk
  | link less current name rest target hdot hdotdot hlink ih =>
      obtain ⟨most, rfl⟩ : ∃ most, more = most + 1 := ⟨more - 1, by omega⟩
      simp only [walk_cons, if_neg hdot, if_neg hdotdot, hlink] at hwalk ⊢
      exact ih (Nat.le_of_succ_le_succ hle) hwalk
  | stop links current name rest hdot hdotdot hdir hlink =>
      rw [walk_stop hdot hdotdot hdir hlink] at hwalk ⊢
      exact hwalk

/-- A resolution that succeeds takes the same way when it may follow more links. -/
theorem trail_of_walk {tree : Tree} {links more : ℕ} {current place : Path} {parts : List Name}
    (hle : links ≤ more) (hwalk : walk tree links current parts = some place) :
    trail tree more current parts = trail tree links current parts := by
  induction links, current, parts using resolution_induction tree generalizing more with
  | nil links current => cases links <;> cases more <;> rfl
  | here links current rest ih =>
      rw [walk_cons, if_pos rfl] at hwalk
      rw [trail_cons, trail_cons, if_pos rfl, if_pos rfl, ih hle hwalk]
  | up links current rest ih =>
      rw [walk_cons, if_neg (by decide), if_pos rfl] at hwalk
      rw [trail_cons, trail_cons, if_neg (by decide), if_pos rfl, if_neg (by decide), if_pos rfl,
        ih hle hwalk]
  | dir links current name rest hdot hdotdot hdir ih =>
      simp only [walk_cons, if_neg hdot, if_neg hdotdot, hdir] at hwalk
      simp only [trail_cons, if_neg hdot, if_neg hdotdot, hdir, ih hle hwalk]
  | stuck current name rest target hdot hdotdot hlink =>
      simp [walk_cons, hdot, hdotdot, hlink] at hwalk
  | link less current name rest target hdot hdotdot hlink ih =>
      obtain ⟨most, rfl⟩ : ∃ most, more = most + 1 := ⟨more - 1, by omega⟩
      simp only [walk_cons, if_neg hdot, if_neg hdotdot, hlink] at hwalk
      simp only [trail_cons, if_neg hdot, if_neg hdotdot, hlink,
        ih (Nat.le_of_succ_le_succ hle) hwalk]
  | stop links current name rest hdot hdotdot hdir hlink =>
      rw [trail_stop hdot hdotdot hdir hlink, trail_stop hdot hdotdot hdir hlink]

/-- Only through a directory does a resolution go on. -/
theorem isDir_of_walk_append {tree : Tree} {links : ℕ} {current place : Path}
    {parts rest : List Name} (hrest : rest ≠ [])
    (hcurrent : ∀ front, front <+: current → tree.isDir front = true)
    (hwalk : walk tree links current (parts ++ rest) = some place) :
    ∃ middle, walk tree links current parts = some middle ∧ tree.isDir middle = true := by
  induction links, current, parts using resolution_induction tree with
  | nil links current => exact ⟨current, by cases links <;> rfl, hcurrent _ (List.prefix_refl _)⟩
  | here links current parts ih =>
      rw [List.cons_append, walk_cons, if_pos rfl] at hwalk
      rw [walk_cons, if_pos rfl]
      exact ih hcurrent hwalk
  | up links current parts ih =>
      rw [List.cons_append, walk_cons, if_neg (by decide), if_pos rfl] at hwalk
      rw [walk_cons, if_neg (by decide), if_pos rfl]
      exact ih (fun front hfront => hcurrent front (hfront.trans (List.dropLast_prefix _))) hwalk
  | dir links current name parts hdot hdotdot hdir ih =>
      simp only [List.cons_append, walk_cons, if_neg hdot, if_neg hdotdot, hdir] at hwalk ⊢
      refine ih (fun front hfront => ?_) hwalk
      rcases List.prefix_concat_iff.mp hfront with rfl | hfront
      · simp [isDir, hdir]
      · exact hcurrent front hfront
  | stuck current name parts target hdot hdotdot hlink =>
      simp [walk_cons, hdot, hdotdot, hlink] at hwalk
  | link less current name parts target hdot hdotdot hlink ih =>
      simp only [List.cons_append, walk_cons, if_neg hdot, if_neg hdotdot, hlink,
        ← List.append_assoc] at hwalk ⊢
      refine ih (fun front hfront => ?_) hwalk
      split at hfront
      · simp [List.prefix_nil.mp hfront, isDir]
      · exact hcurrent front hfront
  | stop links current name parts hdot hdotdot hdir hlink =>
      rw [List.cons_append, walk_stop hdot hdotdot hdir hlink, if_neg (by simp [hrest])] at hwalk
      cases hwalk

/-! ## Arriving at an entry -/

/-- Whether the last step of a resolution is to an entry. `follow` takes over at a
symbolic link. -/
def arrivesWith (tree : Tree) (place : Path) (follow : Path → List Name → Bool) :
    Path → List Name → Bool
  | _, [] => false
  | current, name :: rest =>
    if name = dot then arrivesWith tree place follow current rest
    else if name = dotdot then arrivesWith tree place follow current.dropLast rest
    else if current ++ [name] = place then rest = []
    else
      match tree.node (current ++ [name]) with
      | some .dir => arrivesWith tree place follow (current ++ [name]) rest
      | some (.link target) =>
          follow (if target.absolute then [] else current) (target.parts ++ rest)
      | _ => false

/-- Whether a resolution that follows at most the given number of links arrives at an
entry, whatever that holds. -/
def arrives (tree : Tree) (place : Path) : ℕ → Path → List Name → Bool
  | 0 => arrivesWith tree place fun _ _ => false
  | links + 1 => arrivesWith tree place (arrives tree place links)

theorem arrives_cons {tree : Tree} {place current : Path} {links : ℕ} {name : Name}
    {rest : List Name} :
    arrives tree place links current (name :: rest) =
      if name = dot then arrives tree place links current rest
      else if name = dotdot then arrives tree place links current.dropLast rest
      else if current ++ [name] = place then decide (rest = [])
      else
        match tree.node (current ++ [name]), links with
        | some .dir, _ => arrives tree place links (current ++ [name]) rest
        | some (.link _), 0 => false
        | some (.link target), less + 1 =>
            arrives tree place less (if target.absolute then [] else current)
              (target.parts ++ rest)
        | _, _ => false := by
  cases links with
  | zero =>
      simp only [arrives, arrivesWith]
      cases tree.node (current ++ [name]) with
      | none => rfl
      | some value => cases value <;> rfl
  | succ less =>
      simp only [arrives, arrivesWith]
      cases tree.node (current ++ [name]) with
      | none => rfl
      | some value => cases value <;> rfl

theorem arrives_stop {tree : Tree} {place current : Path} {links : ℕ} {name : Name}
    {rest : List Name} (hdot : name ≠ dot) (hdotdot : name ≠ dotdot)
    (hplace : current ++ [name] ≠ place) (hdir : tree.node (current ++ [name]) ≠ some .dir)
    (hlink : ∀ target, tree.node (current ++ [name]) ≠ some (.link target)) :
    arrives tree place links current (name :: rest) = false := by
  rw [arrives_cons, if_neg hdot, if_neg hdotdot, if_neg hplace]
  cases hnode : tree.node (current ++ [name]) with
  | none => rfl
  | some value =>
      cases value with
      | dir => exact absurd hnode hdir
      | link target => exact absurd hnode (hlink target)
      | file data => rfl
      | socket => rfl
      | charDevice => rfl

section NewLink

variable {tree : Tree} {place : Path} {source : Pathname}

/-- A resolution that arrives at the new link goes on to its source. -/
theorem walk_of_arrives (habsolute : source.absolute = true) {here back : ℕ} {current : Path}
    {parts : List Name} {goal : Path}
    (harrives : arrives tree place here current parts = true)
    (hback : walk (tree.set place (.link source)) back [] source.parts = some goal) :
    walk (tree.set place (.link source)) (here + back + 1) current parts = some goal := by
  -- at the entry itself, the link is followed
  have hentry {here : ℕ} {current : Path} {name : Name} {rest : List Name} (hdot : name ≠ dot)
      (hdotdot : name ≠ dotdot) (hplace : current ++ [name] = place)
      (harrives : arrives tree place here current (name :: rest) = true) :
      walk (tree.set place (.link source)) (here + back + 1) current (name :: rest) =
        some goal := by
    rw [arrives_cons, if_neg hdot, if_neg hdotdot, if_pos hplace, decide_eq_true_iff] at harrives
    subst harrives
    simp only [walk_cons, if_neg hdot, if_neg hdotdot, hplace, node_set_self, if_pos habsolute,
      List.append_nil]
    exact walk_mono (by omega) hback
  induction here, current, parts using resolution_induction tree with
  | nil links current => cases links <;> cases harrives
  | here links current rest ih =>
      rw [arrives_cons, if_pos rfl] at harrives
      rw [walk_cons, if_pos rfl]
      exact ih harrives
  | up links current rest ih =>
      rw [arrives_cons, if_neg (by decide), if_pos rfl] at harrives
      rw [walk_cons, if_neg (by decide), if_pos rfl]
      exact ih harrives
  | dir links current name rest hdot hdotdot hdir ih =>
      by_cases hplace : current ++ [name] = place
      · exact hentry hdot hdotdot hplace harrives
      simp only [arrives_cons, if_neg hdot, if_neg hdotdot, if_neg hplace, hdir] at harrives
      simp only [walk_cons, if_neg hdot, if_neg hdotdot, node_set_of_ne tree _ hplace, hdir]
      exact ih harrives
  | stuck current name rest target hdot hdotdot hlink =>
      by_cases hplace : current ++ [name] = place
      · exact hentry hdot hdotdot hplace harrives
      simp [arrives_cons, hdot, hdotdot, hplace, hlink] at harrives
  | link less current name rest target hdot hdotdot hlink ih =>
      by_cases hplace : current ++ [name] = place
      · exact hentry hdot hdotdot hplace harrives
      simp only [arrives_cons, if_neg hdot, if_neg hdotdot, if_neg hplace, hlink] at harrives
      rw [Nat.add_right_comm less 1 back]
      simp only [walk_cons, if_neg hdot, if_neg hdotdot, node_set_of_ne tree _ hplace, hlink]
      exact ih harrives
  | stop links current name rest hdot hdotdot hdir hlink =>
      by_cases hplace : current ++ [name] = place
      · exact hentry hdot hdotdot hplace harrives
      rw [arrives_stop hdot hdotdot hplace hdir hlink] at harrives
      cases harrives

/-- A resolution that gets to the new link goes on to its source, with what is left of
the name. -/
theorem exists_of_mem_trail (habsolute : source.absolute = true) {links : ℕ} {current : Path}
    {parts : List Name} {goal : Path} (hmem : place ∈ trail tree links current parts)
    (hwalk : walk (tree.set place (.link source)) links current parts = some goal) :
    ∃ here back rest, here + back < links ∧
      walk (tree.set place (.link source)) back [] (source.parts ++ rest) = some goal ∧
        (rest = [] → arrives tree place here current parts = true) := by
  have hentry {links : ℕ} {current : Path} {name : Name} {rest : List Name} (hdot : name ≠ dot)
      (hdotdot : name ≠ dotdot) (hplace : current ++ [name] = place)
      (hwalk : walk (tree.set place (.link source)) links current (name :: rest) = some goal) :
      ∃ here back rest', here + back < links ∧
        walk (tree.set place (.link source)) back [] (source.parts ++ rest') = some goal ∧
          (rest' = [] → arrives tree place here current (name :: rest) = true) := by
    simp only [walk_cons, if_neg hdot, if_neg hdotdot, hplace, node_set_self] at hwalk
    cases links with
    | zero => cases hwalk
    | succ less =>
        refine ⟨0, less, rest, by omega, by simpa [habsolute] using hwalk, fun hrest => ?_⟩
        simp [arrives_cons, hdot, hdotdot, hplace, hrest]
  induction links, current, parts using resolution_induction tree with
  | nil links current => cases links <;> cases hmem
  | here links current rest ih =>
      rw [trail_cons, if_pos rfl] at hmem
      rw [walk_cons, if_pos rfl] at hwalk
      simpa only [arrives_cons, if_pos] using ih hmem hwalk
  | up links current rest ih =>
      rw [trail_cons, if_neg (by decide), if_pos rfl] at hmem
      rw [walk_cons, if_neg (by decide), if_pos rfl] at hwalk
      obtain ⟨here, back, rest', hlt, hback, harrives⟩ := ih hmem hwalk
      refine ⟨here, back, rest', hlt, hback, fun hrest => ?_⟩
      rw [arrives_cons, if_neg (by decide), if_pos rfl]
      exact harrives hrest
  | dir links current name rest hdot hdotdot hdir ih =>
      by_cases hplace : current ++ [name] = place
      · exact hentry hdot hdotdot hplace hwalk
      simp only [trail_cons, if_neg hdot, if_neg hdotdot, hdir, List.mem_cons,
        Ne.symm hplace, false_or] at hmem
      simp only [walk_cons, if_neg hdot, if_neg hdotdot, node_set_of_ne tree _ hplace,
        hdir] at hwalk
      obtain ⟨here, back, rest', hlt, hback, harrives⟩ := ih hmem hwalk
      refine ⟨here, back, rest', hlt, hback, fun hrest => ?_⟩
      simpa only [arrives_cons, if_neg hdot, if_neg hdotdot, if_neg hplace, hdir] using
        harrives hrest
  | stuck current name rest target hdot hdotdot hlink =>
      by_cases hplace : current ++ [name] = place
      · exact hentry hdot hdotdot hplace hwalk
      simp [trail_cons, hdot, hdotdot, hlink, Ne.symm hplace] at hmem
  | link less current name rest target hdot hdotdot hlink ih =>
      by_cases hplace : current ++ [name] = place
      · exact hentry hdot hdotdot hplace hwalk
      simp only [trail_cons, if_neg hdot, if_neg hdotdot, hlink, List.mem_cons,
        Ne.symm hplace, false_or] at hmem
      simp only [walk_cons, if_neg hdot, if_neg hdotdot, node_set_of_ne tree _ hplace, hlink]
        at hwalk
      obtain ⟨here, back, rest', hlt, hback, harrives⟩ := ih hmem hwalk
      refine ⟨here + 1, back, rest', by omega, hback, fun hrest => ?_⟩
      simpa only [arrives_cons, if_neg hdot, if_neg hdotdot, if_neg hplace, hlink] using
        harrives hrest
  | stop links current name rest hdot hdotdot hdir hlink =>
      by_cases hplace : current ++ [name] = place
      · exact hentry hdot hdotdot hplace hwalk
      rw [trail_stop hdot hdotdot hdir hlink] at hmem
      exact absurd (List.mem_singleton.mp hmem).symm hplace

/-- A resolution of the source that succeeds once the link is there keeps off it: it
would go round in a circle. -/
theorem not_mem_trail_of_walk (habsolute : source.absolute = true) {back : ℕ} {goal : Path}
    (hwalk : walk (tree.set place (.link source)) back [] source.parts = some goal) :
    place ∉ trail tree back [] source.parts := by
  induction back using Nat.strong_induction_on generalizing goal with
  | _ back ih =>
      intro hmem
      obtain ⟨here, less, rest, hlt, hless, -⟩ := exists_of_mem_trail habsolute hmem hwalk
      -- the source itself is reached over fewer links
      obtain ⟨middle, hmiddle⟩ : ∃ middle,
          walk (tree.set place (.link source)) less [] source.parts = some middle := by
        by_cases hrest : rest = []
        · exact ⟨goal, by simpa [hrest] using hless⟩
        · obtain ⟨middle, hmiddle, -⟩ := isDir_of_walk_append hrest
            (by simp [List.prefix_nil, isDir]) hless
          exact ⟨middle, hmiddle⟩
      have havoids := ih less (by omega) hmiddle
      have hsame := walk_congr less [] source.parts fun other hother =>
        node_set_of_ne tree (.link source) (ne_of_mem_of_not_mem hother havoids)
      rw [trail_of_walk (by omega) (hsame.symm.trans hmiddle)] at hmem
      exact havoids hmem

end NewLink

/-! ## What a name leads to once the link is there -/

section Leading

variable (tree : Tree) (cwd place : Path) (source name : Pathname)

/-- A link from `place` to `source` would be followed by `name`: the name arrives at
the place, the way to the source keeps off it, and both together leave room for one
more link. -/
def Leads : Prop :=
  ∃ here < linkLimit, ∃ back < linkLimit - here,
    arrives tree place here (if name.absolute then [] else cwd) name.parts = true ∧
      (walk tree back [] source.parts).isSome = true ∧
      place ∉ trail tree back [] source.parts

instance : Decidable (tree.Leads cwd place source name) := by
  unfold Leads
  infer_instance

variable {tree cwd place source name}

theorem isFile_iff_locate : tree.isFile cwd name = true ↔
    ∃ goal data, tree.locate cwd name = some goal ∧ goal ≠ [] ∧
      tree.node goal = some (.file data) := by
  unfold isFile
  cases hlocate : tree.locate cwd name with
  | none => simp [stat, hlocate]
  | some goal =>
      rw [stat_of_locate hlocate]
      by_cases hroot : goal = []
      · simp [hroot]
      · rw [if_neg hroot]
        cases hnode : tree.node goal with
        | none => simp [hnode]
        | some value => cases value <;> simp [hnode, hroot]

/-- Where the source is a file, the link leads a name only as its last step. -/
private theorem walk_source (habsolute : source.absolute = true) {file goal : Path} {data : Bytes}
    {back : ℕ} {rest : List Name} (hback : back ≤ linkLimit)
    (hfile : walk tree linkLimit [] source.parts = some file) (hroot : file ≠ [])
    (hdata : (tree.set place (.link source)).node file = some (.file data))
    (hwalk : walk (tree.set place (.link source)) back [] (source.parts ++ rest) = some goal) :
    rest = [] ∧ place ∉ trail tree back [] source.parts ∧
      walk tree back [] source.parts = some file := by
  have hmiddle : ∃ middle, walk (tree.set place (.link source)) back [] source.parts =
      some middle ∧ (rest ≠ [] → (tree.set place (.link source)).isDir middle = true) := by
    by_cases hrest : rest = []
    · exact ⟨goal, by simpa [hrest] using hwalk, fun hne => absurd hrest hne⟩
    · obtain ⟨middle, hmiddle, hdir⟩ := isDir_of_walk_append hrest
        (by simp [List.prefix_nil, isDir]) hwalk
      exact ⟨middle, hmiddle, fun _ => hdir⟩
  obtain ⟨middle, hmiddle, hdir⟩ := hmiddle
  have havoids := not_mem_trail_of_walk habsolute hmiddle
  have hsame := walk_congr back [] source.parts fun other hother =>
    node_set_of_ne tree (.link source) (ne_of_mem_of_not_mem hother havoids)
  have hsource : walk tree back [] source.parts = some middle := hsame.symm.trans hmiddle
  obtain rfl : middle = file :=
    Option.some.inj ((walk_mono hback hsource).symm.trans hfile)
  refine ⟨?_, havoids, hsource⟩
  by_contra hrest
  simpa [isDir, hroot, hdata] using hdir hrest

/-- After a link to a regular file has taken a place, a name leads to a regular file
exactly if it did so already and keeps off the place, or is led on by the link. -/
theorem isFile_set_link_iff (habsolute : source.absolute = true)
    (hsource : tree.isFile cwd source = true) (hne : tree.locate cwd source ≠ some place) :
    (tree.set place (.link source)).isFile cwd name = true ↔
      tree.isFile cwd name = true ∧ place ∉ tree.reads cwd name ∨
        tree.Leads cwd place source name := by
  obtain ⟨file, data, hfile, hroot, hdata⟩ := isFile_iff_locate.mp hsource
  have hplace : file ≠ place := by
    rintro rfl
    exact hne hfile
  have hfileNode : (tree.set place (.link source)).node file = some (.file data) := by
    rw [node_set_of_ne tree _ hplace, hdata]
  have hfileWalk : walk tree linkLimit [] source.parts = some file := by
    simpa [locate, habsolute] using hfile
  constructor
  · intro hnext
    obtain ⟨goal, other, hgoal, hgoalRoot, hgoalNode⟩ := isFile_iff_locate.mp hnext
    by_cases hmem : place ∈ trail tree linkLimit (if name.absolute then [] else cwd) name.parts
    · right
      obtain ⟨here, back, rest, hlt, hback, harrives⟩ := exists_of_mem_trail habsolute hmem hgoal
      obtain ⟨hrest, havoids, hway⟩ :=
        walk_source habsolute (by omega) hfileWalk hroot hfileNode hback
      exact ⟨here, by omega, back, by omega, harrives hrest, by simp [hway], havoids⟩
    · left
      have hsame : tree.locate cwd name = some goal := by
        have hcongr := walk_congr linkLimit (if name.absolute then [] else cwd) name.parts
          fun other hother => node_set_of_ne tree (.link source) (ne_of_mem_of_not_mem hother hmem)
        exact hcongr.symm.trans hgoal
      have hgoalPlace : goal ≠ place := by
        rintro rfl
        simp at hgoalNode
      rw [node_set_of_ne tree _ hgoalPlace] at hgoalNode
      refine ⟨isFile_iff_locate.mpr ⟨goal, other, hsame, hgoalRoot, hgoalNode⟩, ?_⟩
      simp [reads, hsame, hmem, hgoalPlace.symm]
  · rintro (⟨hname, hreads⟩ | ⟨here, hhere, back, hback, harrives, hway, havoids⟩)
    · rw [isFile_congr fun other hother =>
        node_set_of_ne tree _ (ne_of_mem_of_not_mem hother hreads)]
      exact hname
    · obtain ⟨goal, hgoal⟩ := Option.isSome_iff_exists.mp hway
      obtain rfl : goal = file :=
        Option.some.inj ((walk_mono (by omega) hgoal).symm.trans hfileWalk)
      have hsame := walk_congr back [] source.parts fun other hother =>
        node_set_of_ne tree (.link source) (ne_of_mem_of_not_mem hother havoids)
      have hwalk := walk_of_arrives habsolute harrives (hsame.trans hgoal)
      exact isFile_iff_locate.mpr
        ⟨goal, data, walk_mono (by omega) hwalk, hroot, hfileNode⟩

/-- `ln -sf` of a regular file puts its link elsewhere than at the file. -/
theorem lnSf_eq_set {next : Tree} {target : Pathname} (hsource : tree.isFile cwd source = true)
    (hnext : tree.lnSf cwd source target = some next) :
    ∃ place, tree.destination cwd source target = some place ∧
      next = tree.set place (.link source) ∧ tree.locate cwd source ≠ some place := by
  unfold lnSf at hnext
  cases hplace : tree.destination cwd source target with
  | none => simp [hplace] at hnext
  | some place =>
      simp only [hplace] at hnext
      split at hnext
      · cases hnext
      split at hnext
      · cases hnext
      next hsame =>
        refine ⟨place, rfl, (Option.some.inj hnext).symm, fun hlocate => hsame ⟨hlocate, ?_⟩⟩
        obtain ⟨file, data, hfile, -, hdata⟩ := isFile_iff_locate.mp hsource
        obtain rfl : file = place := Option.some.inj (hfile.symm.trans hlocate)
        simp [hdata]

end Leading

/-! ## A link in a free place -/

section Free

variable {tree : Tree} {cwd place : Path} {source target : Pathname}

/-- On the way to a directory there are directories and links. -/
theorem node_of_mem_trail {links : ℕ} {current directory : Path} {parts : List Name}
    (hwalk : walk tree links current parts = some directory) (hisDir : tree.isDir directory = true)
    (hmem : place ∈ trail tree links current parts) :
    tree.node place = some .dir ∨ ∃ target, tree.node place = some (.link target) := by
  induction links, current, parts using resolution_induction tree with
  | nil links current => cases links <;> cases hmem
  | here links current rest ih =>
      rw [walk_cons, if_pos rfl] at hwalk
      rw [trail_cons, if_pos rfl] at hmem
      exact ih hwalk hmem
  | up links current rest ih =>
      rw [walk_cons, if_neg (by decide), if_pos rfl] at hwalk
      rw [trail_cons, if_neg (by decide), if_pos rfl] at hmem
      exact ih hwalk hmem
  | dir links current name rest hdot hdotdot hdir ih =>
      simp only [walk_cons, if_neg hdot, if_neg hdotdot, hdir] at hwalk
      simp only [trail_cons, if_neg hdot, if_neg hdotdot, hdir, List.mem_cons] at hmem
      rcases hmem with rfl | hmem
      · exact Or.inl hdir
      · exact ih hwalk hmem
  | stuck current name rest target hdot hdotdot hlink =>
      simp [walk_cons, hdot, hdotdot, hlink] at hwalk
  | link less current name rest target hdot hdotdot hlink ih =>
      simp only [walk_cons, if_neg hdot, if_neg hdotdot, hlink] at hwalk
      simp only [trail_cons, if_neg hdot, if_neg hdotdot, hlink, List.mem_cons] at hmem
      rcases hmem with rfl | hmem
      · exact Or.inr ⟨target, hlink⟩
      · exact ih hwalk hmem
  | stop links current name rest hdot hdotdot hdir hlink =>
      rw [walk_stop hdot hdotdot hdir hlink] at hwalk
      split at hwalk
      · obtain rfl := Option.some.inj hwalk
        simp [isDir, hdir] at hisDir
      · cases hwalk

/-- Where a name has no file, link or directory, `ln -sf` of a file makes it a link. -/
theorem lnSf_of_free (hsource : tree.isFile cwd source = true)
    (hentry : tree.entry cwd target = some place) (hfile : tree.isFile cwd target = false)
    (hlink : tree.isLink cwd target = false) (hdirectory : tree.isDirectory cwd target = false) :
    ∃ next, tree.lnSf cwd source target = some next ∧ next.isLink cwd target = true := by
  have hnotLink : ∀ other, tree.node place ≠ some (.link other) := by
    intro other hnode
    simp [isLink, lstat, hentry, hnode] at hlink
  have hlocate := locate_of_entry hentry hnotLink
  obtain ⟨directory, last, hlast, rfl, hdots, hisDir, hfront⟩ := entry_eq_some hentry
  have hstat := stat_of_locate hlocate
  rw [if_neg (by simp)] at hstat
  have hnotDir : tree.node (directory ++ [last]) ≠ some .dir := by
    intro hnode
    simp [isDirectory, hstat, hnode] at hdirectory
  have hnotSource : tree.locate cwd source ≠ some (directory ++ [last]) := by
    intro hsame
    have hsourceStat := stat_of_locate hsame
    rw [if_neg (by simp), ← hstat] at hsourceStat
    rw [isFile, hsourceStat] at hsource
    rw [isFile, hsource] at hfile
    cases hfile
  have hdestination : tree.destination cwd source target = some (directory ++ [last]) := by
    simp [destination, hdirectory, hentry]
  refine ⟨tree.set (directory ++ [last]) (.link source), ?_, ?_⟩
  · simp [lnSf, hdestination, hnotDir, hnotSource]
  · -- the way to the directory does not come by the new link
    have hagree : ∀ other ∈ tree.reads cwd { target with parts := target.parts.dropLast },
        (tree.set (directory ++ [last]) (.link source)).node other = tree.node other := by
      intro other hother
      apply node_set_of_ne
      rintro rfl
      rcases List.mem_append.mp hother with htrail | hplace
      · rcases node_of_mem_trail hfront hisDir htrail with hdir | ⟨other, hnode⟩
        · exact hnotDir hdir
        · exact hnotLink other hnode
      · rw [hfront, Option.mem_toList] at hplace
        exact absurd (Option.some.inj hplace) (by simp)
    have hkept : (tree.set (directory ++ [last]) (.link source)).isDir directory = true := by
      have hne : directory ≠ directory ++ [last] := by simp
      rw [isDir, node_set_of_ne tree _ hne]
      exact hisDir
    have hstill : (tree.set (directory ++ [last]) (.link source)).entry cwd target =
        some (directory ++ [last]) := by
      rw [entry, hlast]
      simp [hdots, locate_congr hagree, hfront, hkept]
    simp [isLink, lstat, hstill]

end Free

end TizenRoblox.Posix.Tree
