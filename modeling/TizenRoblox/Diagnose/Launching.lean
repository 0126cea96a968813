/-
# What the diagnostic says, and what the launcher then does

For the ELF interpreter and for the socket of the compositor the launcher looks on its own
what is there, and for the interpreter it makes a link. On a TV where `/lib` is a directory
the kernel finds an interpreter once the launcher has looked for one exactly if the
diagnostic was content, its name was no link to nothing, and the link to an interpreter
elsewhere can be made and followed. The launcher finds a socket wherever the diagnostic
does, and another one only in its own runtime directory (`launcher_agrees`).
-/

import TizenRoblox.Diagnose.Script

namespace TizenRoblox.Diagnose

open TizenRoblox.Foundation TizenRoblox.Posix TizenRoblox.Shell TizenRoblox.Shell.Command
open TizenRoblox.Shell.Glob TizenRoblox.Launcher

/-- The launcher runs on the TV that was diagnosed. -/
structure SameTv (tv : Tv) (world : World) (state : State) : Prop where
  tree : state.tree = tv.tree
  cwd : world.cwd = tv.cwd

/-! ## The interpreter -/

section Interpreter

variable {tv : Tv} {world : World} {state : State}

/-- The kernel finds an interpreter: its name leads to a regular file. -/
def hasInterpreter (world : World) (tree : Tree) : Bool :=
  tree.isFile world.cwd (.ofBytes interp)

/-- The name of the interpreter is taken, and the launcher leaves it at that. -/
def interpTaken (world : World) (tree : Tree) : Bool :=
  hasInterpreter world tree || tree.isLink world.cwd (.ofBytes interp)

/-- An interpreter of the launcher's list is linked to where the kernel looks for it. -/
def linkInterp (world : World) (path : Bytes) : Command State := .block [
  echo world (bytes "[launch] Symlinking ELF interpreter /lib/ld-linux-aarch64.so.1 → " ++ path),
  mkdirP world (bytes "/lib"),
  .orElse (lnSf world path elfInterpreterPath) <|
    echo world (bytes "[launch] WARNING: could not create ELF interpreter symlink (need root)"),
  .brk 1]

/-- The launcher gets as far as a link to an interpreter, may make it, and the kernel can
follow it. -/
structure Linkable (world : World) (state : State) (path : Bytes) : Prop where
  said : world.logOk state.trace = true
  directory : world.mkdirOk (bytes "/lib") = true
  permitted : world.linkOk interp = true
  followed : ∀ place ∈ state.tree.entry world.cwd (.ofBytes interp),
    state.tree.Leads world.cwd place (.ofBytes path) (.ofBytes interp)

instance (world : World) (state : State) (path : Bytes) : Decidable (Linkable world state path) :=
  decidable_of_iff (_ ∧ _ ∧ _ ∧ _)
    ⟨fun hparts => ⟨hparts.1, hparts.2.1, hparts.2.2.1, hparts.2.2.2⟩,
      fun hlinkable =>
        ⟨hlinkable.said, hlinkable.directory, hlinkable.permitted, hlinkable.followed⟩⟩

theorem isDir_of_isDirectory {tree : Tree} {cwd : Path} {name : Pathname}
    (hdirectory : tree.isDirectory cwd name = true) :
    ∃ place, tree.locate cwd name = some place ∧ tree.isDir place = true := by
  unfold Tree.isDirectory at hdirectory
  cases hlocate : tree.locate cwd name with
  | none => simp [Tree.stat, hlocate] at hdirectory
  | some place =>
      rw [Tree.stat_of_locate hlocate] at hdirectory
      refine ⟨place, rfl, ?_⟩
      by_cases hroot : place = []
      · simp [Tree.isDir, hroot]
      · simpa [hroot, Tree.isDir] using hdirectory

/-- Nothing is made where `/lib` is a directory. -/
theorem mkdirP_of_isDirectory {tree : Tree} {cwd : Path}
    (hlib : tree.isDirectory cwd (.ofBytes (bytes "/lib")) = true) :
    tree.mkdirP cwd (.ofBytes (bytes "/lib")) = tree := by
  obtain ⟨place, hlocate, hisDir⟩ := isDir_of_isDirectory hlib
  have hinits : ((Pathname.ofBytes (bytes "/lib")).parts.inits.drop 1) = [[bytes "lib"]] := by
    decide
  have hname : ({ Pathname.ofBytes (bytes "/lib") with parts := [bytes "lib"] } : Pathname) =
      .ofBytes (bytes "/lib") := by decide
  have hthere : place = [] ∨ tree.node place ≠ none := by
    simp only [Tree.isDir, Bool.or_eq_true, decide_eq_true_eq] at hisDir
    exact hisDir.imp_right fun hnode => by simp [hnode]
  rw [Tree.mkdirP, hinits, List.foldl_cons, List.foldl_nil, hname, hlocate]
  exact if_pos hthere

/-- The name of the interpreter is in the directory that `/lib` leads to. -/
theorem entry_interp {tree : Tree} {cwd : Path}
    (hlib : tree.isDirectory cwd (.ofBytes (bytes "/lib")) = true) :
    ∃ place, tree.entry cwd (.ofBytes interp) = some place := by
  obtain ⟨place, hlocate, hisDir⟩ := isDir_of_isDirectory hlib
  have hlast : (Pathname.ofBytes interp).parts.getLast? =
      some (bytes "ld-linux-aarch64.so.1") := by decide
  have hfront : ({ Pathname.ofBytes interp with
      parts := (Pathname.ofBytes interp).parts.dropLast } : Pathname) =
        .ofBytes (bytes "/lib") := by decide
  have hdots : ¬ (bytes "ld-linux-aarch64.so.1" = dot ∨
      bytes "ld-linux-aarch64.so.1" = dotdot) := by
    decide
  refine ⟨place ++ [bytes "ld-linux-aarch64.so.1"], ?_⟩
  rw [Tree.entry, hlast]
  simp only [if_neg hdots, hfront, hlocate, hisDir, if_true]

/-- `[ ! -f … ] && [ ! -L … ]` -/
theorem guard_eq (world : World) (state : State) :
    andThen (negate (testF world elfInterpreterPath)) (negate (testL world elfInterpreterPath))
      false state = .done (if interpTaken world state.tree then 1 else 0) state := by
  have hpath : elfInterpreterPath = interp := rfl
  rw [hpath, interpTaken, hasInterpreter]
  cases hfile : state.tree.isFile world.cwd (.ofBytes interp) <;>
    cases hlink : state.tree.isLink world.cwd (.ofBytes interp) <;>
      simp [andThen, negate, testF, testL, fileTest, hfile, hlink]

theorem elfInterpreter_of_taken (htaken : interpTaken world state.tree = true) :
    (elfInterpreter world true state).state = state := by
  rw [elfInterpreter, ifThen, ifElse, guard_eq, htaken, if_pos rfl]
  exact congrArg Outcome.state (skip_eq true state)

theorem elfInterpreter_of_free (hfree : interpTaken world state.tree = false) :
    elfInterpreter world true state =
      forEach otherInterps (fun path => ifThen (testF world path) (linkInterp world path))
        true state := by
  rw [elfInterpreter, ifThen, ifElse, guard_eq, hfree]
  rfl

/-- `mkdir -p /lib` where that is a directory. -/
theorem mkdirP_lib (hlib : state.tree.isDirectory world.cwd (.ofBytes (bytes "/lib")) = true) :
    mkdirP world (bytes "/lib") true state =
      if world.mkdirOk (bytes "/lib") then .done 0 state else .exited 1 state := by
  cases hmkdir : world.mkdirOk (bytes "/lib") <;>
    simp [mkdirP, simple, hmkdir, mkdirP_of_isDirectory hlib, State.setTree]

/-- `ln -sf`, a warning where it fails, and the end of the loop. -/
theorem lnSf_leaves (world : World) (state : State) (path warning : Bytes) :
    ∃ next, LeavesLoop
        (block [.orElse (lnSf world path interp) (echo world warning), .brk 1] true state) next ∧
      next.tree = (linkedTree world path interp state.tree).getD state.tree := by
  cases hlinked : linkedTree world path interp state.tree with
  | some tree =>
      refine ⟨state.setTree tree, .inl ?_, rfl⟩
      simp [block, seq, orElse, lnSf, attempt, simple, hlinked, brk]
  | none =>
      have hwarns : block [.orElse (lnSf world path interp) (echo world warning), .brk 1] true
          state = block [say world fun _ => warning, .brk 1] true state := by
        simp [block, seq, orElse, lnSf, attempt, simple, hlinked, echo]
      refine ⟨state.say world warning, ?_, rfl⟩
      rw [hwarns]
      exact leavesLoop_say world true state fun _ => warning

/-- What becomes of the tree where an interpreter is linked: nothing, unless the line is
logged and the directory made. -/
theorem linkInterp_leaves (path : Bytes)
    (hlib : state.tree.isDirectory world.cwd (.ofBytes (bytes "/lib")) = true) :
    ∃ next, LeavesLoop (linkInterp world path true state) next ∧
      next.tree = if world.logOk state.trace ∧ world.mkdirOk (bytes "/lib") then
        (linkedTree world path interp state.tree).getD state.tree else state.tree := by
  rw [linkInterp]
  cases hlog : world.logOk state.trace with
  | false => exact ⟨_, .inr (block_cons_of_exited _ (echo_refused _ hlog)), by simp⟩
  | true =>
      rw [block_cons_of_passes _ (by simp) (passes_echo _ (.inr hlog))]
      have hdirectory := @mkdirP_lib world (state.say world (bytes
        "[launch] Symlinking ELF interpreter /lib/ld-linux-aarch64.so.1 → " ++ path)) hlib
      cases hmkdir : world.mkdirOk (bytes "/lib") with
      | false =>
          simp only [hmkdir, Bool.false_eq_true, if_false] at hdirectory
          exact ⟨_, .inr (block_cons_of_exited _ hdirectory), by simp⟩
      | true =>
          rw [hmkdir, if_pos rfl] at hdirectory
          rw [block_cons_of_passes _ (by simp) ⟨0, hdirectory⟩, if_pos ⟨rfl, rfl⟩]
          exact lnSf_leaves world _ path _

/-- The link leads to an interpreter if it is made and can be followed. -/
theorem isFile_link_iff {path : Bytes}
    (hlib : state.tree.isDirectory world.cwd (.ofBytes (bytes "/lib")) = true)
    (hclear : state.tree.isDirectory world.cwd (.ofBytes interp) = false)
    (hfree : interpTaken world state.tree = false)
    (hsource : state.tree.isFile world.cwd (.ofBytes path) = true)
    (habsolute : (Pathname.ofBytes path).absolute = true) :
    hasInterpreter world ((linkedTree world path interp state.tree).getD state.tree) = true ↔
      world.linkOk interp = true ∧ ∀ place ∈ state.tree.entry world.cwd (.ofBytes interp),
        state.tree.Leads world.cwd place (.ofBytes path) (.ofBytes interp) := by
  obtain ⟨hnotFile, hnotLink⟩ := Bool.or_eq_false_iff.mp hfree
  obtain ⟨place, hentry⟩ := entry_interp hlib
  cases hpermitted : world.linkOk interp with
  | false =>
      rw [linkedTree, hpermitted]
      simp [hnotFile]
  | true =>
      obtain ⟨next, hnext, -⟩ := Tree.lnSf_of_free hsource hentry hnotFile hnotLink hclear
      obtain ⟨made, hmade, rfl, hne⟩ := Tree.lnSf_eq_set hsource hnext
      have hplace : made = place := by
        rw [Tree.destination, hclear] at hmade
        exact Option.some.inj (hmade.symm.trans hentry)
      subst hplace
      have hleads : (state.tree.set made (.link (.ofBytes path))).isFile world.cwd
          (.ofBytes interp) = true ↔ _ := Tree.isFile_set_link_iff habsolute hsource hne
      rw [hasInterpreter] at hnotFile
      rw [linkedTree, if_pos hpermitted, hnext, Option.getD_some, hasInterpreter, hleads, hnotFile]
      simp [hentry]

/-- A search ends with the branch that leaves it. -/
theorem leaves_search {next : State} (meets : Bytes → State → Bool) {items : List Bytes}
    {branch : Bytes → Command State} {item : Bytes}
    (hfind : items.find? (meets · state) = some item)
    (hbranch : LeavesLoop (branch item true state) next) :
    (forEach items (fun item => ifThen (test (meets item)) (branch item)) true state).state =
      next := by
  rcases hbranch with hbroken | hexited
  · exact congrArg Outcome.state (forFrom_search_broken meets hfind hbroken)
  · exact congrArg Outcome.state (forFrom_search_exited meets hfind hexited)

/-- Where none is elsewhere, the search does nothing. -/
theorem search_of_none (hchoice : otherInterps.find? (fun path =>
    state.tree.isFile world.cwd (.ofBytes path)) = none) :
    (forEach otherInterps (fun path => ifThen (testF world path) (linkInterp world path)) true
      state).state = state := by
  have hstay : forEach otherInterps (fun path => ifThen (testF world path)
      (linkInterp world path)) true state = .done 0 state :=
    forFrom_search_none
      (fun path (state : State) => state.tree.isFile world.cwd (.ofBytes path)) hchoice
  rw [hstay, Outcome.state]

/-- The first one elsewhere provides an interpreter if it can be linked. -/
theorem search_of_some {path : Bytes}
    (hlib : state.tree.isDirectory world.cwd (.ofBytes (bytes "/lib")) = true)
    (hclear : state.tree.isDirectory world.cwd (.ofBytes interp) = false)
    (hfree : interpTaken world state.tree = false)
    (hchoice : otherInterps.find? (fun path =>
      state.tree.isFile world.cwd (.ofBytes path)) = some path) :
    hasInterpreter world (forEach otherInterps (fun path => ifThen (testF world path)
      (linkInterp world path)) true state).state.tree = true ↔ Linkable world state path := by
  have habsolute : ∀ path ∈ otherInterps, (Pathname.ofBytes path).absolute = true := by decide
  have hsource : state.tree.isFile world.cwd (.ofBytes path) = true := by
    simpa using List.find?_some hchoice
  obtain ⟨next, hleaves, hnext⟩ := linkInterp_leaves path hlib
  have hlast : (forEach otherInterps (fun path => ifThen (testF world path)
      (linkInterp world path)) true state).state = next :=
    leaves_search (fun path (state : State) => state.tree.isFile world.cwd (.ofBytes path))
      hchoice hleaves
  have hlinks := isFile_link_iff hlib hclear hfree hsource
    (habsolute path (List.mem_of_find?_eq_some hchoice))
  rw [hlast, hnext]
  by_cases hgets : world.logOk state.trace = true ∧ world.mkdirOk (bytes "/lib") = true
  · rw [if_pos hgets, hlinks]
    exact ⟨fun hmade => ⟨hgets.1, hgets.2, hmade.1, hmade.2⟩,
      fun hlinkable => ⟨hlinkable.permitted, hlinkable.followed⟩⟩
  · rw [if_neg hgets, (Bool.or_eq_false_iff.mp hfree).1]
    exact iff_of_false Bool.false_ne_true fun hlinkable =>
      hgets ⟨hlinkable.said, hlinkable.directory⟩

/-- Once the launcher has looked for an interpreter, the kernel finds one exactly if the
diagnostic was content with more than a link to nothing, and the launcher can link what
is elsewhere. -/
theorem interpreter_iff (hsame : SameTv tv world state)
    (hlib : tv.tree.isDirectory tv.cwd (.ofBytes (bytes "/lib")) = true)
    (hclear : tv.tree.isDirectory tv.cwd (.ofBytes interp) = false) :
    hasInterpreter world (elfInterpreter world true state).state.tree = true ↔
      InterpreterFound tv ∧ (tv.isFileOrLink interp = true → tv.isFile interp = true) ∧
        (tv.isFileOrLink interp = false → ∀ path ∈ altInterp tv, Linkable world state path) := by
  obtain ⟨htree, hcwd⟩ := hsame
  rw [← htree, ← hcwd] at hlib hclear
  have htaken : tv.isFileOrLink interp = interpTaken world state.tree := by
    rw [interpTaken, hasInterpreter, htree, hcwd]
    rfl
  have hfile : ∀ path, tv.isFile path = state.tree.isFile world.cwd (.ofBytes path) := by
    intro path
    rw [htree, hcwd]
    rfl
  have hsearch : altInterp tv = otherInterps.find? fun path =>
      state.tree.isFile world.cwd (.ofBytes path) := by
    rw [altInterp]
    exact congrArg (List.find? · otherInterps) (funext hfile)
  rw [InterpreterFound, htaken, hsearch]
  simp only [hfile]
  cases hpresent : interpTaken world state.tree with
  | true =>
      rw [elfInterpreter_of_taken hpresent]
      simp [hasInterpreter]
  | false =>
      rw [elfInterpreter_of_free hpresent]
      cases hchoice : otherInterps.find? (fun path =>
          state.tree.isFile world.cwd (.ofBytes path)) with
      | none =>
          have hnone : ¬ ∃ path ∈ otherInterps,
              state.tree.isFile world.cwd (.ofBytes path) = true := by
            simpa using hchoice
          rw [search_of_none hchoice, (Bool.or_eq_false_iff.mp hpresent).1]
          simpa using hnone
      | some path =>
          have hfound : ∃ path ∈ otherInterps,
              state.tree.isFile world.cwd (.ofBytes path) = true :=
            ⟨path, List.mem_of_find?_eq_some hchoice, by simpa using List.find?_some hchoice⟩
          rw [search_of_some hlib hclear hpresent hchoice]
          simp only [Bool.false_eq_true, hfound, or_true, false_implies, true_and,
            true_implies, Option.mem_def, Option.some.injEq, forall_eq']

end Interpreter

/-! ## The socket of the compositor -/

section Socket

variable {tv : Tv} {world : World} {state : State}

/-- The runtime directory that the launcher was started with. -/
def ownDirectory (state : State) : Bytes := state.getOr "XDG_RUNTIME_DIR" defaultRuntimeDir

/-- The directory and the name of the first socket that the loops of the launcher come to. -/
def launcherSocket (world : World) (state : State) : Option (Bytes × Bytes) :=
  (socketNames.flatMap fun socket =>
    (socketDirectories ++ [ownDirectory state]).map fun dir => (dir, socket)).find? fun place =>
      state.tree.isSocket world.cwd (.ofBytes (place.1 ++ slash :: place.2))

/-- What the launcher sets for a socket that it has found. -/
def useSocket (place : Bytes × Bytes) (state : State) : State :=
  (state.setVariable "WAYLAND_DISPLAY" place.2).setVariable "XDG_RUNTIME_DIR" place.1

/-- The loop over the directories, for one name. -/
theorem directories_eq (world : World) (socket : Bytes) (strict : Bool) (state : State)
    (status : ℕ) (dirs : List Bytes) :
    ∃ last, forFrom (fun dir =>
        ifThen (fileTest world Tree.isSocket (dir ++ slash :: socket)) <| .block [
          assign "WAYLAND_DISPLAY" fun _ => socket,
          assign "XDG_RUNTIME_DIR" fun _ => dir,
          .brk 2]) status dirs strict state =
      match dirs.find? fun dir =>
        state.tree.isSocket world.cwd (.ofBytes (dir ++ slash :: socket)) with
      | none => .done last state
      | some dir => .broken 1 (useSocket (dir, socket) state) := by
  induction dirs generalizing status with
  | nil => exact ⟨status, rfl⟩
  | cons dir rest ih =>
      rw [List.find?_cons]
      cases hsocket : state.tree.isSocket world.cwd (.ofBytes (dir ++ slash :: socket)) with
      | true =>
          refine ⟨0, ?_⟩
          simp [forFrom, ifThen, ifElse, fileTest, hsocket, block, seq, assign, brk, useSocket]
      | false =>
          obtain ⟨last, hlast⟩ := ih 0
          refine ⟨last, ?_⟩
          rw [← hlast]
          simp [forFrom, ifThen, ifElse, fileTest, hsocket]

/-- The directories of the loop that have a socket of that name. -/
def socketIn (world : World) (state : State) (socket : Bytes) : Option Bytes :=
  (socketDirectories ++ [ownDirectory state]).find? fun dir =>
    state.tree.isSocket world.cwd (.ofBytes (dir ++ slash :: socket))

theorem launcherSocket_eq (world : World) (state : State) :
    launcherSocket world state =
      match socketIn world state (bytes "wayland-0") with
      | some dir => some (dir, bytes "wayland-0")
      | none =>
          (socketIn world state (bytes "wayland-1")).map fun dir => (dir, bytes "wayland-1") := by
  have hpart : ∀ socket : Bytes, (((socketDirectories ++ [ownDirectory state]).map fun dir =>
      (dir, socket)).find? fun place => state.tree.isSocket world.cwd
        (.ofBytes (place.1 ++ slash :: place.2))) =
      (socketIn world state socket).map fun dir => (dir, socket) := by
    intro socket
    rw [List.find?_map]
    rfl
  rw [launcherSocket, socketNames, List.flatMap_cons, List.flatMap_cons, List.flatMap_nil,
    List.append_nil, List.find?_append, hpart, hpart]
  cases socketIn world state (bytes "wayland-0") with
  | some dir => rfl
  | none => rfl

/-- The search sets the variables for the first socket, if there is one. -/
theorem waylandSearch_state (world : World) (strict : Bool) (state : State) :
    (waylandSearch world strict state).state =
      (launcherSocket world state).elim state fun place => useSocket place state := by
  have hinner : ∀ (socket : Bytes), ∃ last, forEach [bytes "/run/display", bytes "/tmp/.RTE",
      bytes "/run/enlightenment", bytes "/run/user/5000", bytes "/run/user/0",
      state.getOr "XDG_RUNTIME_DIR" defaultRuntimeDir] (fun dir =>
        ifThen (fileTest world Tree.isSocket (dir ++ slash :: socket)) <| .block [
          assign "WAYLAND_DISPLAY" fun _ => socket,
          assign "XDG_RUNTIME_DIR" fun _ => dir,
          .brk 2]) strict state =
      match socketIn world state socket with
      | none => .done last state
      | some dir => .broken 1 (useSocket (dir, socket) state) :=
    fun socket => directories_eq world socket strict state 0 _
  obtain ⟨first, hfirst⟩ := hinner (bytes "wayland-0")
  obtain ⟨second, hsecond⟩ := hinner (bytes "wayland-1")
  rw [launcherSocket_eq, waylandSearch, forEach, forFrom, hfirst]
  cases socketIn world state (bytes "wayland-0") with
  | some dir => rfl
  | none =>
      simp only [forFrom, hsecond]
      cases socketIn world state (bytes "wayland-1") with
      | some dir => rfl
      | none => rfl

theorem waylandSocket_eq (tv : Tv) :
    waylandSocket tv =
      match socketDirectories.find? fun dir =>
        tv.tree.isSocket tv.cwd (.ofBytes (dir ++ slash :: bytes "wayland-0")) with
      | some dir => some (dir ++ slash :: bytes "wayland-0")
      | none => (socketDirectories.find? fun dir =>
          tv.tree.isSocket tv.cwd (.ofBytes (dir ++ slash :: bytes "wayland-1"))).map fun dir =>
            dir ++ slash :: bytes "wayland-1" := by
  rw [waylandSocket, socketPaths, socketNames, List.flatMap_cons, List.flatMap_cons,
    List.flatMap_nil, List.append_nil, List.find?_append, List.find?_map, List.find?_map]
  simp only [Function.comp_def]
  split
  · next dir hdir => rw [hdir]; rfl
  · next hnone => rw [hnone]; rfl

/-- The launcher finds a socket where the diagnostic finds one or there is one in its own
runtime directory; it takes another one than the diagnostic only there. -/
theorem socket_agrees (hsame : SameTv tv world state) :
    ((launcherSocket world state).isSome = true ↔
      (waylandSocket tv).isSome = true ∨ ∃ socket ∈ socketNames,
        tv.tree.isSocket tv.cwd (.ofBytes (ownDirectory state ++ slash :: socket)) = true) ∧
      ∀ place ∈ launcherSocket world state,
        waylandSocket tv = some (place.1 ++ slash :: place.2) ∨ place.1 = ownDirectory state := by
  obtain ⟨htree, hcwd⟩ := hsame
  have hin : ∀ socket, socketIn world state socket =
      (socketDirectories.find? fun dir =>
        tv.tree.isSocket tv.cwd (.ofBytes (dir ++ slash :: socket))).or
          (if tv.tree.isSocket tv.cwd (.ofBytes (ownDirectory state ++ slash :: socket)) then
            some (ownDirectory state) else none) := by
    intro socket
    rw [socketIn, htree, hcwd, List.find?_append, List.find?_singleton]
  rw [launcherSocket_eq, waylandSocket_eq, hin, hin]
  simp only [socketNames, List.mem_cons, List.not_mem_nil, or_false, exists_eq_or_imp,
    exists_eq_left]
  cases socketDirectories.find? fun dir =>
      tv.tree.isSocket tv.cwd (.ofBytes (dir ++ slash :: bytes "wayland-0")) with
  | some dir => simp
  | none =>
      cases tv.tree.isSocket tv.cwd
          (.ofBytes (ownDirectory state ++ slash :: bytes "wayland-0")) with
      | true => simp
      | false =>
          cases socketDirectories.find? fun dir =>
              tv.tree.isSocket tv.cwd (.ofBytes (dir ++ slash :: bytes "wayland-1")) with
          | some dir => simp
          | none =>
              cases tv.tree.isSocket tv.cwd
                (.ofBytes (ownDirectory state ++ slash :: bytes "wayland-1")) <;> simp

end Socket

/-- What the diagnostic says of the interpreter and of the socket, and what the launcher
makes of them: it provides an interpreter where the diagnostic is content with more than a
link to nothing and a link to one elsewhere can be made and followed, and it uses a socket
that the diagnostic has found, or one in its own runtime directory. -/
theorem launcher_agrees {tv : Tv} {world : World} {state : State} (hsame : SameTv tv world state)
    (hlib : tv.tree.isDirectory tv.cwd (.ofBytes (bytes "/lib")) = true)
    (hclear : tv.tree.isDirectory tv.cwd (.ofBytes interp) = false) :
    (hasInterpreter world (elfInterpreter world true state).state.tree = true ↔
        InterpreterFound tv ∧ (tv.isFileOrLink interp = true → tv.isFile interp = true) ∧
          (tv.isFileOrLink interp = false →
            ∀ path ∈ altInterp tv, Linkable world state path)) ∧
      (waylandSearch world true state).state =
        ((launcherSocket world state).elim state fun place => useSocket place state) ∧
      ((launcherSocket world state).isSome = true ↔
        (waylandSocket tv).isSome = true ∨ ∃ socket ∈ socketNames,
          tv.tree.isSocket tv.cwd (.ofBytes (ownDirectory state ++ slash :: socket)) = true) ∧
      ∀ place ∈ launcherSocket world state,
        waylandSocket tv = some (place.1 ++ slash :: place.2) ∨ place.1 = ownDirectory state := by
  obtain ⟨hfinds, htakes⟩ := socket_agrees hsame
  exact ⟨interpreter_iff hsame hlib hclear, waylandSearch_state world true state, hfinds, htakes⟩

/-- A TV whose interpreter is in `/usr/lib`, with a compositor. -/
def plainTree : Tree := ⟨[
  ([bytes "lib"], .dir), ([bytes "usr"], .dir), ([bytes "usr", bytes "lib"], .dir),
  ([bytes "usr", bytes "lib", bytes "ld-linux-aarch64.so.1"], .file []),
  ([bytes "run"], .dir), ([bytes "run", bytes "display"], .dir),
  ([bytes "run", bytes "display", bytes "wayland-0"], .socket)]⟩

def plainTv : Tv where
  tree := plainTree
  cwd := []
  globbing := byteGlobbing
  grep := byteGrep
  cache := []
  tizenrobloxDir := []
  busAddress := []
  date := bytes "today\n"
  machine := bytes "aarch64\n"
  release := bytes "5.4\n"
  lddVersion := bytes "ldd (GNU libc) 2.39\n"
  diskUsage := fun _ => []
  eglVendor := none
  firstListed := fun _ => []
  dbusLaunch := false
  canExecute := fun _ => true
  canWrite := fun _ => true
  deviceName := fun _ => []

theorem launcher_agrees_plainTv :
    hasInterpreter quietWorld
        (elfInterpreter quietWorld true (.initial plainTree (fun _ => none) 0 [])).state.tree =
          true ∧
      (launcherSocket quietWorld (.initial plainTree (fun _ => none) 0 [])).isSome = true := by
  have hsame : SameTv plainTv quietWorld (.initial plainTree (fun _ => none) 0 []) := ⟨rfl, rfl⟩
  obtain ⟨hinterp, -, hsocket, -⟩ := launcher_agrees hsame (by decide) (by decide)
  have hfound : InterpreterFound plainTv :=
    .inr ⟨bytes "/usr/lib/ld-linux-aarch64.so.1", by decide, by decide⟩
  exact ⟨hinterp.mpr ⟨hfound, by decide, by decide +kernel⟩, hsocket.mpr (.inl (by decide))⟩

/-- A link to nothing under the name of the interpreter. -/
def danglingInterp : Tree := plainTree.set [bytes "lib", bytes "ld-linux-aarch64.so.1"]
  (.link (.ofBytes (bytes "/lib/gone")))

/-- The diagnostic is content with it, and the launcher leaves it. -/
example : InterpreterFound { plainTv with tree := danglingInterp } ∧
    hasInterpreter quietWorld
      (elfInterpreter quietWorld true (.initial danglingInterp (fun _ => none) 0 [])).state.tree =
        false := ⟨.inl (by decide), by decide⟩

end TizenRoblox.Diagnose
