/-
# Passes over the libraries

The launcher goes through its libraries again at every start, and between two
passes the libraries of the system may come, go or move. A call of
`prefer_system_lib` or `try_symlink_lib` that returns 0 should leave
`LIB_DIR/SONAME` leading to a regular file; one of `prefer_system_lib` that
returns 1 for a Wayland library announces the built-in stub, and should leave the
stub there.

A link that an earlier pass has made breaks both once its library is gone:
`prefer_system_lib` announces a stub that the link has replaced, and
`try_symlink_lib` takes the link for the library (`not_lawful_bereftTv`).
Where neither happens, and a new link can be followed, every call in every history
is lawful (`lawful_of_sound`).
-/

import TizenRoblox.Foundation.Runs
import TizenRoblox.Launcher.Reaching

namespace TizenRoblox.Launcher.Passes

open TizenRoblox.Foundation TizenRoblox.Posix TizenRoblox.Shell TizenRoblox.Shell.Command

/-! ## Calls -/

/-- The libraries of which `lib/` holds a stub at first. -/
def waylandSonames : List Bytes := [
  bytes "libwayland-client.so.0", bytes "libwayland-egl.so.1", bytes "libwayland-cursor.so.0"]

/-- An installation in which the Wayland libraries are the stubs. -/
structure Installation where
  installDir : Bytes
  /-- The working directory, should the directory of the installation be relative. -/
  cwd : Path
  tree : Tree
  stubs : ∀ soname ∈ waylandSonames,
    tree.isFile cwd (.ofBytes (inLibDir (libDirOf installDir) soname)) = true

namespace Installation

variable (installation : Installation)

/-- `LIB_DIR` -/
def libDir : Bytes := libDirOf installation.installDir

/-- `LIB_DIR/SONAME` -/
def name (soname : Bytes) : Pathname := .ofBytes (inLibDir installation.libDir soname)

/-- The places on the way to what is a stub at first. -/
def stubReads (soname : Bytes) : List Path :=
  installation.tree.reads installation.cwd (installation.name soname)

/-- A launcher that names the same installation. -/
def Seen (world : World) : Prop :=
  (Pathname.ofBytes installation.libDir).absolute = true ∨ world.cwd = installation.cwd

end Installation

/-- A call of a helper that returns, in the tree it is made in. -/
structure Call where
  world : World
  lookup : Lookup
  before : Tree

namespace Call

variable (installation : Installation) (call : Call)

/-- The `LIB_DIR/SONAME` of the call. -/
def name : Pathname := installation.name call.lookup.soname

/-- What the call returns. -/
def status : ℕ := if call.lookup.found call.world installation.libDir call.before then 0 else 1

/-- The tree the call leaves. -/
def after : Tree := call.lookup.linked call.world installation.libDir call.before

/-- The link the call makes. -/
def newLink : Option (Path × Bytes) :=
  call.lookup.newLink call.world installation.libDir call.before

/-- If the call links a candidate, `ln -sf` succeeds. -/
def LinkSucceeds : Prop := call.lookup.LinkSucceeds call.world installation.libDir call.before

instance : Decidable (call.LinkSucceeds installation) :=
  inferInstanceAs (Decidable (Lookup.LinkSucceeds _ _ _ _))

/-- After the call, the name leads to a regular file. -/
def Present : Prop :=
  (call.after installation).isFile call.world.cwd (call.name installation) = true

instance : Decidable (call.Present installation) := inferInstanceAs (Decidable (_ = _))

/-- After the call, the name leads where it led at first, and the stub is there. -/
def LeadsToStub : Prop :=
  call.Present installation ∧
    (call.after installation).locate call.world.cwd (call.name installation) =
      installation.tree.locate installation.cwd (call.name installation) ∧
    (call.after installation).contents call.world.cwd (call.name installation) =
      installation.tree.contents installation.cwd (call.name installation)

instance : Decidable (call.LeadsToStub installation) := inferInstanceAs (Decidable (_ ∧ _ ∧ _))

/-- What a helper promises: its library after 0, and the stub of a Wayland library
after 1. -/
structure Lawful : Prop where
  present : call.lookup.manner ≠ .compat → call.status installation = 0 →
    call.Present installation
  stub : call.lookup.manner = .prefer → call.lookup.soname ∈ waylandSonames →
    call.status installation = 1 → call.LeadsToStub installation

instance : Decidable (call.Lawful installation) :=
  decidable_of_iff (_ ∧ _)
    ⟨fun hparts => ⟨hparts.1, hparts.2⟩, fun hlawful => ⟨hlawful.present, hlawful.stub⟩⟩

/-- When a call keeps its promise: a link it takes for its library leads to one, a
link it makes can be followed, and no link of an earlier call is on the way to a
stub it announces. -/
structure Sound (earlier : List Call) : Prop where
  leads : call.lookup.manner = .trySymlink →
    call.before.isLink call.world.cwd (call.name installation) = true →
    call.before.isFile call.world.cwd (call.name installation) = true
  followed : call.lookup.manner ≠ .compat → ∀ made ∈ call.newLink installation,
    call.before.Leads call.world.cwd made.1 (.ofBytes made.2) (call.name installation)
  unlinked : call.lookup.manner = .prefer → call.lookup.soname ∈ waylandSonames →
    call.lookup.choice call.world call.before = none → ∀ other ∈ earlier,
    ∀ made ∈ other.newLink installation, made.1 ∉ installation.stubReads call.lookup.soname

instance (earlier : List Call) : Decidable (call.Sound installation earlier) :=
  decidable_of_iff (_ ∧ _ ∧ _)
    ⟨fun hparts => ⟨hparts.1, hparts.2.1, hparts.2.2⟩,
      fun hsound => ⟨hsound.leads, hsound.followed, hsound.unlinked⟩⟩

variable {installation} {call}

@[simp]
theorem status_eq_zero_iff : call.status installation = 0 ↔
    call.lookup.found call.world installation.libDir call.before = true := by
  simp [status]

@[simp]
theorem status_eq_one_iff : call.status installation = 1 ↔
    call.lookup.found call.world installation.libDir call.before = false := by
  simp [status]

/-- The helper returns the status of its call and leaves the tree of its call. -/
theorem command_eq {state : State} (hstate : state.tree = call.before) :
    ∃ next, call.lookup.command call.world installation.libDir false state =
        .done (call.status installation) next ∧
      next.tree = call.after installation := by
  rw [Lookup.command_eq installation.libDir call.lookup (.inl rfl), hstate, status, after]
  cases hfound : call.lookup.found call.world installation.libDir call.before with
  | true => exact ⟨_, rfl, by rw [Lookup.after_tree, hstate]⟩
  | false =>
      refine ⟨_, rfl, ?_⟩
      rw [State.say_tree, hstate, Lookup.linked_of_not_found hfound]

private theorem candidates_absolute : ∀ lookup ∈ launcherLookups, ∀ candidate ∈ lookup.candidates,
    (Pathname.ofBytes candidate).absolute = true := by
  decide +kernel

/-- The tree before a call tells whether the name leads to a regular file after it. -/
theorem present_iff (hlookup : call.lookup ∈ launcherLookups) :
    call.Present installation ↔ call.lookup.willLead call.world installation.libDir call.before
      (call.name installation) = true := by
  rw [Present, after, Lookup.isFile_linked_eq (candidates_absolute call.lookup hlookup)]

theorem Sound.present {earlier : List Call} (hsound : call.Sound installation earlier)
    (hlookup : call.lookup ∈ launcherLookups) (hsucceeds : call.LinkSucceeds installation)
    (hmanner : call.lookup.manner ≠ .compat) (hstatus : call.status installation = 0) :
    call.Present installation := by
  have hfound := status_eq_zero_iff.mp hstatus
  rcases (Lookup.found_iff hmanner).mp hfound with hsettled | ⟨candidate, hsource⟩
  · have hafter : call.after installation = call.before :=
      Lookup.linked_of_source_none (by rw [Lookup.source, if_pos hsettled])
    rw [Present, hafter]
    cases hlookupManner : call.lookup.manner with
    | prefer => simp [Lookup.settled, hlookupManner] at hsettled
    | compat => exact absurd hlookupManner hmanner
    | trySymlink =>
        simp only [Lookup.settled, hlookupManner, Bool.or_eq_true] at hsettled
        exact hsettled.elim id (hsound.leads hlookupManner)
  · obtain ⟨place, hmade⟩ := Lookup.newLink_of_source hsucceeds hsource
    have hleads := hsound.followed hmanner _ hmade
    simp [present_iff hlookup, Lookup.willLead, hmade, hleads]

end Call

/-! ## The stubs -/

/-- Off the entries that calls have made links, the way to each stub is as it was. -/
def StubsKept (installation : Installation) (calls : List Call) (tree : Tree) : Prop :=
  ∀ soname ∈ waylandSonames, ∀ place ∈ installation.stubReads soname,
    (∀ call ∈ calls, ∀ made ∈ call.newLink installation, place ≠ made.1) →
      tree.node place = installation.tree.node place

namespace StubsKept

variable {installation : Installation} {calls : List Call}

theorem start : StubsKept installation [] installation.tree := fun _ _ _ _ _ => rfl

/-- A call changes only the entry it makes a link. -/
theorem extend {call : Call} (hkept : StubsKept installation calls call.before) :
    StubsKept installation (calls ++ [call]) (call.after installation) := by
  intro soname hsoname place hplace hunlinked
  rw [Call.after, Lookup.linked_node_of_newLink (hunlinked call (by simp))]
  exact hkept soname hsoname place hplace fun other hother =>
    hunlinked other (List.mem_append_left _ hother)

end StubsKept

namespace Call

variable {installation : Installation} {call : Call} {earlier : List Call}

theorem locate_eq_of_seen (hseen : installation.Seen call.world) (tree : Tree) :
    tree.locate call.world.cwd (call.name installation) =
      tree.locate installation.cwd (call.name installation) := by
  rcases hseen with habsolute | hcwd
  · apply Tree.locate_of_absolute
    simp only [Pathname.ofBytes, decide_eq_true_eq] at habsolute
    simp [name, Installation.name, inLibDir, Pathname.ofBytes, List.head?_append, habsolute]
  · rw [hcwd]

theorem contents_eq_of_seen (hseen : installation.Seen call.world) (tree : Tree) :
    tree.contents call.world.cwd (call.name installation) =
      tree.contents installation.cwd (call.name installation) := by
  simp only [Tree.contents, Tree.stat, locate_eq_of_seen hseen tree]

theorem Sound.stub (hsound : call.Sound installation earlier)
    (hkept : StubsKept installation earlier call.before) (hseen : installation.Seen call.world)
    (hmanner : call.lookup.manner = .prefer) (hsoname : call.lookup.soname ∈ waylandSonames)
    (hstatus : call.status installation = 1) : call.LeadsToStub installation := by
  have hfound := status_eq_one_iff.mp hstatus
  have hchoice := Lookup.choice_of_not_found hfound
  have hafter : call.after installation = call.before := Lookup.linked_of_not_found hfound
  -- no earlier link is on the way to the stub
  have hagree : ∀ place ∈ installation.stubReads call.lookup.soname,
      call.before.node place = installation.tree.node place := by
    intro place hplace
    refine hkept _ hsoname place hplace fun other hother made hmade => ?_
    rintro rfl
    exact hsound.unlinked hmanner hsoname hchoice other hother made hmade hplace
  have hcontents : call.before.contents installation.cwd (call.name installation) =
      installation.tree.contents installation.cwd (call.name installation) :=
    Tree.contents_congr hagree
  have hstub := installation.stubs _ hsoname
  rw [Tree.isFile_eq_isSome_contents] at hstub
  rw [LeadsToStub, Present, Tree.isFile_eq_isSome_contents, hafter, locate_eq_of_seen hseen,
    contents_eq_of_seen hseen, hcontents]
  exact ⟨hstub, Tree.locate_congr hagree, rfl⟩

/-- A sound call is lawful. -/
theorem Sound.lawful (hsound : call.Sound installation earlier)
    (hlookup : call.lookup ∈ launcherLookups) (hsucceeds : call.LinkSucceeds installation)
    (hkept : StubsKept installation earlier call.before) (hseen : installation.Seen call.world) :
    call.Lawful installation :=
  ⟨hsound.present hlookup hsucceeds, hsound.stub hkept hseen⟩

end Call

/-! ## Passes -/

section Pass

variable (world : World) (installDir libDir : Bytes)

/-- A helper returns unless it has a line that the log does not take. -/
def returns (lookup : Lookup) (state : State) : Bool :=
  world.logOk state.trace || (lookup.line libDir world state.tree).isNone

/-- The call a lookup makes, if it returns. -/
def callOf (lookup : Lookup) (state : State) : List Call :=
  if returns world libDir lookup state then [⟨world, lookup, state.tree⟩] else []

/-- The calls that follow where the script goes on. -/
def callsAfter (later : State → List Call) : Outcome State → List Call
  | .done _ next => later next
  | _ => []

/-- The calls of a list of lookups: the first one that fails is the last one. -/
def callsOf : List Lookup → State → List Call
  | [], _ => []
  | lookup :: rest, state =>
      callOf world libDir lookup state ++
        callsAfter (callsOf rest) (lookup.command world libDir true state)

/-- The calls of a pass, as far as it gets. -/
def callsOfPass (state : State) : List Call :=
  callsOf world libDir earlyLookups state ++
    callsAfter (fun early => callsAfter (callsOf world libDir graphicsLookups)
        (seq (glibStubs world libDir) (libraryPath world installDir libDir) true early))
      (lookupCommands world libDir earlyLookups true state)

variable {world} {libDir} {lookup : Lookup} {state : State}

/-- A call that returns goes on where it finds its library, and ends the script where it
does not. -/
theorem command_of_returns (hreturns : returns world libDir lookup state = true) :
    ∃ next, next.tree = lookup.linked world libDir state.tree ∧
      lookup.command world libDir true state =
        if lookup.found world libDir state.tree then .done 0 next else .exited 1 next := by
  cases hlog : world.logOk state.trace with
  | true =>
      rw [lookup.command_eq libDir (.inr hlog)]
      cases hfound : lookup.found world libDir state.tree with
      | true => exact ⟨_, lookup.after_tree world libDir state, rfl⟩
      | false =>
          refine ⟨_, ?_, rfl⟩
          rw [State.say_tree, Lookup.linked_of_not_found hfound]
  | false =>
      have hline : lookup.line libDir world state.tree = none := by
        simpa [returns, hlog] using hreturns
      obtain ⟨hfound, hsource⟩ := Lookup.found_of_line_none hline
      rw [lookup.command_refused libDir hlog, hline]
      exact ⟨state, (Lookup.linked_of_source_none hsource).symm, by rw [if_pos hfound]⟩

/-- One that does not return ends the script and leaves the tree. -/
theorem command_of_not_returns (hreturns : returns world libDir lookup state = false) :
    ∃ next, lookup.command world libDir true state = .exited 1 next ∧
      next.tree = state.tree := by
  simp only [returns, Bool.or_eq_false_iff, Option.isNone_eq_false_iff] at hreturns
  obtain ⟨hrefused, hline⟩ := hreturns
  obtain ⟨line, hline⟩ := Option.isSome_iff_exists.mp hline
  rw [lookup.command_refused libDir hrefused, hline]
  exact ⟨_, rfl, rfl⟩

end Pass

/-- Each call of the list is sound after the calls before it. -/
def SoundCalls (installation : Installation) : List Call → List Call → Prop
  | _, [] => True
  | earlier, call :: rest =>
      call.Sound installation earlier ∧ SoundCalls installation (earlier ++ [call]) rest

instance (installation : Installation) :
    ∀ earlier calls, Decidable (SoundCalls installation earlier calls)
  | _, [] => .isTrue trivial
  | earlier, call :: rest =>
      have : Decidable (SoundCalls installation (earlier ++ [call]) rest) :=
        instDecidableSoundCalls installation (earlier ++ [call]) rest
      inferInstanceAs (Decidable (_ ∧ _))

/-- A list of calls is sound in two parts. -/
theorem soundCalls_append {installation : Installation} {earlier front back : List Call} :
    SoundCalls installation earlier (front ++ back) ↔
      SoundCalls installation earlier front ∧
        SoundCalls installation (earlier ++ front) back := by
  induction front generalizing earlier with
  | nil => simp [SoundCalls]
  | cons call rest ih => simp [SoundCalls, ih, and_assoc]

/-- The calls that a part of the script makes are lawful where they are sound, and what
they leave is kept. -/
def Lawfully (installation : Installation) (calls : State → List Call) (command : Command State) :
    Prop :=
  ∀ earlier state, StubsKept installation earlier state.tree →
    (∀ call ∈ calls state, call.LinkSucceeds installation) →
    SoundCalls installation earlier (calls state) →
    (∀ call ∈ calls state, call.Lawful installation) ∧
      StubsKept installation (earlier ++ calls state) (command true state).state.tree

section Lawfully

variable {installation : Installation} {calls later : State → List Call}
  {first second : Command State}

/-- A part that makes no call and leaves the tree. -/
theorem lawfully_of_preserves
    (hkeeps : ∀ property : Tree → Prop, Preserves (fun state => property state.tree) first) :
    Lawfully installation (fun _ => []) first := by
  intro earlier state hkept _ _
  have hnext := hkeeps (StubsKept installation earlier) true state hkept
  exact ⟨by simp, by simpa using hnext⟩

theorem Lawfully.seq (hfirst : Lawfully installation calls first)
    (hsecond : Lawfully installation later second) :
    Lawfully installation (fun state => calls state ++ callsAfter later (first true state))
      (Command.seq first second) := by
  intro earlier state hkept hsucceeds hsound
  obtain ⟨hhere, hthere⟩ := List.forall_mem_append.mp hsucceeds
  obtain ⟨hsoundHere, hsoundThere⟩ := soundCalls_append.mp hsound
  obtain ⟨hlawful, hnext⟩ := hfirst earlier state hkept hhere hsoundHere
  simp only [Command.seq]
  cases houtcome : first true state with
  | done status next =>
      rw [houtcome] at hthere hsoundThere hnext
      obtain ⟨hlater, hlast⟩ := hsecond _ next hnext hthere hsoundThere
      exact ⟨List.forall_mem_append.mpr ⟨hlawful, hlater⟩, by simpa [callsAfter] using hlast⟩
  | returned status next =>
      rw [houtcome] at hnext
      simpa [callsAfter] using And.intro hlawful hnext
  | broken levels next =>
      rw [houtcome] at hnext
      simpa [callsAfter] using And.intro hlawful hnext
  | exited status next =>
      rw [houtcome] at hnext
      simpa [callsAfter] using And.intro hlawful hnext
  | blocked next =>
      rw [houtcome] at hnext
      simpa [callsAfter] using And.intro hlawful hnext

variable {world : World}

/-- A lookup makes its call, or changes nothing. -/
theorem lawfully_command {lookup : Lookup} (hlookup : lookup ∈ launcherLookups)
    (hseen : installation.Seen world) :
    Lawfully installation (callOf world installation.libDir lookup)
      (lookup.command world installation.libDir) := by
  intro earlier state hkept hsucceeds hsound
  unfold callOf at hsucceeds hsound ⊢
  cases hreturns : returns world installation.libDir lookup state with
  | false =>
      obtain ⟨next, hexits, htree⟩ := command_of_not_returns hreturns
      simpa [hexits, Outcome.state, htree] using hkept
  | true =>
      simp only [hreturns, if_true, List.forall_mem_singleton, SoundCalls, and_true]
        at hsucceeds hsound ⊢
      obtain ⟨next, htree, hcommand⟩ := command_of_returns hreturns
      have hstate : (lookup.command world installation.libDir true state).state = next := by
        rw [hcommand]
        split <;> rfl
      refine ⟨hsound.lawful hlookup hsucceeds hkept hseen, ?_⟩
      rw [hstate, htree]
      exact @StubsKept.extend installation earlier ⟨world, lookup, state.tree⟩ hkept

theorem lawfully_lookupCommands {lookups : List Lookup} (hlookups : lookups ⊆ launcherLookups)
    (hseen : installation.Seen world) :
    Lawfully installation (callsOf world installation.libDir lookups)
      (lookupCommands world installation.libDir lookups) := by
  induction lookups with
  | nil => exact lawfully_of_preserves fun _ => preserves_skip
  | cons lookup rest ih =>
      obtain ⟨hlookup, hrest⟩ := List.cons_subset.mp hlookups
      have hfirst := lawfully_command hlookup hseen
      cases rest with
      | nil =>
          have hsingle : callsOf world installation.libDir [lookup] =
              callOf world installation.libDir lookup := by
            funext state
            rw [callsOf]
            cases lookup.command world installation.libDir true state <;>
              simp [callsAfter, callsOf]
          rw [hsingle]
          exact hfirst
      | cons next others => exact hfirst.seq (ih hrest)

/-- The calls of a pass are lawful where they are sound, and what they leave is kept in
the tree that the script leaves. -/
theorem lawfully_resolveLibraries (hseen : installation.Seen world) :
    Lawfully installation (callsOfPass world installation.installDir installation.libDir)
      (resolveLibraries world installation.installDir installation.libDir) := by
  have hearly := lawfully_lookupCommands (List.subset_append_left earlyLookups _) hseen
  have hgraphics := lawfully_lookupCommands (List.subset_append_right earlyLookups _) hseen
  have hmiddle : Lawfully installation (fun _ => []) (seq (glibStubs world installation.libDir)
      (libraryPath world installation.installDir installation.libDir)) :=
    lawfully_of_preserves (preserves_middle world installation.installDir installation.libDir)
  rw [resolveLibraries_eq]
  exact hearly.seq (hmiddle.seq hgraphics)

end Lawfully

/-! ## Histories -/

/-- A TV, and the calls its launchers have made. -/
structure Tv where
  tree : Tree
  calls : List Call

/-- What happens to a TV. -/
inductive Happening
  /-- A launcher goes through its libraries, from this state. -/
  | pass (world : World) (state : State)
  /-- The system's files become those of this tree. -/
  | change (tree : Tree)

section Histories

variable (installation : Installation)

/-- All calls so far were lawful. -/
def Tv.Lawful (tv : Tv) : Prop := ∀ call ∈ tv.calls, call.Lawful installation

/-- The calls a launcher makes from a state. -/
def callsBy (world : World) (state : State) : List Call :=
  callsOfPass world installation.installDir installation.libDir state

/-- The TV after a pass from a state. -/
def Tv.pass (tv : Tv) (world : World) (state : State) : Tv where
  tree := (resolveLibraries world installation.installDir installation.libDir true state).state.tree
  calls := tv.calls ++ callsBy installation world state

/-- Whatever changes, the stubs are not the system's. -/
def LeavesStubs (tree other : Tree) : Prop :=
  ∀ soname ∈ waylandSonames, ∀ place ∈ installation.stubReads soname,
    other.node place = tree.node place

instance (tree other : Tree) : Decidable (LeavesStubs installation tree other) :=
  inferInstanceAs (Decidable (∀ _ ∈ _, ∀ _ ∈ _, _))

inductive Step : Tv → Happening → Tv → Prop
  | pass (tv : Tv) (world : World) (state : State) (hseen : installation.Seen world)
      (hstate : state.tree = tv.tree)
      (hsucceeds : ∀ call ∈ callsBy installation world state, call.LinkSucceeds installation) :
      Step tv (.pass world state) (tv.pass installation world state)
  | change (tv : Tv) (tree : Tree) (hleaves : LeavesStubs installation tv.tree tree) :
      Step tv (.change tree) { tv with tree := tree }

/-- A pass is made only where its calls are sound. -/
def SoundStep (tv : Tv) : Happening → Prop
  | .pass world state => SoundCalls installation tv.calls (callsBy installation world state)
  | .change _ => True

instance (tv : Tv) : ∀ happening, Decidable (SoundStep installation tv happening)
  | .pass world state =>
      inferInstanceAs
        (Decidable (SoundCalls installation tv.calls (callsBy installation world state)))
  | .change _ => .isTrue trivial

variable {installation}

/-- What a history keeps. -/
structure Tv.Kept (installation : Installation) (tv : Tv) : Prop where
  lawful : tv.Lawful installation
  stubs : StubsKept installation tv.calls tv.tree

theorem Tv.Kept.step {source target : Tv} {happening : Happening}
    (hkept : source.Kept installation) (hsound : SoundStep installation source happening)
    (hstep : Step installation source happening target) : target.Kept installation := by
  cases hstep with
  | pass world state hseen hstate hsucceeds =>
      have hstubs : StubsKept installation source.calls state.tree := hstate ▸ hkept.stubs
      obtain ⟨hcalls, hpassed⟩ :=
        lawfully_resolveLibraries hseen source.calls state hstubs hsucceeds hsound
      refine ⟨fun call hmem => ?_, hpassed⟩
      exact (List.mem_append.mp hmem).elim (hkept.lawful call) (hcalls call)
  | change tree hleaves =>
      refine ⟨hkept.lawful, fun soname hsoname place hplace hunlinked => ?_⟩
      rw [hleaves soname hsoname place hplace]
      exact hkept.stubs soname hsoname place hplace hunlinked

/-- In every history of passes and changes in which the passes are sound, every call
keeps its promise. -/
theorem lawful_of_sound {happenings : List Happening} {tv : Tv}
    (hrun : Run (Guarded (SoundStep installation) (Step installation)) ⟨installation.tree, []⟩
      happenings tv) : tv.Lawful installation := by
  have hkept : tv.Kept installation := hrun.invariant
    (fun source happening target (hsource : source.Kept installation) hstep =>
      hsource.step hstep.1 hstep.2)
    ⟨by simp [Tv.Lawful], StubsKept.start⟩
  exact hkept.lawful

end Histories

/-! ## Three histories -/

/-- The stubs as they are shipped: a file, and a link with the soname. -/
def stubEntries : List (Path × Node) :=
  [("libwayland-client.so.0", "libwayland-client.so.0.0.0"),
    ("libwayland-egl.so.1", "libwayland-egl.so.1.0.0"),
    ("libwayland-cursor.so.0", "libwayland-cursor.so.0.0.0")].flatMap fun (soname, file) =>
      let lib := [bytes "opt", bytes "tizenroblox", bytes "lib"]
      [(lib ++ [bytes file], .file (bytes file)),
        (lib ++ [bytes soname], .link ⟨false, [bytes file]⟩)]

/-- An installation on a TV that has all the libraries. -/
def stubInstallation : Installation where
  installDir := bytes "/opt/tizenroblox"
  cwd := []
  tree := ⟨installed ++ stubEntries ++ systemLibraries⟩
  stubs := by decide +kernel

/-- The TV as it is installed. -/
def installedTv : Tv := ⟨stubInstallation.tree, []⟩

/-- The state in which a launcher starts. -/
def startState (tv : Tv) : State := .initial tv.tree (fun _ => none) 0 []

/-- The TV after another pass. -/
def Tv.relaunch (tv : Tv) : Tv := tv.pass stubInstallation quietWorld (startState tv)

/-- The TV once a library of the system has gone. -/
def Tv.lose (tv : Tv) (soname : Bytes) : Tv :=
  { tv with tree := tv.tree.erase [bytes "usr", bytes "lib", soname] }

/-- The TV once a library of the system has come. -/
def Tv.gain (tv : Tv) (soname : Bytes) : Tv :=
  { tv with tree := tv.tree.set [bytes "usr", bytes "lib", soname] (.file []) }

private theorem step_relaunch {tv : Tv}
    (hsucceeds : ∀ call ∈ callsBy stubInstallation quietWorld (startState tv),
      call.LinkSucceeds stubInstallation) :
    Step stubInstallation tv (.pass quietWorld (startState tv)) tv.relaunch :=
  .pass tv quietWorld (startState tv) (.inl (by decide)) rfl hsucceeds

/-- The TV has no `libwayland-egl.so.1` at its first pass. -/
def stubbedTv : Tv := (installedTv.lose (bytes "libwayland-egl.so.1")).relaunch

/-- It has one at the next. -/
def updatedTv : Tv := (stubbedTv.gain (bytes "libwayland-egl.so.1")).relaunch

/-- A first pass that stops at the stub of a missing library and a second one that
finds it are lawful. -/
theorem lawful_updatedTv :
    updatedTv.calls.map (Call.status stubInstallation) = [0, 1, 0, 0, 0, 0, 0, 0, 0, 0, 0, 0, 0] ∧
      updatedTv.Lawful stubInstallation := by
  have hlost : Run (Guarded (SoundStep stubInstallation) (Step stubInstallation)) installedTv
      [.change _] (installedTv.lose (bytes "libwayland-egl.so.1")) :=
    .extend (.start _) ⟨trivial, .change _ _ (by decide +kernel)⟩
  have hstubbed : Run (Guarded (SoundStep stubInstallation) (Step stubInstallation)) installedTv
      [.change _, .pass quietWorld _] stubbedTv :=
    hlost.extend ⟨by decide +kernel, step_relaunch (by decide +kernel)⟩
  have hgained : Run (Guarded (SoundStep stubInstallation) (Step stubInstallation)) installedTv
      [.change _, .pass quietWorld _, .change _] (stubbedTv.gain (bytes "libwayland-egl.so.1")) :=
    hstubbed.extend ⟨trivial, .change _ _ (by decide +kernel)⟩
  have hupdated : Run (Guarded (SoundStep stubInstallation) (Step stubInstallation)) installedTv
      [.change _, .pass quietWorld _, .change _, .pass quietWorld _] updatedTv :=
    hgained.extend ⟨by decide +kernel, step_relaunch (by decide +kernel)⟩
  exact ⟨by decide +kernel, lawful_of_sound hupdated⟩

/-- The TV after a pass that links every library of the system, the loss of one of
them, and another pass. -/
def bereftTv (soname : Bytes) : Tv := (installedTv.relaunch.lose soname).relaunch

private theorem run_bereftTv {soname : Bytes}
    (hleaves : LeavesStubs stubInstallation installedTv.relaunch.tree
      (installedTv.relaunch.lose soname).tree)
    (hsucceeds : ∀ call ∈ callsBy stubInstallation quietWorld
        (startState (installedTv.relaunch.lose soname)),
      call.LinkSucceeds stubInstallation) :
    Run (Step stubInstallation) installedTv
      [.pass quietWorld (startState installedTv),
        .change (installedTv.relaunch.lose soname).tree,
        .pass quietWorld (startState (installedTv.relaunch.lose soname))] (bereftTv soname) := by
  have hlaunch : Run (Step stubInstallation) installedTv
      [.pass quietWorld (startState installedTv)] installedTv.relaunch :=
    .extend (.start _) (step_relaunch (by decide +kernel))
  have hlost := hlaunch.extend (.change installedTv.relaunch _ hleaves)
  exact hlost.extend (step_relaunch hsucceeds)

/-- Without its Wayland client, the TV does not have the stub either that the second
pass announces; without its keyboard library, it has a link to nothing that the
second pass takes for the library. -/
theorem not_lawful_bereftTv :
    (Run (Step stubInstallation) installedTv
        [.pass quietWorld (startState installedTv),
          .change (installedTv.relaunch.lose (bytes "libwayland-client.so.0")).tree,
          .pass quietWorld
            (startState (installedTv.relaunch.lose (bytes "libwayland-client.so.0")))]
        (bereftTv (bytes "libwayland-client.so.0")) ∧
      ¬ (bereftTv (bytes "libwayland-client.so.0")).Lawful stubInstallation) ∧
    Run (Step stubInstallation) installedTv
        [.pass quietWorld (startState installedTv),
          .change (installedTv.relaunch.lose (bytes "libxkbcommon.so.0")).tree,
          .pass quietWorld (startState (installedTv.relaunch.lose (bytes "libxkbcommon.so.0")))]
        (bereftTv (bytes "libxkbcommon.so.0")) ∧
      ¬ (bereftTv (bytes "libxkbcommon.so.0")).Lawful stubInstallation := by
  have hunlawful : ¬ (bereftTv (bytes "libwayland-client.so.0")).Lawful stubInstallation ∧
      ¬ (bereftTv (bytes "libxkbcommon.so.0")).Lawful stubInstallation := by
    unfold Tv.Lawful
    decide +kernel
  exact ⟨⟨run_bereftTv (by decide +kernel) (by decide +kernel), hunlawful.1⟩,
    run_bereftTv (by decide +kernel) (by decide +kernel), hunlawful.2⟩

end TizenRoblox.Launcher.Passes
