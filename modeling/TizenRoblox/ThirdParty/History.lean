/-
# Downloads and extractions that fail

A run that gets past the extractions should have complete sources, whatever has failed in
earlier runs. Tarballs do no harm: a tarball that is not complete is never extracted with
success. Directories do: one that a failing extraction has left is taken for a complete
one by every later run. So the sources are complete if and only if no run that gets past
the extractions finds such a directory (`ready_throughout_iff`).
-/

import TizenRoblox.ThirdParty.Sources

namespace TizenRoblox.ThirdParty

open TizenRoblox.Foundation TizenRoblox.Posix TizenRoblox.Shell TizenRoblox.Shell.Command

section Commands

variable {upstream : Upstream} (world : World upstream)

/-! ## Commands that pass -/

/-- When the script goes on after the command, directories that were there have stayed, others
are complete, and those of some libraries are there. -/
def Obtains (upstream : Upstream) (libraries : List Source) (command : Command State) : Prop :=
  ∀ source target status, command true source = .done status target →
    Settled upstream source target ∧
      ∀ library ∈ libraries, target.directories library.directory ≠ none

theorem Settled.there {source target : State} {library : Source}
    (hsettled : Settled upstream source target)
    (hthere : source.directories library.directory ≠ none) :
    target.directories library.directory ≠ none := by
  rcases hsettled library with hkept | ⟨hmissing, _⟩
  · rwa [hkept]
  · exact absurd hmissing hthere

theorem Obtains.seq {first second : Command State} {libraries others : List Source}
    (hfirst : Obtains upstream libraries first) (hsecond : Obtains upstream others second) :
    Obtains upstream (libraries ++ others) (.seq first second) := by
  intro source target status hdone
  obtain ⟨code, middle, hmiddle, htarget⟩ := seq_eq_done hdone
  obtain ⟨hsettled, hthere⟩ := hfirst source middle code hmiddle
  obtain ⟨hsettled', hthere'⟩ := hsecond middle target status htarget
  refine ⟨hsettled.trans hsettled', fun library hlibrary => ?_⟩
  rcases List.mem_append.mp hlibrary with hold | hnew
  · exact hsettled'.there (hthere library hold)
  · exact hthere' library hnew

/-- A command that leaves the directories alone. -/
theorem obtains_nil {command : Command State}
    (hkept : ∀ directories, Preserves (fun state => state.directories = directories) command) :
    Obtains upstream [] command := by
  intro source target status hdone
  have hdirectories := (hkept source.directories).of_done hdone rfl
  exact ⟨fun library => .inl (congrFun hdirectories _), nofun⟩

theorem preserves_other (status : ℕ) (property : State → Prop) :
    Preserves property (other status) :=
  preserves_simple fun _ hstate => hstate

theorem preserves_fetch (library : Source) (directories : Name → Option Directory) :
    Preserves (fun state => state.directories = directories) (fetch world library) :=
  preserves_call (preserves_ifThen preserves_test (preserves_simple fun _ hstate => hstate))

theorem obtains_other (status : ℕ) : Obtains upstream [] (other status) :=
  obtains_nil fun _ => preserves_other status _

theorem obtains_fetch (library : Source) : Obtains upstream [] (fetch world library) :=
  obtains_nil (preserves_fetch world library)

/-- An extraction that succeeds has a complete directory. -/
theorem untar_eq_done {library : Source} {source target : State} {status : ℕ}
    (hdone : untar world library true source = .done status target) :
    Complete upstream target library ∧
      ∀ name, name ≠ library.directory → target.directories name = source.directories name := by
  have hrun := simple_eq_done hdone
  split at hrun
  · cases hrun
  · next tarball hfile =>
      obtain ⟨rfl, hstatus⟩ := Prod.mk.inj hrun
      obtain ⟨htarball, hmembers⟩ := (world.tar library tarball).complete hstatus
      have hnonempty : (world.tar library tarball).members ≠ [] := by
        rw [hmembers]
        exact upstream.members_nonempty library
      simp only [if_neg hnonempty, Complete]
      refine ⟨?_, fun name hname => Function.update_of_ne hname _ _⟩
      rw [Function.update_self, hmembers, htarball]

theorem obtains_extract (library : Source) :
    Obtains upstream [library] (extract world library) := by
  intro source target status hdone
  unfold extract orElse at hdone
  rw [test_tested] at hdone
  cases hdirectory : source.directories library.directory with
  | some directory =>
      simp only [hdirectory, Option.isSome_some, if_true] at hdone
      cases hdone
      refine ⟨.refl _, fun other hother => ?_⟩
      rw [List.mem_singleton.mp hother, hdirectory]
      exact Option.some_ne_none _
  | none =>
      simp only [hdirectory, Option.isSome_none] at hdone
      obtain ⟨hcomplete, hothers⟩ := untar_eq_done world hdone
      constructor
      · intro other
        by_cases hsame : other = library
        · subst hsame
          exact .inr ⟨hdirectory, hcomplete⟩
        · exact .inl (hothers _ fun heq => hsame (Source.directory_injective heq))
      · intro other hother
        rw [List.mem_singleton.mp hother, hcomplete]
        exact Option.some_ne_none _

/-- Past the first extractions the directories of five libraries are there. -/
theorem obtains_getSources : Obtains upstream tarballs (getSources world) :=
  (obtains_other _).seq <| (obtains_fetch world _).seq <| (obtains_fetch world _).seq <|
    (obtains_fetch world _).seq <| (obtains_fetch world _).seq <| (obtains_fetch world _).seq <|
    (obtains_extract world _).seq <| (obtains_extract world _).seq <|
    (obtains_extract world _).seq <| (obtains_extract world _).seq <| obtains_extract world _

/-- Past the last extraction all directories are there. -/
theorem obtains_getAllSources :
    Obtains upstream (tarballs ++ [.libffi]) (getAllSources world) :=
  (obtains_getSources world).seq <| (obtains_other _).seq <| (obtains_fetch world _).seq <|
    obtains_extract world _

theorem mem_all (library : Source) : library ∈ tarballs ++ [.libffi] := by
  cases library <;> decide

end Commands

/-! ## Runs -/

section Runs

variable {upstream : Upstream} (world : World upstream) (state : State)

/-- What a run leaves in `SRC_DIR`. -/
def after : State := (getAllSources world true state).state

/-- If the run gets past the extractions, the directories extracted so far have the property. -/
def PastExtractions (property : State → Source → Prop) : Prop :=
  (∀ status next, getSources world true state = .done status next →
      ∀ library ∈ tarballs, property next library) ∧
    ∀ status next, getAllSources world true state = .done status next →
      ∀ library, property next library

/-- A run that gets past the extractions has complete sources. -/
def Ready : Prop := PastExtractions world state (Complete upstream)

/-- A run that gets past the extractions finds no torn directory when it starts. -/
def FindsWhole : Prop := PastExtractions world state fun _ library => ¬ Torn upstream state library

theorem ready_iff_findsWhole : Ready world state ↔ FindsWhole world state := by
  have hfirst {status : ℕ} {next : State}
      (hdone : getSources world true state = .done status next) {library : Source}
      (hlibrary : library ∈ tarballs) :
      Complete upstream next library ↔ ¬ Torn upstream state library := by
    obtain ⟨hsettled, hthere⟩ := obtains_getSources world state next status hdone
    exact hsettled.complete_iff (hthere library hlibrary)
  have hall {status : ℕ} {next : State}
      (hdone : getAllSources world true state = .done status next) (library : Source) :
      Complete upstream next library ↔ ¬ Torn upstream state library := by
    obtain ⟨hsettled, hthere⟩ := obtains_getAllSources world state next status hdone
    exact hsettled.complete_iff (hthere library (mem_all library))
  constructor
  · intro hready
    exact ⟨fun status next hdone library hlibrary =>
        (hfirst hdone hlibrary).mp (hready.1 status next hdone library hlibrary),
      fun status next hdone library => (hall hdone library).mp (hready.2 status next hdone library)⟩
  · intro hwhole
    exact ⟨fun status next hdone library hlibrary =>
        (hfirst hdone hlibrary).mpr (hwhole.1 status next hdone library hlibrary),
      fun status next hdone library =>
        (hall hdone library).mpr (hwhole.2 status next hdone library)⟩

/-- In a history of runs all that get past the extractions have complete sources if and only
if none of them finds a torn directory. -/
theorem ready_throughout_iff (worlds : List (World upstream)) :
    Throughout (fun state world => after world state) (fun state world => Ready world state)
        state worlds ↔
      Throughout (fun state world => after world state)
        (fun state world => FindsWhole world state) state worlds :=
  Throughout.congr (fun state world => ready_iff_findsWhole world state) state worlds

end Runs

/-! ## Torn directories -/

section Torn

variable {upstream : Upstream} {world : World upstream} {property : State → Prop}

theorem preserves_getAllSources (hother : ∀ status, Preserves property (other status))
    (hfetch : ∀ library, Preserves property (fetch world library))
    (hextract : ∀ library, Preserves property (extract world library)) :
    Preserves property (getAllSources world) := by
  have hfirst : Preserves property (getSources world) :=
    preserves_block ⟨hother _, hfetch _, hfetch _, hfetch _, hfetch _, hfetch _, hextract _,
      hextract _, hextract _, hextract _, hextract _⟩
  exact preserves_block ⟨hfirst, hother _, hfetch _, hextract _⟩

/-- What is about the directories only is kept by a download. -/
theorem preserves_fetch_of (about : (Name → Option Directory) → Prop) (library : Source) :
    Preserves (fun state => about state.directories) (fetch world library) := by
  intro strict state hstate
  rwa [preserves_fetch world library state.directories strict state rfl]

/-- A directory that is there is not extracted again. -/
theorem preserves_directory (name : Name) (directory : Directory) :
    Preserves (fun state => state.directories name = some directory) (getAllSources world) := by
  apply preserves_getAllSources (fun _ => preserves_other _ _)
    (preserves_fetch_of fun directories => directories name = some directory)
  intro library strict state hstate
  unfold extract orElse
  rw [test_tested]
  cases hthere : state.directories library.directory with
  | some old => exact hstate
  | none =>
      have hne : name ≠ library.directory := by
        rintro rfl
        rw [hthere] at hstate
        cases hstate
      simp only [Option.isSome_none]
      have huntar : (untar world library strict state).state.directories name =
          state.directories name := by
        rw [untar, simple_state]
        split
        · rfl
        · simp only
          split
          · rfl
          · exact Function.update_of_ne hne _ _
      exact huntar.trans hstate

/-- No run makes up for what an extraction has left. -/
theorem torn_after {state : State} {library : Source} (htorn : Torn upstream state library) :
    Torn upstream (after world state) library := by
  obtain ⟨directory, hdirectory, hincomplete⟩ := htorn
  exact ⟨directory, preserves_directory _ _ true state hdirectory, hincomplete⟩

/-- An extraction that fails leaves no directory, or all of it. -/
def Tidy (world : World upstream) : Prop :=
  ∀ library tarball, (world.tar library tarball).members = [] ∨
    tarball = upstream.tarball library ∧
      (world.tar library tarball).members = upstream.members library

theorem preserves_whole (htidy : Tidy world) :
    Preserves (fun state => ∀ library, ¬ Torn upstream state library) (getAllSources world) := by
  have huntar (library : Source) :
      Preserves (fun state => ∀ library, ¬ Torn upstream state library) (untar world library) := by
    apply preserves_simple
    intro state hstate
    split
    · exact hstate
    · next tarball _ =>
        simp only
        split
        · exact hstate
        · next hsome =>
            obtain ⟨htarball, hmembers⟩ := (htidy library tarball).resolve_left hsome
            rintro other ⟨directory, hdirectory, hincomplete⟩
            by_cases hsame : other = library
            · subst hsame
              simp only [Function.update_self, hmembers] at hdirectory
              exact hincomplete ((Option.some.inj hdirectory).symm.trans (by rw [htarball]))
            · have hne := Source.directory_injective.ne hsame
              simp only [Function.update_of_ne hne] at hdirectory
              exact hstate other ⟨directory, hdirectory, hincomplete⟩
  exact preserves_getAllSources (fun _ => preserves_other _ _)
    (preserves_fetch_of fun directories =>
      ∀ library, ¬ Torn upstream ⟨fun _ => none, directories⟩ library)
    fun library => preserves_test.orElse (huntar library)

/-- Where no failing extraction leaves a part of a directory, the sources are complete in every
run that gets past the extractions, whatever the downloads have left. -/
theorem ready_of_tidy {state : State} (hwhole : ∀ library, ¬ Torn upstream state library)
    {worlds : List (World upstream)} (htidy : ∀ world ∈ worlds, Tidy world) :
    Throughout (fun state world => after world state) (fun state world => Ready world state)
      state worlds := by
  have hstep (state : State) (world : World upstream)
      (hstate : ∀ library, ¬ Torn upstream state library) (htidy : Tidy world) :
      Ready world state ∧ ∀ library, ¬ Torn upstream (after world state) library :=
    ⟨(ready_iff_findsWhole world state).mpr
      ⟨fun _ _ _ library _ => hstate library, fun _ _ _ library => hstate library⟩,
      preserves_whole htidy true state hstate⟩
  exact Throughout.of_invariant hstep hwhole htidy

/-! ## Runs in which everything works -/

/-- Every command of the run succeeds, and a complete tarball is extracted. -/
structure Works (world : World upstream) : Prop where
  prepare : world.prepare = 0
  build : world.build = 0
  curl : ∀ library, world.curl library = (some (upstream.tarball library), 0)
  tar : ∀ library, (world.tar library (upstream.tarball library)).status = 0

/-- No tarball is there but complete ones, and those of some libraries are. -/
structure Fetched (upstream : Upstream) (libraries : List Source) (state : State) : Prop where
  whole : ∀ library tarball, state.files library.tarball = some tarball →
    tarball = upstream.tarball library
  there : ∀ library ∈ libraries, state.files library.tarball ≠ none

/-- The script goes on after the command, with more tarballs. -/
def Goes (upstream : Upstream) (before after : List Source) (command : Command State) : Prop :=
  ∀ source, Fetched upstream before source →
    ∃ target, Passes command true source target ∧ Fetched upstream after target

theorem Goes.seq {first second : Command State} {before middle after : List Source}
    (hfirst : Goes upstream before middle first) (hsecond : Goes upstream middle after second) :
    Goes upstream before after (.seq first second) := by
  intro source hsource
  obtain ⟨next, hnext, hfetched⟩ := hfirst source hsource
  obtain ⟨target, htarget, hlast⟩ := hsecond next hfetched
  exact ⟨target, hnext.seq htarget, hlast⟩

theorem goes_other (libraries : List Source) : Goes upstream libraries libraries (other 0) :=
  fun source hsource => ⟨source, ⟨0, rfl⟩, hsource⟩

/-- A tarball is there under the name by which it will be extracted. -/
theorem goes_fetch (hworks : Works world) (library : Source) (libraries : List Source) :
    Goes upstream libraries (library :: libraries) (fetch world library) := by
  intro source hsource
  cases hfile : source.files library.tarball with
  | some tarball =>
      refine ⟨source, ⟨0, ?_⟩, hsource.whole, fun other hother => ?_⟩
      · simp [fetch, basename_url, call, ifThen, ifElse, hfile]
      · rcases List.mem_cons.mp hother with rfl | hold
        · simp [hfile]
        · exact hsource.there other hold
  | none =>
      let files := Function.update source.files library.tarball (some (upstream.tarball library))
      refine ⟨{ source with files := files }, ⟨0, ?_⟩, fun other tarball hother => ?_,
        fun other hother => ?_⟩
      · simp [fetch, basename_url, call, ifThen, ifElse, hfile, download, simple, hworks.curl,
          files]
      · change files other.tarball = some tarball at hother
        by_cases hsame : other = library
        · subst hsame
          simp only [files, Function.update_self] at hother
          exact (Option.some.inj hother).symm
        · have hne := Source.tarball_injective.ne hsame
          simp only [files, Function.update_of_ne hne] at hother
          exact hsource.whole other tarball hother
      · by_cases hsame : other = library
        · subst hsame
          simp [files]
        · have hne := Source.tarball_injective.ne hsame
          have hold := (List.mem_cons.mp hother).resolve_left hsame
          simpa [files, Function.update_of_ne hne] using hsource.there other hold

theorem goes_extract (hworks : Works world) {library : Source} {libraries : List Source}
    (hlibrary : library ∈ libraries) :
    Goes upstream libraries libraries (extract world library) := by
  intro source hsource
  cases hdirectory : source.directories library.directory with
  | some directory =>
      exact ⟨source, ⟨0, by simp [extract, orElse, hdirectory]⟩, hsource⟩
  | none =>
      obtain ⟨tarball, htarball⟩ := Option.ne_none_iff_exists'.mp (hsource.there library hlibrary)
      obtain rfl := hsource.whole library tarball htarball
      have hextract : extract world library true source = untar world library true source := by
        simp [extract, orElse, hdirectory]
      refine ⟨_, ⟨0, hextract.trans (simple_of_zero ?_ true)⟩, ?_⟩
      · simp [htarball, hworks.tar library]
      · simp only [htarball]
        exact ⟨hsource.whole, hsource.there⟩

/-- A run in which everything works gets past the extractions, unless an earlier one has left a
tarball that is not complete. -/
theorem passes_of_works (hworks : Works world) {state : State}
    (hwhole : ∀ library tarball, state.files library.tarball = some tarball →
      tarball = upstream.tarball library) :
    ∃ target, Passes (getAllSources world) true state target := by
  have hother {libraries : List Source} {status : ℕ} (hstatus : status = 0) :
      Goes upstream libraries libraries (other status) := hstatus ▸ goes_other libraries
  have hgoes : Goes upstream [] (.libffi :: tarballs.reverse) (getAllSources world) := by
    have hfetch := goes_fetch hworks
    have hsources : Goes upstream [] tarballs.reverse (getSources world) :=
      (hother hworks.prepare).seq <| (hfetch .curl _).seq <| (hfetch .libxml2 _).seq <|
        (hfetch .glib _).seq <| (hfetch .freetype _).seq <| (hfetch .fontconfig _).seq <|
        (goes_extract hworks (by decide)).seq <| (goes_extract hworks (by decide)).seq <|
        (goes_extract hworks (by decide)).seq <| (goes_extract hworks (by decide)).seq <|
        goes_extract hworks (by decide)
    exact hsources.seq <| (hother hworks.build).seq <| (hfetch .libffi _).seq <|
      goes_extract hworks (by decide)
  obtain ⟨target, hpasses, _⟩ := hgoes state ⟨hwhole, nofun⟩
  exact ⟨target, hpasses⟩

end Torn

/-! ## An example of a history -/

/-- Tarballs of two files each. -/
def smallUpstream : Upstream where
  tarball library := library.tarball
  members library := [library.directory ++ bytes "/configure", library.directory ++ bytes "/lib"]
  members_nonempty _ := List.cons_ne_nil _ _

/-- The first part of a tarball yields its first file, and what is no part of it yields nothing. -/
def smallTar (library : Source) (tarball : Bytes) : Extraction smallUpstream library tarball :=
  if hwhole : tarball = smallUpstream.tarball library then
    ⟨smallUpstream.members library, 0, List.prefix_refl _, fun _ => ⟨hwhole, rfl⟩⟩
  else if tarball.isPrefixOf (smallUpstream.tarball library) then
    ⟨(smallUpstream.members library).take 1, 2, List.take_prefix _ _, nofun⟩
  else ⟨[], 2, List.nil_prefix, nofun⟩

/-- The network is there. -/
def online : World smallUpstream where
  prepare := 0
  curl library := (some (smallUpstream.tarball library), 0)
  tar := smallTar
  build := 0

/-- The download of curl takes longer than a minute. -/
def slow : World smallUpstream :=
  { online with curl := fun library => (some ((smallUpstream.tarball library).take 9), 28) }

/-- Nothing has been downloaded. -/
def freshState : State := ⟨fun _ => none, fun _ => none⟩

instance (upstream : Upstream) (state : State) (library : Source) :
    Decidable (Complete upstream state library) :=
  inferInstanceAs (Decidable (_ = _))

/-- A download that is cut off lets the second run fail and the third one pass. -/
theorem not_ready_throughout :
    ¬ ∀ (upstream : Upstream) (state : State) (worlds : List (World upstream)),
      (∀ library, ¬ Torn upstream state library) →
        Throughout (fun state world => after world state) (fun state world => Ready world state)
          state worlds := by
  intro hall
  have hruns := hall smallUpstream freshState [slow, online, online] nofun
  have hthird : Ready online (after online (after slow freshState)) := hruns.2.2.1
  have hcurl := hthird.2 0 (after online (after online (after slow freshState))) rfl .curl
  exact absurd hcurl (by decide +kernel)

end TizenRoblox.ThirdParty
