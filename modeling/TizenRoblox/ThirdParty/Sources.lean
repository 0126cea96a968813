/-
# The sources of the third-party libraries

`build_thirdparty.sh` downloads the tarballs of six libraries and extracts each into a
directory of its own. A tarball that is there is not downloaded again, and a directory
that is there is not extracted again, so what a download or an extraction leaves when it
fails decides what later runs do.

What is behind these steps is left out: the other libraries, and the builds, which only
add to the directories of the sources. A function call and the shell that `cd` is given
are modelled; the working directory of both steps is `SRC_DIR`.
-/

import Mathlib.Logic.Function.Basic
import TizenRoblox.Foundation.Runs
import TizenRoblox.Posix.Pathname
import TizenRoblox.Shell.Command

namespace TizenRoblox.ThirdParty

open TizenRoblox.Foundation TizenRoblox.Posix TizenRoblox.Shell TizenRoblox.Shell.Command

/-! ## The sources -/

/-- The libraries that come as upstream tarballs. -/
inductive Source
  | curl
  | libxml2
  | glib
  | freetype
  | fontconfig
  | libffi
  deriving DecidableEq

namespace Source

def url : Source → Bytes
  | curl => bytes "https://curl.se/download/curl-8.10.1.tar.gz"
  | libxml2 => bytes "https://download.gnome.org/sources/libxml2/2.12/libxml2-2.12.9.tar.xz"
  | glib => bytes "https://download.gnome.org/sources/glib/2.82/glib-2.82.2.tar.xz"
  | freetype => bytes "https://download.savannah.gnu.org/releases/freetype/freetype-2.13.3.tar.gz"
  | fontconfig =>
      bytes "https://www.freedesktop.org/software/fontconfig/release/fontconfig-2.15.0.tar.gz"
  | libffi => bytes "https://sourceware.org/pub/libffi/libffi-3.4.3.tar.gz"

/-- The name that `tar` is given. -/
def tarball : Source → Bytes
  | curl => bytes "curl-8.10.1.tar.gz"
  | libxml2 => bytes "libxml2-2.12.9.tar.xz"
  | glib => bytes "glib-2.82.2.tar.xz"
  | freetype => bytes "freetype-2.13.3.tar.gz"
  | fontconfig => bytes "fontconfig-2.15.0.tar.gz"
  | libffi => bytes "libffi-3.4.3.tar.gz"

/-- The directory that is tested, and that all files of the tarball are in. -/
def directory : Source → Bytes
  | curl => bytes "curl-8.10.1"
  | libxml2 => bytes "libxml2-2.12.9"
  | glib => bytes "glib-2.82.2"
  | freetype => bytes "freetype-2.13.3"
  | fontconfig => bytes "fontconfig-2.15.0"
  | libffi => bytes "libffi-3.4.3"

theorem directory_injective : Function.Injective directory := by
  intro one other hsame
  cases one <;> cases other <;> first | rfl | exact absurd hsame (by decide)

theorem tarball_injective : Function.Injective tarball := by
  intro one other hsame
  cases one <;> cases other <;> first | rfl | exact absurd hsame (by decide)

end Source

/-- `basename name` -/
def basename (name : Bytes) : Bytes := ((Pathname.partsOf name).getLast?).getD [slash]

/-- What is downloaded is what is extracted. -/
theorem basename_url (source : Source) : basename source.url = source.tarball := by
  cases source <;> decide

/-- What the servers have. -/
structure Upstream where
  /-- The bytes of a tarball. -/
  tarball : Source → Bytes
  /-- The files in it, in their order. -/
  members : Source → List Bytes
  members_nonempty : ∀ source, members source ≠ []

/-! ## The script -/

/-- A directory of sources: the bytes that it was extracted from, and the files that were. -/
structure Directory where
  tarball : Bytes
  members : List Bytes
  deriving DecidableEq

/-- What `SRC_DIR` holds. -/
structure State where
  files : Name → Option Bytes
  directories : Name → Option Directory

/-- What `tar` does with some bytes. It succeeds with a complete tarball only, and when it
has extracted all of it; otherwise it may have got anywhere. -/
structure Extraction (upstream : Upstream) (source : Source) (tarball : Bytes) where
  members : List Bytes
  status : ℕ
  members_from : members <+: upstream.members source
  complete : status = 0 → tarball = upstream.tarball source ∧ members = upstream.members source

/-- What happens in one run. -/
structure World (upstream : Upstream) where
  /-- The status of what comes before the downloads. -/
  prepare : ℕ
  /-- What `curl` leaves under the name of a tarball that was not there, and its status: a
  prefix and a failure if the time is over, the text of an error and a success if the server
  says so. -/
  curl : Source → Option Bytes × ℕ
  tar : ∀ (source : Source) (tarball : Bytes), Extraction upstream source tarball
  /-- The status of what is built before libffi is downloaded. -/
  build : ℕ

section Script

variable {upstream : Upstream} (world : World upstream)

/-- A command that leaves `SRC_DIR` as it is, but for what a build adds to the directories. -/
def other (status : ℕ) : Command State := .simple fun state => (state, status)

/-- `curl -sL --max-time 60 -o file url` -/
def download (source : Source) (fname : Name) : Command State := .simple fun state =>
  ({ state with files := Function.update state.files fname (world.curl source).1 },
    (world.curl source).2)

def fetch (source : Source) : Command State :=
  let fname := basename source.url
  .call <| .ifThen (.test fun state => (state.files fname).isNone) (download world source fname)

/-- `tar xzf tarball`. The directory is there once the first file is. -/
def untar (source : Source) : Command State := .simple fun state =>
  match state.files source.tarball with
  | none => (state, 2)
  | some tarball =>
    let extraction := world.tar source tarball
    ({ state with
        directories :=
          if extraction.members = [] then state.directories
          else Function.update state.directories source.directory
            (some ⟨tarball, extraction.members⟩) },
      extraction.status)

/-- `[ -d directory ] || tar xzf tarball` -/
def extract (source : Source) : Command State :=
  .orElse (.test fun state => (state.directories source.directory).isSome) (untar world source)

/-- The sources that are extracted first. -/
def tarballs : List Source := [.curl, .libxml2, .glib, .freetype, .fontconfig]

/-- Up to the line that says that all sources are ready. -/
def getSources : Command State := .block [
  other world.prepare,
  fetch world .curl,
  fetch world .libxml2,
  fetch world .glib,
  fetch world .freetype,
  fetch world .fontconfig,
  extract world .curl,
  extract world .libxml2,
  extract world .glib,
  extract world .freetype,
  extract world .fontconfig]

/-- Up to the extraction of libffi. -/
def getAllSources : Command State := .block [
  getSources world,
  other world.build,
  fetch world .libffi,
  extract world .libffi]

end Script

/-! ## What a run leaves -/

section Runs

variable {upstream : Upstream} {world : World upstream} {source target next : State}

/-- The directory holds all files of the tarball, from the bytes of the tarball. -/
def Complete (upstream : Upstream) (state : State) (library : Source) : Prop :=
  state.directories library.directory =
    some ⟨upstream.tarball library, upstream.members library⟩

/-- The directory is there, but not all of it. -/
def Torn (upstream : Upstream) (state : State) (library : Source) : Prop :=
  ∃ directory, state.directories library.directory = some directory ∧
    directory ≠ ⟨upstream.tarball library, upstream.members library⟩

/-- The directories that were there stay, and others are complete. -/
def Settled (upstream : Upstream) (source target : State) : Prop :=
  ∀ library : Source,
    target.directories library.directory = source.directories library.directory ∨
      source.directories library.directory = none ∧ Complete upstream target library

theorem Settled.refl (source : State) : Settled upstream source source := fun _ => .inl rfl

theorem Settled.trans (hfirst : Settled upstream source target)
    (hsecond : Settled upstream target next) : Settled upstream source next := by
  intro library
  rcases hsecond library with hkept | ⟨hmissing, hcomplete⟩
  · unfold Complete
    rw [hkept]
    exact hfirst library
  · rcases hfirst library with hkept | ⟨_, hcomplete'⟩
    · exact .inr ⟨hkept ▸ hmissing, hcomplete⟩
    · rw [hcomplete'] at hmissing
      cases hmissing

/-- A directory that is there in the end is complete unless it was torn before. -/
theorem Settled.complete_iff {library : Source} (hsettled : Settled upstream source target)
    (hthere : target.directories library.directory ≠ none) :
    Complete upstream target library ↔ ¬ Torn upstream source library := by
  constructor
  · rintro hcomplete ⟨directory, hdirectory, htorn⟩
    rcases hsettled library with hkept | ⟨hmissing, _⟩
    · rw [Complete, hkept, hdirectory] at hcomplete
      exact htorn (Option.some.inj hcomplete)
    · rw [hdirectory] at hmissing
      cases hmissing
  · intro hwhole
    rcases hsettled library with hkept | ⟨_, hcomplete⟩
    · obtain ⟨directory, hdirectory⟩ := Option.ne_none_iff_exists'.mp hthere
      rw [hkept] at hdirectory
      by_contra hincomplete
      refine hwhole ⟨directory, hdirectory, fun heq => hincomplete ?_⟩
      rw [Complete, hkept, hdirectory, heq]
    · exact hcomplete

end Runs

end TizenRoblox.ThirdParty
