/-
# The library directory

What the deployment and the launcher do to `lib/` can be told without the rest of
the tree: the directory gives every name an entry, copying a file puts it where the
name lands, and the loop over the libraries turns a soname that is no link into a
link to the first longer name. In a *sound* directory every link either leads out,
as the launcher's do, or from a soname to a longer name, as the deployment's do.

`bytesOf_relinkAll` says when every copied file is found under its own name at the
end. `Safe` collects what that takes of the directory as it was before.
-/

import Mathlib.Logic.Function.Basic
import TizenRoblox.Deploy.Script

namespace TizenRoblox.Deploy

open TizenRoblox.Foundation TizenRoblox.Posix TizenRoblox.Shell

/-- What the names of a directory hold. -/
abbrev Entries := Name → Option Node

/-- What a name of `lib/` may hold. -/
inductive LibraryEntry (name : Name) : Option Node → Prop
  | missing : LibraryEntry name none
  | file (data : Bytes) : LibraryEntry name (some (.file data))
  /-- A soname linked to a library of the system. -/
  | system (target : Pathname) (hsoname : sonameOf name = name)
      (habsolute : target.absolute = true) : LibraryEntry name (some (.link target))
  /-- A soname linked to a longer name. -/
  | neighbour (file : Name) (hsoname : sonameOf file = name) (hne : file ≠ name) :
      LibraryEntry name (some (.link (.here file)))

def Sound (entries : Entries) : Prop := ∀ name, LibraryEntry name (entries name)

/-- An entry is a symbolic link. -/
def isLinkEntry : Option Node → Bool
  | some (.link _) => true
  | _ => false

/-- The name under which a name is written: its own, or that of the neighbour it
is a link to. -/
def landing (entries : Entries) (name : Name) : Name :=
  match entries name with
  | some (.link ⟨false, [file]⟩) => file
  | _ => name

/-- The bytes found under a name. -/
def bytesOf (entries : Entries) (name : Name) : Option Bytes :=
  match entries (landing entries name) with
  | some (.file data) => some data
  | _ => none

/-- Copy a file to a name. -/
def put (entries : Entries) (lib : Name × Bytes) : Entries :=
  Function.update entries (landing entries lib.1) (some (.file lib.2))

def putAll (libs : List (Name × Bytes)) (entries : Entries) : Entries := libs.foldl put entries

/-- Link the soname of a file to it, unless that is the file or a link. -/
def relink (entries : Entries) (f : Name) : Entries :=
  if sonameOf f = f ∨ isLinkEntry (entries (sonameOf f)) then entries
  else Function.update entries (sonameOf f) (some (.link (.here f)))

def relinkAll (names : List Name) (entries : Entries) : Entries := names.foldl relink entries

/-- The name is no link out of the directory. -/
def Ours (entries : Entries) (name : Name) : Prop :=
  ∀ target, entries name = some (.link target) → target.absolute = false

/-! ## Where names land -/

section Landing

variable {entries : Entries} {name : Name}

theorem landing_of_not_link (hlink : isLinkEntry (entries name) = false) :
    landing entries name = name := by
  unfold landing
  split
  · next hentry => simp [hentry, isLinkEntry] at hlink
  · rfl

theorem landing_of_neighbour {file : Name} (hentry : entries name = some (.link (.here file))) :
    landing entries name = file := by
  simp [landing, hentry, Pathname.here]

/-- Only a soname is a link. -/
theorem Sound.not_link_of_longer (hsound : Sound entries) (hlonger : sonameOf name ≠ name) :
    isLinkEntry (entries name) = false := by
  have hentry := hsound name
  cases hnode : entries name with
  | none => rfl
  | some node =>
      rw [hnode] at hentry
      cases hentry with
      | file data => rfl
      | system target hsoname habsolute => exact absurd hsoname hlonger
      | neighbour file hsoname hne => exact absurd (hsoname ▸ sonameOf_idem file) hlonger

/-- A name that is ours lands on a name that is no link. -/
theorem Sound.not_link_landing (hsound : Sound entries) (hours : Ours entries name) :
    isLinkEntry (entries (landing entries name)) = false := by
  cases hlink : isLinkEntry (entries name) with
  | false => rwa [landing_of_not_link hlink]
  | true =>
      have hentry := hsound name
      cases hnode : entries name with
      | none => simp [hnode, isLinkEntry] at hlink
      | some node =>
          rw [hnode] at hentry
          cases hentry with
          | file data => simp [hnode, isLinkEntry] at hlink
          | system target hsoname habsolute => simp [hours target hnode] at habsolute
          | neighbour file hsoname hne =>
              rw [landing_of_neighbour hnode]
              exact hsound.not_link_of_longer fun hself => hne (hself.symm.trans hsoname)

/-- A link that is ours leads to a longer name. -/
theorem Sound.neighbour_of_link (hsound : Sound entries) (hours : Ours entries name)
    (hlink : isLinkEntry (entries name) = true) :
    ∃ file, entries name = some (.link (.here file)) ∧ sonameOf file = name ∧ file ≠ name := by
  have hentry := hsound name
  cases hnode : entries name with
  | none => simp [hnode, isLinkEntry] at hlink
  | some node =>
      rw [hnode] at hentry
      cases hentry with
      | file data => simp [hnode, isLinkEntry] at hlink
      | system target hsoname habsolute => simp [hours target hnode] at habsolute
      | neighbour file hsoname hne => exact ⟨file, rfl, hsoname, hne⟩

end Landing

/-! ## Copying -/

section Copying

variable {entries : Entries} {lib : Name × Bytes} {libs : List (Name × Bytes)}

theorem put_landing (entries : Entries) (lib : Name × Bytes) :
    put entries lib (landing entries lib.1) = some (.file lib.2) := by
  simp [put]

theorem put_of_ne {name : Name} (hne : name ≠ landing entries lib.1) :
    put entries lib name = entries name := by
  simp [put, hne]

theorem Sound.put (hsound : Sound entries) (lib : Name × Bytes) : Sound (put entries lib) := by
  intro name
  by_cases hname : name = landing entries lib.1
  · subst hname
    rw [put_landing]
    exact .file lib.2
  · rw [put_of_ne hname]
    exact hsound name

/-- Copying moves no landing. -/
theorem landing_put (hsound : Sound entries) (hours : Ours entries lib.1) (name : Name) :
    landing (Deploy.put entries lib) name = landing entries name := by
  by_cases hname : name = landing entries lib.1
  · have hbefore : landing entries name = name :=
      landing_of_not_link (hname ▸ hsound.not_link_landing hours)
    rw [hbefore]
    apply landing_of_not_link
    rw [hname, put_landing]
    rfl
  · simp only [landing, put_of_ne hname]

theorem Ours.put {name : Name} (hours : Ours entries name) : Ours (put entries lib) name := by
  intro target htarget
  by_cases hname : name = landing entries lib.1
  · subst hname
    simp [put_landing] at htarget
  · rw [put_of_ne hname] at htarget
    exact hours target htarget

theorem Sound.putAll (hsound : Sound entries) (libs : List (Name × Bytes)) :
    Sound (putAll libs entries) := by
  induction libs generalizing entries with
  | nil => exact hsound
  | cons lib rest ih => exact ih (hsound.put lib)

/-- A name on which nothing lands keeps what it holds. -/
theorem putAll_of_ne (hsound : Sound entries) (hours : ∀ lib ∈ libs, Ours entries lib.1)
    {name : Name} (hne : ∀ lib ∈ libs, landing entries lib.1 ≠ name) :
    Deploy.putAll libs entries name = entries name := by
  induction libs generalizing entries with
  | nil => rfl
  | cons lib rest ih =>
      have hlib := hours lib (by simp)
      refine Eq.trans (ih (hsound.put lib)
        (fun later hlater => (hours later (by simp [hlater])).put) ?_) ?_
      · intro later hlater
        rw [landing_put hsound hlib]
        exact hne later (by simp [hlater])
      · exact put_of_ne (hne lib (by simp)).symm

/-- Where all that lands on a name has the same bytes, the name holds them. -/
theorem putAll_landing (hsound : Sound entries) (hours : ∀ lib ∈ libs, Ours entries lib.1)
    (hlib : lib ∈ libs)
    (halike : ∀ other ∈ libs, landing entries other.1 = landing entries lib.1 →
      other.2 = lib.2) :
    Deploy.putAll libs entries (landing entries lib.1) = some (.file lib.2) := by
  induction libs generalizing entries lib with
  | nil => simp at hlib
  | cons first rest ih =>
      have hfirst := hours first (by simp)
      have hrest : ∀ later ∈ rest, Ours (Deploy.put entries first) later.1 :=
        fun later hlater => (hours later (by simp [hlater])).put
      have hland := landing_put hsound hfirst
      by_cases hlater : ∃ later ∈ rest, landing entries later.1 = landing entries lib.1
      · obtain ⟨later, hmem, hsame⟩ := hlater
        have hlast := ih (hsound.put first) hrest hmem fun other hother heq => by
          rw [hland, hland] at heq
          exact (halike other (by simp [hother]) (heq.trans hsame)).trans
            (halike later (by simp [hmem]) hsame).symm
        rw [hland, hsame, halike later (by simp [hmem]) hsame] at hlast
        exact hlast
      · have hnone : ∀ later ∈ rest, landing entries later.1 ≠ landing entries lib.1 :=
          fun later hmem heq => hlater ⟨later, hmem, heq⟩
        obtain rfl : lib = first := by
          rcases List.mem_cons.mp hlib with heq | hmem
          · exact heq
          · exact absurd rfl (hnone lib hmem)
        refine Eq.trans (putAll_of_ne (hsound.put lib) hrest ?_) (put_landing entries lib)
        intro later hmem
        rw [hland]
        exact hnone later hmem

end Copying

/-! ## Linking -/

section Linking

variable {entries : Entries} {names : List Name}

theorem Sound.relink (hsound : Sound entries) (f : Name) : Sound (relink entries f) := by
  unfold Deploy.relink
  split
  · exact hsound
  · next hcondition =>
      intro name
      by_cases hname : name = sonameOf f
      · subst hname
        rw [Function.update_self]
        exact .neighbour f rfl fun heq => hcondition (Or.inl heq.symm)
      · rw [Function.update_of_ne hname]
        exact hsound name

theorem relink_ne_none {f name : Name} (hentry : entries name ≠ none) :
    Deploy.relink entries f name ≠ none := by
  unfold Deploy.relink
  split
  · exact hentry
  · by_cases hname : name = sonameOf f
    · simp [hname]
    · rwa [Function.update_of_ne hname]

theorem Sound.relinkAll (hsound : Sound entries) (names : List Name) :
    Sound (relinkAll names entries) := by
  induction names generalizing entries with
  | nil => exact hsound
  | cons f rest ih => exact ih (hsound.relink f)

/-- The loop keeps every link and links any other name to the first longer name it
meets. -/
theorem relinkAll_eq (names : List Name) (entries : Entries) (name : Name) :
    relinkAll names entries name =
      if isLinkEntry (entries name) then entries name
      else
        match names.find? fun f => sonameOf f = name ∧ f ≠ name with
        | some f => some (.link (.here f))
        | none => entries name := by
  induction names generalizing entries with
  | nil => simp [relinkAll]
  | cons f rest ih =>
      have hstep : relinkAll (f :: rest) entries = relinkAll rest (relink entries f) := rfl
      rw [hstep, ih, List.find?_cons]
      by_cases hmeets : sonameOf f = name ∧ f ≠ name
      · obtain ⟨rfl, hne⟩ := hmeets
        cases hlink : isLinkEntry (entries (sonameOf f)) with
        | true => simp [relink, hlink]
        | false =>
            have hnow : relink entries f (sonameOf f) = some (.link (.here f)) := by
              rw [relink, if_neg (by simp [hlink, hne.symm]), Function.update_self]
            have hisLink : isLinkEntry (some (.link (.here f))) = true := rfl
            simp [hnow, hisLink, hne]
      · have hkept : relink entries f name = entries name := by
          unfold relink
          split
          · rfl
          · next hcondition =>
              apply Function.update_of_ne
              rintro rfl
              exact hmeets ⟨rfl, fun heq => hcondition (Or.inl heq.symm)⟩
        simp [hkept, hmeets]

/-- A name that is not its own soname is never linked. -/
theorem relinkAll_of_longer {name : Name} (hlonger : sonameOf name ≠ name) :
    Deploy.relinkAll names entries name = entries name := by
  have hnone : names.find? (fun f => sonameOf f = name ∧ f ≠ name) = none := by
    rw [List.find?_eq_none]
    intro f _
    have hne : sonameOf f ≠ name := fun heq => hlonger (heq ▸ sonameOf_idem f)
    simp [hne]
  rw [relinkAll_eq, hnone]
  split <;> rfl

end Linking

/-! ## Every copied file under its own name -/

section Safety

variable (host : Host) (entries : Entries)

/-- The name has an entry once the libraries are copied. -/
def Arrives (name : Name) : Prop :=
  entries name ≠ none ∨ ∃ lib ∈ host.libs, landing entries lib.1 = name

/-- The name then holds these bytes. -/
def Carries (name : Name) (data : Bytes) : Prop :=
  (∃ lib ∈ host.libs, landing entries lib.1 = name ∧ lib.2 = data) ∨
    ((∀ lib ∈ host.libs, landing entries lib.1 ≠ name) ∧ entries name = some (.file data))

/-- A longer name with this soname, for which the loop would link it. -/
structure Rival (soname name : Name) : Prop where
  listed : isListed versionPattern name = true
  arrives : Arrives host entries name
  derives : sonameOf name = soname
  longer : name ≠ soname

/-- What a deployment wants of its host and of `lib/` as it is before. -/
structure Safe : Prop where
  connected : host.connected = true
  complete : host.sober.isSome ∧ host.launchScript.isSome ∧ host.diagnose.isSome
  /-- No name to be copied is a link of the launcher. -/
  ours : ∀ lib ∈ host.libs, Ours entries lib.1
  /-- Names that lead to one file are copied from the same bytes. -/
  alike : ∀ lib ∈ host.libs, ∀ other ∈ host.libs,
    landing entries other.1 = landing entries lib.1 → other.2 = lib.2
  /-- A copied soname that the loop turns into a link has the bytes of the first
  longer name. -/
  first : ∀ lib ∈ host.libs, isLinkEntry (entries lib.1) = false → ∀ rival,
    Rival host entries lib.1 rival → (∀ other, Rival host entries lib.1 other → rival ≤ other) →
      Carries host entries rival lib.2
  /-- The names of libraries are plain words. -/
  plain : ∀ name, isListed versionPattern name = true → Arrives host entries name →
    IsPlainWord name

variable {host entries}

theorem arrives_iff (hsound : Sound entries) (hsafe : Safe host entries) (name : Name) :
    putAll host.libs entries name ≠ none ↔ Arrives host entries name := by
  by_cases hlands : ∃ lib ∈ host.libs, landing entries lib.1 = name
  · obtain ⟨lib, hlib, rfl⟩ := hlands
    rw [putAll_landing hsound hsafe.ours hlib (hsafe.alike lib hlib)]
    simp only [ne_eq, reduceCtorEq, not_false_eq_true, true_iff]
    exact Or.inr ⟨lib, hlib, rfl⟩
  · have hnone : ∀ lib ∈ host.libs, landing entries lib.1 ≠ name :=
      fun lib hlib heq => hlands ⟨lib, hlib, heq⟩
    rw [putAll_of_ne hsound hsafe.ours hnone]
    exact ⟨Or.inl, fun harrives => harrives.resolve_right hlands⟩

theorem putAll_of_carries (hsound : Sound entries) (hsafe : Safe host entries) {name : Name}
    {data : Bytes} (hcarries : Carries host entries name data) :
    putAll host.libs entries name = some (.file data) := by
  rcases hcarries with ⟨lib, hlib, rfl, rfl⟩ | ⟨hnone, hfile⟩
  · exact putAll_landing hsound hsafe.ours hlib (hsafe.alike lib hlib)
  · rw [putAll_of_ne hsound hsafe.ours hnone, hfile]

/-- The names the loop over the libraries runs through: those that match its
pattern, in order, or the pattern itself. -/
def IsLoopOver (names : List Name) (entries : Entries) : Prop :=
  (names.Pairwise (· ≤ ·) ∧
      ∀ name, name ∈ names ↔ isListed versionPattern name = true ∧ entries name ≠ none) ∨
    (names = [versionPattern] ∧
      ∀ name, isListed versionPattern name = true → entries name = none)

private theorem landing_file {name file : Name} {data : Bytes}
    (hentry : entries name = some (.link (.here file)))
    (hfile : entries file = some (.file data)) : bytesOf entries name = some data := by
  rw [bytesOf, landing_of_neighbour hentry, hfile]

/-- What is found first in an ordered list is the least that can be found. -/
private theorem le_of_find?_of_pairwise {names : List Name} {meets : Name → Bool}
    {first other : Name} (hsorted : names.Pairwise (· ≤ ·)) (hfind : names.find? meets = some first)
    (hother : other ∈ names) (hmeets : meets other = true) : first ≤ other := by
  obtain ⟨_, front, back, rfl, hfront⟩ := List.find?_eq_some_iff_append.mp hfind
  rcases List.mem_append.mp hother with hmem | hmem
  · simpa [hmeets] using hfront other hmem
  · rcases List.mem_cons.mp hmem with rfl | hmem
    · exact List.le_refl other
    · have hback := (List.pairwise_append.mp hsorted).2.1
      exact (List.pairwise_cons.mp hback).1 other hmem

/-- A copied name that is a link stays that link, and the longer name it leads to is
never linked itself. -/
theorem bytesOf_relinkAll_of_link (hsound : Sound entries) (hsafe : Safe host entries)
    (names : List Name) {lib : Name × Bytes} (hlib : lib ∈ host.libs)
    (hlink : isLinkEntry (entries lib.1) = true) :
    bytesOf (relinkAll names (putAll host.libs entries)) lib.1 = some lib.2 := by
  have hland := putAll_landing hsound hsafe.ours hlib (hsafe.alike lib hlib)
  obtain ⟨file, hentry, hsoname, hne⟩ :=
    hsound.neighbour_of_link (hsafe.ours lib hlib) hlink
  have hlonger : sonameOf file ≠ file := fun heq => hne (heq.symm.trans hsoname)
  have hkept : putAll host.libs entries lib.1 = some (.link (.here file)) := by
    rw [putAll_of_ne hsound hsafe.ours, hentry]
    intro other hother heq
    have hnot := hsound.not_link_landing (hsafe.ours other hother)
    rw [heq, hlink] at hnot
    cases hnot
  rw [landing_of_neighbour hentry] at hland
  apply @landing_file _ lib.1 file lib.2
  · rw [relinkAll_eq, hkept]
    rfl
  · rw [relinkAll_of_longer hlonger, hland]

/-- The longer name the loop links a copied name to has the same bytes. -/
theorem carries_of_find? (hsound : Sound entries) (hsafe : Safe host entries)
    {names : List Name} (hnames : IsLoopOver names (putAll host.libs entries))
    {lib : Name × Bytes} (hlib : lib ∈ host.libs) (hlink : isLinkEntry (entries lib.1) = false)
    {rival : Name} (hfind : names.find? (fun f => sonameOf f = lib.1 ∧ f ≠ lib.1) = some rival) :
    Carries host entries rival lib.2 := by
  have hmeets := List.find?_some hfind
  simp only [ne_eq, decide_eq_true_eq] at hmeets
  have hmem := List.mem_of_find?_eq_some hfind
  rcases hnames with ⟨hsorted, hnames⟩ | ⟨rfl, hnone⟩
  · obtain ⟨hlisted, hentry⟩ := (hnames rival).mp hmem
    refine hsafe.first lib hlib hlink rival
      ⟨hlisted, (arrives_iff hsound hsafe rival).mp hentry, hmeets.1, hmeets.2⟩ ?_
    intro other hother
    apply le_of_find?_of_pairwise hsorted hfind
    · exact (hnames other).mpr
        ⟨hother.listed, (arrives_iff hsound hsafe other).mpr hother.arrives⟩
    · simpa using ⟨hother.derives, hother.longer⟩
  · -- the soname of the bare pattern matches the pattern, and it has an entry
    obtain rfl : rival = versionPattern := by simpa using hmem
    have habsent := hnone lib.1 (by rw [← hmeets.1]; decide)
    have hland := putAll_landing hsound hsafe.ours hlib (hsafe.alike lib hlib)
    rw [landing_of_not_link hlink, habsent] at hland
    cases hland

/-- After copying and linking, every copied file is found under its own name. -/
theorem bytesOf_relinkAll (hsound : Sound entries) (hsafe : Safe host entries)
    {names : List Name} (hnames : IsLoopOver names (putAll host.libs entries))
    {lib : Name × Bytes} (hlib : lib ∈ host.libs) :
    bytesOf (relinkAll names (putAll host.libs entries)) lib.1 = some lib.2 := by
  cases hlink : isLinkEntry (entries lib.1) with
  | true => exact bytesOf_relinkAll_of_link hsound hsafe names hlib hlink
  | false =>
      have hland := putAll_landing hsound hsafe.ours hlib (hsafe.alike lib hlib)
      rw [landing_of_not_link hlink] at hland
      have hfile : isLinkEntry (putAll host.libs entries lib.1) = false := by
        rw [hland]
        rfl
      have hafter := relinkAll_eq names (putAll host.libs entries) lib.1
      rw [hfile] at hafter
      simp only [Bool.false_eq_true, if_false] at hafter
      cases hfind : names.find? fun f => sonameOf f = lib.1 ∧ f ≠ lib.1 with
      | none =>
          rw [hfind] at hafter
          have hstays : landing (relinkAll names (putAll host.libs entries)) lib.1 = lib.1 :=
            landing_of_not_link (by rw [hafter]; exact hfile)
          rw [bytesOf, hstays, hafter, hland]
      | some rival =>
          rw [hfind] at hafter
          have hmeets := List.find?_some hfind
          simp only [ne_eq, decide_eq_true_eq] at hmeets
          have hlonger : sonameOf rival ≠ rival := fun heq => hmeets.2 (heq.symm.trans hmeets.1)
          apply @landing_file _ lib.1 rival lib.2 hafter
          rw [relinkAll_of_longer hlonger]
          exact putAll_of_carries hsound hsafe
            (carries_of_find? hsound hsafe hnames hlib hlink hfind)

end Safety

end TizenRoblox.Deploy
