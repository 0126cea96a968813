/-
# Finding the remote

The mapper registers its virtual gamepad and then searches `/dev/input` for the
remote: the first event node that it can open and that either has one of five
texts in its name or has a red key. The search does not know its own gamepad, and
the name it registers it under contains one of the five texts. So the search may
return the gamepad itself; it does exactly when nothing else passes before it
(`remoteLaw_iff`).
-/

import Mathlib.Data.List.Nodup
import TizenRoblox.InputMapper.Devices

namespace TizenRoblox.InputMapper

open TizenRoblox.Foundation

/-! ## The virtual gamepad -/

/-- The name `create_virtual_gamepad` registers. -/
def virtualGamepadName : CString where
  bytes := bytes "Samsung TV Virtual Gamepad (TizenRoblox)"
  noNul := by decide

/-- The codes of its `UI_SET_KEYBIT` calls: the buttons from south to the right
stick. -/
def virtualGamepadKeys : List ℕ :=
  [0x130, 0x131, 0x133, 0x134, 0x136, 0x137, 0x138, 0x139, 0x13b, 0x13a, 0x13d, 0x13e]

/-- The device `create_virtual_gamepad` creates. -/
def virtualGamepad : Device where
  name := virtualGamepadName
  nameFits := by decide
  keyBits := virtualGamepadKeys.foldl (fun bits key => bits ||| (BitVec.ofNat keyCount 1 <<< key)) 0

/-! ## The search -/

/-- `KEY_RED` -/
def keyRed : ℕ := 0x18e

/-- The texts that mark the name of a remote. -/
def remoteTexts : List Bytes :=
  [bytes "Samsung", bytes "samsung", bytes "TV Remote", bytes "RC", bytes "CEC"]

/-- `strstr` finds one of the texts in the name. -/
def nameTest (device : Device) : Bool := remoteTexts.any (· <:+: device.name.bytes)

/-- The device has a red key. -/
def keyRedTest (device : Device) : Bool := keyMask device.keyBits keyRed ≠ 0#64

/-- The loop over the directory: the descriptor it stops with, if any. -/
def searchRemote : List Entry → Process → Option ℕ × Process
  | [], process => (none, process)
  | entry :: rest, process =>
    if ¬ isEventNode entry then searchRemote rest process
    else if ¬ entry.openable then searchRemote rest process
    else
      let fd := process.lowestFree
      let opened := process.openFile (.node entry.dName)
      if nameTest entry.device then (some fd, opened)
      else if keyRedTest entry.device then (some fd, opened)
      else searchRemote rest (opened.close fd)

/-- `find_samsung_remote`; without a listing `opendir` has failed. -/
def findSamsungRemote (listing : Option Listing) (process : Process) : ℤ × Process :=
  match listing with
  | none => (-1, process)
  | some listing =>
      let directory := process.lowestFree
      let (found, later) := searchRemote listing.entries (process.openFile .directory)
      (found.elim (-1) Int.ofNat, later.close directory)

/-! ## What the search finds -/

/-- An event node that can be opened and passes one of the tests. -/
def passes (entry : Entry) : Bool :=
  isEventNode entry && entry.openable && (nameTest entry.device || keyRedTest entry.device)

/-- The loop stops with the first node that passes, and has closed all the others. -/
theorem searchRemote_spec (entries : List Entry) (process : Process) :
    match entries.find? passes with
    | none => (searchRemote entries process).1 = none ∧
        (searchRemote entries process).2.table = process.table
    | some entry => (searchRemote entries process).1 = some process.lowestFree ∧
        (searchRemote entries process).2.table =
          (process.lowestFree, .node entry.dName) :: process.table := by
  induction entries generalizing process with
  | nil => exact ⟨rfl, rfl⟩
  | cons entry rest ih =>
      rw [List.find?_cons, searchRemote]
      cases hevent : isEventNode entry with
      | false => simpa [passes, hevent] using ih process
      | true =>
          cases hopen : entry.openable with
          | false => simpa [passes, hevent, hopen] using ih process
          | true =>
              cases hname : nameTest entry.device with
              | true => simp [passes, hevent, hopen, hname, Process.openFile]
              | false =>
                  cases hred : keyRedTest entry.device with
                  | true => simp [passes, hevent, hopen, hname, hred, Process.openFile]
                  | false =>
                      have hlater := ih ((process.openFile (.node entry.dName)).close
                        process.lowestFree)
                      rw [Process.lowestFree_congr (Process.close_openFile_table _ process),
                        Process.close_openFile_table] at hlater
                      simpa [passes, hevent, hopen, hname, hred] using hlater

/-- The search returns a descriptor of the first node that passes, if there is
one. -/
theorem findSamsungRemote_fileOf (listing : Listing) (process : Process) :
    (findSamsungRemote (some listing) process).2.fileOf
        (findSamsungRemote (some listing) process).1 =
      (listing.entries.find? passes).map fun entry => .node entry.dName := by
  have hspec := searchRemote_spec listing.entries (process.openFile .directory)
  have hfresh := (process.openFile .directory).lowestFree_fresh
  simp only [findSamsungRemote]
  cases hfind : listing.entries.find? passes with
  | none =>
      rw [hfind] at hspec
      simp [hspec.1, Process.fileOf]
  | some entry =>
      rw [hfind] at hspec
      have hne : (process.openFile .directory).lowestFree ≠ process.lowestFree := by
        intro heq
        apply hfresh
        rw [heq]
        simp [Process.descriptors, Process.openFile]
      simp [hspec.1, hspec.2, Process.fileOf, Process.close, hne]

/-! ## When it is right -/

/-- What the search should do in a directory with the mapper's own gamepad: not
return that, and find the first other node that passes. -/
structure RemoteLaw (listing : Listing) (own : Entry) (outcome : ℤ × Process) : Prop where
  notOwn : outcome.2.fileOf outcome.1 ≠ some (.node own.dName)
  finds : ∀ entry, (listing.entries.filter (·.dName ≠ own.dName)).find? passes = some entry →
    outcome.2.fileOf outcome.1 = some (.node entry.dName)

/-- The name of the virtual gamepad passes the test for a remote. -/
theorem nameTest_virtualGamepad : nameTest virtualGamepad = true := by decide

theorem passes_own {own : Entry} (hdevice : own.device = virtualGamepad)
    (hevent : isEventNode own = true) : passes own = own.openable := by
  simp [passes, hevent, hdevice, nameTest_virtualGamepad]

private theorem find?_filter_of_find? {α : Type} {p q : α → Bool} {items : List α} {item : α}
    (hfind : items.find? q = some item) (hitem : p item = true) :
    (items.filter p).find? q = some item := by
  induction items with
  | nil => simp at hfind
  | cons head rest ih =>
      rw [List.find?_cons] at hfind
      cases hhead : q head with
      | true =>
          simp only [hhead, Option.some.injEq] at hfind
          subst hfind
          simp [hitem, hhead]
      | false =>
          simp only [hhead] at hfind
          cases hkept : p head <;> simp [hkept, hhead, ih hfind]

section Law

variable {listing : Listing} {own : Entry}

private theorem eq_of_dName {entry : Entry} (hentry : entry ∈ listing.entries)
    (hown : own ∈ listing.entries) (hname : entry.dName = own.dName) : entry = own :=
  List.inj_on_of_nodup_map listing.distinct hentry hown hname

/-- The search is right unless its first node is its own. -/
theorem remoteLaw_iff_find (hown : own ∈ listing.entries) (process : Process) :
    RemoteLaw listing own (findSamsungRemote (some listing) process) ↔
      listing.entries.find? passes ≠ some own := by
  have hfile := findSamsungRemote_fileOf listing process
  constructor
  · intro hlaw hfind
    exact hlaw.notOwn (by rw [hfile, hfind]; rfl)
  · intro hfind
    constructor
    · rw [hfile]
      intro hsame
      obtain ⟨entry, hentry, hnode⟩ := Option.map_eq_some_iff.mp hsame
      have hname : entry.dName = own.dName := by simpa using hnode
      exact hfind (eq_of_dName (List.mem_of_find?_eq_some hentry) hown hname ▸ hentry)
    · intro other hother
      cases hentry : listing.entries.find? passes with
      | none =>
          have hmem := List.mem_of_mem_filter (List.mem_of_find?_eq_some hother)
          exact absurd (List.find?_some hother) (List.find?_eq_none.mp hentry other hmem)
      | some entry =>
          have hne : entry.dName ≠ own.dName := fun hname =>
            hfind (eq_of_dName (List.mem_of_find?_eq_some hentry) hown hname ▸ hentry)
          have hkept : (listing.entries.filter (·.dName ≠ own.dName)).find? passes = some entry :=
            find?_filter_of_find? hentry (by simpa using hne)
          obtain rfl : entry = other := Option.some.inj (hkept.symm.trans hother)
          rw [hfile, hentry]
          rfl

/-- The search is right exactly where the virtual gamepad cannot be opened, or
another node that passes comes before it. -/
theorem remoteLaw_iff (hown : own ∈ listing.entries) (hdevice : own.device = virtualGamepad)
    (hevent : isEventNode own = true) (process : Process) :
    RemoteLaw listing own (findSamsungRemote (some listing) process) ↔
      own.openable = false ∨ ∃ before after other,
        listing.entries = before ++ own :: after ∧ other ∈ before ∧ passes other = true := by
  rw [remoteLaw_iff_find hown]
  constructor
  · intro hfind
    by_contra hnot
    rw [not_or, Bool.not_eq_false] at hnot
    obtain ⟨hopen, hbefore⟩ := hnot
    obtain ⟨before, after, hsplit⟩ := List.append_of_mem hown
    apply hfind
    have hnone : before.find? passes = none := by
      rw [List.find?_eq_none]
      exact fun other hother hpasses => hbefore ⟨before, after, other, hsplit, hother, hpasses⟩
    rw [hsplit, List.find?_append, hnone, List.find?_cons, passes_own hdevice hevent, hopen]
    rfl
  · rintro (hclosed | ⟨before, after, other, hsplit, hother, hpasses⟩) hfind
    · have howns := List.find?_some hfind
      simp [passes_own hdevice hevent, hclosed] at howns
    · obtain ⟨first, hfirst⟩ : ∃ first, before.find? passes = some first :=
        Option.isSome_iff_exists.mp (List.find?_isSome.mpr ⟨other, hother, hpasses⟩)
      rw [hsplit, List.find?_append, hfirst, Option.some_or, Option.some.injEq] at hfind
      have hmem : own ∈ before := hfind ▸ List.mem_of_find?_eq_some hfirst
      have hdistinct := listing.distinct
      rw [hsplit, List.map_append, List.nodup_append] at hdistinct
      exact hdistinct.2.2 own.dName (List.mem_map_of_mem hmem) own.dName (by simp) rfl

end Law

/-! ## Two listings -/

/-- A device with a red key and a name that says nothing. -/
def plainRemote : Device where
  name := ⟨bytes "IR receiver", by decide⟩
  nameFits := by decide
  keyBits := BitVec.ofNat keyCount 1 <<< keyRed

def gamepadNode : Entry := ⟨bytes "event3", virtualGamepad, true⟩

def remoteNode : Entry := ⟨bytes "event2", plainRemote, true⟩

def gamepadFirst : Listing := ⟨[gamepadNode, remoteNode], by decide⟩

def remoteFirst : Listing := ⟨[remoteNode, gamepadNode], by decide⟩

/-- A process that has only its standard streams and the gamepad open. -/
def startedMapper : Process := ⟨[(0, .other), (1, .other), (2, .other), (3, .other)], []⟩

/-- With its own gamepad first the mapper takes that for the remote. -/
theorem not_remoteLaw_gamepadFirst :
    ¬ RemoteLaw gamepadFirst gamepadNode
      (findSamsungRemote (some gamepadFirst) startedMapper) := by
  have hpasses : passes gamepadNode = true := passes_own rfl (by decide)
  intro hlaw
  apply (remoteLaw_iff_find (by simp [gamepadFirst]) startedMapper).mp hlaw
  simp [gamepadFirst, hpasses]

theorem remoteLaw_remoteFirst :
    RemoteLaw remoteFirst gamepadNode
      (findSamsungRemote (some remoteFirst) startedMapper) := by
  have hred : keyRedTest plainRemote = true :=
    decide_eq_true ((keyMask_ne_zero_iff _ _).mpr (by simp [plainRemote, keyRed, keyCount]))
  have hevent : isEventNode remoteNode = true := by decide
  have hpasses : passes remoteNode = true := by
    rw [passes, hevent, show remoteNode.device = plainRemote from rfl, hred, Bool.or_true]
    rfl
  exact (remoteLaw_iff (by simp [remoteFirst]) rfl (by decide) startedMapper).mpr
    (Or.inr ⟨[remoteNode], [], remoteNode, rfl, by simp, hpasses⟩)

end TizenRoblox.InputMapper
