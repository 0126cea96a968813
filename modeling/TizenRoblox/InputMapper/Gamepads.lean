/-
# Finding gamepads

The mapper looks for gamepads among the event nodes of `/dev/input`: those whose bitmap
of keys has `BTN_SOUTH`. It opens one node after the other, keeps the descriptors of the
gamepads in an array of limited size, and closes the others.

The test for the key is a mask of 64 bits. The mapper keeps it in an `int`, and so only
the low half of it, in which the bit of `BTN_SOUTH` is not. Whatever a test takes for
gamepads (`taken`) the search finds as it should (`findGamepadsBy_found`), but this test takes
nothing for one (`hasSouth_eq_false`): the search is right exactly where there is nothing to
be found (`gamepadLaw_iff`).
-/

import TizenRoblox.InputMapper.Devices

namespace TizenRoblox.InputMapper

open TizenRoblox.Foundation

/-! ## The search -/

/-- The place of `BTN_SOUTH` in the bitmap. -/
def southBit : ℕ := 0x130

/-- `int has_btn_south = key_bits[…] & (1UL << …);` -/
def hasBtnSouth (device : Device) : BitVec 32 := (keyMask device.keyBits southBit).setWidth 32

/-- `if (has_btn_south)` -/
def hasSouth (device : Device) : Bool := hasBtnSouth device ≠ 0#32

/-- What a search returns: the descriptors in `fds`, as many as its result says. -/
structure Gamepads where
  fds : List ℕ
  /-- The writes `fds[count++] = fd`, each with its index. -/
  writes : List (ℕ × ℕ)
  process : Process

/-- The result of a search. -/
def Gamepads.count (found : Gamepads) : ℤ := found.fds.length

/-- `fds[count++] = fd;` -/
def Gamepads.keep (fd : ℕ) (opened : Process) (found : Gamepads) : Gamepads :=
  ⟨found.fds ++ [fd], found.writes ++ [(found.fds.length, fd)], opened⟩

/-- The loop over the directory, after what it has found already, with some test for the
key. -/
def searchGamepads (south : Device → Bool) (maxFds : ℤ) : List Entry → Gamepads → Gamepads
  | [], found => found
  | entry :: rest, found =>
    if ¬ (found.fds.length : ℤ) < maxFds then found
    else if ¬ isEventNode entry then searchGamepads south maxFds rest found
    else if ¬ entry.openable then searchGamepads south maxFds rest found
    else
      let fd := found.process.lowestFree
      let opened := found.process.openFile (.node entry.dName)
      if south entry.device then searchGamepads south maxFds rest (found.keep fd opened)
      else searchGamepads south maxFds rest { found with process := opened.close fd }

/-- `find_gamepads` with some test for the key; without a listing `opendir` has failed. -/
def findGamepadsBy (south : Device → Bool) (listing : Option Listing) (maxFds : ℤ)
    (process : Process) : Gamepads :=
  match listing with
  | none => ⟨[], [], process⟩
  | some listing =>
      let directory := process.lowestFree
      let found :=
        searchGamepads south maxFds listing.entries ⟨[], [], process.openFile .directory⟩
      { found with process := found.process.close directory }

/-- `find_gamepads` -/
def findGamepads (listing : Option Listing) (maxFds : ℤ) (process : Process) : Gamepads :=
  findGamepadsBy hasSouth listing maxFds process

/-! ## What the search finds -/

/-- The nodes that a search takes for gamepads. -/
def taken (south : Device → Bool) (entry : Entry) : Bool :=
  isEventNode entry && entry.openable && south entry.device

/-- What is open after some nodes have been opened, the last one first. -/
structure Opened (nodes : List Entry) (fds : List ℕ) (before after : Process) : Prop where
  length : fds.length = nodes.length
  table : after.table =
    (fds.zip (nodes.map fun entry => File.node entry.dName)).reverse ++ before.table
  fresh : ∀ fd ∈ fds, fd ∉ before.descriptors
  distinct : fds.Nodup

namespace Opened

variable {nodes : List Entry} {fds : List ℕ} {before middle after : Process}

theorem none (process : Process) : Opened [] [] process process :=
  ⟨rfl, rfl, nofun, List.nodup_nil⟩

theorem congr {other : Process} (hopened : Opened nodes fds before after)
    (htable : before.table = other.table) : Opened nodes fds other after where
  length := hopened.length
  table := htable ▸ hopened.table
  fresh fd hfd := by
    have hfresh := hopened.fresh fd hfd
    rwa [Process.descriptors, htable] at hfresh
  distinct := hopened.distinct

/-- One node more, opened before the others. -/
theorem cons {entry : Entry}
    (hrest : Opened nodes fds (before.openFile (.node entry.dName)) after) :
    Opened (entry :: nodes) (before.lowestFree :: fds) before after where
  length := congrArg Nat.succ hrest.length
  table := by
    rw [hrest.table]
    simp [Process.openFile]
  fresh fd hfd := by
    rcases List.mem_cons.mp hfd with rfl | hfd
    · exact before.lowestFree_fresh
    · exact fun hmem => hrest.fresh fd hfd (List.mem_cons_of_mem _ hmem)
  distinct := by
    refine List.nodup_cons.mpr ⟨fun hmem => ?_, hrest.distinct⟩
    exact hrest.fresh _ hmem List.mem_cons_self

/-- A file that was open from before is closed. -/
theorem close {file : File} (hopened : Opened nodes fds (before.openFile file) after) :
    Opened nodes fds before (after.close before.lowestFree) where
  length := hopened.length
  table := by
    have hold := Process.close_openFile_table file before
    simp only [Process.close] at hold
    have hnew : ∀ entry ∈ (fds.zip (nodes.map fun entry => File.node entry.dName)).reverse,
        entry.1 ≠ before.lowestFree := by
      intro entry hentry heq
      have hfd : entry.1 ∈ fds := (List.of_mem_zip (List.mem_reverse.mp hentry)).1
      exact hopened.fresh _ hfd (heq ▸ List.mem_cons_self)
    simp only [Process.close]
    rw [hopened.table, List.filter_append, hold, List.filter_eq_self.mpr (by simpa using hnew)]
  fresh fd hfd hmem := hopened.fresh fd hfd (List.mem_cons_of_mem _ hmem)
  distinct := hopened.distinct

end Opened

/-- The loop keeps the first nodes that it takes for gamepads, as many as there is room
for, and has closed all the others. -/
theorem searchGamepads_spec (south : Device → Bool) (maxFds : ℤ) (entries : List Entry)
    (found : Gamepads) :
    ∃ more, (searchGamepads south maxFds entries found).fds = found.fds ++ more ∧
      Opened ((entries.filter (taken south)).take (maxFds - found.fds.length).toNat) more
        found.process (searchGamepads south maxFds entries found).process := by
  induction entries generalizing found with
  | nil => exact ⟨[], by simp [searchGamepads], by simpa [searchGamepads] using .none _⟩
  | cons entry rest ih =>
      rw [searchGamepads]
      by_cases hroom : (found.fds.length : ℤ) < maxFds
      · rw [if_neg (not_not.mpr hroom), List.filter_cons]
        cases hevent : isEventNode entry with
        | false => simpa [taken, hevent] using ih found
        | true =>
            cases hopen : entry.openable with
            | false => simpa [taken, hevent, hopen] using ih found
            | true =>
                cases hsouth : south entry.device with
                | false =>
                    obtain ⟨more, hfds, hopened⟩ := ih
                      { found with
                        process := (found.process.openFile (.node entry.dName)).close
                          found.process.lowestFree }
                    refine ⟨more, by simpa [hsouth] using hfds, ?_⟩
                    simpa [taken, hevent, hopen, hsouth] using
                      hopened.congr (Process.close_openFile_table _ found.process)
                | true =>
                    obtain ⟨more, hfds, hopened⟩ := ih
                      (found.keep found.process.lowestFree
                        (found.process.openFile (.node entry.dName)))
                    have hleft : (maxFds - found.fds.length).toNat =
                        (maxFds - (found.fds ++ [found.process.lowestFree]).length).toNat + 1 := by
                      rw [List.length_append, List.length_singleton]
                      omega
                    have htaken : taken south entry = true := by
                      simp [taken, hevent, hopen, hsouth]
                    refine ⟨found.process.lowestFree :: more, ?_, ?_⟩
                    · simpa [hsouth, Gamepads.keep] using hfds
                    · rw [if_pos htaken, hleft, List.take_succ_cons]
                      simpa [hsouth, Gamepads.keep] using hopened.cons
      · have hnone : (maxFds - found.fds.length).toNat = 0 := by omega
        rw [if_pos hroom, hnone, List.take_zero]
        exact ⟨[], (List.append_nil _).symm, .none _⟩

/-- What is returned of the search, and what it leaves open. -/
theorem findGamepadsBy_found (south : Device → Bool) (listing : Option Listing) (maxFds : ℤ)
    (process : Process) :
    Opened (((listing.elim [] Listing.entries).filter (taken south)).take maxFds.toNat)
      (findGamepadsBy south listing maxFds process).fds process
      (findGamepadsBy south listing maxFds process).process := by
  cases listing with
  | none => simpa [findGamepadsBy] using Opened.none process
  | some listing =>
      obtain ⟨more, hfds, hopened⟩ :=
        searchGamepads_spec south maxFds listing.entries ⟨[], [], process.openFile .directory⟩
      rw [List.nil_append] at hfds
      simpa [findGamepadsBy, hfds] using hopened.close

/-! ## When it is right -/

/-- An event node that can be opened and has the key. -/
def isGamepad (entry : Entry) : Bool :=
  isEventNode entry && entry.openable && entry.device.keyBits.getLsbD southBit

/-- The gamepads that a search should return. -/
def gamepadsOf (listing : Option Listing) (maxFds : ℤ) : List Entry :=
  ((listing.elim [] Listing.entries).filter isGamepad).take maxFds.toNat

/-- What a search should do: return a descriptor of each of the first gamepads, in their
order, and leave nothing else open that was not open before. -/
structure GamepadLaw (listing : Option Listing) (maxFds : ℤ) (process : Process)
    (found : Gamepads) : Prop where
  count : found.count = (gamepadsOf listing maxFds).length
  files : (found.fds.map fun fd => found.process.fileOf fd) =
    (gamepadsOf listing maxFds).map fun entry => some (File.node entry.dName)
  closed : ∀ entry ∈ found.process.table, entry ∈ process.table ∨ entry.1 ∈ found.fds
  kept : ∀ entry ∈ process.table, entry ∈ found.process.table

/-- The bit of the key is cut off with the high half of the mask. -/
theorem hasBtnSouth_eq_zero (device : Device) : hasBtnSouth device = 0#32 := by
  apply BitVec.eq_of_getLsbD_eq
  intro index hindex
  have hlow : index < southBit % 64 := Nat.lt_trans hindex (by decide)
  simp [hasBtnSouth, keyMask, BitVec.getLsbD_shiftLeft, hlow]

/-- The search takes nothing for a gamepad. -/
theorem hasSouth_eq_false (device : Device) : hasSouth device = false := by
  simp [hasSouth, hasBtnSouth_eq_zero]

theorem findGamepads_none (listing : Option Listing) (maxFds : ℤ) (process : Process) :
    (findGamepads listing maxFds process).fds = [] ∧
      (findGamepads listing maxFds process).process.table = process.table := by
  unfold findGamepads
  have hfound := findGamepadsBy_found hasSouth listing maxFds process
  have hnothing : (listing.elim [] Listing.entries).filter (taken hasSouth) = [] :=
    List.filter_eq_nil_iff.mpr fun entry _ => by simp [taken, hasSouth_eq_false]
  rw [hnothing, List.take_nil] at hfound
  have hfds := List.eq_nil_of_length_eq_zero hfound.length
  exact ⟨hfds, by simpa [hfds] using hfound.table⟩

/-- The search is right exactly where it has no room or there is no gamepad. -/
theorem gamepadLaw_iff (listing : Option Listing) (maxFds : ℤ) (process : Process) :
    GamepadLaw listing maxFds process (findGamepads listing maxFds process) ↔
      maxFds ≤ 0 ∨ ∀ entry ∈ listing.elim [] Listing.entries, isGamepad entry = false := by
  obtain ⟨hfds, htable⟩ := findGamepads_none listing maxFds process
  have hright : GamepadLaw listing maxFds process (findGamepads listing maxFds process) ↔
      gamepadsOf listing maxFds = [] := by
    constructor
    · intro hlaw
      have hcount := hlaw.count
      rw [Gamepads.count, hfds] at hcount
      exact List.eq_nil_of_length_eq_zero (by simpa using hcount.symm)
    · intro hnone
      exact ⟨by simp [Gamepads.count, hfds, hnone], by simp [hfds, hnone],
        fun entry hentry => .inl (htable ▸ hentry), fun entry hentry => htable ▸ hentry⟩
  rw [hright, gamepadsOf, List.take_eq_nil_iff, List.filter_eq_nil_iff]
  simp [Int.toNat_eq_zero]

/-! ## A gamepad -/

/-- A gamepad with one button. -/
def oneButton : Device where
  name := ⟨bytes "Wireless Controller", by decide⟩
  nameFits := by decide
  keyBits := BitVec.ofNat keyCount 1 <<< southBit

def padNode : Entry := ⟨bytes "event4", oneButton, true⟩

def padListing : Listing := ⟨[padNode], by decide⟩

/-- A process that has only its standard streams open. -/
def standardStreams : Process := ⟨[(0, .other), (1, .other), (2, .other)], []⟩

/-- The gamepad is not found. -/
theorem not_gamepadLaw_padListing :
    ¬ GamepadLaw (some padListing) 8 standardStreams
      (findGamepads (some padListing) 8 standardStreams) := by
  have hpad : isGamepad padNode = true := by
    simp [isGamepad, isEventNode, padNode, oneButton, southBit, keyCount]
    decide
  intro hlaw
  have hcount := hlaw.count
  rw [Gamepads.count, (findGamepads_none _ _ _).1] at hcount
  simp [gamepadsOf, padListing, hpad] at hcount

end TizenRoblox.InputMapper
