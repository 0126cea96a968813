/-
# Input devices and file descriptors

What the mapper can learn about a node of `/dev/input`: its name, whether it can
be opened, and what the two ioctls leave in their zeroed buffers, a name and a
bitmap of key codes. The bitmap is read in words of 64 bits, as on the target.

A process opens the lowest free descriptor. What it opens and closes is kept as
a list of calls beside the table of open files.
-/

import Mathlib.Data.List.Basic
import Mathlib.Data.List.Perm.Subperm
import Mathlib.Data.List.Range
import TizenRoblox.Foundation.Bytes

namespace TizenRoblox.InputMapper

open TizenRoblox.Foundation

/-! ## Devices -/

/-- `KEY_MAX + 1` -/
def keyCount : ℕ := 768

/-- What a device reports about itself. -/
structure Device where
  /-- `EVIOCGNAME`; empty where the ioctl fails. -/
  name : CString
  /-- The kernel's names fit the buffer of 256 bytes. -/
  nameFits : name.bytes.length < 256
  /-- `EVIOCGBIT(EV_KEY)`; empty where the ioctl fails. -/
  keyBits : BitVec keyCount

/-- An entry of `/dev/input`, as `readdir` and `open` see it. -/
structure Entry where
  dName : Bytes
  device : Device
  openable : Bool

/-- What `readdir` returns of a directory, in its order: no name occurs twice. -/
structure Listing where
  entries : List Entry
  distinct : (entries.map Entry.dName).Nodup

/-- `strncmp(ent->d_name, "event", 5) == 0` -/
def isEventNode (entry : Entry) : Bool := bytes "event" <+: entry.dName

/-- A word of `key_bits`. -/
def keyWord (bits : BitVec keyCount) (index : ℕ) : BitVec 64 := bits.extractLsb' (64 * index) 64

/-- `key_bits[code / 64] & (1UL << (code % 64))` -/
def keyMask (bits : BitVec keyCount) (code : ℕ) : BitVec 64 :=
  keyWord bits (code / 64) &&& (1#64 <<< (code % 64))

/-- The mask is not zero exactly where the bitmap has the key. -/
theorem keyMask_ne_zero_iff (bits : BitVec keyCount) (code : ℕ) :
    keyMask bits code ≠ 0#64 ↔ bits.getLsbD code = true := by
  have hmod : code % 64 < 64 := Nat.mod_lt _ (by decide)
  have hcode : 64 * (code / 64) + code % 64 = code := Nat.div_add_mod code 64
  constructor
  · intro hne
    by_contra hbit
    apply hne
    apply BitVec.eq_of_getLsbD_eq
    intro index hindex
    by_cases hsame : index = code % 64
    · subst hsame
      simp [keyMask, keyWord, hcode, hbit]
    · simp [keyMask, keyWord, BitVec.getLsbD_one]
      omega
  · intro hbit hzero
    have hget : (keyMask bits code).getLsbD (code % 64) = false := by
      rw [hzero]
      simp
    simp [keyMask, keyWord, hcode, hbit, hmod] at hget

/-! ## File descriptors -/

/-- What a descriptor refers to. -/
inductive File
  /-- The directory stream of `/dev/input`. -/
  | directory
  /-- A node of `/dev/input`, by its name there. -/
  | node (dName : Bytes)
  | other
  deriving DecidableEq

/-- A call that changes the open files. -/
inductive Call
  | opened (fd : ℕ) (file : File)
  | closed (fd : ℕ)
  deriving DecidableEq

/-- The descriptor that a call is about. -/
def Call.fd : Call → ℕ
  | .opened fd _ | .closed fd => fd

/-- The open files of a process and the calls that led to them. -/
structure Process where
  table : List (ℕ × File)
  calls : List Call

namespace Process

/-- The descriptors in use. -/
def descriptors (process : Process) : List ℕ := process.table.map Prod.fst

/-- The lowest descriptor that is not in use. -/
def lowestFree (process : Process) : ℕ :=
  ((List.range (process.table.length + 1)).find? (· ∉ process.descriptors)).getD 0

/-- `open`, `opendir` -/
def openFile (file : File) (process : Process) : Process :=
  ⟨(process.lowestFree, file) :: process.table,
    process.calls ++ [.opened process.lowestFree file]⟩

/-- `close`, `closedir` -/
def close (fd : ℕ) (process : Process) : Process :=
  ⟨process.table.filter fun entry => entry.1 ≠ fd, process.calls ++ [.closed fd]⟩

/-- The calls that lead from one state of a process to a later one. -/
def callsBetween (before after : Process) : List Call := after.calls.drop before.calls.length

/-- The file a return value refers to; a negative one refers to none. -/
def fileOf (process : Process) (result : ℤ) : Option File :=
  if result < 0 then none else process.table.lookup result.toNat

/-- There is always a descriptor left among the first `length + 1`. -/
theorem lowestFree_fresh (process : Process) :
    process.lowestFree ∉ process.descriptors := by
  unfold lowestFree
  cases hfind : (List.range (process.table.length + 1)).find? (· ∉ process.descriptors) with
  | some fd => simpa using List.find?_some hfind
  | none =>
      have hall : List.range (process.table.length + 1) ⊆ process.descriptors := by
        intro fd hfd
        simpa using List.find?_eq_none.mp hfind fd hfd
      have hlength := (List.subperm_of_subset List.nodup_range hall).length_le
      simp only [descriptors, List.length_range, List.length_map] at hlength
      omega

theorem lowestFree_congr {process other : Process} (htable : process.table = other.table) :
    process.lowestFree = other.lowestFree := by
  unfold lowestFree descriptors
  rw [htable]

/-- Closing what was just opened leaves the table as it was. -/
@[simp]
theorem close_openFile_table (file : File) (process : Process) :
    ((process.openFile file).close process.lowestFree).table = process.table := by
  have hfresh := process.lowestFree_fresh
  simp only [close, openFile, List.filter_cons, ne_eq, not_true_eq_false, decide_false,
    Bool.false_eq_true, if_false, List.filter_eq_self]
  intro entry hentry
  have hne : entry.1 ≠ process.lowestFree :=
    fun heq => hfresh (heq ▸ List.mem_map_of_mem hentry)
  simpa using hne

end Process

end TizenRoblox.InputMapper
