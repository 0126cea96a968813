/-
# From remote keys to gamepad events

`input_mapper` turns the key events of a Samsung remote into events of a virtual
gamepad by one table: a key of the remote stands for a button, or for a direction
of a hat axis at one of its two ends. What it writes is a list of input events,
each with its synchronisation event; the codes are those of the kernel's headers.
-/

import Mathlib.Data.Int.Notation
import Mathlib.Data.List.Basic

namespace TizenRoblox.InputMapper

/-! ## Codes -/

def evSyn : ℤ := 0
def evKey : ℤ := 1
def evAbs : ℤ := 3

def synReport : ℤ := 0

def absHat0X : ℤ := 0x10
def absHat0Y : ℤ := 0x11

def btnSouth : ℤ := 0x130
def btnEast : ℤ := 0x131
def btnNorth : ℤ := 0x133
def btnWest : ℤ := 0x134
def btnTl : ℤ := 0x136
def btnTr : ℤ := 0x137
def btnSelect : ℤ := 0x13a
def btnStart : ℤ := 0x13b

/-- `KEY_ENTER` -/
def samsungKeyOk : ℤ := 28
/-- `KEY_BACK` -/
def samsungKeyBack : ℤ := 158
/-- `KEY_HOMEPAGE` -/
def samsungKeyHome : ℤ := 172
/-- `KEY_UP` -/
def samsungKeyUp : ℤ := 103
/-- `KEY_DOWN` -/
def samsungKeyDown : ℤ := 108
/-- `KEY_LEFT` -/
def samsungKeyLeft : ℤ := 105
/-- `KEY_RIGHT` -/
def samsungKeyRight : ℤ := 106
/-- `KEY_RED` -/
def samsungKeyRed : ℤ := 0x18e
/-- `KEY_GREEN` -/
def samsungKeyGreen : ℤ := 0x18f
/-- `KEY_YELLOW` -/
def samsungKeyYellow : ℤ := 0x190
/-- `KEY_BLUE` -/
def samsungKeyBlue : ℤ := 0x191
/-- `KEY_PLAY` -/
def samsungKeyPlay : ℤ := 207
/-- `KEY_PAUSE` -/
def samsungKeyPause : ℤ := 119

/-! ## The table -/

structure KeyMap where
  srcKey : ℤ
  dstType : ℤ
  dstCode : ℤ
  dstValue : ℤ
  deriving DecidableEq

def keyMapping : List KeyMap := [
  ⟨samsungKeyUp, evAbs, absHat0Y, -32767⟩,
  ⟨samsungKeyDown, evAbs, absHat0Y, 32767⟩,
  ⟨samsungKeyLeft, evAbs, absHat0X, -32767⟩,
  ⟨samsungKeyRight, evAbs, absHat0X, 32767⟩,
  ⟨samsungKeyOk, evKey, btnSouth, 1⟩,
  ⟨samsungKeyBack, evKey, btnEast, 1⟩,
  ⟨samsungKeyRed, evKey, btnWest, 1⟩,
  ⟨samsungKeyGreen, evKey, btnNorth, 1⟩,
  ⟨samsungKeyYellow, evKey, btnTl, 1⟩,
  ⟨samsungKeyBlue, evKey, btnTr, 1⟩,
  ⟨samsungKeyPlay, evKey, btnStart, 1⟩,
  ⟨samsungKeyPause, evKey, btnStart, 1⟩,
  ⟨samsungKeyHome, evKey, btnSelect, 1⟩]

/-! ## The translation -/

/-- An input event without its time stamp. -/
structure InputEvent where
  type : ℤ
  code : ℤ
  value : ℤ
  deriving DecidableEq

def syncEvent : InputEvent := ⟨evSyn, synReport, 0⟩

/-- The loop over the table: the first entry for the key decides. -/
def handleFrom (keyCode keyValue : ℤ) : List KeyMap → List InputEvent
  | [] => []
  | entry :: rest =>
    if entry.srcKey ≠ keyCode then handleFrom keyCode keyValue rest
    else if entry.dstType = evKey then
      [⟨evKey, entry.dstCode, if keyValue > 0 then 1 else 0⟩, syncEvent]
    else if entry.dstType = evAbs then
      [⟨evAbs, entry.dstCode, if keyValue > 0 then entry.dstValue else 0⟩, syncEvent]
    else []

/-- What the mapper writes for a key event of the remote. -/
def handleRemoteKey (keyCode keyValue : ℤ) : List InputEvent :=
  handleFrom keyCode keyValue keyMapping

/-! ## What an entry does -/

/-- An output of the gamepad: a button or an axis. -/
structure Output where
  type : ℤ
  code : ℤ
  deriving DecidableEq

namespace KeyMap

/-- The output an entry drives. -/
def output (entry : KeyMap) : Output := ⟨entry.dstType, entry.dstCode⟩

/-- The value of the output while the key of the entry is down. -/
def pressedValue (entry : KeyMap) : ℤ := if entry.dstType = evKey then 1 else entry.dstValue

end KeyMap

private theorem handleFrom_of_forall_ne {keyCode keyValue : ℤ} {entries : List KeyMap}
    (hne : ∀ entry ∈ entries, entry.srcKey ≠ keyCode) :
    handleFrom keyCode keyValue entries = [] := by
  induction entries with
  | nil => rfl
  | cons entry rest ih =>
      rw [handleFrom, if_pos (hne entry (by simp))]
      exact ih fun later hlater => hne later (by simp [hlater])

private theorem handleFrom_of_mem {entries : List KeyMap} {entry : KeyMap} (keyValue : ℤ)
    (hkeys : entries.Pairwise fun one other => one.srcKey ≠ other.srcKey)
    (htypes : ∀ entry ∈ entries, entry.dstType = evKey ∨ entry.dstType = evAbs)
    (hentry : entry ∈ entries) :
    handleFrom entry.srcKey keyValue entries =
      [⟨entry.dstType, entry.dstCode, if keyValue > 0 then entry.pressedValue else 0⟩,
        syncEvent] := by
  induction entries with
  | nil => simp at hentry
  | cons first rest ih =>
      obtain ⟨hfirst, hrest⟩ := List.pairwise_cons.mp hkeys
      rcases List.mem_cons.mp hentry with rfl | hmem
      · rw [handleFrom, if_neg (not_not.mpr rfl)]
        rcases htypes entry (by simp) with htype | htype
        · simp [htype, KeyMap.pressedValue]
        · simp [htype, KeyMap.pressedValue, evKey, evAbs]
      · rw [handleFrom, if_pos (hfirst entry hmem)]
        exact ih hrest (fun later hlater => htypes later (by simp [hlater])) hmem

/-- No key has two entries. -/
theorem keyMapping_keys :
    keyMapping.Pairwise fun one other => one.srcKey ≠ other.srcKey := by decide

/-- A key determines its entry. -/
theorem keyMapping_injective : ∀ one ∈ keyMapping, ∀ other ∈ keyMapping,
    one.srcKey = other.srcKey → one = other := by decide

theorem keyMapping_types :
    ∀ entry ∈ keyMapping, entry.dstType = evKey ∨ entry.dstType = evAbs := by decide

/-- No entry drives the synchronisation event. -/
theorem output_type_ne {entry : KeyMap} (hentry : entry ∈ keyMapping) :
    evSyn ≠ entry.output.type := by
  rcases keyMapping_types entry hentry with htype | htype <;>
    simp [KeyMap.output, htype, evSyn, evKey, evAbs]

/-- The key of an entry drives the output of the entry. -/
theorem handleRemoteKey_of_mem {entry : KeyMap} (hentry : entry ∈ keyMapping) (keyValue : ℤ) :
    handleRemoteKey entry.srcKey keyValue =
      [⟨entry.dstType, entry.dstCode, if keyValue > 0 then entry.pressedValue else 0⟩,
        syncEvent] :=
  handleFrom_of_mem keyValue keyMapping_keys keyMapping_types hentry

/-- A key without an entry writes nothing. -/
theorem handleRemoteKey_of_unmapped {keyCode : ℤ} (keyValue : ℤ)
    (hunmapped : ∀ entry ∈ keyMapping, entry.srcKey ≠ keyCode) :
    handleRemoteKey keyCode keyValue = [] :=
  handleFrom_of_forall_ne hunmapped

end TizenRoblox.InputMapper
