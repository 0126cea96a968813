/-
# The virtual gamepad

`create_virtual_gamepad` opens `uinput`, asks the kernel for one ability of the gamepad
after the other and then for the gamepad itself. It looks at the answer to two of its
requests only: where the description of the device is refused it is written in the form
that older kernels know, and where the gamepad is refused the descriptor is closed again.
Every other request may be refused without a word.

What the mapper writes later it has announced here: the type of every event, the button with
its two values, and the axis with a range in which the value is (`announced_passOn`).
-/

import TizenRoblox.InputMapper.Discovery
import TizenRoblox.InputMapper.EventLoop

namespace TizenRoblox.InputMapper

open TizenRoblox.Foundation

/-! ## Requests -/

def absX : ℤ := 0
def absY : ℤ := 1
def absZ : ℤ := 2
def absRx : ℤ := 3
def absRy : ℤ := 4
def absRz : ℤ := 5

def btnTl2 : ℤ := 0x138
def btnTr2 : ℤ := 0x139
def btnThumbL : ℤ := 0x13d
def btnThumbR : ℤ := 0x13e

/-- `struct input_absinfo`, as far as it is set. -/
structure AbsInfo where
  minimum : ℤ
  maximum : ℤ
  flat : ℤ
  fuzz : ℤ
  deriving DecidableEq

/-- `struct uinput_setup` -/
structure Setup where
  bustype : ℕ
  vendor : ℕ
  product : ℕ
  version : ℕ
  name : CString
  ffEffectsMax : ℕ
  deriving DecidableEq

/-- What a process asks of `uinput`. -/
inductive Request
  | setEvBit (type : ℤ)
  | setKeyBit (code : ℤ)
  | absSetup (code : ℤ) (info : AbsInfo)
  | devSetup (setup : Setup)
  | devCreate
  | devDestroy
  deriving DecidableEq

/-- What a process does with its descriptors. -/
inductive Deed
  | called (call : Call)
  | requested (fd : ℕ) (request : Request)
  /-- A `struct uinput_user_dev` is written that has a name and an identity, and zeros for its
  axes. -/
  | described (fd : ℕ) (setup : Setup)
  | wrote (fd : ℕ) (event : InputEvent)
  deriving DecidableEq

/-- The kernel's answers in one run. No request is made twice in a run. -/
structure Kernel where
  /-- A path can be opened for writing. -/
  opens : Bytes → Bool
  /-- A request is accepted. -/
  accepts : Request → Bool

/-! ## The function -/

/-- The stick axes, all four with one `absinfo`. -/
def stickInfo : AbsInfo := ⟨-32767, 32767, 128, 16⟩

def triggerInfo : AbsInfo := ⟨0, 255, 0, 0⟩

def hatInfo : AbsInfo := ⟨-32767, 32767, 0, 0⟩

def gamepadSetup : Setup where
  bustype := 0x06
  vendor := 0x04e8
  product := 0x1234
  version := 1
  name := virtualGamepadName
  ffEffectsMax := 0

/-- The requests before the description, whose answers are not looked at. -/
def abilities : List Request := [
  .setEvBit evKey,
  .setKeyBit btnSouth, .setKeyBit btnEast, .setKeyBit btnNorth, .setKeyBit btnWest,
  .setKeyBit btnTl, .setKeyBit btnTr, .setKeyBit btnTl2, .setKeyBit btnTr2,
  .setKeyBit btnStart, .setKeyBit btnSelect, .setKeyBit btnThumbL, .setKeyBit btnThumbR,
  .setEvBit evAbs,
  .absSetup absX stickInfo, .absSetup absY stickInfo,
  .absSetup absRx stickInfo, .absSetup absRy stickInfo,
  .absSetup absZ triggerInfo, .absSetup absRz triggerInfo,
  .absSetup absHat0X hatInfo, .absSetup absHat0Y hatInfo,
  .setEvBit evSyn]

/-- The outcome of `create_virtual_gamepad`. -/
structure Created where
  status : ℤ
  uinputFd : ℤ
  deeds : List Deed
  process : Process

/-- The description of the device, with what is written where that is refused. -/
def describe (kernel : Kernel) (fd : ℕ) : List Deed :=
  if kernel.accepts (.devSetup gamepadSetup) then [.requested fd (.devSetup gamepadSetup)]
  else [.requested fd (.devSetup gamepadSetup), .described fd gamepadSetup]

/-- From the descriptor to the request for the device. -/
def creation (kernel : Kernel) (fd : ℕ) : List Deed :=
  .called (.opened fd .other) :: abilities.map (.requested fd) ++ describe kernel fd ++
    [.requested fd .devCreate]

def createVirtualGamepad (kernel : Kernel) (process : Process) : Created :=
  if kernel.opens (bytes "/dev/uinput") ∨ kernel.opens (bytes "/dev/input/uinput") then
    let fd := process.lowestFree
    let opened := process.openFile .other
    if kernel.accepts .devCreate then ⟨0, fd, creation kernel fd, opened⟩
    else ⟨-1, -1, creation kernel fd ++ [.called (.closed fd)], opened.close fd⟩
  else ⟨-1, -1, [], process⟩

/-! ## What is announced -/

/-- The requests announce an event: its type, and for a button the button, which is pressed or
released, and for an axis the axis, with a range that the value is in. -/
inductive Announced (asked : List Request) : InputEvent → Prop
  | sync {code value : ℤ} (htype : .setEvBit evSyn ∈ asked) : Announced asked ⟨evSyn, code, value⟩
  | button {code value : ℤ} (htype : .setEvBit evKey ∈ asked) (hcode : .setKeyBit code ∈ asked)
      (hvalue : value = 0 ∨ value = 1) : Announced asked ⟨evKey, code, value⟩
  | axis {code value : ℤ} {info : AbsInfo} (htype : .setEvBit evAbs ∈ asked)
      (hcode : .absSetup code info ∈ asked) (hmin : info.minimum ≤ value)
      (hmax : value ≤ info.maximum) : Announced asked ⟨evAbs, code, value⟩

theorem Announced.mono {asked more : List Request} {event : InputEvent}
    (hannounced : Announced asked event) (hmore : asked ⊆ more) : Announced more event := by
  cases hannounced with
  | sync htype => exact .sync (hmore htype)
  | button htype hcode hvalue => exact .button (hmore htype) (hmore hcode) hvalue
  | axis htype hcode hmin hmax => exact .axis (hmore htype) (hmore hcode) hmin hmax

theorem button_of_key : ∀ entry ∈ keyMapping, entry.dstType = evKey →
    .setKeyBit entry.dstCode ∈ abilities := by decide

theorem hat_of_abs : ∀ entry ∈ keyMapping, entry.dstType = evAbs →
    .absSetup entry.dstCode hatInfo ∈ abilities ∧
      hatInfo.minimum ≤ entry.pressedValue ∧ entry.pressedValue ≤ hatInfo.maximum := by decide

/-- What the key of an entry sets is announced, pressed or not. -/
theorem announced_output {entry : KeyMap} (hentry : entry ∈ keyMapping) (keyValue : ℤ) :
    Announced abilities
      ⟨entry.dstType, entry.dstCode, if keyValue > 0 then entry.pressedValue else 0⟩ := by
  rcases keyMapping_types entry hentry with htype | htype
  · have hcode := button_of_key entry hentry htype
    rw [KeyMap.pressedValue, if_pos htype, htype]
    apply Announced.button (by decide) hcode
    split <;> simp
  · obtain ⟨hcode, hmin, hmax⟩ := hat_of_abs entry hentry htype
    rw [htype]
    apply Announced.axis (by decide) hcode
    · split
      · exact hmin
      · decide
    · split
      · exact hmax
      · decide

/-- What is passed on of a reading is what its key sets, if it has one that is mapped. -/
theorem passOn_cases (reading : Reading) :
    passOn reading = [] ∨ ∃ entry ∈ keyMapping, ∃ keyValue : ℤ, passOn reading =
      [⟨entry.dstType, entry.dstCode, if keyValue > 0 then entry.pressedValue else 0⟩,
        syncEvent] := by
  cases reading with
  | short => exact .inl rfl
  | event record =>
      by_cases hkey : record.type = evKey
      · rw [passOn, if_pos hkey]
        by_cases hmapped : ∃ entry ∈ keyMapping, entry.srcKey = record.code
        · obtain ⟨entry, hentry, hcode⟩ := hmapped
          rw [← hcode]
          exact .inr ⟨entry, hentry, record.value, handleRemoteKey_of_mem hentry record.value⟩
        · exact .inl (handleRemoteKey_of_unmapped record.value fun entry hentry hcode =>
            hmapped ⟨entry, hentry, hcode⟩)
      · exact .inl (if_neg hkey)

/-- All that is passed on is announced. -/
theorem announced_passOn {reading : Reading} {event : InputEvent}
    (hevent : event ∈ passOn reading) : Announced abilities event := by
  rcases passOn_cases reading with hnone | ⟨entry, hentry, keyValue, hpassed⟩
  · rw [hnone] at hevent
    cases hevent
  · rw [hpassed] at hevent
    rcases List.mem_pair.mp hevent with rfl | rfl
    · exact announced_output hentry keyValue
    · exact .sync (by decide)

/-! ## No feedback -/

/-- The outputs are none of the keys that are mapped. -/
theorem dstCode_unmapped : ∀ entry ∈ keyMapping, ∀ other ∈ keyMapping,
    entry.dstType = evKey → other.srcKey ≠ entry.dstCode := by decide

/-- What the mapper has written makes it write nothing when it reads it, which it does
where it takes its own gamepad for the remote. -/
theorem passOn_written {reading : Reading} {event : InputEvent} (hevent : event ∈ passOn reading) :
    passOn (.event event) = [] := by
  rcases passOn_cases reading with hnone | ⟨entry, hentry, keyValue, hpassed⟩
  · rw [hnone] at hevent
    cases hevent
  · rw [hpassed] at hevent
    rcases List.mem_pair.mp hevent with rfl | rfl
    · by_cases htype : entry.dstType = evKey
      · rw [passOn, if_pos htype]
        apply handleRemoteKey_of_unmapped
        exact fun other hother => dstCode_unmapped entry hentry other hother htype
      · exact if_neg htype
    · rfl

end TizenRoblox.InputMapper
