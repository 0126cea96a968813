/-
# Byte strings

Shell words, file names, file contents and C strings are all sequences of bytes
here; no encoding is assumed of any of them. Literals are written as text and
turned into bytes once, and a C string is a byte sequence that carries the
evidence that no NUL occurs in it, so that no later definition has to ask.
-/

import Mathlib.Data.List.Infix
import Mathlib.Data.List.TakeWhile

namespace TizenRoblox.Foundation

/-- A sequence of bytes with no assumed encoding. -/
abbrev Bytes := List UInt8

instance (text : Bytes) (texts : List Bytes) : Decidable (text ∈ texts) :=
  decidable_of_iff (texts.contains text = true) List.contains_iff_mem

/-- The bytes of a literal. -/
def bytes (text : String) : Bytes := text.toByteArray.data.toList

/-- A number in decimal notation. -/
def decimal (number : ℤ) : Bytes := bytes (toString number)

/-- The bytes the definitions below single out. -/
def nul : UInt8 := 0
def newline : UInt8 := 10
def tab : UInt8 := 9
def blank : UInt8 := 32
def slash : UInt8 := 47

/-- A NUL-terminated C string, without its terminator. -/
@[ext]
structure CString where
  bytes : Bytes
  noNul : nul ∉ bytes
  deriving DecidableEq

namespace CString

/-- Reading a buffer as a C string stops at its first NUL. -/
def ofBuffer (buffer : Bytes) : CString where
  bytes := buffer.takeWhile (· ≠ nul)
  noNul := fun hmem => by simpa using List.mem_takeWhile_imp hmem

@[simp]
theorem ofBuffer_bytes (buffer : Bytes) :
    (ofBuffer buffer).bytes = buffer.takeWhile (· ≠ nul) := rfl

/-- A buffer without a NUL is read to its end. -/
theorem ofBuffer_bytes_of_noNul {buffer : Bytes} (hnul : nul ∉ buffer) :
    (ofBuffer buffer).bytes = buffer := by
  rw [ofBuffer_bytes, List.takeWhile_eq_self_iff]
  intro byte hbyte
  have hne : byte ≠ nul := fun heq => hnul (heq ▸ hbyte)
  simpa using hne

end CString

end TizenRoblox.Foundation
