/-
# Numbers in the shell

The shell takes a word for a number if it is one in decimal notation, with blanks and a sign
perhaps, and if it fits 64 bits. A comparison of two words that are not both numbers fails.
-/

import Mathlib.Algebra.Ring.Int.Defs
import Mathlib.Algebra.Ring.Nat
import TizenRoblox.Shell.Text

namespace TizenRoblox.Shell

open TizenRoblox.Foundation

/-- A digit from 0 to 9. -/
def isDigit (byte : UInt8) : Bool := 48 ≤ byte && byte ≤ 57

/-- The value of some digits. -/
def ofDigits (digits : Bytes) : ℕ :=
  digits.foldl (fun value digit => 10 * value + (digit.toNat - 48)) 0

/-- The bytes that `strtoimax` skips. -/
def isSpace (byte : UInt8) : Bool := byte = blank || (9 ≤ byte && byte ≤ 13)

/-- Whether a sign makes the number negative, and what is after it. -/
def signed : Bytes → Bool × Bytes
  | 45 :: rest => (true, rest)
  | 43 :: rest => (false, rest)
  | rest => (false, rest)

/-- The number that a word stands for, if it is one of 64 bits. -/
def legalNumber (word : Bytes) : Option ℤ :=
  let (negative, unsigned) := signed (word.dropWhile isSpace)
  let digits := unsigned.takeWhile isDigit
  if digits = [] ∨ ¬ (unsigned.dropWhile isDigit).all isBlank then none
  else
    let value : ℤ := if negative then -(ofDigits digits) else ofDigits digits
    if -2 ^ 63 ≤ value ∧ value < 2 ^ 63 then some value else none

/-- `[ first -gt second ]` and the like. -/
def compareNumbers (holds : ℤ → ℤ → Bool) (first second : Bytes) : Bool :=
  match legalNumber first, legalNumber second with
  | some one, some other => holds one other
  | _, _ => false

/-- No digit is skipped, or taken for a sign. -/
theorem of_isDigit {byte : UInt8} (hdigit : isDigit byte = true) :
    isSpace byte = false ∧ byte ≠ 45 ∧ byte ≠ 43 := by
  simp only [isDigit, Bool.and_eq_true, decide_eq_true_eq] at hdigit
  simp only [isSpace, blank, Bool.or_eq_false_iff, Bool.and_eq_false_iff, decide_eq_false_iff_not]
  grind

/-- A number as it is written, without a sign. -/
structure Number where
  digits : Bytes
  nonempty : digits ≠ []
  allDigits : digits.all isDigit = true

namespace Number

variable (number : Number)

def value : ℕ := ofDigits number.digits

theorem isDigit_of_mem {byte : UInt8} (hbyte : byte ∈ number.digits) : isDigit byte = true :=
  List.all_eq_true.mp number.allDigits byte hbyte

/-- A byte that is no digit is not in a number. -/
theorem notMem_digits {byte : UInt8} (hbyte : isDigit byte = false) : byte ∉ number.digits := by
  intro hmem
  rw [number.isDigit_of_mem hmem] at hbyte
  cases hbyte

/-- A number is what it says if it fits 63 bits. -/
theorem legalNumber_digits :
    legalNumber number.digits =
      if number.value < 2 ^ 63 then some (number.value : ℤ) else none := by
  obtain ⟨first, rest, hdigits⟩ := List.exists_cons_of_ne_nil number.nonempty
  have hfirst : isDigit first = true := number.isDigit_of_mem (by simp [hdigits])
  obtain ⟨hspace, hminus, hplus⟩ := of_isDigit hfirst
  have hunsigned : number.digits.dropWhile isSpace = number.digits := by
    rw [hdigits, List.dropWhile_cons_of_neg (by simp [hspace])]
  have htake : number.digits.takeWhile isDigit = number.digits :=
    List.takeWhile_eq_self_iff.mpr fun _ => number.isDigit_of_mem
  have hdrop : number.digits.dropWhile isDigit = [] :=
    List.dropWhile_eq_nil_iff.mpr fun _ => number.isDigit_of_mem
  have hsigned : signed number.digits = (false, number.digits) := by
    rw [hdigits]
    unfold signed
    split
    · next hsame => exact absurd (List.cons.inj hsame).1 hminus
    · next hsame => exact absurd (List.cons.inj hsame).1 hplus
    · rfl
  have hlow : (-2 ^ 63 : ℤ) ≤ (ofDigits number.digits : ℤ) := by omega
  unfold legalNumber value
  simp only [hunsigned, hsigned, htake, hdrop, number.nonempty, List.all_nil, not_true_eq_false,
    or_self, if_false, Bool.false_eq_true, hlow, true_and]
  norm_cast

theorem legalNumber_of_lt (hfits : number.value < 2 ^ 63) :
    legalNumber number.digits = some (number.value : ℤ) := by
  rw [legalNumber_digits, if_pos hfits]

theorem legalNumber_of_not_lt (hlarge : ¬ number.value < 2 ^ 63) :
    legalNumber number.digits = none := by
  rw [legalNumber_digits, if_neg hlarge]

end Number

example : legalNumber (bytes " -034 ") = some (-34) ∧ legalNumber (bytes "2x") = none := by decide

end TizenRoblox.Shell
