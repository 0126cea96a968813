/-
# Library names

The deployment derives the soname of a library from its file name with `sed`: what
stands before and at the last `.so.`, with the digits after it. A name that is its
own soname is a fixed point of that, and what the derivation gives is one
(`sonameOf_idem`), so a link from a soname to a longer name never meets another
such link.
-/

import TizenRoblox.Posix.Directories
import TizenRoblox.Shell.Numbers

namespace TizenRoblox.Deploy

open TizenRoblox.Foundation TizenRoblox.Posix TizenRoblox.Shell

/-- `.so.` -/
def marker : Bytes := bytes ".so."

/-- What `\\(.*\\.so\\.[0-9]*\\)` matches of a name, if it matches: the last `.so.` wins. -/
def sonameMatch : Bytes → Option Bytes
  | [] => none
  | byte :: rest =>
    match sonameMatch rest with
    | some found => some (byte :: found)
    | none =>
      if marker <+: byte :: rest then
        some (marker ++ ((byte :: rest).drop 4).takeWhile isDigit)
      else none

/-- `sed 's/\\(.*\\.so\\.[0-9]*\\).*/\\1/'` on a line. -/
def sonameOf (name : Bytes) : Bytes := (sonameMatch name).getD name

/-- `*.so*` -/
def libraryPattern : Bytes := bytes "*.so*"

/-- `*.so.*` -/
def versionPattern : Bytes := bytes "*.so.*"

example : sonameOf (bytes "libfoo.so.1.2") = bytes "libfoo.so.1" ∧
    sonameOf (bytes "libfoo.so") = bytes "libfoo.so" ∧
    sonameOf (bytes "a.so.5.so.x") = bytes "a.so.5.so." := by decide

private theorem marker_eq : marker = [46, 115, 111, 46] := by decide

private theorem sonameMatch_digits {digits : Bytes} (hdigits : ∀ byte ∈ digits, isDigit byte) :
    sonameMatch digits = none := by
  induction digits with
  | nil => rfl
  | cons byte rest ih =>
      have hbyte := hdigits byte (by simp)
      have hmarker : ¬ marker <+: byte :: rest := by
        rintro ⟨tail, htail⟩
        obtain rfl : byte = 46 := by simpa [marker_eq] using (congrArg List.head? htail).symm
        revert hbyte
        decide
      rw [sonameMatch, ih fun later hlater => hdigits later (by simp [hlater]), if_neg hmarker]

private theorem sonameMatch_marker {digits : Bytes} (hdigits : ∀ byte ∈ digits, isDigit byte) :
    sonameMatch (marker ++ digits) = some (marker ++ digits) := by
  have hlast : sonameMatch (46 :: digits) = none := by
    have hmarker : ¬ marker <+: 46 :: digits := by
      rintro ⟨tail, htail⟩
      cases digits with
      | nil => simpa [marker_eq] using congrArg List.length htail
      | cons digit rest =>
          have hsecond := congrArg (·[1]?) htail
          obtain rfl : digit = 115 := by simpa [marker_eq] using hsecond.symm
          have hdigit := hdigits 115 (by simp)
          revert hdigit
          decide
    rw [sonameMatch, sonameMatch_digits hdigits, if_neg hmarker]
  have hmiddle : sonameMatch (111 :: 46 :: digits) = none := by
    rw [sonameMatch, hlast]
    simp [marker_eq]
  have hfirst : sonameMatch (115 :: 111 :: 46 :: digits) = none := by
    rw [sonameMatch, hmiddle]
    simp [marker_eq]
  have hall : digits.takeWhile isDigit = digits := List.takeWhile_eq_self_iff.mpr hdigits
  rw [marker_eq]
  simp only [List.cons_append, List.nil_append]
  rw [sonameMatch, hfirst]
  simp [marker_eq, hall]

/-- What is matched is matched again, to its end. -/
private theorem sonameMatch_of_match {name found : Bytes} (hfound : sonameMatch name = some found) :
    sonameMatch found = some found := by
  induction name generalizing found with
  | nil => cases hfound
  | cons byte rest ih =>
      rw [sonameMatch] at hfound
      cases hrest : sonameMatch rest with
      | some later =>
          simp only [hrest, Option.some.injEq] at hfound
          subst hfound
          rw [sonameMatch, ih hrest]
      | none =>
          simp only [hrest] at hfound
          split at hfound
          · cases hfound
            exact sonameMatch_marker fun digit hdigit => List.mem_takeWhile_imp hdigit
          · cases hfound

theorem sonameOf_idem (name : Bytes) : sonameOf (sonameOf name) = sonameOf name := by
  cases hmatch : sonameMatch name with
  | none => simp [sonameOf, hmatch]
  | some found => simp [sonameOf, hmatch, sonameMatch_of_match hmatch]

private theorem four_le_length_of_match {name found : Bytes}
    (hfound : sonameMatch name = some found) : 4 ≤ found.length := by
  induction name generalizing found with
  | nil => cases hfound
  | cons byte rest ih =>
      rw [sonameMatch] at hfound
      cases hrest : sonameMatch rest with
      | some later =>
          simp only [hrest, Option.some.injEq] at hfound
          subst hfound
          have hlater := ih hrest
          simp only [List.length_cons]
          omega
      | none =>
          simp only [hrest] at hfound
          split at hfound
          · cases hfound
            simp [marker_eq]
          · cases hfound

/-- A soname that is not the whole name is no name of dots. -/
theorem not_isDots_sonameOf {name : Bytes} (hne : sonameOf name ≠ name) :
    ¬ IsDots (sonameOf name) := by
  cases hmatch : sonameMatch name with
  | none => simp [sonameOf, hmatch] at hne
  | some found =>
      have hlength := four_le_length_of_match hmatch
      have hdot : dot.length = 1 := by decide
      have hdotdot : dotdot.length = 2 := by decide
      rw [sonameOf, hmatch, Option.getD_some]
      rintro (rfl | rfl) <;> omega

/-- A name of dots is its own soname. -/
theorem sonameOf_dots {name : Bytes} (hdots : IsDots name) : sonameOf name = name := by
  rcases hdots with rfl | rfl <;> decide

end TizenRoblox.Deploy
