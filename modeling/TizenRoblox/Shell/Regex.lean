/-
# Regular expressions

A pattern is a sequence of parts: a byte of some class, a run of such bytes, the end of the
line. A search takes the leftmost place of the line at which the pattern matches; there
every run is as long as the parts after it let it be. What is found is found by backtracking:
it matches (`matches_of_matchAt`), and where something matches something is found
(`matchAt_ne_none`).

Groups, alternatives and repetitions of anything but a class are not interpreted.
-/

import TizenRoblox.Shell.Text

namespace TizenRoblox.Shell.Regex

open TizenRoblox.Foundation

/-! ## Patterns -/

/-- A part of a pattern. -/
inductive Part
  /-- `[…]` -/
  | one (isIn : UInt8 → Bool)
  /-- `[…]+` -/
  | many (isIn : UInt8 → Bool)
  /-- `$` -/
  | lineEnd

/-- The longest run of the class after which the rest matches, and what that matches. -/
def manyAt (isIn : UInt8 → Bool) (rest : Bytes → Option Bytes) : Bytes → Option Bytes
  | [] => none
  | byte :: text =>
    if isIn byte then ((manyAt isIn rest text).or (rest text)).map (byte :: ·) else none

/-- What a part, and the rest of the pattern after it, matches at the start of a text. -/
def Part.matchAt (rest : Bytes → Option Bytes) : Part → Bytes → Option Bytes
  | .one isIn, byte :: text => if isIn byte then (rest text).map (byte :: ·) else none
  | .one _, [] => none
  | .many isIn, text => manyAt isIn rest text
  | .lineEnd, [] => rest []
  | .lineEnd, _ :: _ => none

/-- What a pattern matches at the start of a text. -/
def matchAt : List Part → Bytes → Option Bytes
  | [], _ => some []
  | part :: rest, text => part.matchAt (matchAt rest) text

/-- The matches in a text from left to right, none of them empty, each after the one before;
some bytes of the text belong to a match already. -/
def findAll (pattern : List Part) : ℕ → Bytes → List Bytes
  | _, [] => []
  | skipped + 1, _ :: text => findAll pattern skipped text
  | 0, byte :: text =>
    match matchAt pattern (byte :: text) with
    | some (first :: found) => (first :: found) :: findAll pattern found.length text
    | some [] | none => findAll pattern 0 text

/-! ## What matches -/

/-- A part matches some bytes with others after them. -/
def Part.Matches (matched after : Bytes) : Part → Prop
  | .one isIn => ∃ byte, isIn byte = true ∧ matched = [byte]
  | .many isIn => matched ≠ [] ∧ ∀ byte ∈ matched, isIn byte = true
  | .lineEnd => matched = [] ∧ after = []

/-- A pattern matches some bytes with others after them. -/
def Matches : List Part → Bytes → Bytes → Prop
  | [], matched, _ => matched = []
  | part :: rest, matched, after =>
    ∃ first second, matched = first ++ second ∧ part.Matches first (second ++ after) ∧
      Matches rest second after

theorem manyAt_eq_some {isIn : UInt8 → Bool} {rest : Bytes → Option Bytes} {text matched : Bytes}
    (hfound : manyAt isIn rest text = some matched) :
    ∃ first second later, matched = first ++ second ∧ text = first ++ later ∧
      first ≠ [] ∧ (∀ byte ∈ first, isIn byte = true) ∧ rest later = some second := by
  induction text generalizing matched with
  | nil => cases hfound
  | cons byte text ih =>
      rw [manyAt] at hfound
      split at hfound
      · next hbyte =>
          obtain ⟨tail, htail, rfl⟩ := Option.map_eq_some_iff.mp hfound
          rcases Option.or_eq_some_iff.mp htail with hmore | ⟨_, hrest⟩
          · obtain ⟨first, second, later, rfl, rfl, _, hall, hlater⟩ := ih hmore
            exact ⟨byte :: first, second, later, rfl, rfl, List.cons_ne_nil _ _,
              List.forall_mem_cons.mpr ⟨hbyte, hall⟩, hlater⟩
          · exact ⟨[byte], tail, text, rfl, rfl, List.cons_ne_nil _ _,
              List.forall_mem_singleton.mpr hbyte, hrest⟩
      · cases hfound

theorem manyAt_ne_none {isIn : UInt8 → Bool} {rest : Bytes → Option Bytes} {first later : Bytes}
    (hnonempty : first ≠ []) (hall : ∀ byte ∈ first, isIn byte = true)
    (hlater : rest later ≠ none) : manyAt isIn rest (first ++ later) ≠ none := by
  induction first with
  | nil => exact absurd rfl hnonempty
  | cons byte first ih =>
      obtain ⟨hbyte, hrest⟩ := List.forall_mem_cons.mp hall
      rw [List.cons_append, manyAt, if_pos hbyte, ne_eq, Option.map_eq_none_iff,
        Option.or_eq_none_iff]
      rintro ⟨hmore, hnone⟩
      cases first with
      | nil => exact hlater hnone
      | cons second others => exact ih (List.cons_ne_nil _ _) hrest hmore

/-- What is found matches. -/
theorem matches_of_matchAt {pattern : List Part} {text matched : Bytes}
    (hfound : matchAt pattern text = some matched) :
    ∃ after, text = matched ++ after ∧ Matches pattern matched after := by
  induction pattern generalizing text matched with
  | nil =>
      cases hfound
      exact ⟨text, rfl, rfl⟩
  | cons part rest ih =>
      rw [matchAt] at hfound
      cases part with
      | one isIn =>
          cases text with
          | nil => cases hfound
          | cons byte text =>
              rw [Part.matchAt] at hfound
              split at hfound
              · next hbyte =>
                  obtain ⟨tail, htail, rfl⟩ := Option.map_eq_some_iff.mp hfound
                  obtain ⟨after, rfl, hmatches⟩ := ih htail
                  exact ⟨after, rfl, [byte], tail, rfl, ⟨byte, hbyte, rfl⟩, hmatches⟩
              · cases hfound
      | many isIn =>
          obtain ⟨first, second, later, rfl, rfl, hnonempty, hall, hlater⟩ := manyAt_eq_some hfound
          obtain ⟨after, rfl, hmatches⟩ := ih hlater
          exact ⟨after, (List.append_assoc _ _ _).symm, first, second, rfl, ⟨hnonempty, hall⟩,
            hmatches⟩
      | lineEnd =>
          cases text with
          | nil =>
              obtain ⟨after, hafter, hmatches⟩ := ih hfound
              obtain ⟨rfl, rfl⟩ := List.append_eq_nil_iff.mp hafter.symm
              exact ⟨[], rfl, [], [], rfl, ⟨rfl, rfl⟩, hmatches⟩
          | cons byte text => cases hfound

/-- Where something matches, something is found. -/
theorem matchAt_ne_none {pattern : List Part} {matched after : Bytes}
    (hmatches : Matches pattern matched after) : matchAt pattern (matched ++ after) ≠ none := by
  induction pattern generalizing matched with
  | nil => exact Option.some_ne_none _
  | cons part rest ih =>
      obtain ⟨first, second, rfl, hpart, hrest⟩ := hmatches
      have hlater := ih hrest
      rw [matchAt, List.append_assoc]
      cases part with
      | one isIn =>
          obtain ⟨byte, hbyte, rfl⟩ := hpart
          rw [List.singleton_append, Part.matchAt, if_pos hbyte, ne_eq, Option.map_eq_none_iff]
          exact hlater
      | many isIn => exact manyAt_ne_none hpart.1 hpart.2 hlater
      | lineEnd =>
          obtain ⟨rfl, hnone⟩ := hpart
          rw [hnone] at hlater ⊢
          exact hlater

/-! ## What a search finds -/

section FindAll

variable {pattern : List Part}

theorem findAll_skip (skipped text : Bytes) :
    findAll pattern skipped.length (skipped ++ text) = findAll pattern 0 text := by
  induction skipped with
  | nil => rfl
  | cons byte rest ih => exact ih

/-- Where nothing matches the search goes on. -/
theorem findAll_of_none {front text : Bytes}
    (hnone : ∀ skipped left, front = skipped ++ left → left ≠ [] →
      matchAt pattern (left ++ text) = none) :
    findAll pattern 0 (front ++ text) = findAll pattern 0 text := by
  induction front with
  | nil => rfl
  | cons byte rest ih =>
      have hhere := hnone [] (byte :: rest) rfl (List.cons_ne_nil _ _)
      rw [List.cons_append] at hhere
      rw [List.cons_append, findAll, hhere]
      apply ih
      intro skipped left hsplit hleft
      exact hnone (byte :: skipped) left (by rw [hsplit, List.cons_append]) hleft

/-- What matches at the start is found first. -/
theorem findAll_of_some {matched after : Bytes} (hnonempty : matched ≠ [])
    (hfound : matchAt pattern (matched ++ after) = some matched) :
    findAll pattern 0 (matched ++ after) = matched :: findAll pattern 0 after := by
  cases matched with
  | nil => exact absurd rfl hnonempty
  | cons byte rest =>
      rw [List.cons_append] at hfound
      rw [List.cons_append, findAll, hfound]
      exact congrArg _ (findAll_skip rest after)

end FindAll

end TizenRoblox.Shell.Regex
