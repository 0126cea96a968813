/-
# Secret values

A `SecretValue` keeps a copy of a text and a length. The copy is made with a string
function and ends with the first NUL of the text; the length is the one that was given,
if one was. A caller that reads as many bytes as it is told reads past the copy unless
there is no NUL before the last of them (`getLaw_iff`).
-/

import TizenRoblox.Foundation.Bytes

namespace TizenRoblox.Credentials

open TizenRoblox.Foundation

/-! ## The functions -/

/-- What a pointer points to: the bytes up to the end of its block, if it is not `NULL`. -/
abbrev Pointer := Option Bytes

/-- The bytes that may be read. -/
def Pointer.readable (pointer : Pointer) : Bytes := pointer.getD []

structure SecretValue where
  secret : Pointer
  length : ℕ
  contentType : Pointer

/-- Which allocations of a call succeed: the value, the copy of the text, and that of
the content type. -/
structure Allocations where
  value : Bool
  secret : Bool
  contentType : Bool

/-- `strlen` -/
def strlen (buffer : Bytes) : ℕ := (CString.ofBuffer buffer).bytes.length

/-- `strdup` -/
def strdup (allocated : Bool) (buffer : Bytes) : Pointer :=
  if allocated then some ((CString.ofBuffer buffer).bytes ++ [nul]) else none

/-- `strndup` -/
def strndup (allocated : Bool) (buffer : Bytes) (length : ℕ) : Pointer :=
  strdup allocated (buffer.take length)

section Functions

variable (allocations : Allocations) (secret : Bytes) (length : ℤ) (contentType : Option CString)

/-- `secret_value_new` -/
def secretValueNew : Option SecretValue :=
  if ¬ allocations.value then none
  else some {
    secret := if length ≥ 0 then strndup allocations.secret secret length.toNat
      else strdup allocations.secret secret
    length := if length ≥ 0 then length.toNat else strlen secret
    contentType := strdup allocations.contentType
      (contentType.elim (bytes "text/plain") CString.bytes) }

/-- `secret_value_get`: what it returns, and what it stores as the length. -/
def secretValueGet : Option SecretValue → Pointer × Option ℕ
  | none => (none, none)
  | some value => (value.secret, some value.length)

/-- `secret_value_get_text` -/
def secretValueGetText : Option SecretValue → Pointer
  | none => none
  | some value => value.secret

end Functions

/-! ## What may be read -/

section Law

variable {allocations : Allocations} {secret : Bytes} {length : ℤ} {contentType : Option CString}

/-- A length that may be given for a buffer: none, for one that is terminated, or one
within the buffer. -/
def ValidLength (secret : Bytes) (length : ℤ) : Prop :=
  (length < 0 ∧ nul ∈ secret) ∨ (0 ≤ length ∧ length ≤ secret.length)

/-- A value reports a length to which its text may be read, and the text is the one that
was given, as much of it as was asked for. -/
def GetLaw (secret : Bytes) (length : ℤ) (value : SecretValue) : Prop :=
  ∃ reported, (secretValueGet (some value)).2 = some reported ∧
    reported ≤ (secretValueGet (some value)).1.readable.length ∧
    (secretValueGet (some value)).1.readable.take reported = secret.take reported ∧
    (0 ≤ length → (reported : ℤ) = length)

/-- Nothing is asked for. -/
def AsksNothing (secret : Bytes) (length : ℤ) : Prop :=
  length = 0 ∨ length < 0 ∧ secret.head? = some nul

instance (secret : Bytes) (length : ℤ) : Decidable (AsksNothing secret length) :=
  inferInstanceAs (Decidable (_ ∨ _ ∧ _))

/-- The text of a buffer, terminated anew, is as long as the buffer and agrees with it if
there is no NUL before the last byte. -/
theorem terminated_iff (buffer : Bytes) :
    (buffer.length ≤ ((CString.ofBuffer buffer).bytes ++ [nul]).length ∧
      ((CString.ofBuffer buffer).bytes ++ [nul]).take buffer.length = buffer) ↔
      nul ∉ buffer.dropLast := by
  induction buffer with
  | nil => simp
  | cons byte rest ih =>
      by_cases hnul : byte = nul
      · cases rest <;> simp [hnul]
      · by_cases hrest : rest = []
        · simp [hrest, hnul]
        · rw [List.dropLast_cons_of_ne_nil hrest, List.mem_cons]
          simpa [hnul, Ne.symm hnul] using ih

theorem readable_strndup_iff {count : ℕ} (hcount : count ≤ secret.length) :
    (count ≤ (strndup true secret count).readable.length ∧
      (strndup true secret count).readable.take count = secret.take count) ↔
      nul ∉ secret.take (count - 1) := by
  have hlength : (secret.take count).length = count := List.length_take_of_le hcount
  have hiff := terminated_iff (secret.take count)
  rw [hlength, List.dropLast_eq_take, hlength, List.take_take,
    Nat.min_eq_left (Nat.sub_le count 1)] at hiff
  exact hiff

/-- The copy of a terminated text can be read to its end. -/
theorem readable_strdup (secret : Bytes) :
    strlen secret ≤ (strdup true secret).readable.length ∧
      (strdup true secret).readable.take (strlen secret) = secret.take (strlen secret) := by
  have hprefix := List.prefix_iff_eq_take.mp (List.takeWhile_prefix (· ≠ nul) (l := secret))
  constructor
  · simp [strdup, strlen, Pointer.readable]
  · simpa [strdup, strlen, Pointer.readable] using hprefix

theorem getLaw_of_length (hlength : 0 ≤ length) (hfits : length ≤ secret.length)
    (contentType : Pointer) :
    GetLaw secret length ⟨strndup allocations.secret secret length.toNat, length.toNat,
        contentType⟩ ↔
      (allocations.secret = true ∨ length = 0) ∧ nul ∉ secret.take (length.toNat - 1) := by
  obtain ⟨count, rfl⟩ := Int.eq_ofNat_of_zero_le hlength
  have hcount : count ≤ secret.length := by exact_mod_cast hfits
  have hread := readable_strndup_iff hcount
  simp only [Int.toNat_natCast]
  cases hcopied : allocations.secret with
  | true =>
      rw [← hread]
      simp [GetLaw, secretValueGet]
  | false =>
      have hnull : GetLaw secret count ⟨strndup false secret count, count, contentType⟩ ↔
          count = 0 := by
        simp +contextual [GetLaw, secretValueGet, strndup, strdup, Pointer.readable]
      rw [hnull]
      constructor
      · rintro rfl
        simp
      · rintro ⟨hnone | hnone, -⟩
        · cases hnone
        · exact_mod_cast hnone

theorem getLaw_of_terminated (hlength : length < 0) (hnul : nul ∈ secret)
    (contentType : Pointer) :
    GetLaw secret length ⟨strdup allocations.secret secret, strlen secret, contentType⟩ ↔
      allocations.secret = true ∨ secret.head? = some nul := by
  cases hcopied : allocations.secret with
  | true =>
      obtain ⟨hlong, hsame⟩ := readable_strdup secret
      simp only [true_or, iff_true]
      exact ⟨strlen secret, rfl, hlong, hsame, fun hnonneg => absurd hnonneg (by omega)⟩
  | false =>
      have hempty : strlen secret = 0 ↔ secret.head? = some nul := by
        cases secret with
        | nil => cases hnul
        | cons byte rest => by_cases hbyte : byte = nul <;> simp [strlen, hbyte]
      simp only [Bool.false_eq_true, false_or, ← hempty]
      constructor
      · rintro ⟨reported, hreported, hreads, -⟩
        obtain rfl : strlen secret = reported := Option.some.inj hreported
        simpa [secretValueGet, strdup, Pointer.readable] using hreads
      · intro hzero
        exact ⟨0, by simp [secretValueGet, hzero], Nat.zero_le _, by simp,
          fun hnonneg => absurd hnonneg (by omega)⟩

/-- A value that was built can be read as far as it says if its text could be copied, or
nothing is asked for, and if no NUL comes before the last byte that is asked for. -/
theorem getLaw_iff (allocations : Allocations) (contentType : Option CString)
    (hvalid : ValidLength secret length) :
    (∀ value, secretValueNew allocations secret length contentType = some value →
      GetLaw secret length value) ↔
      allocations.value = false ∨
        (allocations.secret = true ∨ AsksNothing secret length) ∧
          (length < 0 ∨ nul ∉ secret.take (length.toNat - 1)) := by
  cases hvalue : allocations.value with
  | false => simp [secretValueNew, hvalue]
  | true =>
      simp only [secretValueNew, hvalue, not_true_eq_false, if_false, Option.some.injEq,
        forall_eq', Bool.true_eq_false, false_or]
      rcases hvalid with ⟨hlength, hnul⟩ | ⟨hlength, hfits⟩
      · have hnot : ¬ length ≥ 0 := by omega
        simp only [if_neg hnot]
        rw [getLaw_of_terminated hlength hnul]
        have hne : length ≠ 0 := by omega
        simp [AsksNothing, hlength, hne]
      · simp only [if_pos hlength]
        rw [getLaw_of_length hlength hfits]
        have hnot : ¬ length < 0 := by omega
        simp [AsksNothing, hnot]

/-- What `secret_value_get_text` returns is terminated, and a prefix of what was given. -/
theorem getText_of_new {value : SecretValue} {block : Bytes}
    (hvalue : secretValueNew allocations secret length contentType = some value)
    (hblock : secretValueGetText (some value) = some block) :
    ∃ text : CString, block = text.bytes ++ [nul] ∧ text.bytes <+: secret := by
  have hcopy : ∀ {allocated : Bool} {buffer : Bytes}, buffer <+: secret →
      strdup allocated buffer = some block →
        ∃ text : CString, block = text.bytes ++ [nul] ∧ text.bytes <+: secret := by
    intro allocated buffer hprefix hdup
    refine ⟨CString.ofBuffer buffer, ?_, (List.takeWhile_prefix _).trans hprefix⟩
    cases allocated with
    | false => cases hdup
    | true => exact (Option.some.inj hdup).symm
  unfold secretValueNew at hvalue
  split at hvalue
  · cases hvalue
  · obtain rfl := Option.some.inj hvalue
    simp only [secretValueGetText] at hblock
    split at hblock
    · exact hcopy (List.take_prefix _ _) hblock
    · exact hcopy (List.prefix_refl _) hblock

end Law

/-- The first three bytes of a text that goes on, and the terminated text as a whole. -/
theorem getLaw_token :
    (∀ value, secretValueNew ⟨true, true, true⟩ (bytes "token") 3 none = some value →
      GetLaw (bytes "token") 3 value) ∧
    ∀ value, secretValueNew ⟨true, true, true⟩ (bytes "token" ++ [nul]) (-1) none = some value →
      GetLaw (bytes "token" ++ [nul]) (-1) value :=
  ⟨(getLaw_iff ⟨true, true, true⟩ none (.inr (by decide))).mpr (by decide),
    (getLaw_iff ⟨true, true, true⟩ none (.inl (by decide))).mpr (by decide)⟩

/-- Five bytes with a NUL in the middle: the copy has three bytes, and five are reported. -/
theorem not_getLaw_embeddedNul :
    ∃ value, secretValueNew ⟨true, true, true⟩ [116, 111, 0, 107, 101] 5 none = some value ∧
      (secretValueGet (some value)).1.readable.length = 3 ∧
      (secretValueGet (some value)).2 = some 5 ∧
      ¬ GetLaw [116, 111, 0, 107, 101] 5 value := by
  refine ⟨_, rfl, by decide, rfl, ?_⟩
  rintro ⟨reported, hreported, hreads, -⟩
  obtain rfl := Option.some.inj hreported
  revert hreads
  decide

end TizenRoblox.Credentials
