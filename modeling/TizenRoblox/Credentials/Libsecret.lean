/-
# The credentials file behind libsecret

Sober stores its login through libsecret; on the TV a stub keeps it in one plain
file in the home directory. The schema and the attributes of a call are ignored,
so all callers share one slot, and what a call reports is decided by the opening
of the file alone.

The file operations may fail: an open may fail, a write may bring only a prefix
to the file, a removal may fail. How they turn out is an argument of each call.
-/

import Mathlib.Data.List.TakeWhile
import Mathlib.Logic.Function.Basic
import TizenRoblox.Foundation.Bytes

namespace TizenRoblox.Credentials

open TizenRoblox.Foundation

universe u

/-- A regular file: its bytes and its permission bits. -/
structure StoredFile where
  data : Bytes
  mode : BitVec 9
  deriving DecidableEq

/-- The files a process can reach, by the path it opens them with. -/
abbrev Disk := Bytes → Option StoredFile

/-- The process that calls the stub. -/
structure Caller where
  /-- `getenv("HOME")` -/
  home : Option Bytes
  umask : BitVec 9

/-- `"%s/.tizenroblox_creds"` -/
def credSuffix : Bytes := bytes "/.tizenroblox_creds"

/-- `cred_path`: the buffer holds 512 bytes with the terminator. -/
def credPath (home : Option Bytes) : Bytes :=
  (home.getD (bytes "/opt/tizenroblox") ++ credSuffix).take 511

/-- The mode of a file that `fopen` creates. -/
def createdMode (umask : BitVec 9) : BitVec 9 := 0o666#9 &&& ~~~umask

/-! ## The calls -/

section Calls

variable {Key : Type u}

/-- How the file operations of a store turn out. -/
structure StoreOutcome where
  /-- `fopen` succeeds. -/
  opens : Bool
  /-- How many bytes `fprintf` and `fclose` bring to the file, if it has so many. -/
  reached : ℕ

/-- Every operation succeeds. -/
def StoreOutcome.good (password : Bytes) : StoreOutcome := ⟨true, password.length⟩

/-- The text of a password; `NULL` counts as empty. -/
def passwordText (password : Option CString) : Bytes :=
  match password with
  | some text => text.bytes
  | none => []

/-- `secret_password_store_sync` -/
def secretPasswordStoreSync (caller : Caller) (outcome : StoreOutcome) (_key : Key)
    (password : Option CString) (disk : Disk) : Disk × Bool :=
  if ¬ outcome.opens then (disk, false)
  else
    let mode := ((disk (credPath caller.home)).map StoredFile.mode).getD (createdMode caller.umask)
    (Function.update disk (credPath caller.home)
      (some ⟨(passwordText password).take outcome.reached, mode⟩), true)

/-- The bytes of the buffer of `secret_password_lookup_sync` that a read can fill. -/
def bufferSize : ℕ := 4095

/-- `secret_password_lookup_sync`: what it returns, if not `NULL`. -/
def secretPasswordLookupSync (caller : Caller) (_key : Key) (disk : Disk) : Option CString :=
  match disk (credPath caller.home) with
  | none => none
  | some file =>
      let buffer := file.data.take bufferSize
      if buffer = [] ∨ buffer.head? = some nul then none else some (.ofBuffer buffer)

/-- `secret_password_clear_sync`; the argument says whether `remove` succeeds. -/
def secretPasswordClearSync (caller : Caller) (removed : Bool) (_key : Key) (disk : Disk) :
    Disk × Bool :=
  (if removed then Function.update disk (credPath caller.home) none else disk, true)

end Calls

/-! ## What a lookup returns -/

section Lookup

variable {Key : Type u} (caller : Caller) (key : Key)

theorem lookup_of_none {disk : Disk} (hfile : disk (credPath caller.home) = none) :
    secretPasswordLookupSync caller key disk = none := by
  simp [secretPasswordLookupSync, hfile]

/-- A lookup returns what the file starts with, up to the size of the buffer. -/
theorem lookup_of_noNul {disk : Disk} {file : StoredFile}
    (hfile : disk (credPath caller.home) = some file) (hdata : file.data ≠ [])
    (hnul : nul ∉ file.data) :
    (secretPasswordLookupSync caller key disk).map CString.bytes =
      some (file.data.take bufferSize) := by
  have hnonempty : file.data.take bufferSize ≠ [] := by simp [hdata, bufferSize]
  have hprefix : nul ∉ file.data.take bufferSize := fun hmem => hnul (List.mem_of_mem_take hmem)
  have hhead : (file.data.take bufferSize).head? ≠ some nul :=
    fun heq => hprefix (List.mem_of_mem_head? heq)
  simp only [secretPasswordLookupSync, hfile, hnonempty, hhead, or_self, if_false, Option.map_some,
    CString.ofBuffer_bytes_of_noNul hprefix]

/-- A lookup finds nothing exactly in a file that is missing, empty or starts with
a NUL. -/
theorem lookup_eq_none_iff (disk : Disk) :
    secretPasswordLookupSync caller key disk = none ↔
      ∀ file, disk (credPath caller.home) = some file →
        file.data = [] ∨ file.data.head? = some nul := by
  cases hfile : disk (credPath caller.home) with
  | none => simp [secretPasswordLookupSync, hfile]
  | some file =>
      have hempty : file.data.take bufferSize = [] ↔ file.data = [] := by simp [bufferSize]
      have hhead : (file.data.take bufferSize).head? = file.data.head? := by
        simp [List.head?_take, bufferSize]
      simp only [secretPasswordLookupSync, hfile, hempty, hhead, Option.some.injEq, forall_eq',
        ite_eq_left_iff, reduceCtorEq, imp_false, not_not]

end Lookup

/-! ## What is found of a password -/

section RoundTrip

variable {Key : Type u} (caller : Caller) (stored asked : Key) (disk : Disk)

theorem store_good (password : CString) :
    ((secretPasswordStoreSync caller (.good password.bytes) stored (some password) disk).1
      (credPath caller.home)).map StoredFile.data = some password.bytes := by
  simp [secretPasswordStoreSync, StoreOutcome.good, passwordText]

/-- A lookup after a store finds what the buffer takes of the password. -/
theorem lookup_store {password : CString} (hnonempty : password.bytes ≠ []) :
    (secretPasswordLookupSync caller asked
        (secretPasswordStoreSync caller (.good password.bytes) stored (some password) disk).1).map
      CString.bytes = some (password.bytes.take bufferSize) := by
  obtain ⟨file, hfile, hdata⟩ := Option.map_eq_some_iff.mp (store_good caller stored disk password)
  rw [lookup_of_noNul caller asked hfile (hdata ▸ hnonempty) (hdata ▸ password.noNul), hdata]

/-- A password that is stored is found exactly if it fits the buffer. -/
theorem lookup_store_iff (password : CString) (hnonempty : password.bytes ≠ []) :
    secretPasswordLookupSync caller asked
        (secretPasswordStoreSync caller (.good password.bytes) stored (some password) disk).1 =
      some password ↔ password.bytes.length ≤ bufferSize := by
  have hfound := lookup_store caller stored asked disk hnonempty
  constructor
  · intro hsame
    rw [hsame, Option.map_some, Option.some.injEq] at hfound
    exact (List.take_eq_self_iff _).mp hfound.symm
  · intro hfits
    rw [List.take_of_length_le hfits] at hfound
    obtain ⟨found, hsome, hbytes⟩ := Option.map_eq_some_iff.mp hfound
    rw [hsome, Option.some.injEq]
    exact CString.ext hbytes

end RoundTrip

theorem lookup_store_secret :
    secretPasswordLookupSync ⟨none, 0#9⟩ "other"
      (secretPasswordStoreSync ⟨none, 0#9⟩ (.good (bytes "secret")) "mine"
        (some ⟨bytes "secret", by decide⟩) fun _ => none).1 = some ⟨bytes "secret", by decide⟩ :=
  (lookup_store_iff ⟨none, 0#9⟩ "mine" "other" _ ⟨bytes "secret", by decide⟩ (by decide)).mpr
    (by decide)

/-- A password one byte longer than the buffer has room for. -/
def longPassword : CString where
  bytes := List.replicate 4096 120
  noNul := fun hmem => absurd (List.eq_of_mem_replicate hmem) (by decide)

/-- Of a long password the last byte is lost. -/
theorem not_found_longPassword :
    secretPasswordLookupSync ⟨none, 0#9⟩ "key"
      (secretPasswordStoreSync ⟨none, 0#9⟩ (.good longPassword.bytes) "key" (some longPassword)
        fun _ => none).1 ≠ some longPassword := by
  have hlength : longPassword.bytes.length = 4096 := List.length_replicate
  have hnonempty : longPassword.bytes ≠ [] := List.ne_nil_of_length_pos (by omega)
  have hfound := lookup_store ⟨none, 0#9⟩ "key" "key" (fun _ => none) hnonempty
  intro hsame
  rw [hsame, Option.map_some, Option.some.injEq] at hfound
  have hcut := congrArg List.length hfound
  rw [List.length_take, hlength] at hcut
  exact absurd hcut (by decide)

/-! ## One slot for all keys -/

section Slot

variable {Key : Type u} (caller : Caller)

/-- A call of a client, with its schema and attributes as the key. -/
inductive Request (Key : Type u)
  | store (key : Key) (password : CString)
  | lookup (key : Key)
  | clear (key : Key)

/-- A call whose file operations all succeed. -/
def perform (disk : Disk) : Request Key → Disk
  | .store key password =>
      (secretPasswordStoreSync caller (.good password.bytes) key (some password) disk).1
  | .lookup _ => disk
  | .clear key => (secretPasswordClearSync caller true key disk).1

/-- The secret of the last store, under whatever key, since the last clear under
whatever key. -/
def slot (requests : List (Request Key)) : Option CString :=
  requests.foldl (fun held request =>
    match request with
    | .store _ password => some password
    | .lookup _ => held
    | .clear _ => none) none

/-- After any calls the file holds the slot. -/
theorem perform_slot (requests : List (Request Key)) {disk : Disk}
    (hdisk : disk (credPath caller.home) = none) :
    (requests.foldl (perform caller) disk (credPath caller.home)).map StoredFile.data =
      (slot requests).map CString.bytes := by
  suffices hgeneral : ∀ (disk : Disk) (held : Option CString),
      (disk (credPath caller.home)).map StoredFile.data = held.map CString.bytes →
      (requests.foldl (perform caller) disk (credPath caller.home)).map StoredFile.data =
        (requests.foldl (fun held request =>
          match request with
          | .store _ password => some password
          | .lookup _ => held
          | .clear _ => none) held).map CString.bytes from
    hgeneral disk none (by rw [hdisk]; rfl)
  induction requests with
  | nil => exact fun _ _ hheld => hheld
  | cons request rest ih =>
      intro disk held hheld
      apply ih
      cases request with
      | store key password =>
          simp [perform, secretPasswordStoreSync, StoreOutcome.good, passwordText]
      | lookup key => exact hheld
      | clear key => simp [perform, secretPasswordClearSync]

/-- After any calls a lookup under any key finds nothing if the slot is empty or
holds an empty secret, and otherwise the secret in the slot, if it fits the
buffer. -/
theorem lookup_slot (requests : List (Request Key)) {disk : Disk}
    (hdisk : disk (credPath caller.home) = none) (key : Key) :
    ((∀ secret, slot requests = some secret → secret.bytes = []) →
        secretPasswordLookupSync caller key (requests.foldl (perform caller) disk) = none) ∧
      ∀ secret, slot requests = some secret → secret.bytes ≠ [] →
        secret.bytes.length ≤ bufferSize →
        secretPasswordLookupSync caller key (requests.foldl (perform caller) disk) =
          some secret := by
  have hslot := perform_slot caller requests hdisk
  constructor
  · intro hempty
    rw [lookup_eq_none_iff]
    intro file hfile
    rw [hfile, Option.map_some] at hslot
    obtain ⟨secret, hsecret, hbytes⟩ := Option.map_eq_some_iff.mp hslot.symm
    exact Or.inl (hbytes ▸ hempty secret hsecret)
  · intro secret hsecret hnonempty hfits
    rw [hsecret, Option.map_some] at hslot
    obtain ⟨file, hfile, hdata⟩ := Option.map_eq_some_iff.mp hslot
    have hfound := lookup_of_noNul caller key hfile (hdata ▸ hnonempty) (hdata ▸ secret.noNul)
    rw [hdata, List.take_of_length_le hfits] at hfound
    obtain ⟨found, hfoundSome, hfoundBytes⟩ := Option.map_eq_some_iff.mp hfound
    rw [hfoundSome]
    obtain ⟨foundBytes, _⟩ := found
    obtain ⟨secretBytes, _⟩ := secret
    obtain rfl : foundBytes = secretBytes := hfoundBytes
    rfl

end Slot

/-- A store under one key is found under the other one. -/
theorem found_under_other_key :
    secretPasswordLookupSync ⟨none, 0#9⟩ "other"
      ([Request.store "mine" ⟨bytes "secret", by decide⟩].foldl (perform ⟨none, 0#9⟩)
        fun _ => none) = some ⟨bytes "secret", by decide⟩ := by
  decide

/-- A clear under the other key and a second store: the last secret is found. -/
theorem last_secret_found :
    secretPasswordLookupSync ⟨none, 0#9⟩ "other"
      ([Request.store "mine" ⟨bytes "first", by decide⟩, .clear "other",
        .store "mine" ⟨bytes "second", by decide⟩].foldl (perform ⟨none, 0#9⟩)
        fun _ => none) = some ⟨bytes "second", by decide⟩ :=
  (lookup_slot ⟨none, 0#9⟩ _ rfl "other").2 ⟨bytes "second", by decide⟩ rfl (by decide) (by decide)

/-! ## What the calls report -/

section Reports

variable {Key : Type u} (caller : Caller) (key : Key) (disk : Disk)

/-- A store reports success only with exactly the password in the file, and
failure only with the disk as it was. -/
structure StoreLaw (outcome : StoreOutcome) (password : CString) : Prop where
  stored : (secretPasswordStoreSync caller outcome key (some password) disk).2 = true →
    ((secretPasswordStoreSync caller outcome key (some password) disk).1
      (credPath caller.home)).map StoredFile.data = some password.bytes
  intact : (secretPasswordStoreSync caller outcome key (some password) disk).2 = false →
    (secretPasswordStoreSync caller outcome key (some password) disk).1 = disk

/-- A clear reports success only if a lookup then finds nothing. -/
def ClearLaw (removed : Bool) : Prop :=
  (secretPasswordClearSync caller removed key disk).2 = true →
    secretPasswordLookupSync caller key (secretPasswordClearSync caller removed key disk).1 = none

theorem storeLaw_iff (outcome : StoreOutcome) (password : CString) :
    StoreLaw caller key disk outcome password ↔
      outcome.opens = false ∨ password.bytes.length ≤ outcome.reached := by
  cases hopens : outcome.opens with
  | false =>
      simp only [true_or, iff_true]
      constructor <;> simp [secretPasswordStoreSync, hopens]
  | true =>
      have hdata : ((secretPasswordStoreSync caller outcome key (some password) disk).1
          (credPath caller.home)).map StoredFile.data =
          some (password.bytes.take outcome.reached) := by
        simp [secretPasswordStoreSync, hopens, passwordText]
      have hreport :
          (secretPasswordStoreSync caller outcome key (some password) disk).2 = true := by
        simp [secretPasswordStoreSync, hopens]
      simp only [Bool.true_eq_false, false_or]
      constructor
      · intro hlaw
        have hstored := hlaw.stored hreport
        rw [hdata, Option.some.injEq] at hstored
        exact List.take_eq_self_iff _ |>.mp hstored
      · intro hreached
        refine ⟨fun _ => by rw [hdata, List.take_of_length_le hreached], fun hfailed => ?_⟩
        simp [hreport] at hfailed

theorem clearLaw_iff (removed : Bool) :
    ClearLaw caller key disk removed ↔
      removed = true ∨ ∀ file, disk (credPath caller.home) = some file →
        file.data = [] ∨ file.data.head? = some nul := by
  cases removed with
  | true =>
      simp only [true_or, iff_true]
      intro _
      exact lookup_of_none caller key (by simp [secretPasswordClearSync])
  | false =>
      simp only [Bool.false_eq_true, false_or, ← lookup_eq_none_iff caller key]
      exact ⟨fun hlaw => hlaw rfl, fun hnone _ => hnone⟩

/-- The reports can be trusted exactly where the file cannot be opened or takes
the whole password, and where the file can be removed or holds no credential. -/
theorem reports_iff (outcome : StoreOutcome) (password : CString) (removed : Bool) :
    (StoreLaw caller key disk outcome password ↔
        outcome.opens = false ∨ password.bytes.length ≤ outcome.reached) ∧
      (ClearLaw caller key disk removed ↔
        removed = true ∨ ∀ file, disk (credPath caller.home) = some file →
          file.data = [] ∨ file.data.head? = some nul) :=
  ⟨storeLaw_iff caller key disk outcome password, clearLaw_iff caller key disk removed⟩

end Reports

/-- A disk with one credential, for a caller without a home. -/
def oneCredential : Disk := fun path =>
  if path = credPath none then some ⟨bytes "secret", 0o600#9⟩ else none

/-- A store that brings one byte to the file reports success, and so does a clear
that removes nothing. -/
theorem not_reported :
    ¬ StoreLaw ⟨none, 0#9⟩ () oneCredential ⟨true, 1⟩ ⟨bytes "token", by decide⟩ ∧
      ¬ ClearLaw ⟨none, 0#9⟩ () oneCredential false := by
  constructor
  · intro hlaw
    have hstored := hlaw.stored rfl
    revert hstored
    decide
  · intro hlaw
    have hnone := hlaw rfl
    revert hnone
    decide

end TizenRoblox.Credentials
