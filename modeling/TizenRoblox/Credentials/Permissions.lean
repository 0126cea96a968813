/-
# Who can read the credentials

`setup.sh` gives the credentials file to its owner alone, each time it has written it.
The stub of libsecret takes the file as it is: one that is there keeps its mode, and one
that is not is created with whatever the umask leaves of 0666. So the file stays private
over any sequence of their operations exactly if each store that creates it does so under
a umask that keeps everybody else out (`privateAfterEach_iff`). A clear removes the file,
and with it the mode that a setup has given it.
-/

import TizenRoblox.Credentials.Setup

namespace TizenRoblox.Credentials

open TizenRoblox.Foundation TizenRoblox.Shell TizenRoblox.Shell.Command

/-! ## The operations -/

/-- The bits that let the group or others read or write a file. -/
def othersBits : BitVec 9 := 0o066#9

/-- An operation on the credentials file at a path, each by a process of its own. -/
inductive Operation (path : Bytes)
  /-- `setup.sh` writes a token. -/
  | setup (world : SetupWorld) (here : credsFile world = path) (token : Bytes)
  /-- `setup.sh` copies the file of another Sober. -/
  | imported (world : SetupWorld) (here : credsFile world = path) (file : StoredFile)
  | store (caller : Caller) (here : credPath caller.home = path) (outcome : StoreOutcome)
      (password : Option CString)
  | clear (caller : Caller) (here : credPath caller.home = path) (removed : Bool)

/-- The files after a command of `setup.sh`, if the script goes on after it. -/
def ranOn (command : Command SetupState) (token : Bytes) (disk : Disk) : Option Disk :=
  match command true { setupStart disk fun _ => none with token := token } with
  | .done _ state => some state.disk
  | _ => none

variable {path : Bytes}

/-- The files after an operation, if it is completed. -/
def Operation.completed : Operation path → Disk → Option Disk
  | .setup world _ token, disk => ranOn (.block [writeToken world, chmodCreds world]) token disk
  | .imported world _ file, disk => ranOn (.block [copyCred world file, chmodCreds world]) [] disk
  | .store caller _ outcome password, disk =>
      some (secretPasswordStoreSync caller outcome () password disk).1
  | .clear caller _ removed, disk => some (secretPasswordClearSync caller removed () disk).1

/-! ## Privacy -/

/-- The file, if there is one, is neither readable nor writable by others. -/
def Private (path : Bytes) (disk : Disk) : Prop :=
  ∀ file, disk path = some file → file.mode &&& othersBits = 0#9

/-- After each operation that is completed the file is private. -/
def PrivateAfterEach : List (Operation path) → Disk → Prop
  | [], _ => True
  | operation :: rest, disk =>
    ∀ next, operation.completed disk = some next → Private path next ∧ PrivateAfterEach rest next

/-- A store that creates the file does so under a umask that takes all rights from
others. -/
def Operation.Masked : Operation path → Disk → Prop
  | .store caller _ outcome _, disk =>
      outcome.opens = true → disk path = none → createdMode caller.umask &&& othersBits = 0#9
  | _, _ => True

/-- Each operation is masked when its turn comes. -/
def EachMasked : List (Operation path) → Disk → Prop
  | [], _ => True
  | operation :: rest, disk =>
    operation.Masked disk ∧ ∀ next, operation.completed disk = some next → EachMasked rest next

/-- Whatever the file was, `chmod` makes it private. -/
theorem private_of_chmod {world : SetupWorld} (hhere : credsFile world = path)
    {write : Command SetupState} {token : Bytes} {disk next : Disk}
    (hran : ranOn (.block [write, chmodCreds world]) token disk = some next) :
    Private path next := by
  unfold ranOn at hran
  split at hran
  · next status state houtcome =>
      obtain rfl := Option.some.inj hran
      simp only [block, seq] at houtcome
      split at houtcome
      · next written hwritten =>
          cases hchmod : world.chmodOk with
          | false => simp [chmodCreds, attempt, simple, hchmod] at houtcome
          | true =>
              simp only [chmodCreds, attempt, simple, hchmod, if_true, ne_eq, not_true_eq_false,
                and_false, if_false, Outcome.done.injEq] at houtcome
              obtain ⟨-, rfl⟩ := houtcome
              intro file hfile
              simp only [← hhere, Function.update_self] at hfile
              obtain ⟨old, -, rfl⟩ := Option.map_eq_some_iff.mp hfile
              exact (by decide : 0o600#9 &&& othersBits = 0#9)
      · next hnot => exact absurd houtcome (hnot _ _)
  · cases hran

theorem private_store_iff (caller : Caller) (outcome : StoreOutcome) (password : Option CString)
    {disk : Disk} (hprivate : Private (credPath caller.home) disk) :
    Private (credPath caller.home) (secretPasswordStoreSync caller outcome () password disk).1 ↔
      (outcome.opens = true → disk (credPath caller.home) = none →
        createdMode caller.umask &&& othersBits = 0#9) := by
  cases hopens : outcome.opens with
  | false => simpa [secretPasswordStoreSync, hopens] using hprivate
  | true =>
      cases hfile : disk (credPath caller.home) with
      | none => simp [secretPasswordStoreSync, Private, hopens, hfile]
      | some file =>
          have hmode := hprivate file hfile
          simp [secretPasswordStoreSync, Private, hopens, hfile, hmode]

theorem private_clear (caller : Caller) (removed : Bool) {disk : Disk}
    (hprivate : Private (credPath caller.home) disk) :
    Private (credPath caller.home) (secretPasswordClearSync caller removed () disk).1 := by
  cases removed with
  | false => exact hprivate
  | true =>
      intro file hfile
      simp [secretPasswordClearSync] at hfile

/-- An operation leaves a private file private exactly if it is masked. -/
theorem Operation.private_iff {operation : Operation path} {disk next : Disk}
    (hprivate : Private path disk) (hnext : operation.completed disk = some next) :
    Private path next ↔ operation.Masked disk := by
  cases operation with
  | setup world here token => exact iff_of_true (private_of_chmod here hnext) trivial
  | imported world here file => exact iff_of_true (private_of_chmod here hnext) trivial
  | store caller here outcome password =>
      have hiff := private_store_iff caller outcome password (here.symm ▸ hprivate)
      rw [here] at hiff
      rw [← Option.some.inj hnext]
      exact hiff
  | clear caller here removed =>
      have hcleared := private_clear caller removed (here.symm ▸ hprivate)
      rw [here] at hcleared
      rw [← Option.some.inj hnext]
      exact iff_of_true hcleared trivial

/-- Only operations of `setup.sh` may not be completed. -/
theorem Operation.masked_of_not_completed {operation : Operation path} {disk : Disk}
    (hnone : operation.completed disk = none) : operation.Masked disk := by
  cases operation with
  | setup world here token => trivial
  | imported world here file => trivial
  | store caller here outcome password => cases hnone
  | clear caller here removed => cases hnone

/-- Starting with no file or a private one, the file is private after each operation
exactly if every store that creates it is masked. -/
theorem privateAfterEach_iff (operations : List (Operation path)) {disk : Disk}
    (hprivate : Private path disk) :
    PrivateAfterEach operations disk ↔ EachMasked operations disk := by
  induction operations generalizing disk with
  | nil => exact Iff.rfl
  | cons operation rest ih =>
      constructor
      · intro hafter
        cases hnext : operation.completed disk with
        | none =>
            exact ⟨operation.masked_of_not_completed hnext, by simp [hnext]⟩
        | some next =>
            obtain ⟨hprivateNext, hrest⟩ := hafter next hnext
            refine ⟨(operation.private_iff hprivate hnext).mp hprivateNext, fun other hother => ?_⟩
            obtain rfl : next = other := Option.some.inj (hnext.symm.trans hother)
            exact (ih hprivateNext).mp hrest
      · rintro ⟨hmasked, hrest⟩ next hnext
        have hprivateNext := (operation.private_iff hprivate hnext).mpr hmasked
        exact ⟨hprivateNext, (ih hprivateNext).mpr (hrest next hnext)⟩

/-! ## A new login -/

/-- A home in which setup has been run. -/
def homeWorld : SetupWorld where
  home := bytes "/home/user"
  tizenrobloxDir := []
  umask := 0o022#9
  secretTool := false
  applicationSecret := none
  schemaSecret := none
  hasCredentials := false
  firstCred := none
  tokenLine := none
  tvLine := none
  writeOk := true
  chmodOk := true
  sshOk := false
  scpOk := false
  tvUmask := 0o022#9

/-- A process of that home. -/
def homeCaller (umask : BitVec 9) : Caller := ⟨some (bytes "/home/user"), umask⟩

/-- Setup stores a token, Sober removes it and stores another one. -/
def newLogin (umask : BitVec 9) : List (Operation (bytes "/home/user/.tizenroblox_creds")) := [
  .setup homeWorld rfl (bytes "token"),
  .clear (homeCaller umask) rfl true,
  .store (homeCaller umask) rfl (.good (bytes "other")) (some ⟨bytes "other", by decide⟩)]

/-- Under a umask of 077 the file stays private. -/
theorem privateAfterEach_newLogin : PrivateAfterEach (newLogin 0o077#9) fun _ => none := by
  apply (privateAfterEach_iff _ (by simp [Private])).mpr
  exact ⟨trivial, fun _ _ => ⟨trivial, fun _ _ => ⟨fun _ _ => by decide, fun _ _ => trivial⟩⟩⟩

/-- Under the usual one everybody can read it in the end. -/
theorem not_privateAfterEach_newLogin : ¬ PrivateAfterEach (newLogin 0o022#9) fun _ => none := by
  intro hafter
  obtain ⟨-, hcleared⟩ := hafter _ rfl
  obtain ⟨-, hstored⟩ := hcleared _ rfl
  obtain ⟨hprivate, -⟩ := hstored _ rfl
  have hmode := hprivate _ rfl
  revert hmode
  decide

end TizenRoblox.Credentials
