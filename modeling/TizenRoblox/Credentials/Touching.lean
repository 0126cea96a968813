/-
# Which file the stub touches

The stub of libsecret puts the path of the credentials file into a buffer of its own. A path
that does not fit is cut off there without a word, and then the calls create, truncate, read
or remove what has the shorter name. So they keep to the credentials file exactly if its
path fits the buffer, or if they get at no file at all (`touchesOnly_iff`).

The calls are given here once more, step by step, with a record of what they do to which
file; without the record they are the calls of the stub.
-/

import TizenRoblox.Credentials.Libsecret

namespace TizenRoblox.Credentials

open TizenRoblox.Foundation

universe u

/-! ## File operations -/

inductive Access
  | created
  | truncated
  | read
  | removed
  deriving DecidableEq

/-- Something that is done to a file. -/
structure Touch where
  path : Bytes
  access : Access
  deriving DecidableEq

/-- The files, and what has been done to them. -/
structure Traced where
  disk : Disk
  touches : List Touch

namespace Traced

variable (path : Bytes) (files : Traced)

/-- `fopen(path, "w")`, if it succeeds: the file is empty, and new if there was none. -/
def openWrite (umask : BitVec 9) (opens : Bool) : Option Traced :=
  if ¬ opens then none
  else
    match files.disk path with
    | some file => some
        ⟨Function.update files.disk path (some { file with data := [] }),
          files.touches ++ [⟨path, .truncated⟩]⟩
    | none => some
        ⟨Function.update files.disk path (some ⟨[], createdMode umask⟩),
          files.touches ++ [⟨path, .created⟩]⟩

/-- `fprintf` and `fclose`, on a file that has been opened. -/
def append (text : Bytes) : Traced :=
  { files with
    disk := Function.update files.disk path
      ((files.disk path).map fun file => { file with data := file.data ++ text }) }

/-- `fopen(path, "r")`, `fread` and `fclose`: the bytes, if the file can be opened. -/
def readUpTo (size : ℕ) (opens : Bool) : Option Bytes × Traced :=
  match files.disk path with
  | some file =>
    if opens then
      (some (file.data.take size), { files with touches := files.touches ++ [⟨path, .read⟩] })
    else (none, files)
  | none => (none, files)

/-- `remove(path)` -/
def remove (removed : Bool) : Traced :=
  if removed then ⟨Function.update files.disk path none, files.touches ++ [⟨path, .removed⟩]⟩
  else files

end Traced

/-! ## The calls, step by step -/

section Calls

variable {Key : Type u} (caller : Caller) (files : Traced)

/-- `secret_password_store_sync` -/
def tracedStore (outcome : StoreOutcome) (password : Option CString) : Traced × Bool :=
  match files.openWrite (credPath caller.home) caller.umask outcome.opens with
  | none => (files, false)
  | some opened =>
    (opened.append (credPath caller.home) ((passwordText password).take outcome.reached), true)

/-- `secret_password_lookup_sync`; the argument says whether `fopen` succeeds on a file that is
there. -/
def tracedLookup (opens : Bool) : Option CString × Traced :=
  match files.readUpTo (credPath caller.home) bufferSize opens with
  | (none, next) => (none, next)
  | (some buffer, next) =>
    (if buffer = [] ∨ buffer.head? = some nul then none else some (.ofBuffer buffer), next)

/-- `secret_password_clear_sync` -/
def tracedClear (removed : Bool) : Traced × Bool :=
  (files.remove (credPath caller.home) removed, true)

/-- Without the record this is the store. -/
theorem tracedStore_disk (key : Key) (outcome : StoreOutcome)
    (password : Option CString) :
    ((tracedStore caller files outcome password).1.disk,
        (tracedStore caller files outcome password).2) =
      secretPasswordStoreSync caller outcome key password files.disk := by
  cases hopens : outcome.opens with
  | false => simp [tracedStore, Traced.openWrite, secretPasswordStoreSync, hopens]
  | true =>
      cases hfile : files.disk (credPath caller.home) <;>
        simp [tracedStore, Traced.openWrite, Traced.append, secretPasswordStoreSync, hopens, hfile]

/-- Without the record this is the lookup, where the file can be opened if it is there. -/
theorem tracedLookup_found (key : Key) :
    (tracedLookup caller files true).1 = secretPasswordLookupSync caller key files.disk := by
  cases hfile : files.disk (credPath caller.home) <;>
    simp [tracedLookup, Traced.readUpTo, secretPasswordLookupSync, hfile]

/-- A lookup changes no file. -/
theorem tracedLookup_disk (opens : Bool) :
    (tracedLookup caller files opens).2.disk = files.disk := by
  cases hfile : files.disk (credPath caller.home) <;> cases opens <;>
    simp [tracedLookup, Traced.readUpTo, hfile]

theorem tracedClear_disk (key : Key) (removed : Bool) :
    ((tracedClear caller files removed).1.disk, (tracedClear caller files removed).2) =
      secretPasswordClearSync caller removed key files.disk := by
  cases removed <;> simp [tracedClear, Traced.remove, secretPasswordClearSync]

/-- A call of the stub, and how its file operations turn out. -/
inductive StubCall
  | store (outcome : StoreOutcome) (password : Option CString)
  | lookup (opens : Bool)
  | clear (removed : Bool)

/-- The files after a call. -/
def StubCall.run : StubCall → Traced
  | .store outcome password => (tracedStore caller files outcome password).1
  | .lookup opens => (tracedLookup caller files opens).2
  | .clear removed => (tracedClear caller files removed).1

end Calls

/-! ## What is touched -/

/-- `$HOME/.tizenroblox_creds` -/
def credFile (home : Option Bytes) : Bytes := home.getD (bytes "/opt/tizenroblox") ++ credSuffix

/-- Since the first of two states nothing has been done to a file other than this one. -/
def TouchesOnly (path : Bytes) (before after : Traced) : Prop :=
  ∃ made, after.touches = before.touches ++ made ∧ ∀ touch ∈ made, touch.path = path

/-- The call gets at no file of this path. -/
def StubCall.Idle (path : Bytes) (disk : Disk) : StubCall → Prop
  | .store outcome _ => outcome.opens = false
  | .lookup opens => opens = false ∨ disk path = none
  | .clear removed => removed = false

section Touches

variable {caller : Caller} {files : Traced} {path : Bytes}

/-- The operations between two states touch the file of one path, unless they are idle. -/
def Touches (path : Bytes) (idle : Prop) (before after : Traced) : Prop :=
  ∃ made, after.touches = before.touches ++ made ∧ (∀ touch ∈ made, touch.path = path) ∧
    (made = [] ↔ idle)

theorem touches_nothing {idle : Prop} {before after : Traced} (hidle : idle)
    (hsame : after.touches = before.touches) : Touches path idle before after :=
  ⟨[], by rw [hsame, List.append_nil], nofun, iff_of_true rfl hidle⟩

theorem touches_once {idle : Prop} {before after : Traced} {access : Access} (hbusy : ¬ idle)
    (hmade : after.touches = before.touches ++ [⟨path, access⟩]) : Touches path idle before after :=
  ⟨[⟨path, access⟩], hmade, List.forall_mem_singleton.mpr rfl,
    iff_of_false (List.cons_ne_nil _ _) hbusy⟩

/-- A file that is opened to be written is created or truncated. -/
theorem openWrite_touches (umask : BitVec 9) :
    ∃ opened access, files.openWrite path umask true = some opened ∧
      opened.touches = files.touches ++ [⟨path, access⟩] := by
  cases hfile : files.disk path with
  | none =>
      exact ⟨⟨Function.update files.disk path (some ⟨[], createdMode umask⟩),
        files.touches ++ [⟨path, .created⟩]⟩, .created, by simp [Traced.openWrite, hfile], rfl⟩
  | some file =>
      exact ⟨⟨Function.update files.disk path (some { file with data := [] }),
        files.touches ++ [⟨path, .truncated⟩]⟩, .truncated, by simp [Traced.openWrite, hfile], rfl⟩

/-- A call touches the file of the path in the buffer, or nothing. -/
theorem StubCall.touches_run (call : StubCall) :
    Touches (credPath caller.home) (call.Idle (credPath caller.home) files.disk) files
      (call.run caller files) := by
  cases call with
  | store outcome password =>
      cases hopens : outcome.opens with
      | false =>
          apply touches_nothing hopens
          simp [run, tracedStore, Traced.openWrite, hopens]
      | true =>
          obtain ⟨opened, access, hopened, htouches⟩ :=
            @openWrite_touches files (credPath caller.home) caller.umask
          have hbusy :
              ¬ (StubCall.store outcome password).Idle (credPath caller.home) files.disk := by
            simp [Idle, hopens]
          apply touches_once hbusy
          rw [← htouches, run, tracedStore, hopens, hopened]
          rfl
  | lookup opens =>
      cases hfile : files.disk (credPath caller.home) with
      | none =>
          apply touches_nothing (.inr hfile)
          simp [run, tracedLookup, Traced.readUpTo, hfile]
      | some file =>
          cases opens with
          | false =>
              apply touches_nothing (.inl rfl)
              simp [run, tracedLookup, Traced.readUpTo, hfile]
          | true =>
              have hbusy : ¬ (StubCall.lookup true).Idle (credPath caller.home) files.disk := by
                simp [Idle, hfile]
              apply @touches_once _ _ _ _ .read hbusy
              simp [run, tracedLookup, Traced.readUpTo, hfile]
  | clear removed =>
      cases removed with
      | false => exact touches_nothing rfl rfl
      | true => exact @touches_once _ _ _ _ .removed nofun rfl

/-- A call keeps to a file exactly if that is the one in the buffer, or it gets at none. -/
theorem StubCall.keepsTo_iff (call : StubCall) :
    TouchesOnly path files (call.run caller files) ↔
      credPath caller.home = path ∨ call.Idle (credPath caller.home) files.disk := by
  obtain ⟨made, hmade, hpath, hidle⟩ := @touches_run caller files call
  rw [← hidle]
  constructor
  · rintro ⟨other, hother, honly⟩
    obtain rfl : made = other := List.append_cancel_left (hmade.symm.trans hother)
    cases made with
    | nil => exact .inr rfl
    | cons touch rest =>
        exact .inl ((hpath touch List.mem_cons_self).symm.trans (honly touch List.mem_cons_self))
  · rintro (rfl | rfl)
    · exact ⟨made, hmade, hpath⟩
    · exact ⟨[], hmade, nofun⟩

/-- What a call does not touch stays as it was. -/
theorem StubCall.disk_run (call : StubCall) (hpath : path ≠ credPath caller.home) :
    (call.run caller files).disk path = files.disk path := by
  cases call with
  | store outcome password =>
      have hdisk := congrArg Prod.fst (tracedStore_disk caller files () outcome password)
      simp only at hdisk
      rw [run, hdisk]
      unfold secretPasswordStoreSync
      split
      · rfl
      · exact Function.update_of_ne hpath _ _
  | lookup opens => rw [run, tracedLookup_disk]
  | clear removed =>
      have hdisk := congrArg Prod.fst (tracedClear_disk caller files () removed)
      simp only at hdisk
      rw [run, hdisk]
      unfold secretPasswordClearSync
      split
      · exact Function.update_of_ne hpath _ _
      · rfl

end Touches

theorem credPath_eq_iff (home : Option Bytes) :
    credPath home = credFile home ↔ (credFile home).length ≤ 511 :=
  List.take_eq_self_iff _

theorem TouchesOnly.trans {path : Bytes} {before middle after : Traced}
    (hfirst : TouchesOnly path before middle) (hsecond : TouchesOnly path middle after) :
    TouchesOnly path before after := by
  obtain ⟨first, hfirst, hfirstPath⟩ := hfirst
  obtain ⟨second, hsecond, hsecondPath⟩ := hsecond
  refine ⟨first ++ second, by rw [hsecond, hfirst, List.append_assoc], fun touch htouch => ?_⟩
  rcases List.mem_append.mp htouch with hold | hnew
  · exact hfirstPath touch hold
  · exact hsecondPath touch hnew

/-- The files after some calls of one process. -/
def runAll (caller : Caller) (calls : List StubCall) (files : Traced) : Traced :=
  calls.foldl (fun files call => call.run caller files) files

/-- If the path fits the buffer no calls touch anything else. -/
theorem touchesOnly_runAll {caller : Caller} (hfits : (credFile caller.home).length ≤ 511)
    (calls : List StubCall) (files : Traced) :
    TouchesOnly (credFile caller.home) files (runAll caller calls files) := by
  induction calls generalizing files with
  | nil => exact ⟨[], (List.append_nil _).symm, nofun⟩
  | cons call rest ih =>
      have hcall : TouchesOnly (credFile caller.home) files (call.run caller files) :=
        call.keepsTo_iff.mpr (.inl ((credPath_eq_iff caller.home).mpr hfits))
      exact hcall.trans (ih _)

/-- A call touches no file but the credentials file exactly if the path of that fits the
buffer, or the call gets at no file. So calls keep to it, whatever they find, exactly if the
path fits. -/
theorem touchesOnly_iff (home : Option Bytes) (umask : BitVec 9) :
    (∀ (call : StubCall) (files : Traced),
      TouchesOnly (credFile home) files (call.run ⟨home, umask⟩ files) ↔
        (credFile home).length ≤ 511 ∨ call.Idle (credPath home) files.disk) ∧
    ((∀ (calls : List StubCall) (files : Traced),
      TouchesOnly (credFile home) files (runAll ⟨home, umask⟩ calls files)) ↔
        (credFile home).length ≤ 511) := by
  have hcall (call : StubCall) (files : Traced) :
      TouchesOnly (credFile home) files (call.run ⟨home, umask⟩ files) ↔
        (credFile home).length ≤ 511 ∨ call.Idle (credPath home) files.disk := by
    rw [call.keepsTo_iff, credPath_eq_iff]
  refine ⟨hcall, fun hall => ?_, fun hfits calls files => touchesOnly_runAll hfits calls files⟩
  have hclear := hall [.clear true] ⟨fun _ => none, []⟩
  exact ((hcall (.clear true) _).mp hclear).resolve_right nofun

/-! ## A long home -/

/-- A directory whose path is one byte too long. -/
def longHome : Bytes :=
  slash :: List.replicate 200 104 ++ slash :: List.replicate 200 104 ++
    slash :: List.replicate 90 104

theorem length_longHome : longHome.length = 493 := by
  simp only [longHome, List.cons_append, List.length_append, List.length_cons,
    List.length_replicate]

/-- A directory of that name with a file whose name lacks the last letter. -/
def neighbour : Traced where
  disk path := if path = longHome ++ bytes "/.tizenroblox_cred" then some ⟨[], 0o600#9⟩ else none
  touches := []

/-- A clear removes that file. -/
theorem not_touchesOnly_longHome :
    ¬ ∀ (home : Bytes) (umask : BitVec 9) (call : StubCall) (files : Traced),
      TouchesOnly (home ++ credSuffix) files (call.run ⟨some home, umask⟩ files) := by
  intro hall
  have hclear := hall longHome 0o022#9 (.clear true) neighbour
  have hpath : credPath (some longHome) = credFile (some longHome) :=
    ((StubCall.clear true).keepsTo_iff.mp hclear).resolve_right nofun
  have hfits := (credPath_eq_iff (some longHome)).mp hpath
  have hsuffix : credSuffix.length = 19 := by decide
  rw [credFile, Option.getD_some, List.length_append, length_longHome, hsuffix] at hfits
  exact absurd hfits (by decide)

end TizenRoblox.Credentials
