/-
# Sessions with libsecret

All exports of the stub are put together here. What a client sees of them is what it would
see of objects that are kept apart from memory; nothing is freed twice and nothing is left
behind (`session_refines`).

Nor is every block blank when it is handed to `free`. `secret_password_wipe` clears a password
first; `secret_password_free` and `secret_value_unref` do not (`freedTexts_of_session`). What a
compiler makes of a `memset` before a `free`, and what an allocator leaves of a block, is not
looked at.
-/

import TizenRoblox.Credentials.Blocks

namespace TizenRoblox.Credentials

open TizenRoblox.Foundation

universe u v

/-! ## The library -/

/-- What the library works on: the files, and the heap it shares with its client. -/
structure Process (Address : Type v) where
  disk : Disk
  memory : Memory Address

/-- A call of one of the exports, with how the system calls in it turn out. -/
inductive LibraryCall (Key : Type u) (Address : Type v)
  | passwordStoreSync (key : Key) (outcome : StoreOutcome) (password : Option CString)
  | passwordLookupSync (key : Key) (opens : Bool) (answer : Option Address)
  | passwordClearSync (key : Key) (removed : Bool)
  | passwordFree (password : Option Address)
  | passwordWipe (password : Option Address)
  | serviceGetSync
  | serviceDisconnect
  | valueNew (answers : Answers Address) (secret : Bytes) (length : ℤ)
      (contentType : Option CString)
  | valueGet (value : Option Address)
  | valueGetText (value : Option Address)
  | valueUnref (value : Option Address)
  | errorFree
  | errorCopy

/-- What an export returns. -/
inductive Returned (Address : Type v)
  | nothing
  | null
  | flag (report : Bool)
  | password (pointer : Option Address)
  | value (pointer : Option Address)
  | text (pointer : Option Address)
  | secret (pointer : Option Address) (length : Option ℕ)
  deriving DecidableEq

section Library

variable {Key : Type u} {Address : Type v} [DecidableEq Address] (caller : Caller)

/-- What `secret_password_lookup_sync` finds in the file, if it can be opened. -/
def lookedUp (key : Key) (opens : Bool) (disk : Disk) : Option CString :=
  if opens then secretPasswordLookupSync caller key disk else none

/-- An export runs. -/
def serve (call : LibraryCall Key Address) (process : Process Address) :
    Option (Returned Address × Process Address) :=
  match call with
  | .passwordStoreSync key outcome password =>
      let (disk, report) := secretPasswordStoreSync caller outcome key password process.disk
      some (.flag report, ⟨disk, process.memory⟩)
  | .passwordLookupSync key opens answer =>
      let (pointer, memory) :=
        passwordLookup (lookedUp caller key opens process.disk) answer process.memory
      some (.password pointer, ⟨process.disk, memory⟩)
  | .passwordClearSync key removed =>
      let (disk, report) := secretPasswordClearSync caller removed key process.disk
      some (.flag report, ⟨disk, process.memory⟩)
  | .passwordFree password =>
      (passwordFree password process.memory).map fun memory => (.nothing, ⟨process.disk, memory⟩)
  | .passwordWipe password =>
      (passwordWipe password process.memory).map fun memory => (.nothing, ⟨process.disk, memory⟩)
  | .serviceGetSync => some (.null, process)
  | .serviceDisconnect => some (.nothing, process)
  | .valueNew answers secret length contentType =>
      (valueNew answers secret length contentType process.memory).map fun (pointer, memory) =>
        (.value pointer, ⟨process.disk, memory⟩)
  | .valueGet value =>
      (valueGet value process.memory).map fun (pointer, length) => (.secret pointer length, process)
  | .valueGetText value =>
      (valueGetText value process.memory).map fun pointer => (.text pointer, process)
  | .valueUnref value =>
      (valueUnref value process.memory).map fun memory => (.nothing, ⟨process.disk, memory⟩)
  | .errorFree => some (.nothing, process)
  | .errorCopy => some (.null, process)

/-- What a client can read of a result right after the call. -/
inductive Seen
  | nothing
  | null
  | flag (report : Bool)
  | password (text : Pointer)
  | value (value : Option SecretValue)
  | text (text : Pointer)
  | secret (text : Pointer) (length : Option ℕ)

def Returned.seen (live : Address → Option (Block Address)) : Returned Address → Seen
  | .nothing => .nothing
  | .null => .null
  | .flag report => .flag report
  | .password pointer => .password (textAt live pointer)
  | .value pointer => .value (pointer.bind (valueAt live))
  | .text pointer => .text (textAt live pointer)
  | .secret pointer length => .secret (textAt live pointer) length

/-- The calls of a client, one after the other, and what it sees of them. -/
def session : List (LibraryCall Key Address) → Process Address →
    Option (List Seen × Process Address)
  | [], process => some ([], process)
  | call :: rest, process => do
      let (returned, after) ← serve caller call process
      let (seen, final) ← session rest after
      some (returned.seen after.memory.live :: seen, final)

end Library

/-! ## Objects -/

/-- The files, and the objects of a client by the pointers it has for them. -/
structure Client (Address : Type v) where
  disk : Disk
  objects : Address → Option Object

namespace Client

variable {Key : Type u} {Address : Type v} [DecidableEq Address] (caller : Caller)

/-- A client that holds nothing. -/
def start (disk : Disk) : Client Address := ⟨disk, fun _ => none⟩

/-- The value that is held behind a pointer. -/
def valueOf (client : Client Address) (pointer : Option Address) : Option SecretValue :=
  match pointer.bind client.objects with
  | some (.value value) => some value
  | _ => none

/-- A new object is held, where the allocator had room for it. -/
def hold (client : Client Address) (answer : Option Address) (object : Object) : Client Address :=
  answer.elim client fun address =>
    ⟨client.disk, Function.update client.objects address (some object)⟩

/-- An object is handed back. -/
def drop (client : Client Address) (pointer : Option Address) : Client Address :=
  pointer.elim client fun address => ⟨client.disk, Function.update client.objects address none⟩

/-- What a call does with the objects. -/
def after (client : Client Address) : LibraryCall Key Address → Client Address
  | .passwordStoreSync key outcome password =>
      ⟨(secretPasswordStoreSync caller outcome key password client.disk).1, client.objects⟩
  | .passwordLookupSync key opens answer =>
      (lookedUp caller key opens client.disk).elim client fun text =>
        client.hold answer (.password text)
  | .passwordClearSync key removed =>
      ⟨(secretPasswordClearSync caller removed key client.disk).1, client.objects⟩
  | .passwordFree pointer | .passwordWipe pointer | .valueUnref pointer => client.drop pointer
  | .valueNew answers secret length contentType =>
      (secretValueNew answers.allocations secret length contentType).elim client fun value =>
        client.hold answers.value (.value value)
  | .serviceGetSync | .serviceDisconnect | .valueGet _ | .valueGetText _ | .errorFree
  | .errorCopy => client

/-- What a call shows of them. -/
def sees (client : Client Address) : LibraryCall Key Address → Seen
  | .passwordStoreSync key outcome password =>
      .flag (secretPasswordStoreSync caller outcome key password client.disk).2
  | .passwordLookupSync key opens answer =>
      .password ((lookedUp caller key opens client.disk).bind fun text =>
        strdup answer.isSome text.bytes)
  | .passwordClearSync key removed =>
      .flag (secretPasswordClearSync caller removed key client.disk).2
  | .valueNew answers secret length contentType =>
      .value (secretValueNew answers.allocations secret length contentType)
  | .valueGet pointer =>
      let (text, length) := secretValueGet (client.valueOf pointer)
      .secret text length
  | .valueGetText pointer => .text (secretValueGetText (client.valueOf pointer))
  | .serviceGetSync | .errorCopy => .null
  | .passwordFree _ | .passwordWipe _ | .serviceDisconnect | .valueUnref _ | .errorFree => .nothing

/-- The texts that a call hands to `free` as they are. -/
def unwiped (client : Client Address) : LibraryCall Key Address → List Bytes
  | .passwordFree (some pointer) =>
      match client.objects pointer with
      | some (.password text) => [text.bytes ++ [nul]]
      | _ => []
  | .valueUnref (some pointer) =>
      match client.objects pointer with
      | some (.value value) => value.secret.toList ++ value.contentType.toList
      | _ => []
  | _ => []

/-- A session with objects. -/
def session (client : Client Address) : List (LibraryCall Key Address) → List Seen × Client Address
  | [] => ([], client)
  | call :: rest =>
      let (seen, final) := (client.after caller call).session rest
      (client.sees caller call :: seen, final)

/-- The texts that a session hands to `free` so that they can be read. -/
def allUnwiped (client : Client Address) : List (LibraryCall Key Address) → List Bytes
  | [] => []
  | call :: rest =>
      (client.unwiped call).filter readable ++ (client.after caller call).allUnwiped rest

/-- The client hands each object back once, to a function for it, uses no object that it does
not hold, and gives a text that ends where it says. -/
def Proper (client : Client Address) : LibraryCall Key Address → Prop
  | .passwordFree (some pointer) | .passwordWipe (some pointer) =>
      ∃ text, client.objects pointer = some (.password text)
  | .valueGet (some pointer) | .valueGetText (some pointer) | .valueUnref (some pointer) =>
      ∃ value, client.objects pointer = some (.value value)
  | .valueNew _ secret length _ => Copyable secret length
  | _ => True

instance (client : Client Address) :
    (call : LibraryCall Key Address) → Decidable (client.Proper call)
  | .passwordFree (some pointer) | .passwordWipe (some pointer) =>
      match hheld : client.objects pointer with
      | some (.password text) => .isTrue ⟨text, hheld⟩
      | some (.value _) | none => .isFalse (by simp [Proper, hheld])
  | .valueGet (some pointer) | .valueGetText (some pointer) | .valueUnref (some pointer) =>
      match hheld : client.objects pointer with
      | some (.value value) => .isTrue ⟨value, hheld⟩
      | some (.password _) | none => .isFalse (by simp [Proper, hheld])
  | .valueNew _ secret length _ => inferInstanceAs (Decidable (Copyable secret length))
  | .passwordStoreSync .. | .passwordLookupSync .. | .passwordClearSync .. | .passwordFree none
  | .passwordWipe none | .serviceGetSync | .serviceDisconnect | .valueGet none
  | .valueGetText none | .valueUnref none | .errorFree | .errorCopy => .isTrue trivial

end Client

/-! ## Sessions -/

section Sessions

variable {Key : Type u} {Address : Type v}

/-- The allocator answers with blocks that are not in use, and with no two of them alike. -/
def Answered (live : Address → Option (Block Address)) : LibraryCall Key Address → Prop
  | .passwordLookupSync _ _ answer => ∀ address ∈ answer, live address = none
  | .valueNew answers _ _ _ =>
      answers.addresses.Nodup ∧ ∀ address ∈ answers.addresses, live address = none
  | _ => True

/-- The process has the files and the objects of the client. -/
structure Matches (before : Address → Option (Block Address)) (client : Client Address)
    (process : Process Address) : Prop where
  disk : process.disk = client.disk
  represents : Represents before client.objects process.memory.live

variable {before : Address → Option (Block Address)} {client : Client Address}
  {process : Process Address}

/-- What is read through a pointer to a value that is held. -/
theorem fieldsOf_eq (hmatches : Matches before client process) {pointer : Address}
    {value : SecretValue} (hheld : client.objects pointer = some (.value value)) :
    ∃ secret contentType,
      fieldsOf pointer process.memory = some (secret, value.length, contentType) ∧
      textAt process.memory.live secret = value.secret ∧
      client.valueOf (some pointer) = some value := by
  obtain ⟨secret, contentType, hblock, hsecret, -⟩ :=
    valueAt_eq_some (hmatches.represents.holds pointer _ hheld)
  exact ⟨secret, contentType, by simp [fieldsOf, hblock], hsecret, by simp [Client.valueOf, hheld]⟩

variable {caller : Caller} [DecidableEq Address]

/-- A call is served as it would be served with objects. -/
def ServedAs (caller : Caller) (before : Address → Option (Block Address))
    (client : Client Address) (process : Process Address) (call : LibraryCall Key Address) : Prop :=
  ∃ returned after, serve caller call process = some (returned, after) ∧
    Matches before (client.after caller call) after ∧
    returned.seen after.memory.live = client.sees caller call ∧
    freedTexts after.memory =
      freedTexts process.memory ++ (client.unwiped call).filter readable

theorem served_lookup (hmatches : Matches before client process) (key : Key) (opens : Bool)
    {answer : Option Address} (hanswered : ∀ address ∈ answer, process.memory.live address = none) :
    ServedAs caller before client process (.passwordLookupSync key opens answer) := by
  obtain ⟨hdisk, hrepresents⟩ := hmatches
  have hfound : lookedUp caller key opens client.disk = lookedUp caller key opens process.disk := by
    rw [hdisk]
  cases hlooked : lookedUp caller key opens process.disk with
  | none =>
      rw [hlooked] at hfound
      refine ⟨.password none, process, by simp [serve, hlooked, passwordLookup], ?_, ?_, ?_⟩
      · simpa [Client.after, hfound] using Matches.mk hdisk hrepresents
      · simp [Returned.seen, Client.sees, hfound, textAt]
      · simp [Client.unwiped]
  | some text =>
      rw [hlooked] at hfound
      cases answer with
      | none =>
          refine ⟨.password none, process, by simp [serve, hlooked, passwordLookup, place],
            ?_, ?_, ?_⟩
          · simpa [Client.after, hfound, Client.hold] using Matches.mk hdisk hrepresents
          · simp [Returned.seen, Client.sees, hfound, textAt, strdup]
          · simp [Client.unwiped]
      | some address =>
          have hnew := hanswered address rfl
          refine ⟨.password (some address),
            ⟨process.disk, place (some address) (text.bytes ++ [nul]) process.memory⟩,
            by simp [serve, hlooked, passwordLookup], ?_, ?_, ?_⟩
          · simp only [Client.after, hfound, Option.elim_some, Client.hold]
            exact ⟨hdisk, represents_place hrepresents hnew text⟩
          · simp only [Returned.seen, Client.sees, hfound, Option.bind_some, Option.isSome_some,
              strdup_bytes, if_true]
            simp [textAt, place_live, Block.text?]
          · simp [Client.unwiped, place, Heap.put, freedTexts]

theorem served_free (hmatches : Matches before client process) {pointer : Address} {text : CString}
    (hheld : client.objects pointer = some (.password text)) :
    ServedAs caller before client process
      (.passwordFree (some pointer) : LibraryCall Key Address) := by
  obtain ⟨hdisk, hrepresents⟩ := hmatches
  have hblock : process.memory.live pointer = some (.text (text.bytes ++ [nul])) :=
    hrepresents.holds pointer _ hheld
  have htree : tree Block.parts process.memory.live pointer = [pointer] := by
    simp [tree, hblock, Block.parts]
  have hroot : client.objects pointer ≠ none := by simp [hheld]
  obtain ⟨after, hfreed, hafter, hleft⟩ := freeAll_tree hrepresents hroot
  rw [htree] at hfreed hleft
  refine ⟨.nothing, ⟨process.disk, after⟩, ?_, ⟨hdisk, hafter⟩, rfl, ?_⟩
  · rw [serve, passwordFree, free_eq_freeAll, Option.toList_some, hfreed]
    rfl
  · rw [hleft]
    simp [Client.unwiped, hheld, textAt, hblock, Block.text?]

theorem served_wipe (hmatches : Matches before client process) {pointer : Address} {text : CString}
    (hheld : client.objects pointer = some (.password text)) :
    ServedAs caller before client process
      (.passwordWipe (some pointer) : LibraryCall Key Address) := by
  obtain ⟨hdisk, hrepresents⟩ := hmatches
  have hblock : process.memory.live pointer = some (.text (text.bytes ++ [nul])) :=
    hrepresents.holds pointer _ hheld
  have htree : tree Block.parts process.memory.live pointer = [pointer] := by
    simp [tree, hblock, Block.parts]
  have hcleared : (process.memory.put pointer (.text (wiped (text.bytes ++ [nul])))).live pointer =
      some (.text (wiped (text.bytes ++ [nul]))) := Function.update_self ..
  refine ⟨.nothing, ⟨process.disk, ⟨Function.update process.memory.live pointer none,
    process.memory.released ++ [(pointer, .text (wiped (text.bytes ++ [nul])))]⟩⟩, ?_,
    ⟨hdisk, ?_⟩, rfl, ?_⟩
  · simp only [serve, passwordWipe, hblock, List.mem_append, List.mem_singleton, or_true, if_true,
      Heap.free_of_live hcleared, Option.map_some]
    simp [Heap.put]
  · apply hrepresents.drop (by simp [hheld]) <;> rw [htree]
    · simp
    · intro address haddress
      exact Function.update_of_ne (by simpa using haddress) ..
  · rw [freedTexts_append rfl]
    simp [Client.unwiped, Block.text?, readable_wiped]

theorem served_new (hmatches : Matches before client process) {answers : Answers Address}
    {secret : Bytes} {length : ℤ} (contentType : Option CString)
    (hcopyable : Copyable secret length) (hdistinct : answers.addresses.Nodup)
    (hnew : ∀ address ∈ answers.addresses, process.memory.live address = none) :
    ServedAs caller before client process
      (.valueNew answers secret length contentType : LibraryCall Key Address) := by
  obtain ⟨hdisk, hrepresents⟩ := hmatches
  cases hvalue : answers.value with
  | none =>
      have hbuilt : secretValueNew answers.allocations secret length contentType = none := by
        simp [secretValueNew, Answers.allocations, hvalue]
      refine ⟨.value none, process, by simp [serve, valueNew, hvalue], ?_, ?_, ?_⟩
      · simpa [Client.after, hbuilt] using Matches.mk hdisk hrepresents
      · simp [Returned.seen, Client.sees, hbuilt]
      · simp [Client.unwiped]
  | some root =>
      obtain ⟨after, value, hrun, hbuilt, hvalueAt, hafter, hreleased⟩ :=
        represents_valueNew hrepresents contentType hvalue hcopyable hdistinct hnew
      refine ⟨.value (some root), ⟨process.disk, after⟩, by simp [serve, hrun], ?_, ?_, ?_⟩
      · simp only [Client.after, hbuilt, Option.elim_some, Client.hold, hvalue]
        exact ⟨hdisk, hafter⟩
      · simp [Returned.seen, Client.sees, hbuilt, hvalueAt]
      · simp [Client.unwiped, freedTexts, hreleased]

theorem served_unref (hmatches : Matches before client process) {pointer : Address}
    {value : SecretValue} (hheld : client.objects pointer = some (.value value)) :
    ServedAs caller before client process
      (.valueUnref (some pointer) : LibraryCall Key Address) := by
  obtain ⟨hdisk, hrepresents⟩ := hmatches
  have hroot : client.objects pointer ≠ none := by simp [hheld]
  obtain ⟨secret, contentType, hblock, hsecret, hcontentType⟩ :=
    valueAt_eq_some (hrepresents.holds pointer _ hheld)
  obtain ⟨after, hfreed, hafter, hleft⟩ := freeAll_tree hrepresents hroot
  have hunref := valueUnref_eq hblock (hrepresents.apart.distinct pointer hroot)
    (hrepresents.apart.allocated pointer hroot)
  have htexts : ((tree Block.parts process.memory.live pointer).filterMap fun address =>
      textAt process.memory.live (some address)) =
      value.secret.toList ++ value.contentType.toList := by
    have htext : ∀ part : Option Address, (part.toList.filterMap fun address =>
        textAt process.memory.live (some address)) = (textAt process.memory.live part).toList := by
      intro part
      cases part with
      | none => rfl
      | some address =>
          cases htextAt : textAt process.memory.live (some address) <;> simp [htextAt]
    have hself : textAt process.memory.live (some pointer) = none := by
      simp [textAt, hblock, Block.text?]
    rw [← hsecret, ← hcontentType, ← htext, ← htext]
    simp [tree, hblock, Block.parts, hself]
  refine ⟨.nothing, ⟨process.disk, after⟩, ?_, ⟨hdisk, hafter⟩, rfl, ?_⟩
  · rw [serve, hunref, hfreed]
    rfl
  · rw [hleft, htexts]
    simp [Client.unwiped, hheld]

/-- A call that does nothing to memory. -/
theorem served_idle (hmatches : Matches before client process) {call : LibraryCall Key Address}
    {returned : Returned Address} (hserve : serve caller call process = some (returned, process))
    (hafter : client.after caller call = client)
    (hseen : returned.seen process.memory.live = client.sees caller call)
    (hunwiped : client.unwiped call = []) :
    ServedAs caller before client process call :=
  ⟨returned, process, hserve, by rwa [hafter], hseen, by simp [hunwiped]⟩

/-- Every proper call is served as it would be with objects. -/
theorem serve_matches (hmatches : Matches before client process) {call : LibraryCall Key Address}
    (hproper : client.Proper call) (hanswered : Answered process.memory.live call) :
    ServedAs caller before client process call := by
  cases call with
  | passwordStoreSync key outcome password =>
      refine ⟨.flag (secretPasswordStoreSync caller outcome key password process.disk).2,
        ⟨(secretPasswordStoreSync caller outcome key password process.disk).1, process.memory⟩, rfl,
        ⟨?_, hmatches.represents⟩, ?_, by simp [Client.unwiped]⟩
      · simp only [Client.after, hmatches.disk]
      · simp only [Returned.seen, Client.sees, hmatches.disk]
  | passwordLookupSync key opens answer => exact served_lookup hmatches key opens hanswered
  | passwordClearSync key removed =>
      refine ⟨.flag (secretPasswordClearSync caller removed key process.disk).2,
        ⟨(secretPasswordClearSync caller removed key process.disk).1, process.memory⟩, rfl,
        ⟨?_, hmatches.represents⟩, ?_, by simp [Client.unwiped]⟩
      · simp only [Client.after, hmatches.disk]
      · simp only [Returned.seen, Client.sees, hmatches.disk]
  | passwordFree password =>
      cases password with
      | none => exact served_idle hmatches rfl rfl rfl rfl
      | some pointer =>
          obtain ⟨text, hheld⟩ := hproper
          exact served_free hmatches hheld
  | passwordWipe password =>
      cases password with
      | none => exact served_idle hmatches rfl rfl rfl rfl
      | some pointer =>
          obtain ⟨text, hheld⟩ := hproper
          exact served_wipe hmatches hheld
  | serviceGetSync => exact served_idle hmatches rfl rfl rfl rfl
  | serviceDisconnect => exact served_idle hmatches rfl rfl rfl rfl
  | valueNew answers secret length contentType =>
      exact served_new hmatches contentType hproper hanswered.1 hanswered.2
  | valueGet value =>
      cases value with
      | none => exact served_idle hmatches rfl rfl rfl rfl
      | some pointer =>
          obtain ⟨value, hheld⟩ := hproper
          obtain ⟨secret, contentType, hfields, hsecret, hvalueOf⟩ := fieldsOf_eq hmatches hheld
          have hserve : serve caller (.valueGet (some pointer) : LibraryCall Key Address) process =
              some (.secret secret (some value.length), process) := by
            simp [serve, valueGet, hfields]
          apply served_idle hmatches hserve rfl _ rfl
          simp [Returned.seen, Client.sees, hvalueOf, secretValueGet, hsecret]
  | valueGetText value =>
      cases value with
      | none => exact served_idle hmatches rfl rfl rfl rfl
      | some pointer =>
          obtain ⟨value, hheld⟩ := hproper
          obtain ⟨secret, contentType, hfields, hsecret, hvalueOf⟩ := fieldsOf_eq hmatches hheld
          have hserve : serve caller (.valueGetText (some pointer) : LibraryCall Key Address)
              process = some (.text secret, process) := by
            simp [serve, valueGetText, hfields]
          apply served_idle hmatches hserve rfl _ rfl
          simp [Returned.seen, Client.sees, hvalueOf, secretValueGetText, hsecret]
  | valueUnref value =>
      cases value with
      | none => exact served_idle hmatches rfl rfl rfl rfl
      | some pointer =>
          obtain ⟨value, hheld⟩ := hproper
          exact served_unref hmatches hheld
  | errorFree => exact served_idle hmatches rfl rfl rfl rfl
  | errorCopy => exact served_idle hmatches rfl rfl rfl rfl

/-- Every call is proper, and the allocator answers it with new blocks. -/
def Orderly (caller : Caller) : Client Address → Process Address →
    List (LibraryCall Key Address) → Prop
  | _, _, [] => True
  | client, process, call :: rest =>
      client.Proper call ∧ Answered process.memory.live call ∧
        ∀ returned after, serve caller call process = some (returned, after) →
          Orderly caller (client.after caller call) after rest

instance (live : Address → Option (Block Address)) :
    (call : LibraryCall Key Address) → Decidable (Answered live call)
  | .passwordLookupSync _ _ answer =>
      inferInstanceAs (Decidable (∀ address ∈ answer, live address = none))
  | .valueNew answers _ _ _ => inferInstanceAs (Decidable (_ ∧ ∀ address ∈ answers.addresses, _))
  | .passwordStoreSync .. | .passwordClearSync .. | .passwordFree _ | .passwordWipe _
  | .serviceGetSync | .serviceDisconnect | .valueGet _ | .valueGetText _ | .valueUnref _
  | .errorFree | .errorCopy => .isTrue trivial

instance (caller : Caller) : (client : Client Address) → (process : Process Address) →
    (calls : List (LibraryCall Key Address)) → Decidable (Orderly caller client process calls)
  | _, _, [] => .isTrue trivial
  | client, process, call :: rest =>
      match hserve : serve caller call process with
      | none => decidable_of_iff (client.Proper call ∧ Answered process.memory.live call)
          (by simp [Orderly, hserve])
      | some (returned, after) =>
          have := instDecidableOrderly caller (client.after caller call) after rest
          decidable_of_iff (client.Proper call ∧ Answered process.memory.live call ∧
            Orderly caller (client.after caller call) after rest) (by simp [Orderly, hserve])

theorem session_matches (hmatches : Matches before client process)
    {calls : List (LibraryCall Key Address)} (horderly : Orderly caller client process calls) :
    ∃ final, session caller calls process = some ((client.session caller calls).1, final) ∧
      Matches before (client.session caller calls).2 final ∧
      freedTexts final.memory = freedTexts process.memory ++ client.allUnwiped caller calls := by
  induction calls generalizing client process with
  | nil => exact ⟨process, rfl, hmatches, by simp [Client.allUnwiped]⟩
  | cons call rest ih =>
      obtain ⟨hproper, hanswered, hrest⟩ := horderly
      obtain ⟨returned, after, hserve, hafter, hseen, hleft⟩ :=
        serve_matches hmatches hproper hanswered
      obtain ⟨final, hsession, hfinal, hleftRest⟩ := ih hafter (hrest returned after hserve)
      refine ⟨final, ?_, hfinal, ?_⟩
      · simp only [session, hserve, hsession, hseen, Option.bind_eq_bind, Option.bind_some]
        rfl
      · rw [hleftRest, hleft, List.append_assoc]
        rfl

/-- An orderly client sees of the library what it would see of objects that are kept apart
from memory; no call goes wrong. When it has handed back everything, the heap is as it was. -/
theorem session_refines (disk : Disk) (memory : Memory Address)
    (calls : List (LibraryCall Key Address))
    (horderly : Orderly caller (.start disk) ⟨disk, memory⟩ calls) :
    ∃ final, session caller calls ⟨disk, memory⟩ =
        some (((Client.start disk).session caller calls).1, final) ∧
      Matches memory.live ((Client.start disk).session caller calls).2 final ∧
      ((∀ pointer, ((Client.start disk).session caller calls).2.objects pointer = none) →
        final.memory.live = memory.live) := by
  have hstart : Matches memory.live (Client.start disk) ⟨disk, memory⟩ :=
    ⟨rfl, Represents.start memory.live⟩
  obtain ⟨final, hsession, hfinal, -⟩ := session_matches hstart horderly
  refine ⟨final, hsession, hfinal, ?_⟩
  intro hnone
  have hroots : {pointer | ((Client.start disk).session caller calls).2.objects pointer ≠ none} =
      ∅ := by
    ext pointer
    simp [hnone pointer]
  have happart := hfinal.represents.apart
  rw [hroots] at happart
  exact happart.live_of_empty

end Sessions

/-- A home with a credential in it, and a heap with nothing in it. -/
def oneLogin : Process ℕ := ⟨oneCredential, ⟨fun _ => none, []⟩⟩

/-- A password that is looked up, and a value that is built of a part of a text. -/
def bothObjects (returnPassword : Option ℕ → LibraryCall Unit ℕ) :
    List (LibraryCall Unit ℕ) := [
  .passwordLookupSync () true (some 0),
  .valueNew ⟨some 1, some 2, none⟩ (bytes "token") 3 none,
  .valueGet (some 1),
  returnPassword (some 0),
  .valueUnref (some 1)]

theorem session_refines_bothObjects :
    ∃ final, session ⟨none, 0#9⟩ (bothObjects .passwordWipe) oneLogin =
        some (((Client.start oneCredential).session ⟨none, 0#9⟩ (bothObjects .passwordWipe)).1,
          final) ∧
      Matches (fun _ => none)
        ((Client.start oneCredential).session ⟨none, 0#9⟩ (bothObjects .passwordWipe)).2 final ∧
      ((∀ pointer, ((Client.start oneCredential).session ⟨none, 0#9⟩
          (bothObjects .passwordWipe)).2.objects pointer = none) →
        final.memory.live = fun _ => none) :=
  session_refines oneCredential ⟨fun _ => none, []⟩ (bothObjects .passwordWipe) (by decide)

/-! ## What is handed to `free` -/

section FreedTexts

variable {Key : Type u} {Address : Type v} {caller : Caller} {client : Client Address}

theorem lookedUp_ne_nil {key : Key} {opens : Bool} {disk : Disk} {text : CString}
    (hfound : lookedUp caller key opens disk = some text) : text.bytes ≠ [] := by
  rw [lookedUp] at hfound
  split at hfound
  · rw [secretPasswordLookupSync] at hfound
    split at hfound
    · cases hfound
    · next file hfile =>
        dsimp only at hfound
        split at hfound
        · cases hfound
        · next hbuffer =>
            obtain rfl := Option.some.inj hfound
            intro hempty
            apply hbuffer
            cases htaken : file.data.take bufferSize with
            | nil => exact Or.inl rfl
            | cons byte rest =>
                rw [htaken, CString.ofBuffer_bytes, List.takeWhile_cons] at hempty
                by_cases hbyte : byte = nul
                · exact Or.inr (by simp [hbyte])
                · simp [hbyte] at hempty
  · cases hfound

/-- The passwords that a client holds are not empty. -/
def Client.Found (client : Client Address) : Prop :=
  ∀ pointer text, client.objects pointer = some (.password text) → text.bytes ≠ []

/-- A password that is freed is handed over as it is. -/
theorem unwiped_iff (hfound : client.Found) {call : LibraryCall Key Address}
    (hproper : client.Proper call) (hvalue : ∀ value, call ≠ .valueUnref (some value)) :
    (client.unwiped call).filter readable = [] ↔
      ∀ password, call ≠ .passwordFree (some password) := by
  cases call with
  | passwordFree password =>
      cases password with
      | none => simp [Client.unwiped]
      | some pointer =>
          obtain ⟨text, hheld⟩ := hproper
          have hreadable : readable (text.bytes ++ [nul]) = true := by
            obtain ⟨byte, hbyte⟩ := List.exists_mem_of_ne_nil _ (hfound pointer text hheld)
            rw [readable, List.any_eq_true]
            have hne : byte ≠ nul := fun heq => text.noNul (heq ▸ hbyte)
            exact ⟨byte, List.mem_append_left _ hbyte, by simpa using hne⟩
          simp [Client.unwiped, hheld, hreadable]
  | valueUnref value =>
      cases value with
      | none => simp [Client.unwiped]
      | some pointer => exact absurd rfl (hvalue pointer)
  | _ => simp [Client.unwiped]

variable [DecidableEq Address]

theorem Client.Found.hold (hfound : client.Found) {object : Object}
    (hobject : ∀ text, object = .password text → text.bytes ≠ []) (answer : Option Address) :
    (client.hold answer object).Found := by
  cases answer with
  | none => exact hfound
  | some address =>
      intro pointer text hheld
      by_cases hsame : pointer = address
      · rw [hsame] at hheld
        exact hobject text (by simpa [Client.hold] using hheld)
      · exact hfound pointer text (by simpa [Client.hold, hsame] using hheld)

theorem Client.Found.drop (hfound : client.Found) (pointer : Option Address) :
    (client.drop pointer).Found := by
  cases pointer with
  | none => exact hfound
  | some address =>
      intro other text hheld
      by_cases hsame : other = address
      · simp [Client.drop, hsame] at hheld
      · exact hfound other text (by simpa [Client.drop, hsame] using hheld)

theorem Client.Found.after (hfound : client.Found) (call : LibraryCall Key Address) :
    (client.after caller call).Found := by
  cases call with
  | passwordLookupSync key opens answer =>
      cases hlooked : lookedUp caller key opens client.disk with
      | none => simpa [Client.after, hlooked] using hfound
      | some text =>
          simp only [Client.after, hlooked, Option.elim_some]
          apply hfound.hold
          rintro _ ⟨⟩
          exact lookedUp_ne_nil hlooked
  | valueNew answers secret length contentType =>
      cases hbuilt : secretValueNew answers.allocations secret length contentType with
      | none => simpa [Client.after, hbuilt] using hfound
      | some value =>
          simp only [Client.after, hbuilt, Option.elim_some]
          exact hfound.hold (fun _ heq => by cases heq) answers.value
  | passwordFree pointer | passwordWipe pointer | valueUnref pointer => exact hfound.drop pointer
  | _ => exact hfound

variable {process : Process Address} {before : Address → Option (Block Address)}

theorem allUnwiped_iff (hfound : client.Found) (hmatches : Matches before client process)
    {calls : List (LibraryCall Key Address)} (horderly : Orderly caller client process calls)
    (hvalue : ∀ value, .valueUnref (some value) ∉ calls) :
    client.allUnwiped caller calls = [] ↔ ∀ password, .passwordFree (some password) ∉ calls := by
  induction calls generalizing client process with
  | nil => simp [Client.allUnwiped]
  | cons call rest ih =>
      obtain ⟨hproper, hanswered, hrest⟩ := horderly
      obtain ⟨returned, after, hserve, hafter, -, -⟩ := serve_matches hmatches hproper hanswered
      have hcall := unwiped_iff hfound hproper fun value heq => hvalue value (by simp [heq])
      have hlater := ih (hfound.after call) hafter (hrest returned after hserve)
        fun value hmem => hvalue value (List.mem_cons_of_mem _ hmem)
      rw [Client.allUnwiped, List.append_eq_nil_iff, hcall, hlater]
      simp only [List.mem_cons, not_or, ne_eq, forall_and, eq_comm]

/-- What can be read in the blocks that a session hands to `free`: the passwords that were
freed and not wiped, and the texts of the values. Of a client that hands back no value nothing
is handed to `free` that can be read if it wipes each password that it hands back, and only
then. -/
theorem freedTexts_of_session (disk : Disk) (memory : Memory Address)
    (calls : List (LibraryCall Key Address))
    (horderly : Orderly caller (.start disk) ⟨disk, memory⟩ calls) :
    ∃ seen final, session caller calls ⟨disk, memory⟩ = some (seen, final) ∧
      freedTexts final.memory = freedTexts memory ++ (Client.start disk).allUnwiped caller calls ∧
      ((∀ value, .valueUnref (some value) ∉ calls) →
        (freedTexts final.memory = freedTexts memory ↔
          ∀ password, .passwordFree (some password) ∉ calls)) := by
  have hstart : Matches memory.live (Client.start disk) ⟨disk, memory⟩ :=
    ⟨rfl, Represents.start memory.live⟩
  obtain ⟨final, hsession, -, hleft⟩ := session_matches hstart horderly
  refine ⟨_, final, hsession, hleft, ?_⟩
  intro hvalue
  have hfound : (Client.start disk : Client Address).Found := by
    intro pointer text hheld
    cases hheld
  rw [hleft, List.append_right_eq_self]
  exact allUnwiped_iff hfound hstart horderly hvalue

end FreedTexts

/-- Of the two objects the text of the value can be read in its block, and so can the password,
which is not wiped. -/
theorem freedTexts_of_session_bothObjects :
    ∃ seen final,
      session ⟨none, 0#9⟩ (bothObjects .passwordFree) oneLogin = some (seen, final) ∧
        freedTexts final.memory = [bytes "secret" ++ [nul], bytes "tok" ++ [nul]] := by
  have horderly : Orderly ⟨none, 0#9⟩ (.start oneCredential) oneLogin
      (bothObjects .passwordFree) := by decide
  obtain ⟨seen, final, hsession, hleft, -⟩ := freedTexts_of_session _ _ _ horderly
  exact ⟨seen, final, hsession, hleft.trans (by decide)⟩

end TizenRoblox.Credentials
