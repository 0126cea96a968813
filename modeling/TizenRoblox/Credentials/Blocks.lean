/-
# Blocks of credentials

A password that was looked up and a `SecretValue` are blocks on the heap, which the client
holds until it hands them back. The functions of the stub that allocate, read and free them
are given here, and what memory they leave: it represents the objects that the client holds,
each in blocks of its own (`Represents`).
-/

import TizenRoblox.Credentials.Libsecret
import TizenRoblox.Credentials.SecretValue
import TizenRoblox.Foundation.Heap

namespace TizenRoblox.Credentials

open TizenRoblox.Foundation

universe u v

/-! ## Blocks -/

/-- What a block holds: a text, or the fields of a `SecretValue`. -/
inductive Block (Address : Type v)
  | text (bytes : Bytes)
  | value (secret : Option Address) (length : ℕ) (contentType : Option Address)
  deriving DecidableEq

abbrev Memory (Address : Type v) := Heap Address (Block Address)

section Reading

variable {Address : Type v}

/-- The blocks that go with a block. -/
def Block.parts : Block Address → List Address
  | .text _ => []
  | .value secret _ contentType => secret.toList ++ contentType.toList

def Block.text? : Block Address → Option Bytes
  | .text bytes => some bytes
  | .value .. => none

/-- The text behind a pointer. -/
def textAt (live : Address → Option (Block Address)) (pointer : Option Address) : Pointer :=
  (pointer.bind live).bind Block.text?

/-- The value at an address, with the texts that it points to. -/
def valueAt (live : Address → Option (Block Address)) (address : Address) : Option SecretValue :=
  match live address with
  | some (.value secret length contentType) =>
      some ⟨textAt live secret, length, textAt live contentType⟩
  | _ => none

/-- A text of which a byte can be read. -/
def readable (text : Bytes) : Bool := text.any (· ≠ nul)

/-- The texts that could be read in blocks when they were handed to `free`. -/
def freedTexts (memory : Memory Address) : List Bytes :=
  (memory.released.filterMap fun entry => entry.2.text?).filter readable

end Reading

/-! ## The functions -/

section Functions

variable {Address : Type v} [DecidableEq Address]

/-- A copy of a text, at the address that the allocator answered with. -/
def place (answer : Option Address) (text : Bytes) (memory : Memory Address) : Memory Address :=
  answer.elim memory fun address => memory.put address (.text text)

/-- `secret_password_lookup_sync`, of what was found in the file. -/
def passwordLookup (found : Option CString) (answer : Option Address) (memory : Memory Address) :
    Option Address × Memory Address :=
  match found with
  | none => (none, memory)
  | some text => (answer, place answer (text.bytes ++ [nul]) memory)

/-- `secret_password_free` -/
def passwordFree (password : Option Address) (memory : Memory Address) : Option (Memory Address) :=
  memory.free password

/-- `memset(password, 0, strlen(password))` -/
def wiped (text : Bytes) : Bytes := List.replicate (strlen text) nul ++ text.drop (strlen text)

/-- `secret_password_wipe` -/
def passwordWipe : Option Address → Memory Address → Option (Memory Address)
  | none, memory => some memory
  | some password, memory =>
      match memory.live password with
      | some (.text text) =>
          -- `strlen` reads on where no NUL ends the text
          if nul ∈ text then (memory.put password (.text (wiped text))).free (some password)
          else none
      | _ => none

/-- What the allocator answers to the three requests for a value. -/
structure Answers (Address : Type v) where
  value : Option Address
  secret : Option Address
  contentType : Option Address
  deriving DecidableEq

def Answers.allocations (answers : Answers Address) : Allocations :=
  ⟨answers.value.isSome, answers.secret.isSome, answers.contentType.isSome⟩

def Answers.addresses (answers : Answers Address) : List Address :=
  answers.secret.toList ++ answers.contentType.toList ++ answers.value.toList

/-- A text that `strdup` or `strndup` does not read past. -/
def Copyable (secret : Bytes) (length : ℤ) : Prop :=
  nul ∈ secret ∨ 0 ≤ length ∧ length ≤ secret.length

instance (secret : Bytes) (length : ℤ) : Decidable (Copyable secret length) :=
  inferInstanceAs (Decidable (_ ∨ _ ∧ _))

/-- `length >= 0 ? strndup(secret, length) : strdup(secret)` -/
def copyOf (secret : Bytes) (length : ℤ) : Bytes :=
  (CString.ofBuffer (if length ≥ 0 then secret.take length.toNat else secret)).bytes ++ [nul]

/-- `length >= 0 ? (size_t)length : strlen(secret)` -/
def lengthOf (secret : Bytes) (length : ℤ) : ℕ :=
  if length ≥ 0 then length.toNat else strlen secret

/-- `strdup(content_type ? content_type : "text/plain")` -/
def kindOf (contentType : Option CString) : Bytes :=
  (CString.ofBuffer (contentType.elim (bytes "text/plain") CString.bytes)).bytes ++ [nul]

/-- `secret_value_new` -/
def valueNew (answers : Answers Address) (secret : Bytes) (length : ℤ)
    (contentType : Option CString) (memory : Memory Address) :
    Option (Option Address × Memory Address) :=
  match answers.value with
  | none => some (none, memory)
  | some value =>
      if Copyable secret length then
        let copied := place answers.secret (copyOf secret length) memory
        let described := place answers.contentType (kindOf contentType) copied
        let fields := .value answers.secret (lengthOf secret length) answers.contentType
        some (some value, described.put value fields)
      else none

/-- The fields of the value behind a pointer. -/
def fieldsOf (value : Address) (memory : Memory Address) :
    Option (Option Address × ℕ × Option Address) :=
  match memory.live value with
  | some (.value secret length contentType) => some (secret, length, contentType)
  | _ => none

/-- `secret_value_get`: what it returns, and what it stores as the length. -/
def valueGet (value : Option Address) (memory : Memory Address) :
    Option (Option Address × Option ℕ) :=
  match value with
  | none => some (none, none)
  | some value => (fieldsOf value memory).map fun fields => (fields.1, some fields.2.1)

/-- `secret_value_get_text` -/
def valueGetText (value : Option Address) (memory : Memory Address) : Option (Option Address) :=
  match value with
  | none => some none
  | some value => (fieldsOf value memory).map Prod.fst

/-- `secret_value_unref` -/
def valueUnref : Option Address → Memory Address → Option (Memory Address)
  | none, memory => some memory
  | some value, memory => do
      let fields ← fieldsOf value memory
      let memory ← memory.free fields.1
      let fields ← fieldsOf value memory
      let memory ← memory.free fields.2.2
      memory.free (some value)

end Functions

/-! ## How memory represents objects -/

/-- What a client holds. -/
inductive Object
  | password (text : CString)
  | value (value : SecretValue)

section Represents

variable {Address : Type v} {before live after : Address → Option (Block Address)}
  {objects : Address → Option Object}

/-- What is behind a pointer is the object. -/
def Holds (live : Address → Option (Block Address)) (pointer : Address) : Object → Prop
  | .password text => live pointer = some (.text (text.bytes ++ [nul]))
  | .value value => valueAt live pointer = some value

/-- The objects are held in blocks that are apart from each other and from what was there
before. -/
structure Represents (before : Address → Option (Block Address))
    (objects : Address → Option Object) (live : Address → Option (Block Address)) : Prop where
  apart : Apart Block.parts before {pointer | objects pointer ≠ none} live
  holds : ∀ pointer object, objects pointer = some object → Holds live pointer object

theorem valueAt_eq_some {pointer : Address} {value : SecretValue}
    (hvalue : valueAt live pointer = some value) :
    ∃ secret contentType, live pointer = some (.value secret value.length contentType) ∧
      textAt live secret = value.secret ∧ textAt live contentType = value.contentType := by
  rw [valueAt] at hvalue
  split at hvalue
  · next secret length contentType hblock =>
      obtain rfl := Option.some.inj hvalue
      exact ⟨secret, contentType, hblock, rfl, rfl⟩
  · cases hvalue

theorem textAt_congr {pointer : Option Address}
    (hsame : ∀ address ∈ pointer, after address = live address) :
    textAt after pointer = textAt live pointer := by
  cases pointer with
  | none => rfl
  | some address => simp [textAt, hsame address rfl]

/-- An object stays as long as its blocks do. -/
theorem Holds.congr {pointer : Address} {object : Object} (hholds : Holds live pointer object)
    (hsame : ∀ address ∈ tree Block.parts live pointer, after address = live address) :
    Holds after pointer object := by
  have hroot := hsame pointer (root_mem_tree Block.parts live pointer)
  cases object with
  | password text => exact hroot.trans hholds
  | value value =>
      obtain ⟨secret, contentType, hblock, hsecret, hcontentType⟩ := valueAt_eq_some hholds
      have hparts : tree Block.parts live pointer =
          secret.toList ++ contentType.toList ++ [pointer] := by
        simp [tree, hblock, Block.parts]
      rw [hparts] at hsame
      have hsecretSame : textAt after secret = textAt live secret :=
        textAt_congr fun address haddress => hsame address (by simp [Option.mem_def.mp haddress])
      have hcontentSame : textAt after contentType = textAt live contentType :=
        textAt_congr fun address haddress => hsame address (by simp [Option.mem_def.mp haddress])
      rw [Holds, valueAt, hroot, hblock]
      simp [hsecretSame, hsecret, hcontentSame, hcontentType]

theorem Represents.start (before : Address → Option (Block Address)) :
    Represents before (fun _ => none) before where
  apart := by simpa using Apart.start before
  holds := by simp

variable [DecidableEq Address]

/-- A new object in blocks of its own. -/
theorem Represents.hold (hrepresents : Represents before objects live) {root : Address}
    {object : Object} (hnew : ∀ address ∈ tree Block.parts after root, live address = none)
    (hkept : ∀ address, address ∉ tree Block.parts after root → after address = live address)
    (hallocated : ∀ address ∈ tree Block.parts after root, (after address).isSome = true)
    (hdistinct : (tree Block.parts after root).Nodup) (hholds : Holds after root object) :
    Represents before (Function.update objects root (some object)) after := by
  constructor
  · have hroots : {pointer | Function.update objects root (some object) pointer ≠ none} =
        insert root {pointer | objects pointer ≠ none} := by
      ext pointer
      by_cases hsame : pointer = root <;> simp [Function.update_apply, hsame]
    rw [hroots]
    exact hrepresents.apart.insert hnew hkept hallocated hdistinct
  · intro pointer held hheld
    by_cases hsame : pointer = root
    · subst hsame
      rw [Function.update_self, Option.some.injEq] at hheld
      exact hheld ▸ hholds
    · rw [Function.update_of_ne hsame] at hheld
      apply (hrepresents.holds pointer held hheld).congr
      intro address haddress
      apply hkept
      intro hmem
      have hroot : objects pointer ≠ none := by simp [hheld]
      exact hrepresents.apart.notMem_tree hroot (hnew address hmem) haddress

/-- An object whose blocks are freed. -/
theorem Represents.drop (hrepresents : Represents before objects live) {root : Address}
    (hroot : objects root ≠ none)
    (hgone : ∀ address ∈ tree Block.parts live root, after address = none)
    (hkept : ∀ address, address ∉ tree Block.parts live root → after address = live address) :
    Represents before (Function.update objects root none) after := by
  constructor
  · have hroots : {pointer | Function.update objects root none pointer ≠ none} =
        {pointer | objects pointer ≠ none} \ {root} := by
      ext pointer
      by_cases hsame : pointer = root <;> simp [Function.update_apply, hsame]
    rw [hroots]
    exact hrepresents.apart.remove hroot hgone hkept
  · intro pointer held hheld
    by_cases hsame : pointer = root
    · rw [hsame, Function.update_self] at hheld
      cases hheld
    · rw [Function.update_of_ne hsame] at hheld
      apply (hrepresents.holds pointer held hheld).congr
      intro address haddress
      apply hkept
      intro hmem
      have hpointer : objects pointer ≠ none := by simp [hheld]
      exact hsame (hrepresents.apart.separate pointer hpointer root hroot address haddress hmem)

end Represents

/-! ## What each function does -/

section Specifications

variable {Address : Type v} {memory after : Memory Address} {root : Address}
  {before : Address → Option (Block Address)} {objects : Address → Option Object}

theorem freedTexts_append {entries : List (Address × Block Address)}
    (hreleased : after.released = memory.released ++ entries) :
    freedTexts after = freedTexts memory ++
      (entries.filterMap fun entry => entry.2.text?).filter readable := by
  rw [freedTexts, freedTexts, hreleased, List.filterMap_append, List.filter_append]

theorem strlen_terminated (text : CString) : strlen (text.bytes ++ [nul]) = text.bytes.length := by
  have hclean : ∀ byte ∈ text.bytes, (decide (byte ≠ nul)) = true := by
    intro byte hbyte
    have hne : byte ≠ nul := fun heq => text.noNul (heq ▸ hbyte)
    simpa using hne
  rw [strlen, CString.ofBuffer_bytes, List.takeWhile_append_of_pos hclean]
  simp

theorem strdup_bytes (allocated : Bool) (text : CString) :
    strdup allocated text.bytes = if allocated then some (text.bytes ++ [nul]) else none := by
  rw [strdup, CString.ofBuffer_bytes_of_noNul text.noNul]

/-- Nothing can be read of a text that was wiped. -/
theorem readable_wiped (text : CString) : readable (wiped (text.bytes ++ [nul])) = false := by
  rw [wiped, strlen_terminated, List.drop_left]
  simp [readable]

theorem secretValueNew_eq {answers : Answers Address} (hvalue : answers.value = some root)
    (secret : Bytes) (length : ℤ) (contentType : Option CString) :
    secretValueNew answers.allocations secret length contentType = some
      ⟨if answers.secret.isSome then some (copyOf secret length) else none, lengthOf secret length,
        if answers.contentType.isSome then some (kindOf contentType) else none⟩ := by
  by_cases hlength : length ≥ 0 <;>
    simp [secretValueNew, Answers.allocations, hvalue, strndup, strdup, copyOf, lengthOf, kindOf,
      hlength]

variable [DecidableEq Address]

theorem place_live (answer : Option Address) (text : Bytes) (address : Address) :
    (place answer text memory).live address =
      if answer = some address then some (.text text) else memory.live address := by
  cases answer with
  | none => rfl
  | some root =>
      by_cases hsame : address = root
      · simp [place, Heap.put, hsame]
      · have hne : root ≠ address := fun heq => hsame heq.symm
        simp [place, Heap.put, hsame, hne]

/-- A password is held where it was placed. -/
theorem represents_place (hrepresents : Represents before objects memory.live)
    (hnew : memory.live root = none) (text : CString) :
    Represents before (Function.update objects root (some (.password text)))
      (place (some root) (text.bytes ++ [nul]) memory).live := by
  have hroot : (place (some root) (text.bytes ++ [nul]) memory).live root =
      some (.text (text.bytes ++ [nul])) := by simp [place_live]
  have htree : tree Block.parts (place (some root) (text.bytes ++ [nul]) memory).live root =
      [root] := by simp [tree, hroot, Block.parts]
  refine hrepresents.hold ?_ ?_ ?_ ?_ hroot <;> rw [htree]
  · simpa using hnew
  · intro address haddress
    have hne : root ≠ address := fun heq => haddress (by simp [heq])
    simp [place_live, hne]
  · simp [hroot]
  · simp

/-- An object can be freed, block after block. -/
theorem freeAll_tree (hrepresents : Represents before objects memory.live)
    (hroot : objects root ≠ none) :
    ∃ after, memory.freeAll (tree Block.parts memory.live root) = some after ∧
      Represents before (Function.update objects root none) after.live ∧
      freedTexts after = freedTexts memory ++
        ((tree Block.parts memory.live root).filterMap fun address =>
          textAt memory.live (some address)).filter readable := by
  have hlive : ∀ address ∈ tree Block.parts memory.live root,
      memory.live address = some ((memory.live address).getD (.text [])) := by
    intro address haddress
    obtain ⟨block, hblock⟩ :=
      Option.isSome_iff_exists.mp (hrepresents.apart.allocated root hroot address haddress)
    simp [hblock]
  obtain ⟨after, hfreed, hgone, hkept, hreleased⟩ :=
    Heap.freeAll_of_live (hrepresents.apart.distinct root hroot) hlive
  refine ⟨after, hfreed, hrepresents.drop hroot hgone hkept, ?_⟩
  rw [freedTexts_append hreleased, List.filterMap_map]
  congr 2
  apply List.filterMap_congr
  intro address haddress
  rw [Function.comp_apply, textAt, Option.bind_some, hlive address haddress]
  rfl

theorem free_eq_freeAll (pointer : Option Address) (memory : Memory Address) :
    memory.free pointer = memory.freeAll pointer.toList := by
  cases pointer with
  | none => rfl
  | some address => simp [Heap.freeAll]

theorem freeAll_append (first second : List Address) (memory : Memory Address) :
    memory.freeAll (first ++ second) = (memory.freeAll first).bind (Heap.freeAll second) := by
  induction first generalizing memory with
  | nil => rfl
  | cons address rest ih =>
      simp only [List.cons_append, Heap.freeAll, Option.bind_assoc]
      congr
      funext between
      exact ih between

/-- `secret_value_unref` frees the value with its texts. -/
theorem valueUnref_eq {secret contentType : Option Address} {length : ℕ}
    (hblock : memory.live root = some (.value secret length contentType))
    (hdistinct : (tree Block.parts memory.live root).Nodup)
    (hallocated : ∀ address ∈ tree Block.parts memory.live root,
      (memory.live address).isSome = true) :
    valueUnref (some root) memory = memory.freeAll (tree Block.parts memory.live root) := by
  have htree : tree Block.parts memory.live root =
      secret.toList ++ (contentType.toList ++ [root]) := by simp [tree, hblock, Block.parts]
  rw [htree] at hdistinct hallocated ⊢
  obtain ⟨hsecret, -, hapart⟩ := List.nodup_append'.mp hdistinct
  have hlive : ∀ address ∈ secret.toList,
      memory.live address = some ((memory.live address).getD (.text [])) := by
    intro address haddress
    obtain ⟨block, hsome⟩ := Option.isSome_iff_exists.mp
      (hallocated address (List.mem_append_left _ haddress))
    simp [hsome]
  obtain ⟨between, hfreed, -, hkept, -⟩ := Heap.freeAll_of_live hsecret hlive
  have hstill : between.live root = some (.value secret length contentType) := by
    rw [hkept root fun hmem => hapart hmem (by simp), hblock]
  simp only [valueUnref, fieldsOf, hblock, free_eq_freeAll, hfreed, freeAll_append,
    Option.bind_eq_bind, Option.bind_some, hstill]
  rfl

/-- Where the blocks of a new value are. -/
theorem valueNew_live {answers : Answers Address} {secret : Bytes} {length : ℤ}
    (contentType : Option CString) (memory : Memory Address) (hvalue : answers.value = some root)
    (hcopyable : Copyable secret length) :
    ∃ after, valueNew answers secret length contentType memory = some (some root, after) ∧
      after.released = memory.released ∧
      ∀ address, after.live address =
        if address = root then
          some (.value answers.secret (lengthOf secret length) answers.contentType)
        else if answers.contentType = some address then some (.text (kindOf contentType))
        else if answers.secret = some address then some (.text (copyOf secret length))
        else memory.live address := by
  have hreleased : ∀ (answer : Option Address) (text : Bytes) (memory : Memory Address),
      (place answer text memory).released = memory.released := by
    intro answer text memory
    cases answer <;> rfl
  have hrun : valueNew answers secret length contentType memory = some (some root,
      (place answers.contentType (kindOf contentType)
        (place answers.secret (copyOf secret length) memory)).put root
          (.value answers.secret (lengthOf secret length) answers.contentType)) := by
    simp only [valueNew, hvalue, hcopyable, if_true]
  refine ⟨_, hrun, ?_, ?_⟩
  · simp only [Heap.put, hreleased]
  · intro address
    by_cases hsame : address = root
    · simp [Heap.put, hsame]
    · simp only [Heap.put, Function.update_of_ne hsame, place_live, if_neg hsame]

/-- A value is held where its blocks were placed. -/
theorem represents_valueNew (hrepresents : Represents before objects memory.live)
    {answers : Answers Address} {secret : Bytes} {length : ℤ} (contentType : Option CString)
    (hvalue : answers.value = some root) (hcopyable : Copyable secret length)
    (hdistinct : answers.addresses.Nodup)
    (hnew : ∀ address ∈ answers.addresses, memory.live address = none) :
    ∃ after value, valueNew answers secret length contentType memory = some (some root, after) ∧
      secretValueNew answers.allocations secret length contentType = some value ∧
      valueAt after.live root = some value ∧
      Represents before (Function.update objects root (some (.value value))) after.live ∧
      after.released = memory.released := by
  obtain ⟨after, hrun, hreleased, hlive⟩ :=
    valueNew_live contentType memory hvalue hcopyable
  have haddresses : answers.addresses =
      answers.secret.toList ++ (answers.contentType.toList ++ [root]) := by
    simp [Answers.addresses, hvalue]
  rw [haddresses] at hdistinct hnew
  obtain ⟨-, hrest, hsecretApart⟩ := List.nodup_append'.mp hdistinct
  obtain ⟨-, -, hkindApart⟩ := List.nodup_append'.mp hrest
  have hroot : after.live root =
      some (.value answers.secret (lengthOf secret length) answers.contentType) := by
    simp [hlive]
  have hkind : ∀ address ∈ answers.contentType,
      after.live address = some (.text (kindOf contentType)) := by
    intro address haddress
    have hne : address ≠ root :=
      fun heq => hkindApart (Option.mem_toList.mpr haddress) (by simp [heq])
    rw [hlive, if_neg hne, if_pos (Option.mem_def.mp haddress)]
  have hsecret : ∀ address ∈ answers.secret,
      after.live address = some (.text (copyOf secret length)) := by
    intro address haddress
    have hne : address ≠ root :=
      fun heq => hsecretApart (Option.mem_toList.mpr haddress) (by simp [heq])
    have hother : answers.contentType ≠ some address :=
      fun heq => hsecretApart (Option.mem_toList.mpr haddress) (by simp [heq])
    rw [hlive, if_neg hne, if_neg hother, if_pos (Option.mem_def.mp haddress)]
  have hvalueAt : valueAt after.live root = some
      ⟨if answers.secret.isSome then some (copyOf secret length) else none, lengthOf secret length,
        if answers.contentType.isSome then some (kindOf contentType) else none⟩ := by
    have htext : ∀ {pointer : Option Address} {text : Bytes},
        (∀ address ∈ pointer, after.live address = some (.text text)) →
          textAt after.live pointer = if pointer.isSome then some text else none := by
      intro pointer text hpointer
      cases pointer with
      | none => rfl
      | some address => simp [textAt, hpointer address rfl, Block.text?]
    rw [valueAt, hroot]
    simp only [htext hsecret, htext hkind]
  have htree : tree Block.parts after.live root =
      answers.secret.toList ++ (answers.contentType.toList ++ [root]) := by
    simp [tree, hroot, Block.parts]
  refine ⟨after, _, hrun, secretValueNew_eq hvalue secret length contentType, hvalueAt, ?_,
    hreleased⟩
  refine hrepresents.hold ?_ ?_ ?_ ?_ hvalueAt <;> rw [htree]
  · exact hnew
  · intro address haddress
    simp only [List.mem_append, Option.mem_toList, List.mem_singleton, not_or] at haddress
    obtain ⟨hsecretNot, hkindNot, hne⟩ := haddress
    rw [hlive, if_neg hne, if_neg fun heq => hkindNot heq, if_neg fun heq => hsecretNot heq]
  · intro address haddress
    simp only [List.mem_append, Option.mem_toList, List.mem_singleton] at haddress
    rcases haddress with haddress | haddress | rfl
    · simp [hsecret address haddress]
    · simp [hkind address haddress]
    · simp [hroot]
  · exact hdistinct

end Specifications

end TizenRoblox.Credentials
