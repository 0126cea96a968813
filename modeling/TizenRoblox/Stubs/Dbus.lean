/-
# The D-Bus shim

`libdbus_stub.c` stands in for the system's libdbus. It looks for the real library when it
is loaded, and for each function it exports; a call goes to the real function where that was
found. A session through the shim is then the session with the library itself exactly if
every function it calls was found (`session_transparent_iff_found`).

Where there is no library the shim answers on its own. It hands out no connection and no
message, and does nothing to memory but clear the structures it is given. So a failure is
never told: an error that was initialised stays unset, whatever has failed since
(`fallback_session`).
-/

import Mathlib.Data.List.Induction
import Mathlib.Logic.Function.Basic
import TizenRoblox.Foundation.Interfaces

namespace TizenRoblox.Stubs.Dbus

open TizenRoblox.Foundation

universe u

/-- The functions that the shim exports, and resolves in the system's library. -/
inductive Symbol
  | busGet | busAddMatch | connectionFlush | connectionPopMessage | connectionReadWrite
  | connectionSendWithReplyAndBlock | connectionUnref | errorFree | errorInit | errorIsSet
  | messageGetPath | messageIsSignal | messageIterAppendBasic | messageIterCloseContainer
  | messageIterGetArgType | messageIterGetBasic | messageIterInit | messageIterInitAppend
  | messageIterNext | messageIterOpenContainer | messageIterRecurse | messageNewMethodCall
  | messageUnref
  deriving DecidableEq

/-! ## Memory -/

/-- What client and library share: bytes in memory, and whatever else the library keeps. -/
structure Shared (State : Type u) where
  store : Word → UInt8
  state : State

section Memory

variable {State : Type u}

/-- `memset(pointer, 0, size)` -/
def zero (pointer : Word) (size : ℕ) (memory : Shared State) : Shared State where
  store address := if (address - pointer).toNat < size then 0 else memory.store address
  state := memory.state

/-- `if (pointer) memset(pointer, 0, size);` -/
def clear (pointer : Word) (size : ℕ) (memory : Shared State) : Shared State :=
  if pointer ≠ 0 then zero pointer size memory else memory

/-- The size of a pointer. -/
def pointerSize : ℕ := 8

/-- The `DBusError` of the shim: two pointers, five numbers of four bytes, padding, and a
pointer. -/
def errorSize : ℕ := 48

/-- Its `DBusMessageIter`: six pointers. -/
def iterSize : ℕ := 48

/-- `error->name != NULL` -/
def nameIsSet (error : Word) (memory : Shared State) : Bool :=
  (List.range pointerSize).any fun index => memory.store (error + BitVec.ofNat 64 index) ≠ 0

end Memory

/-! ## Loading -/

/-- A function of the library: it may do anything to what it shares with the client. -/
abbrev Function (State : Type u) := CFunction (Shared State)

/-- The pointers of the shim, `NULL` where nothing was found. -/
abbrev Pointers (State : Type u) := Symbol → Option (Function State)

def paths : List Bytes := [
  bytes "/usr/lib/aarch64-linux-gnu/libdbus-1.so.3",
  bytes "/usr/lib64/libdbus-1.so.3",
  bytes "/usr/lib/libdbus-1.so.3",
  bytes "/lib/aarch64-linux-gnu/libdbus-1.so.3",
  bytes "/lib64/libdbus-1.so.3",
  bytes "/usr/lib/tizen/libdbus-1.so.3",
  bytes "/opt/tizen/usr/lib/libdbus-1.so.3"]

section Loading

variable {Handle : Type} {State : Type u} (loader : Loader Handle Symbol (Function State))

def dbusHandle : Option Handle := loader.openFirst paths

/-- What the constructor loads. -/
def dbusStubInit : Pointers State := loader.find (dbusHandle loader)

/-- Whatever is found is the system's function. -/
def FindsOnly (system : Symbol → Function State) : Prop :=
  ∀ symbol function, dbusStubInit loader symbol = some function → function = system symbol

end Loading

/-! ## Calls -/

/-- A call as the client makes it. -/
inductive Call
  | busGet (type error : Word)
  | busAddMatch (conn rule error : Word)
  | connectionFlush (conn : Word)
  | connectionPopMessage (conn : Word)
  | connectionReadWrite (conn timeoutMs : Word)
  | connectionSendWithReplyAndBlock (conn msg timeoutMs error : Word)
  | connectionUnref (conn : Word)
  | errorFree (error : Word)
  | errorInit (error : Word)
  | errorIsSet (error : Word)
  | messageGetPath (msg : Word)
  | messageIsSignal (msg iface name : Word)
  | messageNewMethodCall (dest path iface method : Word)
  | messageUnref (msg : Word)
  | messageIterAppendBasic (iter type val : Word)
  | messageIterCloseContainer (iter sub : Word)
  | messageIterGetArgType (iter : Word)
  | messageIterGetBasic (iter value : Word)
  | messageIterInit (msg iter : Word)
  | messageIterInitAppend (msg iter : Word)
  | messageIterNext (iter : Word)
  | messageIterOpenContainer (iter type containedSig sub : Word)
  | messageIterRecurse (iter sub : Word)
  deriving DecidableEq

/-- The function that a call means, and its arguments. -/
def Call.meant : Call → Symbol × List Word
  | .busGet type error => (.busGet, [type, error])
  | .busAddMatch conn rule error => (.busAddMatch, [conn, rule, error])
  | .connectionFlush conn => (.connectionFlush, [conn])
  | .connectionPopMessage conn => (.connectionPopMessage, [conn])
  | .connectionReadWrite conn timeoutMs => (.connectionReadWrite, [conn, timeoutMs])
  | .connectionSendWithReplyAndBlock conn msg timeoutMs error =>
    (.connectionSendWithReplyAndBlock, [conn, msg, timeoutMs, error])
  | .connectionUnref conn => (.connectionUnref, [conn])
  | .errorFree error => (.errorFree, [error])
  | .errorInit error => (.errorInit, [error])
  | .errorIsSet error => (.errorIsSet, [error])
  | .messageGetPath msg => (.messageGetPath, [msg])
  | .messageIsSignal msg iface name => (.messageIsSignal, [msg, iface, name])
  | .messageNewMethodCall dest path iface method =>
    (.messageNewMethodCall, [dest, path, iface, method])
  | .messageUnref msg => (.messageUnref, [msg])
  | .messageIterAppendBasic iter type val => (.messageIterAppendBasic, [iter, type, val])
  | .messageIterCloseContainer iter sub => (.messageIterCloseContainer, [iter, sub])
  | .messageIterGetArgType iter => (.messageIterGetArgType, [iter])
  | .messageIterGetBasic iter value => (.messageIterGetBasic, [iter, value])
  | .messageIterInit msg iter => (.messageIterInit, [msg, iter])
  | .messageIterInitAppend msg iter => (.messageIterInitAppend, [msg, iter])
  | .messageIterNext iter => (.messageIterNext, [iter])
  | .messageIterOpenContainer iter type containedSig sub =>
    (.messageIterOpenContainer, [iter, type, containedSig, sub])
  | .messageIterRecurse iter sub => (.messageIterRecurse, [iter, sub])

/-- Whether the function returns nothing. -/
def Symbol.isVoid : Symbol → Bool
  | .busAddMatch | .connectionFlush | .connectionUnref | .errorFree | .errorInit
  | .messageIterGetBasic | .messageIterInitAppend | .messageIterRecurse | .messageUnref => true
  | _ => false

/-- What a wrapper does: a call that reaches the library is a function and its arguments. -/
abbrev Wrapper (State : Type u) :=
  Shared State → Effect (Symbol × List Word) Result (Shared State)

/-! ## The exports -/

section Exports

variable {State : Type u} (pointers : Pointers State)

/-- `if (r_symbol) return r_symbol(arguments);` before a body of the shim's own. -/
def forward (symbol : Symbol) (arguments : List Word)
    (body : Shared State → Result × Shared State) : Wrapper State := fun memory =>
  match pointers symbol with
  | some function =>
    let (value, after) := function arguments memory
    ⟨[(symbol, arguments)], if symbol.isVoid then .void else .word value, after⟩
  | none => ⟨[], (body memory).1, (body memory).2⟩

/-- A body that returns a constant. -/
def answer (result : Result) (memory : Shared State) : Result × Shared State := (result, memory)

def busGet (type error : Word) : Wrapper State :=
  forward pointers .busGet [type, error] (answer null)

def busAddMatch (conn rule error : Word) : Wrapper State :=
  forward pointers .busAddMatch [conn, rule, error] (answer .void)

def connectionFlush (conn : Word) : Wrapper State :=
  forward pointers .connectionFlush [conn] (answer .void)

def connectionPopMessage (conn : Word) : Wrapper State :=
  forward pointers .connectionPopMessage [conn] (answer null)

def connectionReadWrite (conn timeoutMs : Word) : Wrapper State :=
  forward pointers .connectionReadWrite [conn, timeoutMs] (answer (.word 0))

def connectionSendWithReplyAndBlock (conn msg timeoutMs error : Word) : Wrapper State :=
  forward pointers .connectionSendWithReplyAndBlock [conn, msg, timeoutMs, error] (answer null)

def connectionUnref (conn : Word) : Wrapper State :=
  forward pointers .connectionUnref [conn] (answer .void)

/-- The name and the message of the error are its first two fields. -/
def errorFree (error : Word) : Wrapper State :=
  forward pointers .errorFree [error] fun memory => (.void, clear error (2 * pointerSize) memory)

def errorInit (error : Word) : Wrapper State :=
  forward pointers .errorInit [error] fun memory => (.void, clear error errorSize memory)

def errorIsSet (error : Word) : Wrapper State :=
  forward pointers .errorIsSet [error] fun memory =>
    (.word (if error ≠ 0 ∧ nameIsSet error memory = true then 1 else 0), memory)

def messageGetPath (msg : Word) : Wrapper State :=
  forward pointers .messageGetPath [msg] (answer null)

def messageIsSignal (msg iface name : Word) : Wrapper State :=
  forward pointers .messageIsSignal [msg, iface, name] (answer (.word 0))

def messageNewMethodCall (dest path iface method : Word) : Wrapper State :=
  forward pointers .messageNewMethodCall [dest, path, iface, method] (answer null)

def messageUnref (msg : Word) : Wrapper State :=
  forward pointers .messageUnref [msg] (answer .void)

def messageIterAppendBasic (iter type val : Word) : Wrapper State :=
  forward pointers .messageIterAppendBasic [iter, type, val] (answer (.word 0))

def messageIterCloseContainer (iter sub : Word) : Wrapper State :=
  forward pointers .messageIterCloseContainer [iter, sub] (answer (.word 0))

def messageIterGetArgType (iter : Word) : Wrapper State :=
  forward pointers .messageIterGetArgType [iter] (answer (.word 0))

def messageIterGetBasic (iter value : Word) : Wrapper State :=
  forward pointers .messageIterGetBasic [iter, value] fun memory =>
    (.void, clear value pointerSize memory)

def messageIterInit (msg iter : Word) : Wrapper State :=
  forward pointers .messageIterInit [msg, iter] fun memory => (.word 0, clear iter iterSize memory)

def messageIterInitAppend (msg iter : Word) : Wrapper State :=
  forward pointers .messageIterInitAppend [msg, iter] fun memory =>
    (.void, clear iter iterSize memory)

def messageIterNext (iter : Word) : Wrapper State :=
  forward pointers .messageIterNext [iter] (answer (.word 0))

def messageIterOpenContainer (iter type containedSig sub : Word) : Wrapper State :=
  forward pointers .messageIterOpenContainer [iter, type, containedSig, sub] fun memory =>
    (.word 0, clear sub iterSize memory)

def messageIterRecurse (iter sub : Word) : Wrapper State :=
  forward pointers .messageIterRecurse [iter, sub] fun memory => (.void, clear sub iterSize memory)

/-- What the shim does on a call. -/
def exported : Call → Wrapper State
  | .busGet type error => busGet pointers type error
  | .busAddMatch conn rule error => busAddMatch pointers conn rule error
  | .connectionFlush conn => connectionFlush pointers conn
  | .connectionPopMessage conn => connectionPopMessage pointers conn
  | .connectionReadWrite conn timeoutMs => connectionReadWrite pointers conn timeoutMs
  | .connectionSendWithReplyAndBlock conn msg timeoutMs error =>
    connectionSendWithReplyAndBlock pointers conn msg timeoutMs error
  | .connectionUnref conn => connectionUnref pointers conn
  | .errorFree error => errorFree pointers error
  | .errorInit error => errorInit pointers error
  | .errorIsSet error => errorIsSet pointers error
  | .messageGetPath msg => messageGetPath pointers msg
  | .messageIsSignal msg iface name => messageIsSignal pointers msg iface name
  | .messageNewMethodCall dest path iface method =>
    messageNewMethodCall pointers dest path iface method
  | .messageUnref msg => messageUnref pointers msg
  | .messageIterAppendBasic iter type val => messageIterAppendBasic pointers iter type val
  | .messageIterCloseContainer iter sub => messageIterCloseContainer pointers iter sub
  | .messageIterGetArgType iter => messageIterGetArgType pointers iter
  | .messageIterGetBasic iter value => messageIterGetBasic pointers iter value
  | .messageIterInit msg iter => messageIterInit pointers msg iter
  | .messageIterInitAppend msg iter => messageIterInitAppend pointers msg iter
  | .messageIterNext iter => messageIterNext pointers iter
  | .messageIterOpenContainer iter type containedSig sub =>
    messageIterOpenContainer pointers iter type containedSig sub
  | .messageIterRecurse iter sub => messageIterRecurse pointers iter sub

variable {pointers} {symbol : Symbol} {arguments : List Word}
  {body : Shared State → Result × Shared State} {memory : Shared State}

theorem forward_of_found {function : Function State} (hpointer : pointers symbol = some function) :
    forward pointers symbol arguments body memory =
      ⟨[(symbol, arguments)],
        if symbol.isVoid then .void else .word (function arguments memory).1,
        (function arguments memory).2⟩ := by
  simp only [forward, hpointer]

theorem forward_of_missing (hpointer : pointers symbol = none) :
    forward pointers symbol arguments body memory =
      ⟨[], (body memory).1, (body memory).2⟩ := by
  simp only [forward, hpointer]

/-- Every export forwards to the function of its name, with its arguments. -/
theorem exported_forward (pointers : Pointers State) (call : Call) :
    ∃ body, exported pointers call = forward pointers call.meant.1 call.meant.2 body := by
  cases call <;> exact ⟨_, rfl⟩

end Exports

/-! ## Transparency -/

section Transparency

variable {State : Type u}

/-- What the client's call does where it is linked with the system's library. -/
def direct (system : Symbol → Function State) : Call → Wrapper State :=
  linked Symbol.isVoid Call.meant system

variable {Handle : Type} {loader : Loader Handle Symbol (Function State)}
  {system : Symbol → Function State}

theorem exported_eq_direct (hfinds : FindsOnly loader system) {call : Call}
    (hfound : (dbusStubInit loader call.meant.1).isSome = true) :
    exported (dbusStubInit loader) call = direct system call := by
  obtain ⟨function, hpointer⟩ := Option.isSome_iff_exists.mp hfound
  obtain ⟨body, hexported⟩ := exported_forward (dbusStubInit loader) call
  obtain rfl := hfinds _ _ hpointer
  funext memory
  rw [hexported]
  exact forward_of_found hpointer

theorem reached_of_missing {pointers : Pointers State} {call : Call}
    (hmissing : pointers call.meant.1 = none) (memory : Shared State) :
    (exported pointers call memory).reached = [] := by
  obtain ⟨body, hexported⟩ := exported_forward pointers call
  rw [hexported, forward_of_missing hmissing]

/-- Whatever was found, the shim is transparent for a session exactly if the functions that
the session calls are among it. -/
theorem session_transparent_iff_found (hfinds : FindsOnly loader system) (calls : List Call)
    (memory : Shared State) :
    observe (exported (dbusStubInit loader)) calls memory =
        observe (direct system) calls memory ↔
      ∀ call ∈ calls, (dbusStubInit loader call.meant.1).isSome = true := by
  apply observe_eq_iff
  · intro call hfound
    exact exported_eq_direct hfinds hfound
  · intro call memory hmissing
    exact reached_of_missing (by simpa using hmissing) memory
  · exact fun call memory => rfl

end Transparency

/-! ## Without a library -/

section Fallback

variable {State : Type u}

/-- The structure that a call clears where there is no library. -/
def Call.clears : Call → Option (Word × ℕ)
  | .errorFree error => some (error, 2 * pointerSize)
  | .errorInit error => some (error, errorSize)
  | .messageIterGetBasic _ value => some (value, pointerSize)
  | .messageIterInit _ iter | .messageIterInitAppend _ iter => some (iter, iterSize)
  | .messageIterOpenContainer _ _ _ sub | .messageIterRecurse _ sub => some (sub, iterSize)
  | _ => none

/-- No library was found. -/
def noPointers : Pointers State := fun _ => none

/-- That is how the shim is loaded where none of its paths has a library. -/
theorem dbusStubInit_eq_noPointers {Handle : Type} {loader : Loader Handle Symbol (Function State)}
    (hnone : ∀ path ∈ paths, loader.dlopen path = none) : dbusStubInit loader = noPointers :=
  funext (Loader.find_openFirst_none hnone)

/-- The memory after a call without a library. -/
def cleared (call : Call) (memory : Shared State) : Shared State :=
  call.clears.elim memory fun range => clear range.1 range.2 memory

/-- All that a call does without a library: it clears a structure, and only that. -/
theorem exported_noPointers (call : Call) (memory : Shared State) :
    (exported noPointers call memory).reached = [] ∧
      (exported noPointers call memory).memory = cleared call memory ∧
      (exported noPointers call memory).result =
        match call with
        | .errorIsSet error =>
            .word (if error ≠ 0 ∧ nameIsSet error memory = true then 1 else 0)
        | _ => if call.meant.1.isVoid then .void else .word 0 := by
  cases call <;> exact ⟨rfl, rfl, rfl⟩

/-! ### Sessions -/

/-- What a client does: it calls the shim, or stores a byte of its own. -/
inductive Step
  | call (call : Call)
  | store (address : Word) (byte : UInt8)
  deriving DecidableEq

/-- The client stores a byte. -/
def put (address : Word) (byte : UInt8) (memory : Shared State) : Shared State where
  store := Function.update memory.store address byte
  state := memory.state

def step (pointers : Pointers State) : Step → Wrapper State
  | .call call => exported pointers call
  | .store address byte => fun memory => ⟨[], .void, put address byte memory⟩

/-- The errors that are known to be unset: those that were initialised or freed, and of
whose name the client has stored no byte since. -/
def remember (known : List Word) : Step → List Word
  | .call (.errorInit error) | .call (.errorFree error) => error :: known
  | .call _ => known
  | .store address _ => known.filter fun error => pointerSize ≤ (address - error).toNat

/-- The client asks only for errors that are known to be unset. -/
def Tidy : List Word → List Step → Prop
  | _, [] => True
  | known, .call (.errorIsSet error) :: rest => error ∈ known ∧ Tidy known rest
  | known, step :: rest => Tidy (remember known step) rest

/-- What a session leaves in memory. -/
def memoryAfter (interface : Step → Wrapper State) (steps : List Step)
    (memory : Shared State) : Shared State :=
  steps.foldl (fun memory step => (interface step memory).memory) memory

/-- The client's part of a session. -/
def clientOnly : Step → Wrapper State
  | .call _ => fun memory => ⟨[], .void, memory⟩
  | .store address byte => step noPointers (.store address byte)

/-- A call of the session has cleared an address. -/
def ClearedBy (steps : List Step) (address : Word) : Prop :=
  ∃ call, .call call ∈ steps ∧ ∃ range ∈ call.clears, (address - range.1).toNat < range.2

variable {memory : Shared State}

theorem clear_store (pointer : Word) (size : ℕ) (memory : Shared State) (address : Word) :
    (clear pointer size memory).store address = memory.store address ∨
      (clear pointer size memory).store address = 0 ∧ (address - pointer).toNat < size := by
  unfold clear zero
  split
  · by_cases hin : (address - pointer).toNat < size
    · exact .inr ⟨if_pos hin, hin⟩
    · exact .inl (if_neg hin)
  · exact .inl rfl

theorem cleared_store (call : Call) (memory : Shared State) (address : Word) :
    (cleared call memory).store address = memory.store address ∨
      (cleared call memory).store address = 0 ∧
        ∃ range ∈ call.clears, (address - range.1).toNat < range.2 := by
  unfold cleared
  cases hclears : call.clears with
  | none => exact .inl rfl
  | some range =>
      rcases clear_store range.1 range.2 memory address with hsame | ⟨hzero, hin⟩
      · exact .inl hsame
      · exact .inr ⟨hzero, range, rfl, hin⟩

theorem nameIsSet_eq_false {error : Word} :
    nameIsSet error memory = false ↔
      ∀ index < pointerSize, memory.store (error + BitVec.ofNat 64 index) = 0 := by
  simp [nameIsSet]

/-- A call sets no error. -/
theorem nameIsSet_cleared {error : Word} (hunset : nameIsSet error memory = false) (call : Call) :
    nameIsSet error (cleared call memory) = false := by
  rw [nameIsSet_eq_false] at hunset ⊢
  intro index hindex
  rcases cleared_store call memory (error + BitVec.ofNat 64 index) with hsame | ⟨hzero, -⟩
  · rw [hsame, hunset index hindex]
  · exact hzero

theorem offset_of_lt (error : Word) {index : ℕ} (hindex : index < pointerSize) :
    (error + BitVec.ofNat 64 index - error).toNat = index := by
  have hsub : error + BitVec.ofNat 64 index - error = BitVec.ofNat 64 index := by
    rw [BitVec.add_comm, BitVec.add_sub_cancel]
  rw [hsub, BitVec.toNat_ofNat, Nat.mod_eq_of_lt]
  exact Nat.lt_trans hindex (by decide)

/-- An error that is cleared is unset. -/
theorem nameIsSet_clear (error : Word) (memory : Shared State) {size : ℕ}
    (hsize : pointerSize ≤ size) :
    error = 0 ∨ nameIsSet error (clear error size memory) = false := by
  by_cases hnull : error = 0
  · exact .inl hnull
  · rw [nameIsSet_eq_false, clear, if_pos hnull]
    refine .inr fun index hindex => ?_
    apply if_pos
    rw [offset_of_lt error hindex]
    exact Nat.lt_of_lt_of_le hindex hsize

/-- What the client stores elsewhere sets no error. -/
theorem nameIsSet_put {error address : Word} {byte : UInt8}
    (hunset : nameIsSet error memory = false)
    (helsewhere : pointerSize ≤ (address - error).toNat) :
    nameIsSet error (put address byte memory) = false := by
  rw [nameIsSet_eq_false] at hunset ⊢
  intro index hindex
  have hne : error + BitVec.ofNat 64 index ≠ address := by
    intro heq
    have hoffset := offset_of_lt error hindex
    rw [heq] at hoffset
    omega
  exact (Function.update_of_ne hne _ _).trans (hunset index hindex)

/-- These errors are unset, or no errors. -/
def Unset (known : List Word) (memory : Shared State) : Prop :=
  ∀ error ∈ known, error = 0 ∨ nameIsSet error memory = false

/-- Every step keeps what is known of the errors. -/
theorem unset_remember {known : List Word} (hunset : Unset known memory) (next : Step) :
    Unset (remember known next) (step noPointers next memory).memory := by
  cases next with
  | store address byte =>
      intro error herror
      obtain ⟨hknown, helsewhere⟩ := List.mem_filter.mp herror
      rcases hunset error hknown with hnull | hname
      · exact .inl hnull
      · exact .inr (nameIsSet_put hname (of_decide_eq_true helsewhere))
  | call call =>
      have hkept : Unset known (cleared call memory) := by
        intro error herror
        rcases hunset error herror with hnull | hname
        · exact .inl hnull
        · exact .inr (nameIsSet_cleared hname call)
      rw [step, (exported_noPointers call memory).2.1]
      cases call
      case errorInit error =>
        have hsize : pointerSize ≤ errorSize := by decide
        exact List.forall_mem_cons.mpr ⟨nameIsSet_clear error memory hsize, hkept⟩
      case errorFree error =>
        have hsize : pointerSize ≤ 2 * pointerSize := by decide
        exact List.forall_mem_cons.mpr ⟨nameIsSet_clear error memory hsize, hkept⟩
      all_goals exact hkept

/-- A tidy client asks only for errors that are known to be unset. -/
theorem tidy_cons {known : List Word} {next : Step} {rest : List Step}
    (htidy : Tidy known (next :: rest)) :
    (∀ error, next = .call (.errorIsSet error) → error ∈ known) ∧
      Tidy (remember known next) rest := by
  cases next with
  | store address byte => exact ⟨nofun, htidy⟩
  | call call =>
      cases call
      case errorIsSet error =>
        refine ⟨fun other hsame => ?_, htidy.2⟩
        cases hsame
        exact htidy.1
      all_goals exact ⟨nofun, htidy⟩

/-- Without a library a session reaches nothing, and a tidy client is handed nothing and
told of no failure. -/
theorem results_of_tidy {known : List Word} {steps : List Step} (htidy : Tidy known steps)
    (hunset : Unset known memory) :
    (observe (step noPointers) steps memory).reached = [] ∧
      ∀ result ∈ (observe (step noPointers) steps memory).results,
        result = .void ∨ result = .word 0 := by
  induction steps generalizing known memory with
  | nil => exact ⟨rfl, nofun⟩
  | cons next rest ih =>
      obtain ⟨hasks, hrest⟩ := tidy_cons htidy
      obtain ⟨hreached, hresults⟩ := ih hrest (unset_remember hunset next)
      have hfirst : (step noPointers next memory).reached = [] ∧
          ((step noPointers next memory).result = .void ∨
            (step noPointers next memory).result = .word 0) := by
        cases next with
        | store address byte => exact ⟨rfl, .inl rfl⟩
        | call call =>
            obtain ⟨hnone, -, hresult⟩ := exported_noPointers call memory
            refine ⟨hnone, ?_⟩
            rw [step, hresult]
            cases call
            case errorIsSet error =>
              rcases hunset error (hasks error rfl) with hnull | hname
              · exact .inr (by simp [hnull])
              · exact .inr (by simp [hname])
            all_goals
              first
              | exact .inl rfl
              | exact .inr rfl
      refine ⟨?_, ?_⟩
      · rw [observe, hfirst.1, hreached]
        rfl
      · rw [observe]
        exact List.forall_mem_cons.mpr ⟨hfirst.2, hresults⟩

/-- What a session leaves in memory is what the client has put there, but for zeros in the
structures that were cleared. -/
theorem memoryAfter_noPointers (steps : List Step) (memory : Shared State) (address : Word) :
    (memoryAfter (step noPointers) steps memory).store address =
        (memoryAfter clientOnly steps memory).store address ∨
      (memoryAfter (step noPointers) steps memory).store address = 0 ∧
        ClearedBy steps address := by
  induction steps using List.reverseRecOn with
  | nil => exact .inl rfl
  | append_singleton earlier last ih =>
      have hmore : ClearedBy earlier address → ClearedBy (earlier ++ [last]) address := by
        rintro ⟨call, hcall, hrange⟩
        exact ⟨call, List.mem_append_left _ hcall, hrange⟩
      simp only [memoryAfter, List.foldl_append, List.foldl_cons, List.foldl_nil]
      rw [← memoryAfter, ← memoryAfter]
      cases last with
      | store other byte =>
          by_cases hsame : address = other
          · subst hsame
            simp [step, clientOnly, put]
          · simp only [step, clientOnly, put, Function.update_of_ne hsame]
            exact ih.imp_right fun ⟨hzero, hcleared⟩ => ⟨hzero, hmore hcleared⟩
      | call call =>
          rw [step, (exported_noPointers call _).2.1]
          rcases cleared_store call (memoryAfter (step noPointers) earlier memory) address with
            hsame | ⟨hzero, hrange⟩
          · rw [hsame]
            exact ih.imp_right fun ⟨hzero, hcleared⟩ => ⟨hzero, hmore hcleared⟩
          · exact .inr ⟨hzero, call, by simp, hrange⟩

/-- Without a library nothing is reached, and memory is what the client makes of it but for
the structures that were cleared. A client that initialises its errors before it asks for
them gets neither a connection nor a message, and is told of no failure. -/
theorem fallback_session (steps : List Step) (memory : Shared State) (htidy : Tidy [] steps) :
    (observe (step noPointers) steps memory).reached = [] ∧
      (∀ result ∈ (observe (step noPointers) steps memory).results,
        result = .void ∨ result = .word 0) ∧
      ∀ address, (memoryAfter (step noPointers) steps memory).store address =
          (memoryAfter clientOnly steps memory).store address ∨
        (memoryAfter (step noPointers) steps memory).store address = 0 ∧
          ClearedBy steps address := by
  obtain ⟨hreached, hresults⟩ := @results_of_tidy _ memory [] steps htidy nofun
  exact ⟨hreached, hresults, memoryAfter_noPointers steps memory⟩

end Fallback

/-! ## A bus that is not there -/

/-- A client asks for the bus, and whether that has failed. -/
def asksForBus : List Step :=
  [.call (.errorInit 0x1000), .call (.busGet 0 0x1000), .call (.errorIsSet 0x1000)]

/-- It gets none, and nothing has failed. -/
theorem fallback_session_asksForBus :
    (observe (step noPointers) asksForBus (Shared.mk (fun _ => 1) ())).reached = [] ∧
      ∀ result ∈ (observe (step noPointers) asksForBus (Shared.mk (fun _ => 1) ())).results,
        result = .void ∨ result = .word 0 := by
  have htidy : Tidy [] asksForBus := ⟨List.mem_singleton_self _, trivial⟩
  obtain ⟨hreached, hresults, -⟩ := fallback_session asksForBus (Shared.mk (fun _ => 1) ()) htidy
  exact ⟨hreached, hresults⟩

/-- A library that counts the calls of its functions, and lacks one of them. -/
def countingSystem : Symbol → Function ℕ :=
  fun _ _ memory => (1, ⟨memory.store, memory.state + 1⟩)

def partLoader : Loader Unit Symbol (Function ℕ) where
  dlopen _ := some ()
  dlsym _ symbol := if symbol = .messageIterRecurse then none else some (countingSystem symbol)

theorem findsOnly_partLoader : FindsOnly partLoader countingSystem := by
  intro symbol function hfound
  have hpart : dbusStubInit partLoader symbol =
      if symbol = .messageIterRecurse then none else some (countingSystem symbol) := rfl
  rw [hpart] at hfound
  split at hfound
  · cases hfound
  · exact (Option.some.inj hfound).symm

/-- A session that does not need it goes as with the library itself. -/
theorem session_transparent_iff_partLoader :
    observe (exported (dbusStubInit partLoader)) [.busGet 0 0x1000, .connectionFlush 1]
        ⟨fun _ => 0, 0⟩ =
      observe (direct countingSystem) [.busGet 0 0x1000, .connectionFlush 1] ⟨fun _ => 0, 0⟩ :=
  (session_transparent_iff_found findsOnly_partLoader _ _).mpr (by decide)

end TizenRoblox.Stubs.Dbus
