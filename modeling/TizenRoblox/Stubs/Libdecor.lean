/-
# The libdecor stub

`libdecor.c` stands in for the system's libdecor. When it is loaded it looks for the
real library and for each of its functions, and a call goes to the real function where
it was found and to a small one of the stub's own where it was not. Each function
decides for itself, so a library that lacks some of them splits the work: an object may
come from one side and be used up by the other.

A client that passes what it has been handed keeps the two sides apart exactly when each
of its calls is answered by the side its objects come from (`session_lawful_iff`). That
is so for every client where the library has, with a constructor, what frees its objects
and, without the constructor, nothing that takes them (`lawful_of_consistent`).
-/

import TizenRoblox.Foundation.Interfaces

namespace TizenRoblox.Stubs.Libdecor

open TizenRoblox.Foundation

universe u

/-- The functions that the stub exports, and looks up in the real library. -/
inductive Symbol
  | new | unref | getFd | dispatch | decorate | frameUnref | frameSetTitle | frameSetAppId
  | frameSetFullscreen | frameUnsetFullscreen | frameSetMaximized | frameUnsetMaximized
  | frameSetMinimized | frameSetCapabilities | frameUnsetCapabilities | frameSetVisibility
  | frameSetMinContentSize | frameSetMaxContentSize | frameIsFloating | frameIsVisible
  | frameCommit | framePopupGrab | framePopupUngrab | frameTranslateCoordinate
  | frameShowWindowMenu | frameResize | frameMove | frameGetTitle | frameGetXdgSurface
  | frameGetXdgToplevel | frameGetWlSurface | stateNew | stateFree
  | configurationGetContentSize | configurationGetWindowState
  deriving DecidableEq

/-! ## Objects -/

/-- What the constructors make. -/
inductive Kind
  | context | frame | state
  deriving DecidableEq

/-- Which side an object comes from. -/
inductive Origin
  | real | builtin
  deriving DecidableEq

structure Object (kind : Kind) where
  origin : Origin
  address : ℕ
  deriving DecidableEq

/-- An object of some kind. -/
abbrev AnyObject := (kind : Kind) × Object kind

/-- A pointer to an object, or `NULL`. -/
abbrev Handle (kind : Kind) := Option (Object kind)

/-- A pointer to the client's functions, of which the stub reads `configure`: `none` for
`NULL`, zero for a missing function. -/
abbrev FrameInterface := Option Word

inductive Argument
  | context (handle : Handle .context)
  | frame (handle : Handle .frame)
  | state (handle : Handle .state)
  | interface (iface : FrameInterface)
  | word (value : Word)

/-- The object that an argument passes, if it passes one. -/
def Argument.object : Argument → Option AnyObject
  | .context handle => handle.map (Sigma.mk .context)
  | .frame handle => handle.map (Sigma.mk .frame)
  | .state handle => handle.map (Sigma.mk .state)
  | .interface _ | .word _ => none

/-- What the client gets. -/
inductive Result
  | void
  | word (value : Word)
  | text (bytes : Bytes)
  | object {kind : Kind} (handle : Handle kind)

def null : Result := .word 0

/-- The objects that a result hands to the client. -/
def Result.objects : Result → List AnyObject
  | .object (some made) => [⟨_, made⟩]
  | _ => []

/-- What a call does with objects and with the client's memory. -/
inductive Deed
  /-- A function of the real library was called. -/
  | reached (symbol : Symbol) (arguments : List Argument)
  /-- The stub's own code wrote to an object. -/
  | wrote (object : AnyObject)
  /-- The stub's own code freed an object. -/
  | freed (object : AnyObject)
  /-- The client's `configure` was called with a frame. -/
  | configured (configure : Word) (frame : Object .frame) (userData : Word)
  /-- A value was stored for the client. -/
  | stored (pointer value : Word)

/-! ## Loading -/

/-- A function of the real library: what it may change is the memory it shares with the
client, its own state included. -/
abbrev Function (Memory : Type u) := List Argument → Memory → Word × Memory

/-- The pointers of the stub, `NULL` where nothing was found. -/
abbrev Pointers (Memory : Type u) := Symbol → Option (Function Memory)

def paths : List Bytes := [
  bytes "/usr/lib/aarch64-linux-gnu/libdecor-0.so.0",
  bytes "/usr/lib64/libdecor-0.so.0",
  bytes "/usr/lib/libdecor-0.so.0",
  bytes "/lib/aarch64-linux-gnu/libdecor-0.so.0",
  bytes "/usr/lib/tizen/libdecor-0.so.0",
  bytes "/usr/share/tizen/libdecor-0.so.0"]

section Loading

variable {Loaded : Type} {Memory : Type u} (loader : Loader Loaded Symbol (Function Memory))

/-- What the constructor loads; `forced` is whether `TIZENROBLOX_FORCE_LIBDECOR_STUB` is
set. -/
def libdecorStubInit (forced : Bool) : Pointers Memory := fun symbol =>
  if forced then none else loader.find (loader.openFirst paths) symbol

/-- What it writes to the standard error. -/
def initLine (forced : Bool) : Bytes :=
  if forced then bytes "[libdecor-stub] TIZENROBLOX_FORCE_LIBDECOR_STUB set, " ++
    bytes "using built-in fullscreen fallback"
  else if (loader.openFirst paths).isSome then
    bytes "[libdecor-stub] delegating to real libdecor"
  else bytes "[libdecor-stub] real libdecor not found, using built-in fullscreen fallback"

end Loading

/-- A library that lacks any of the functions can be found. -/
theorem exists_libdecorStubInit {Memory : Type u} (pointers : Pointers Memory) :
    ∃ loader : Loader Unit Symbol (Function Memory), libdecorStubInit loader false = pointers :=
  ⟨⟨fun _ => some (), fun _ => pointers⟩, rfl⟩

/-! ## Calls -/

/-- A call as the client makes it: every handle has the kind its parameter asks for. -/
inductive Call
  | new (display iface : Word)
  | unref (ctx : Handle .context)
  | getFd (ctx : Handle .context)
  | dispatch (ctx : Handle .context) (timeoutMs : Word)
  | decorate (ctx : Handle .context) (surface : Word) (iface : FrameInterface) (userData : Word)
  | frameUnref (f : Handle .frame)
  | frameSetTitle (f : Handle .frame) (t : Word)
  | frameSetAppId (f : Handle .frame) (id : Word)
  | frameSetFullscreen (f : Handle .frame) (o : Word)
  | frameUnsetFullscreen (f : Handle .frame)
  | frameSetMaximized (f : Handle .frame)
  | frameUnsetMaximized (f : Handle .frame)
  | frameSetMinimized (f : Handle .frame)
  | frameSetCapabilities (f : Handle .frame) (c : Word)
  | frameUnsetCapabilities (f : Handle .frame) (c : Word)
  | frameSetVisibility (f : Handle .frame) (v : Word)
  | frameSetMinContentSize (f : Handle .frame) (w h : Word)
  | frameSetMaxContentSize (f : Handle .frame) (w h : Word)
  | frameIsFloating (f : Handle .frame)
  | frameIsVisible (f : Handle .frame)
  | frameCommit (f : Handle .frame) (s : Handle .state) (c : Word)
  | framePopupGrab (f : Handle .frame) (seat : Word)
  | framePopupUngrab (f : Handle .frame) (seat : Word)
  | frameTranslateCoordinate (f : Handle .frame) (cx cy fx fy : Word)
  | frameShowWindowMenu (f : Handle .frame) (seat serial x y : Word)
  | frameResize (f : Handle .frame) (seat serial edge : Word)
  | frameMove (f : Handle .frame) (seat serial : Word)
  | frameGetTitle (f : Handle .frame)
  | frameGetXdgSurface (f : Handle .frame)
  | frameGetXdgToplevel (f : Handle .frame)
  | frameGetWlSurface (f : Handle .frame)
  | stateNew (width height : Word)
  | stateFree (s : Handle .state)
  | configurationGetContentSize (cfg : Word) (frame : Handle .frame) (width height : Word)
  | configurationGetWindowState (cfg state : Word)

/-- The function that a call means, and its arguments. -/
def Call.meant : Call → Symbol × List Argument
  | .new display iface => (.new, [.word display, .word iface])
  | .unref ctx => (.unref, [.context ctx])
  | .getFd ctx => (.getFd, [.context ctx])
  | .dispatch ctx timeoutMs => (.dispatch, [.context ctx, .word timeoutMs])
  | .decorate ctx surface iface userData =>
    (.decorate, [.context ctx, .word surface, .interface iface, .word userData])
  | .frameUnref f => (.frameUnref, [.frame f])
  | .frameSetTitle f t => (.frameSetTitle, [.frame f, .word t])
  | .frameSetAppId f id => (.frameSetAppId, [.frame f, .word id])
  | .frameSetFullscreen f o => (.frameSetFullscreen, [.frame f, .word o])
  | .frameUnsetFullscreen f => (.frameUnsetFullscreen, [.frame f])
  | .frameSetMaximized f => (.frameSetMaximized, [.frame f])
  | .frameUnsetMaximized f => (.frameUnsetMaximized, [.frame f])
  | .frameSetMinimized f => (.frameSetMinimized, [.frame f])
  | .frameSetCapabilities f c => (.frameSetCapabilities, [.frame f, .word c])
  | .frameUnsetCapabilities f c => (.frameUnsetCapabilities, [.frame f, .word c])
  | .frameSetVisibility f v => (.frameSetVisibility, [.frame f, .word v])
  | .frameSetMinContentSize f w h => (.frameSetMinContentSize, [.frame f, .word w, .word h])
  | .frameSetMaxContentSize f w h => (.frameSetMaxContentSize, [.frame f, .word w, .word h])
  | .frameIsFloating f => (.frameIsFloating, [.frame f])
  | .frameIsVisible f => (.frameIsVisible, [.frame f])
  | .frameCommit f s c => (.frameCommit, [.frame f, .state s, .word c])
  | .framePopupGrab f seat => (.framePopupGrab, [.frame f, .word seat])
  | .framePopupUngrab f seat => (.framePopupUngrab, [.frame f, .word seat])
  | .frameTranslateCoordinate f cx cy fx fy =>
    (.frameTranslateCoordinate, [.frame f, .word cx, .word cy, .word fx, .word fy])
  | .frameShowWindowMenu f seat serial x y =>
    (.frameShowWindowMenu, [.frame f, .word seat, .word serial, .word x, .word y])
  | .frameResize f seat serial edge =>
    (.frameResize, [.frame f, .word seat, .word serial, .word edge])
  | .frameMove f seat serial => (.frameMove, [.frame f, .word seat, .word serial])
  | .frameGetTitle f => (.frameGetTitle, [.frame f])
  | .frameGetXdgSurface f => (.frameGetXdgSurface, [.frame f])
  | .frameGetXdgToplevel f => (.frameGetXdgToplevel, [.frame f])
  | .frameGetWlSurface f => (.frameGetWlSurface, [.frame f])
  | .stateNew width height => (.stateNew, [.word width, .word height])
  | .stateFree s => (.stateFree, [.state s])
  | .configurationGetContentSize cfg frame width height =>
    (.configurationGetContentSize, [.word cfg, .frame frame, .word width, .word height])
  | .configurationGetWindowState cfg state =>
    (.configurationGetWindowState, [.word cfg, .word state])

/-- The objects that a call passes. -/
def Call.objects (call : Call) : List AnyObject := call.meant.2.filterMap Argument.object

/-! ## The exports -/

/-- The client and the libraries between two calls. -/
structure Session (Memory : Type u) where
  memory : Memory
  /-- How many objects the stub has allocated. -/
  allocated : ℕ
  /-- The objects that the client has been handed. -/
  handed : List AnyObject

abbrev Wrapper (Memory : Type u) := Session Memory → Effect Deed Result (Session Memory)

def windowStateFullscreen : Word := 4

section Exports

variable {Memory : Type u} (pointers : Pointers Memory)

/-- Calls the real function where it was found. -/
def delegate (symbol : Symbol) (arguments : List Argument) (result : Word → Result)
    (fallback : Wrapper Memory) : Wrapper Memory := fun session =>
  match pointers symbol with
  | some function =>
    let (value, after) := function arguments session.memory
    ⟨[.reached symbol arguments], result value, { session with memory := after }⟩
  | none => fallback session

/-- Leaves everything but the client's memory as it is. -/
def answer (deeds : List Deed) (result : Result) : Wrapper Memory := fun session =>
  ⟨deeds, result, session⟩

/-- `if (r_symbol) r_symbol(arguments);` -/
def delegateVoid (symbol : Symbol) (arguments : List Argument) : Wrapper Memory :=
  delegate pointers symbol arguments (fun _ => .void) (answer [] .void)

/-- `return r_symbol ? r_symbol(arguments) : fallback;` -/
def delegateOr (symbol : Symbol) (arguments : List Argument) (fallback : Result) :
    Wrapper Memory :=
  delegate pointers symbol arguments .word (answer [] fallback)

/-- What a constructor of the real library returns. -/
def realObject (kind : Kind) (value : Word) : Handle kind :=
  if value = 0 then none else some ⟨.real, value.toNat⟩

/-- `calloc`, and the fields of the new object. -/
def allocate (kind : Kind) (further : Object kind → List Deed) : Wrapper Memory :=
  fun session =>
    let object : Object kind := ⟨.builtin, session.allocated⟩
    ⟨.wrote ⟨kind, object⟩ :: further object, .object (some object),
      { session with allocated := session.allocated + 1 }⟩

/-- `free`, which ignores `NULL`. -/
def free {kind : Kind} (handle : Handle kind) : Wrapper Memory :=
  answer ((handle.map fun object => Deed.freed ⟨kind, object⟩).toList) .void

/-- `if (pointer) *pointer = value;` -/
def store (pointer value : Word) : List Deed :=
  if pointer = 0 then [] else [.stored pointer value]

def libdecorNew (display iface : Word) : Wrapper Memory :=
  delegate pointers .new [.word display, .word iface]
    (fun value => .object (realObject .context value)) <|
    allocate .context fun _ => []

def libdecorUnref (ctx : Handle .context) : Wrapper Memory :=
  delegate pointers .unref [.context ctx] (fun _ => .void) <| free ctx

def libdecorGetFd (ctx : Handle .context) : Wrapper Memory :=
  delegateOr pointers .getFd [.context ctx] (.word (-1))

def libdecorDispatch (ctx : Handle .context) (timeoutMs : Word) : Wrapper Memory :=
  delegateOr pointers .dispatch [.context ctx, .word timeoutMs] (.word 0)

/-- The built-in frame is configured before the client has it. -/
def libdecorDecorate (ctx : Handle .context) (surface : Word) (iface : FrameInterface)
    (userData : Word) : Wrapper Memory :=
  delegate pointers .decorate [.context ctx, .word surface, .interface iface, .word userData]
    (fun value => .object (realObject .frame value)) <|
    allocate .frame fun frame =>
      match iface with
      | some configure => if configure = 0 then [] else [.configured configure frame userData]
      | none => []

def libdecorFrameUnref (f : Handle .frame) : Wrapper Memory :=
  delegate pointers .frameUnref [.frame f] (fun _ => .void) <| free f

def libdecorFrameSetTitle (f : Handle .frame) (t : Word) : Wrapper Memory :=
  delegateVoid pointers .frameSetTitle [.frame f, .word t]

def libdecorFrameSetAppId (f : Handle .frame) (id : Word) : Wrapper Memory :=
  delegateVoid pointers .frameSetAppId [.frame f, .word id]

def libdecorFrameSetFullscreen (f : Handle .frame) (o : Word) : Wrapper Memory :=
  delegateVoid pointers .frameSetFullscreen [.frame f, .word o]

def libdecorFrameUnsetFullscreen (f : Handle .frame) : Wrapper Memory :=
  delegateVoid pointers .frameUnsetFullscreen [.frame f]

def libdecorFrameSetMaximized (f : Handle .frame) : Wrapper Memory :=
  delegateVoid pointers .frameSetMaximized [.frame f]

def libdecorFrameUnsetMaximized (f : Handle .frame) : Wrapper Memory :=
  delegateVoid pointers .frameUnsetMaximized [.frame f]

def libdecorFrameSetMinimized (f : Handle .frame) : Wrapper Memory :=
  delegateVoid pointers .frameSetMinimized [.frame f]

def libdecorFrameSetCapabilities (f : Handle .frame) (c : Word) : Wrapper Memory :=
  delegateVoid pointers .frameSetCapabilities [.frame f, .word c]

def libdecorFrameUnsetCapabilities (f : Handle .frame) (c : Word) : Wrapper Memory :=
  delegateVoid pointers .frameUnsetCapabilities [.frame f, .word c]

def libdecorFrameSetVisibility (f : Handle .frame) (v : Word) : Wrapper Memory :=
  delegateVoid pointers .frameSetVisibility [.frame f, .word v]

def libdecorFrameSetMinContentSize (f : Handle .frame) (w h : Word) : Wrapper Memory :=
  delegateVoid pointers .frameSetMinContentSize [.frame f, .word w, .word h]

def libdecorFrameSetMaxContentSize (f : Handle .frame) (w h : Word) : Wrapper Memory :=
  delegateVoid pointers .frameSetMaxContentSize [.frame f, .word w, .word h]

def libdecorFrameIsFloating (f : Handle .frame) : Wrapper Memory :=
  delegateOr pointers .frameIsFloating [.frame f] (.word 0)

def libdecorFrameIsVisible (f : Handle .frame) : Wrapper Memory :=
  delegateOr pointers .frameIsVisible [.frame f] (.word 1)

def libdecorFrameCommit (f : Handle .frame) (s : Handle .state) (c : Word) : Wrapper Memory :=
  delegateVoid pointers .frameCommit [.frame f, .state s, .word c]

def libdecorFramePopupGrab (f : Handle .frame) (seat : Word) : Wrapper Memory :=
  delegateVoid pointers .framePopupGrab [.frame f, .word seat]

def libdecorFramePopupUngrab (f : Handle .frame) (seat : Word) : Wrapper Memory :=
  delegateVoid pointers .framePopupUngrab [.frame f, .word seat]

def libdecorFrameTranslateCoordinate (f : Handle .frame) (cx cy fx fy : Word) :
    Wrapper Memory :=
  delegate pointers .frameTranslateCoordinate
    [.frame f, .word cx, .word cy, .word fx, .word fy] (fun _ => .void) <|
    answer (store fx cx ++ store fy cy) .void

def libdecorFrameShowWindowMenu (f : Handle .frame) (seat serial x y : Word) : Wrapper Memory :=
  delegateVoid pointers .frameShowWindowMenu [.frame f, .word seat, .word serial, .word x, .word y]

def libdecorFrameResize (f : Handle .frame) (seat serial edge : Word) : Wrapper Memory :=
  delegateVoid pointers .frameResize [.frame f, .word seat, .word serial, .word edge]

def libdecorFrameMove (f : Handle .frame) (seat serial : Word) : Wrapper Memory :=
  delegateVoid pointers .frameMove [.frame f, .word seat, .word serial]

def libdecorFrameGetTitle (f : Handle .frame) : Wrapper Memory :=
  delegateOr pointers .frameGetTitle [.frame f] (.text (bytes "Roblox"))

def libdecorFrameGetXdgSurface (f : Handle .frame) : Wrapper Memory :=
  delegateOr pointers .frameGetXdgSurface [.frame f] null

def libdecorFrameGetXdgToplevel (f : Handle .frame) : Wrapper Memory :=
  delegateOr pointers .frameGetXdgToplevel [.frame f] null

def libdecorFrameGetWlSurface (f : Handle .frame) : Wrapper Memory :=
  delegateOr pointers .frameGetWlSurface [.frame f] null

def libdecorStateNew (width height : Word) : Wrapper Memory :=
  delegate pointers .stateNew [.word width, .word height]
    (fun value => .object (realObject .state value)) <|
    allocate .state fun _ => []

def libdecorStateFree (s : Handle .state) : Wrapper Memory :=
  delegate pointers .stateFree [.state s] (fun _ => .void) <| free s

def libdecorConfigurationGetContentSize (cfg : Word) (frame : Handle .frame)
    (width height : Word) : Wrapper Memory :=
  delegate pointers .configurationGetContentSize
    [.word cfg, .frame frame, .word width, .word height] .word <|
    answer (store width 3840 ++ store height 2160) (.word 1)

def libdecorConfigurationGetWindowState (cfg state : Word) : Wrapper Memory :=
  delegate pointers .configurationGetWindowState [.word cfg, .word state] .word <|
    answer (store state windowStateFullscreen) (.word 1)

/-- What the stub does on a call. -/
def exported : Call → Wrapper Memory
  | .new display iface => libdecorNew pointers display iface
  | .unref ctx => libdecorUnref pointers ctx
  | .getFd ctx => libdecorGetFd pointers ctx
  | .dispatch ctx timeoutMs => libdecorDispatch pointers ctx timeoutMs
  | .decorate ctx surface iface userData => libdecorDecorate pointers ctx surface iface userData
  | .frameUnref f => libdecorFrameUnref pointers f
  | .frameSetTitle f t => libdecorFrameSetTitle pointers f t
  | .frameSetAppId f id => libdecorFrameSetAppId pointers f id
  | .frameSetFullscreen f o => libdecorFrameSetFullscreen pointers f o
  | .frameUnsetFullscreen f => libdecorFrameUnsetFullscreen pointers f
  | .frameSetMaximized f => libdecorFrameSetMaximized pointers f
  | .frameUnsetMaximized f => libdecorFrameUnsetMaximized pointers f
  | .frameSetMinimized f => libdecorFrameSetMinimized pointers f
  | .frameSetCapabilities f c => libdecorFrameSetCapabilities pointers f c
  | .frameUnsetCapabilities f c => libdecorFrameUnsetCapabilities pointers f c
  | .frameSetVisibility f v => libdecorFrameSetVisibility pointers f v
  | .frameSetMinContentSize f w h => libdecorFrameSetMinContentSize pointers f w h
  | .frameSetMaxContentSize f w h => libdecorFrameSetMaxContentSize pointers f w h
  | .frameIsFloating f => libdecorFrameIsFloating pointers f
  | .frameIsVisible f => libdecorFrameIsVisible pointers f
  | .frameCommit f s c => libdecorFrameCommit pointers f s c
  | .framePopupGrab f seat => libdecorFramePopupGrab pointers f seat
  | .framePopupUngrab f seat => libdecorFramePopupUngrab pointers f seat
  | .frameTranslateCoordinate f cx cy fx fy =>
    libdecorFrameTranslateCoordinate pointers f cx cy fx fy
  | .frameShowWindowMenu f seat serial x y =>
    libdecorFrameShowWindowMenu pointers f seat serial x y
  | .frameResize f seat serial edge => libdecorFrameResize pointers f seat serial edge
  | .frameMove f seat serial => libdecorFrameMove pointers f seat serial
  | .frameGetTitle f => libdecorFrameGetTitle pointers f
  | .frameGetXdgSurface f => libdecorFrameGetXdgSurface pointers f
  | .frameGetXdgToplevel f => libdecorFrameGetXdgToplevel pointers f
  | .frameGetWlSurface f => libdecorFrameGetWlSurface pointers f
  | .stateNew width height => libdecorStateNew pointers width height
  | .stateFree s => libdecorStateFree pointers s
  | .configurationGetContentSize cfg frame width height =>
    libdecorConfigurationGetContentSize pointers cfg frame width height
  | .configurationGetWindowState cfg state =>
    libdecorConfigurationGetWindowState pointers cfg state

/-- A call of a client, who then has what the call returns. -/
def step (call : Call) : Wrapper Memory := fun session =>
  let effect := exported pointers call session
  { effect with memory :=
      { effect.memory with handed := effect.result.objects ++ effect.memory.handed } }

end Exports

/-! ## Keeping the sides apart -/

/-- The function that makes the objects of a kind. -/
def Kind.constructor : Kind → Symbol
  | .context => .new
  | .frame => .decorate
  | .state => .stateNew

/-- Whether a function frees the object it is called with. -/
def Symbol.frees : Symbol → Bool
  | .unref | .frameUnref | .stateFree => true
  | _ => false

/-- No built-in object is passed to the real library, and the stub's own code neither
writes to nor frees an object of the real library. -/
def Deed.Lawful : Deed → Prop
  | .reached _ arguments =>
    ∀ object ∈ arguments.filterMap Argument.object, object.2.origin = .real
  | .wrote object | .freed object => object.2.origin = .builtin
  | .configured _ _ _ | .stored _ _ => True

instance : DecidablePred Deed.Lawful
  | .reached _ arguments => inferInstanceAs (Decidable
      (∀ object ∈ arguments.filterMap Argument.object, object.2.origin = .real))
  | .wrote object | .freed object => inferInstanceAs (Decidable (object.2.origin = .builtin))
  | .configured _ _ _ | .stored _ _ => .isTrue trivial

section Sides

variable {Memory : Type u} (pointers : Pointers Memory)

/-- A call is answered by the side that the objects it passes come from: if the real
library makes them, it also frees them, and if it does not, it is not called. -/
def Settled (call : Call) : Prop :=
  ∀ object ∈ call.objects,
    if (pointers object.1.constructor).isSome then
      call.meant.1.frees = true → (pointers call.meant.1).isSome = true
    else (pointers call.meant.1).isSome = false

instance : DecidablePred (Settled pointers) := fun call =>
  inferInstanceAs (Decidable (∀ object ∈ call.objects,
    if (pointers object.1.constructor).isSome then
      call.meant.1.frees = true → (pointers call.meant.1).isSome = true
    else (pointers call.meant.1).isSome = false))

/-- The client passes objects that it has been handed. -/
def Passes (session : Session Memory) (call : Call) : Prop :=
  ∀ object ∈ call.objects, object ∈ session.handed

instance (session : Session Memory) (call : Call) : Decidable (Passes session call) :=
  inferInstanceAs (Decidable (∀ object ∈ call.objects, object ∈ session.handed))

/-- The side that makes the objects of a kind. -/
def sideOf (kind : Kind) : Origin := if (pointers kind.constructor).isSome then .real else .builtin

/-- Every object comes from the side that makes the objects of its kind. -/
def Sided (session : Session Memory) : Prop :=
  ∀ object ∈ session.handed, object.2.origin = sideOf pointers object.1

variable {pointers}

/-- What the stub's own code may do for a call: it hands nothing to the client but an
object it makes itself, and is unlawful only in freeing what it is given. -/
structure OwnWork (call : Call) (fallback : Wrapper Memory) : Prop where
  handed : ∀ session, (fallback session).memory.handed = session.handed
  lawful : ∀ session, (∀ deed ∈ (fallback session).reached, deed.Lawful) ↔
    (call.meant.1.frees = true → ∀ object ∈ call.objects, object.2.origin = .builtin)
  made : ∀ session, ∀ object ∈ (fallback session).result.objects,
    object.1.constructor = call.meant.1 ∧ object.2.origin = .builtin

theorem OwnWork.ofAnswer {call : Call} {deeds : List Deed} {result : Result}
    (hfrees : call.meant.1.frees = false) (hdeeds : ∀ deed ∈ deeds, deed.Lawful)
    (hresult : result.objects = []) :
    OwnWork call (answer deeds result : Wrapper Memory) where
  handed := fun _ => rfl
  lawful := fun _ => ⟨fun _ htrue => by simp [hfrees] at htrue, fun _ => hdeeds⟩
  made := fun _ object hobject => by simp [answer, hresult] at hobject

theorem OwnWork.ofAllocate {call : Call} {kind : Kind} {further : Object kind → List Deed}
    (hconstructor : kind.constructor = call.meant.1)
    (hfurther : ∀ object, ∀ deed ∈ further object, deed.Lawful) :
    OwnWork call (allocate kind further : Wrapper Memory) where
  handed := fun _ => rfl
  lawful := by
    have hfrees : call.meant.1.frees = false := by
      rw [← hconstructor]
      cases kind <;> rfl
    intro session
    refine ⟨fun _ htrue => by simp [hfrees] at htrue, fun _ deed hdeed => ?_⟩
    rcases List.mem_cons.mp hdeed with rfl | hlater
    · rfl
    · exact hfurther _ deed hlater
  made := by
    intro session object hobject
    obtain rfl := List.mem_singleton.mp hobject
    exact ⟨hconstructor, rfl⟩

theorem OwnWork.ofFree {call : Call} {kind : Kind} {handle : Handle kind}
    (hfrees : call.meant.1.frees = true)
    (hobjects : call.objects = (handle.map (Sigma.mk kind)).toList) :
    OwnWork call (free handle : Wrapper Memory) where
  handed := fun _ => rfl
  lawful := by
    intro session
    rw [hobjects]
    cases handle <;> simp [free, answer, hfrees, Deed.Lawful]
  made := fun _ object hobject => by simp [free, answer, Result.objects] at hobject

theorem lawful_store (pointer value : Word) : ∀ deed ∈ store pointer value, deed.Lawful := by
  intro deed hdeed
  unfold store at hdeed
  split at hdeed
  · exact absurd hdeed List.not_mem_nil
  · obtain rfl := List.mem_singleton.mp hdeed
    trivial

theorem made_realObject {call : Call} {kind : Kind}
    (hconstructor : kind.constructor = call.meant.1) (value : Word) :
    ∀ object ∈ (Result.object (realObject kind value)).objects,
      object.1.constructor = call.meant.1 ∧ object.2.origin = .real := by
  intro object hobject
  unfold realObject at hobject
  split at hobject
  · exact absurd hobject List.not_mem_nil
  · obtain rfl := List.mem_singleton.mp hobject
    exact ⟨hconstructor, rfl⟩

theorem made_nothing {call : Call} {result : Result} (hresult : result.objects = []) :
    ∀ object ∈ result.objects,
      object.1.constructor = call.meant.1 ∧ object.2.origin = .real := by
  simp [hresult]

/-- Every export calls its own function of the real library with its own arguments, or
does work of its own. -/
theorem exported_eq_delegate (pointers : Pointers Memory) (call : Call) :
    ∃ result fallback,
      exported pointers call = delegate pointers call.meant.1 call.meant.2 result fallback ∧
        (∀ value, ∀ object ∈ (result value).objects,
          object.1.constructor = call.meant.1 ∧ object.2.origin = .real) ∧
        OwnWork call fallback := by
  cases call
  case new =>
    refine ⟨_, _, rfl, made_realObject rfl, ?_⟩
    exact .ofAllocate rfl (by simp)
  case decorate ctx surface iface userData =>
    refine ⟨_, _, rfl, made_realObject rfl, .ofAllocate rfl ?_⟩
    intro frame deed hdeed
    split at hdeed
    · split at hdeed
      · exact absurd hdeed List.not_mem_nil
      · obtain rfl := List.mem_singleton.mp hdeed
        trivial
    · exact absurd hdeed List.not_mem_nil
  case stateNew =>
    refine ⟨_, _, rfl, made_realObject rfl, ?_⟩
    exact .ofAllocate rfl (by simp)
  case unref ctx =>
    refine ⟨fun _ => .void, _, rfl, fun _ => made_nothing rfl, ?_⟩
    exact .ofFree rfl (by cases ctx <;> rfl)
  case frameUnref f =>
    refine ⟨fun _ => .void, _, rfl, fun _ => made_nothing rfl, ?_⟩
    exact .ofFree rfl (by cases f <;> rfl)
  case stateFree s =>
    refine ⟨fun _ => .void, _, rfl, fun _ => made_nothing rfl, ?_⟩
    exact .ofFree rfl (by cases s <;> rfl)
  case frameTranslateCoordinate f cx cy fx fy =>
    refine ⟨fun _ => .void, _, rfl, fun _ => made_nothing rfl, .ofAnswer rfl ?_ rfl⟩
    exact List.forall_mem_append.mpr ⟨lawful_store fx cx, lawful_store fy cy⟩
  case configurationGetContentSize cfg frame width height =>
    refine ⟨.word, _, rfl, fun _ => made_nothing rfl, .ofAnswer rfl ?_ rfl⟩
    exact List.forall_mem_append.mpr ⟨lawful_store width 3840, lawful_store height 2160⟩
  case configurationGetWindowState cfg state =>
    refine ⟨.word, _, rfl, fun _ => made_nothing rfl, ?_⟩
    exact .ofAnswer rfl (lawful_store state windowStateFullscreen) rfl
  all_goals
    first
    | refine ⟨fun _ => .void, _, rfl, fun _ => made_nothing rfl, ?_⟩
      exact .ofAnswer rfl (by simp) rfl
    | refine ⟨.word, _, rfl, fun _ => made_nothing rfl, ?_⟩
      exact .ofAnswer rfl (by simp) rfl

theorem sideOf_of_found {kind : Kind} (hfound : (pointers kind.constructor).isSome = true) :
    sideOf pointers kind = .real := if_pos hfound

theorem sideOf_of_missing {kind : Kind} (hmissing : ¬ (pointers kind.constructor).isSome = true) :
    sideOf pointers kind = .builtin := if_neg hmissing

/-- What a call hands to the client comes from the side that makes it. -/
theorem step_sided {session : Session Memory} (hsided : Sided pointers session) (call : Call) :
    Sided pointers (step pointers call session).memory := by
  obtain ⟨result, fallback, hexported, hreal, hown⟩ := exported_eq_delegate pointers call
  intro object hobject
  simp only [step, hexported, delegate] at hobject
  cases hpointer : pointers call.meant.1 with
  | some function =>
      simp only [hpointer] at hobject
      rcases List.mem_append.mp hobject with hnew | hold
      · obtain ⟨hconstructor, horigin⟩ := hreal _ object hnew
        rw [horigin, sideOf_of_found (by simp [hconstructor, hpointer])]
      · exact hsided object hold
  | none =>
      simp only [hpointer] at hobject
      rcases List.mem_append.mp hobject with hnew | hold
      · obtain ⟨hconstructor, horigin⟩ := hown.made session object hnew
        rw [horigin, sideOf_of_missing (by simp [hconstructor, hpointer])]
      · rw [hown.handed] at hold
        exact hsided object hold

/-- A call keeps the sides apart exactly when the side of its objects answers it. -/
theorem step_lawful_iff {session : Session Memory} {call : Call}
    (hsided : Sided pointers session) (hpasses : Passes session call) :
    (∀ deed ∈ (step pointers call session).reached, deed.Lawful) ↔ Settled pointers call := by
  obtain ⟨result, fallback, hexported, -, hown⟩ := exported_eq_delegate pointers call
  have horigin : ∀ object ∈ call.objects, object.2.origin = sideOf pointers object.1 :=
    fun object hobject => hsided object (hpasses object hobject)
  cases hpointer : pointers call.meant.1 with
  | some function =>
      have hreached : (step pointers call session).reached =
          [.reached call.meant.1 call.meant.2] := by
        simp only [step, hexported, delegate, hpointer]
      rw [hreached, List.forall_mem_singleton]
      refine forall₂_congr fun object hobject => ?_
      rw [horigin object hobject, hpointer]
      by_cases hfound : (pointers object.1.constructor).isSome = true
      · simp [sideOf_of_found hfound, hfound]
      · simp [sideOf_of_missing hfound, hfound]
  | none =>
      have hreached : (step pointers call session).reached = (fallback session).reached := by
        simp only [step, hexported, delegate, hpointer]
      rw [hreached, hown.lawful session]
      constructor
      · intro hfreed object hobject
        by_cases hfound : (pointers object.1.constructor).isSome = true
        · rw [if_pos hfound]
          intro hfrees
          have hbuiltin := hfreed hfrees object hobject
          rw [horigin object hobject, sideOf_of_found hfound] at hbuiltin
          exact absurd hbuiltin (by decide)
        · rw [if_neg hfound, hpointer]
          rfl
      · intro hsettled hfrees object hobject
        have hsettledObject := hsettled object hobject
        by_cases hfound : (pointers object.1.constructor).isSome = true
        · rw [if_pos hfound, hpointer] at hsettledObject
          exact absurd (hsettledObject hfrees) (by simp)
        · rw [horigin object hobject, sideOf_of_missing hfound]

/-- From any session whose objects are sided, a client that passes what it has been
handed keeps the sides apart exactly when every call is settled. -/
theorem observe_lawful_iff {session : Session Memory} {calls : List Call}
    (hsided : Sided pointers session) (hpasses : Along (step pointers) Passes calls session) :
    (∀ deed ∈ (observe (step pointers) calls session).reached, deed.Lawful) ↔
      ∀ call ∈ calls, Settled pointers call := by
  have hkeeps : ∀ call session, Sided pointers session → Passes session call →
      Sided pointers (step pointers call session).memory :=
    fun call _ hsided _ => step_sided hsided call
  have hcall : ∀ call session, Sided pointers session → Passes session call →
      ((∀ deed ∈ (step pointers call session).reached, deed.Lawful) ↔
        Settled pointers call) :=
    fun _ _ hsided hpasses => step_lawful_iff hsided hpasses
  exact reached_lawful_iff hkeeps hcall hsided hpasses

/-- The session in which the stub has been loaded. -/
def start (memory : Memory) : Session Memory := ⟨memory, 0, []⟩

theorem sided_start (pointers : Pointers Memory) (memory : Memory) :
    Sided pointers (start memory) :=
  fun _ hobject => absurd hobject List.not_mem_nil

/-- A session of a client that passes what it has been handed keeps the sides apart
exactly when every call is answered by the side that its objects come from. -/
theorem session_lawful_iff (pointers : Pointers Memory) (memory : Memory) {calls : List Call}
    (hpasses : Along (step pointers) Passes calls (start memory)) :
    (∀ deed ∈ (observe (step pointers) calls (start memory)).reached, deed.Lawful) ↔
      ∀ call ∈ calls, Settled pointers call :=
  observe_lawful_iff (sided_start pointers memory) hpasses

/-! ### A library that lacks a function -/

/-- A library whose functions all return the same word, and which lacks some of them. -/
def lacking (missing : Symbol → Bool) : Pointers Unit := fun symbol =>
  if missing symbol then none else some fun _ _ => (1, ())

/-- A client that makes a frame and frees it, each with the library's own functions. -/
theorem session_lawful_complete :
    Along (step (lacking fun _ => false)) Passes
        [.new 1 1, .decorate (some ⟨.real, 1⟩) 1 none 0, .frameUnref (some ⟨.real, 1⟩)]
        (start ()) ∧
      ∀ deed ∈ (observe (step (lacking fun _ => false))
        [.new 1 1, .decorate (some ⟨.real, 1⟩) 1 none 0, .frameUnref (some ⟨.real, 1⟩)]
        (start ())).reached, deed.Lawful :=
  ⟨by decide, (session_lawful_iff (lacking fun _ => false) () (by decide)).mpr (by decide)⟩

/-- The same client with a library that lacks `libdecor_frame_unref`: the stub frees the
library's frame. -/
theorem not_lawful_lackingFrameUnref :
    Along (step (lacking fun symbol => symbol = .frameUnref)) Passes
        [.new 1 1, .decorate (some ⟨.real, 1⟩) 1 none 0, .frameUnref (some ⟨.real, 1⟩)]
        (start ()) ∧
      ¬ ∀ deed ∈ (observe (step (lacking fun symbol => symbol = .frameUnref))
        [.new 1 1, .decorate (some ⟨.real, 1⟩) 1 none 0, .frameUnref (some ⟨.real, 1⟩)]
        (start ())).reached, deed.Lawful := by
  decide

end Sides

/-! ## Libraries that keep the sides apart -/

/-- The kinds of the objects that a function is called with. -/
def Symbol.takes : Symbol → List Kind
  | .new | .stateNew | .configurationGetWindowState => []
  | .unref | .getFd | .dispatch | .decorate => [.context]
  | .stateFree => [.state]
  | .frameCommit => [.frame, .state]
  | _ => [.frame]

/-- A library that has a constructor has what frees its objects, and a library that lacks
it has nothing that takes them. -/
def Consistent (found : Symbol → Bool) : Prop :=
  ∀ symbol : Symbol, ∀ kind ∈ symbol.takes,
    if found kind.constructor then symbol.frees = true → found symbol = true
    else found symbol = false

/-- The kind of object that an argument stands for. -/
def Argument.kind : Argument → Option Kind
  | .context _ => some .context
  | .frame _ => some .frame
  | .state _ => some .state
  | .interface _ | .word _ => none

theorem kind_of_object {argument : Argument} {object : AnyObject}
    (hobject : argument.object = some object) : argument.kind = some object.1 := by
  cases argument with
  | context handle =>
      obtain ⟨made, -, rfl⟩ := Option.map_eq_some_iff.mp hobject
      rfl
  | frame handle =>
      obtain ⟨made, -, rfl⟩ := Option.map_eq_some_iff.mp hobject
      rfl
  | state handle =>
      obtain ⟨made, -, rfl⟩ := Option.map_eq_some_iff.mp hobject
      rfl
  | interface iface => simp [Argument.object] at hobject
  | word value => simp [Argument.object] at hobject

theorem kinds_eq_takes (call : Call) :
    call.meant.2.filterMap Argument.kind = call.meant.1.takes := by
  cases call <;> rfl

theorem kind_mem_takes {call : Call} {object : AnyObject} (hobject : object ∈ call.objects) :
    object.1 ∈ call.meant.1.takes := by
  obtain ⟨argument, hargument, hpassed⟩ := List.mem_filterMap.mp hobject
  rw [← kinds_eq_takes]
  exact List.mem_filterMap.mpr ⟨argument, hargument, kind_of_object hpassed⟩

section Libraries

variable {Memory : Type u} {pointers : Pointers Memory}

/-- With a consistent library every client keeps the sides apart. -/
theorem lawful_of_consistent (hconsistent : Consistent fun symbol => (pointers symbol).isSome)
    (memory : Memory) {calls : List Call}
    (hpasses : Along (step pointers) Passes calls (start memory)) :
    ∀ deed ∈ (observe (step pointers) calls (start memory)).reached, deed.Lawful := by
  apply (observe_lawful_iff (sided_start pointers memory) hpasses).mpr
  intro call _ object hobject
  exact hconsistent call.meant.1 object.1 (kind_mem_takes hobject)

/-- A library that has every function is consistent. -/
theorem consistent_of_complete (hcomplete : ∀ symbol, (pointers symbol).isSome = true) :
    Consistent fun symbol => (pointers symbol).isSome := by
  intro symbol kind _
  simp [hcomplete]

/-- So is a library that is not there, or that the stub was told not to use. -/
theorem consistent_of_absent (habsent : ∀ symbol, pointers symbol = none) :
    Consistent fun symbol => (pointers symbol).isSome := by
  intro symbol kind _
  simp [habsent]

end Libraries

end TizenRoblox.Stubs.Libdecor
