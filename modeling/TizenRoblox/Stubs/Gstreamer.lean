/-
# The GStreamer shim

`libgstreamer_stub.c` stands in for three system libraries. When it is loaded it looks
for them and for each function it exports, and from then on it passes calls on to the
functions it found; without a function it answers on its own.

With everything found, a session through the shim should be the session with the
system's GStreamer itself. It is exactly when it has no call of `gst_bin_add_many` or
`gst_element_link_many` (`session_transparent_iff`): the pointers of these two are
loaded, but a variadic call is dropped. Pipelines that are built with them stay empty,
without any error.
-/

import TizenRoblox.Foundation.Interfaces

namespace TizenRoblox.Stubs.Gstreamer

open TizenRoblox.Foundation

universe u

/-- The functions that the shim exports, and resolves in the system's libraries. -/
inductive Symbol
  | gstInit | gstIsInitialized | gstPipelineNew | gstElementFactoryMake
  | gstElementFactoryFind | gstBinAdd | gstBinAddMany | gstElementLink
  | gstElementLinkMany | gstElementSetState | gstElementGetStaticPad
  | gstPadGetCurrentCaps | gstPadQueryCaps | gstPadIsLinked | gstPadLink
  | gstCapsFromString | gstCapsGetStructure | gstCapsIsAny | gstCapsIsEmpty
  | gstStructureGetName | gstStructureGetInt | gstStructureGetString | gstMiniObjectRef
  | gstMiniObjectUnref | gstObjectRef | gstObjectUnref | gstElementSeekSimple
  | gstAppSinkSetCallbacks | gstAppSinkPullSample | gstAppSrcGetCaps | gstAppSrcPushBuffer
  | gstAppSrcEndOfStream | gstSampleGetBuffer | gstSampleGetCaps | gstBufferMap
  | gstBufferUnmap | gstBufferNewAllocate | gstVideoFrameUnmap
  deriving DecidableEq

/-- The lists of `LOAD_CORE`, `LOAD_APP` and `LOAD_VID`. -/
def loadCore : List Symbol := [
  .gstInit, .gstIsInitialized, .gstPipelineNew, .gstElementFactoryMake,
  .gstElementFactoryFind, .gstBinAdd, .gstBinAddMany, .gstElementLink,
  .gstElementLinkMany, .gstElementSetState, .gstElementGetStaticPad,
  .gstPadGetCurrentCaps, .gstPadQueryCaps, .gstPadIsLinked, .gstPadLink,
  .gstCapsFromString, .gstCapsGetStructure, .gstCapsIsAny, .gstCapsIsEmpty,
  .gstStructureGetName, .gstStructureGetInt, .gstStructureGetString, .gstMiniObjectRef,
  .gstMiniObjectUnref, .gstObjectRef, .gstObjectUnref, .gstElementSeekSimple,
  .gstSampleGetBuffer, .gstSampleGetCaps, .gstBufferMap, .gstBufferUnmap,
  .gstBufferNewAllocate]

def loadApp : List Symbol := [
  .gstAppSinkSetCallbacks, .gstAppSinkPullSample, .gstAppSrcGetCaps, .gstAppSrcPushBuffer,
  .gstAppSrcEndOfStream]

def loadVid : List Symbol := [.gstVideoFrameUnmap]

/-- A function of the system: it may do anything to the memory it shares with the
client, its own state included. -/
abbrev Function (Memory : Type u) := CFunction Memory

/-! ## Loading -/

/-- `libgstreamer-1.0.so.0` and the like, where the system may have them. -/
def systemPaths (soname : String) : List Bytes := [
  bytes "/usr/lib/aarch64-linux-gnu/" ++ bytes soname,
  bytes "/usr/lib64/" ++ bytes soname,
  bytes "/usr/lib/" ++ bytes soname,
  bytes "/usr/lib/tizen/" ++ bytes soname]

/-- The pointers of the shim, `NULL` where nothing was found. -/
abbrev Pointers (Memory : Type u) := Symbol → Option (Function Memory)

section Loading

variable {Handle : Type} {Memory : Type u} (loader : Loader Handle Symbol (Function Memory))

def gstCore : Option Handle := loader.openFirst (systemPaths "libgstreamer-1.0.so.0")
def gstApp : Option Handle := loader.openFirst (systemPaths "libgstapp-1.0.so.0")
def gstVid : Option Handle := loader.openFirst (systemPaths "libgstvideo-1.0.so.0")

/-- What the constructor writes to the standard error. -/
def initLine : Bytes :=
  if (gstCore loader).isSome then bytes "[gst-stub] System GStreamer loaded"
  else bytes "[gst-stub] System GStreamer NOT found — video playback disabled"

/-- What the constructor loads. -/
def gstreamerStubInit : Pointers Memory := fun symbol =>
  if symbol ∈ loadCore then loader.find (gstCore loader) symbol
  else if symbol ∈ loadApp then loader.find (gstApp loader) symbol
  else if symbol ∈ loadVid then loader.find (gstVid loader) symbol
  else none

/-- The system's libraries are there, and every lookup finds the system's function. -/
structure Finds (system : Symbol → Function Memory) : Prop where
  core : ∀ symbol ∈ loadCore, loader.find (gstCore loader) symbol = some (system symbol)
  app : ∀ symbol ∈ loadApp, loader.find (gstApp loader) symbol = some (system symbol)
  vid : ∀ symbol ∈ loadVid, loader.find (gstVid loader) symbol = some (system symbol)

variable {loader} {system : Symbol → Function Memory}

/-- The three lists leave no export out. -/
theorem Finds.pointer (hfinds : Finds loader system) (symbol : Symbol) :
    gstreamerStubInit loader symbol = some (system symbol) := by
  unfold gstreamerStubInit
  split
  · next hcore => exact hfinds.core symbol hcore
  · split
    · next happ => exact hfinds.app symbol happ
    · split
      · next hvid => exact hfinds.vid symbol hvid
      · next hcore happ hvid =>
          exact absurd hvid (by revert hcore happ; cases symbol <;> decide)

end Loading

/-! ## Calls -/

/-- A call as the client makes it. -/
inductive Call
  | gstInit (argc argv : Word)
  | gstIsInitialized
  | gstPipelineNew (name : Word)
  | gstElementFactoryMake (factoryname name : Word)
  | gstElementFactoryFind (name : Word)
  | gstBinAdd (bin element : Word)
  | gstBinAddMany (bin : Word) (others : List Word)
  | gstElementLink (src dest : Word)
  | gstElementLinkMany (element : Word) (others : List Word)
  | gstElementSetState (element state : Word)
  | gstElementGetStaticPad (element name : Word)
  | gstPadGetCurrentCaps (pad : Word)
  | gstPadQueryCaps (pad filter : Word)
  | gstPadIsLinked (pad : Word)
  | gstPadLink (srcpad sinkpad : Word)
  | gstCapsFromString (string : Word)
  | gstCapsGetStructure (caps index : Word)
  | gstCapsIsAny (caps : Word)
  | gstCapsIsEmpty (caps : Word)
  | gstStructureGetName (source : Word)
  | gstStructureGetInt (source fieldname value : Word)
  | gstStructureGetString (source fieldname : Word)
  | gstMiniObjectRef (miniObject : Word)
  | gstMiniObjectUnref (miniObject : Word)
  | gstObjectRef (object : Word)
  | gstObjectUnref (object : Word)
  | gstElementSeekSimple (element format seekFlags seekPos : Word)
  | gstAppSinkSetCallbacks (appsink callbacks userData notify : Word)
  | gstAppSinkPullSample (appsink : Word)
  | gstAppSrcGetCaps (appsrc : Word)
  | gstAppSrcPushBuffer (appsrc buffer : Word)
  | gstAppSrcEndOfStream (appsrc : Word)
  | gstSampleGetBuffer (sample : Word)
  | gstSampleGetCaps (sample : Word)
  | gstBufferMap (buffer info flags : Word)
  | gstBufferUnmap (buffer info : Word)
  | gstBufferNewAllocate (allocator size params : Word)
  | gstVideoFrameUnmap (frame : Word)

/-- The function of the system that a call means, and its arguments. -/
def Call.meant : Call → Symbol × List Word
  | .gstInit argc argv => (.gstInit, [argc, argv])
  | .gstIsInitialized => (.gstIsInitialized, [])
  | .gstPipelineNew name => (.gstPipelineNew, [name])
  | .gstElementFactoryMake factoryname name => (.gstElementFactoryMake, [factoryname, name])
  | .gstElementFactoryFind name => (.gstElementFactoryFind, [name])
  | .gstBinAdd bin element => (.gstBinAdd, [bin, element])
  | .gstBinAddMany bin others => (.gstBinAddMany, bin :: others)
  | .gstElementLink src dest => (.gstElementLink, [src, dest])
  | .gstElementLinkMany element others => (.gstElementLinkMany, element :: others)
  | .gstElementSetState element state => (.gstElementSetState, [element, state])
  | .gstElementGetStaticPad element name => (.gstElementGetStaticPad, [element, name])
  | .gstPadGetCurrentCaps pad => (.gstPadGetCurrentCaps, [pad])
  | .gstPadQueryCaps pad filter => (.gstPadQueryCaps, [pad, filter])
  | .gstPadIsLinked pad => (.gstPadIsLinked, [pad])
  | .gstPadLink srcpad sinkpad => (.gstPadLink, [srcpad, sinkpad])
  | .gstCapsFromString string => (.gstCapsFromString, [string])
  | .gstCapsGetStructure caps index => (.gstCapsGetStructure, [caps, index])
  | .gstCapsIsAny caps => (.gstCapsIsAny, [caps])
  | .gstCapsIsEmpty caps => (.gstCapsIsEmpty, [caps])
  | .gstStructureGetName source => (.gstStructureGetName, [source])
  | .gstStructureGetInt source fieldname value => (.gstStructureGetInt, [source, fieldname, value])
  | .gstStructureGetString source fieldname => (.gstStructureGetString, [source, fieldname])
  | .gstMiniObjectRef miniObject => (.gstMiniObjectRef, [miniObject])
  | .gstMiniObjectUnref miniObject => (.gstMiniObjectUnref, [miniObject])
  | .gstObjectRef object => (.gstObjectRef, [object])
  | .gstObjectUnref object => (.gstObjectUnref, [object])
  | .gstElementSeekSimple element format seekFlags seekPos =>
    (.gstElementSeekSimple, [element, format, seekFlags, seekPos])
  | .gstAppSinkSetCallbacks appsink callbacks userData notify =>
    (.gstAppSinkSetCallbacks, [appsink, callbacks, userData, notify])
  | .gstAppSinkPullSample appsink => (.gstAppSinkPullSample, [appsink])
  | .gstAppSrcGetCaps appsrc => (.gstAppSrcGetCaps, [appsrc])
  | .gstAppSrcPushBuffer appsrc buffer => (.gstAppSrcPushBuffer, [appsrc, buffer])
  | .gstAppSrcEndOfStream appsrc => (.gstAppSrcEndOfStream, [appsrc])
  | .gstSampleGetBuffer sample => (.gstSampleGetBuffer, [sample])
  | .gstSampleGetCaps sample => (.gstSampleGetCaps, [sample])
  | .gstBufferMap buffer info flags => (.gstBufferMap, [buffer, info, flags])
  | .gstBufferUnmap buffer info => (.gstBufferUnmap, [buffer, info])
  | .gstBufferNewAllocate allocator size params =>
    (.gstBufferNewAllocate, [allocator, size, params])
  | .gstVideoFrameUnmap frame => (.gstVideoFrameUnmap, [frame])

/-- Whether the system's function returns nothing, by the type of its pointer. -/
def Symbol.isVoid : Symbol → Bool
  | .gstInit | .gstBinAddMany | .gstMiniObjectUnref | .gstObjectUnref
  | .gstAppSinkSetCallbacks | .gstBufferUnmap | .gstVideoFrameUnmap => true
  | _ => false

/-- A call of the two functions that take any number of elements. -/
def Call.isVariadic : Call → Bool
  | .gstBinAddMany _ _ | .gstElementLinkMany _ _ => true
  | _ => false

/-- What a wrapper does: a call that reaches the system is a function and its
arguments. -/
abbrev Wrapper (Memory : Type u) := Memory → Effect (Symbol × List Word) Result Memory

/-! ## The exports -/

section Exports

variable {Memory : Type u} (pointers : Pointers Memory)

/-- `return r_symbol ? r_symbol(arguments) : fallback;` -/
def forward (symbol : Symbol) (arguments : List Word) (fallback : Result) :
    Wrapper Memory := fun memory =>
  match pointers symbol with
  | some function =>
    let (value, after) := function arguments memory
    ⟨[(symbol, arguments)], .word value, after⟩
  | none => ⟨[], fallback, memory⟩

/-- `if (r_symbol) r_symbol(arguments);` -/
def forwardVoid (symbol : Symbol) (arguments : List Word) : Wrapper Memory := fun memory =>
  match pointers symbol with
  | some function => ⟨[(symbol, arguments)], .void, (function arguments memory).2⟩
  | none => ⟨[], .void, memory⟩

/-- A body that ignores its arguments. -/
def doNothing : Wrapper Memory := fun memory => ⟨[], .void, memory⟩

/-! ### Core exports -/

def gstInit (argc argv : Word) : Wrapper Memory :=
  forwardVoid pointers .gstInit [argc, argv]

def gstIsInitialized : Wrapper Memory :=
  forward pointers .gstIsInitialized [] (.word 0)

def gstPipelineNew (name : Word) : Wrapper Memory :=
  forward pointers .gstPipelineNew [name] null

def gstElementFactoryMake (factoryname name : Word) : Wrapper Memory :=
  forward pointers .gstElementFactoryMake [factoryname, name] null

def gstElementFactoryFind (name : Word) : Wrapper Memory :=
  forward pointers .gstElementFactoryFind [name] null

def gstBinAdd (bin element : Word) : Wrapper Memory :=
  forward pointers .gstBinAdd [bin, element] (.word 0)

/-- Variadic: its pointer is loaded, but nothing is forwarded. -/
def gstBinAddMany (_bin : Word) (_others : List Word) : Wrapper Memory := doNothing

def gstElementLink (src dest : Word) : Wrapper Memory :=
  forward pointers .gstElementLink [src, dest] (.word 0)

/-- Variadic too. -/
def gstElementLinkMany (_element : Word) (_others : List Word) : Wrapper Memory := doNothing

def gstElementSetState (element state : Word) : Wrapper Memory :=
  forward pointers .gstElementSetState [element, state] (.word 1)

def gstElementGetStaticPad (element name : Word) : Wrapper Memory :=
  forward pointers .gstElementGetStaticPad [element, name] null

def gstPadGetCurrentCaps (pad : Word) : Wrapper Memory :=
  forward pointers .gstPadGetCurrentCaps [pad] null

def gstPadQueryCaps (pad filter : Word) : Wrapper Memory :=
  forward pointers .gstPadQueryCaps [pad, filter] null

def gstPadIsLinked (pad : Word) : Wrapper Memory :=
  forward pointers .gstPadIsLinked [pad] (.word 0)

def gstPadLink (srcpad sinkpad : Word) : Wrapper Memory :=
  forward pointers .gstPadLink [srcpad, sinkpad] (.word 0)

def gstCapsFromString (string : Word) : Wrapper Memory :=
  forward pointers .gstCapsFromString [string] null

def gstCapsGetStructure (caps index : Word) : Wrapper Memory :=
  forward pointers .gstCapsGetStructure [caps, index] null

def gstCapsIsAny (caps : Word) : Wrapper Memory :=
  forward pointers .gstCapsIsAny [caps] (.word 1)

def gstCapsIsEmpty (caps : Word) : Wrapper Memory :=
  forward pointers .gstCapsIsEmpty [caps] (.word 1)

def gstStructureGetName (source : Word) : Wrapper Memory :=
  forward pointers .gstStructureGetName [source] (.text [])

def gstStructureGetInt (source fieldname value : Word) : Wrapper Memory :=
  forward pointers .gstStructureGetInt [source, fieldname, value] (.word 0)

def gstStructureGetString (source fieldname : Word) : Wrapper Memory :=
  forward pointers .gstStructureGetString [source, fieldname] null

def gstMiniObjectRef (miniObject : Word) : Wrapper Memory :=
  forward pointers .gstMiniObjectRef [miniObject] (.word miniObject)

def gstMiniObjectUnref (miniObject : Word) : Wrapper Memory :=
  forwardVoid pointers .gstMiniObjectUnref [miniObject]

def gstObjectRef (object : Word) : Wrapper Memory :=
  forward pointers .gstObjectRef [object] (.word object)

def gstObjectUnref (object : Word) : Wrapper Memory :=
  forwardVoid pointers .gstObjectUnref [object]

def gstElementSeekSimple (element format seekFlags seekPos : Word) : Wrapper Memory :=
  forward pointers .gstElementSeekSimple [element, format, seekFlags, seekPos] (.word 0)

/-! ### App plugin exports -/

def gstAppSinkSetCallbacks (appsink callbacks userData notify : Word) : Wrapper Memory :=
  forwardVoid pointers .gstAppSinkSetCallbacks [appsink, callbacks, userData, notify]

def gstAppSinkPullSample (appsink : Word) : Wrapper Memory :=
  forward pointers .gstAppSinkPullSample [appsink] null

def gstAppSrcGetCaps (appsrc : Word) : Wrapper Memory :=
  forward pointers .gstAppSrcGetCaps [appsrc] null

def gstAppSrcPushBuffer (appsrc buffer : Word) : Wrapper Memory :=
  forward pointers .gstAppSrcPushBuffer [appsrc, buffer] (.word 0)

def gstAppSrcEndOfStream (appsrc : Word) : Wrapper Memory :=
  forward pointers .gstAppSrcEndOfStream [appsrc] (.word 0)

/-! ### Sample and buffer exports -/

def gstSampleGetBuffer (sample : Word) : Wrapper Memory :=
  forward pointers .gstSampleGetBuffer [sample] null

def gstSampleGetCaps (sample : Word) : Wrapper Memory :=
  forward pointers .gstSampleGetCaps [sample] null

def gstBufferMap (buffer info flags : Word) : Wrapper Memory :=
  forward pointers .gstBufferMap [buffer, info, flags] (.word 0)

def gstBufferUnmap (buffer info : Word) : Wrapper Memory :=
  forwardVoid pointers .gstBufferUnmap [buffer, info]

def gstBufferNewAllocate (allocator size params : Word) : Wrapper Memory :=
  forward pointers .gstBufferNewAllocate [allocator, size, params] null

/-! ### Video exports -/

def gstVideoFrameUnmap (frame : Word) : Wrapper Memory :=
  forwardVoid pointers .gstVideoFrameUnmap [frame]

/-- What the shim does on a call. -/
def exported : Call → Wrapper Memory
  | .gstInit argc argv => gstInit pointers argc argv
  | .gstIsInitialized => gstIsInitialized pointers
  | .gstPipelineNew name => gstPipelineNew pointers name
  | .gstElementFactoryMake factoryname name => gstElementFactoryMake pointers factoryname name
  | .gstElementFactoryFind name => gstElementFactoryFind pointers name
  | .gstBinAdd bin element => gstBinAdd pointers bin element
  | .gstBinAddMany bin others => gstBinAddMany bin others
  | .gstElementLink src dest => gstElementLink pointers src dest
  | .gstElementLinkMany element others => gstElementLinkMany element others
  | .gstElementSetState element state => gstElementSetState pointers element state
  | .gstElementGetStaticPad element name => gstElementGetStaticPad pointers element name
  | .gstPadGetCurrentCaps pad => gstPadGetCurrentCaps pointers pad
  | .gstPadQueryCaps pad filter => gstPadQueryCaps pointers pad filter
  | .gstPadIsLinked pad => gstPadIsLinked pointers pad
  | .gstPadLink srcpad sinkpad => gstPadLink pointers srcpad sinkpad
  | .gstCapsFromString string => gstCapsFromString pointers string
  | .gstCapsGetStructure caps index => gstCapsGetStructure pointers caps index
  | .gstCapsIsAny caps => gstCapsIsAny pointers caps
  | .gstCapsIsEmpty caps => gstCapsIsEmpty pointers caps
  | .gstStructureGetName source => gstStructureGetName pointers source
  | .gstStructureGetInt source fieldname value => gstStructureGetInt pointers source fieldname value
  | .gstStructureGetString source fieldname => gstStructureGetString pointers source fieldname
  | .gstMiniObjectRef miniObject => gstMiniObjectRef pointers miniObject
  | .gstMiniObjectUnref miniObject => gstMiniObjectUnref pointers miniObject
  | .gstObjectRef object => gstObjectRef pointers object
  | .gstObjectUnref object => gstObjectUnref pointers object
  | .gstElementSeekSimple element format seekFlags seekPos =>
    gstElementSeekSimple pointers element format seekFlags seekPos
  | .gstAppSinkSetCallbacks appsink callbacks userData notify =>
    gstAppSinkSetCallbacks pointers appsink callbacks userData notify
  | .gstAppSinkPullSample appsink => gstAppSinkPullSample pointers appsink
  | .gstAppSrcGetCaps appsrc => gstAppSrcGetCaps pointers appsrc
  | .gstAppSrcPushBuffer appsrc buffer => gstAppSrcPushBuffer pointers appsrc buffer
  | .gstAppSrcEndOfStream appsrc => gstAppSrcEndOfStream pointers appsrc
  | .gstSampleGetBuffer sample => gstSampleGetBuffer pointers sample
  | .gstSampleGetCaps sample => gstSampleGetCaps pointers sample
  | .gstBufferMap buffer info flags => gstBufferMap pointers buffer info flags
  | .gstBufferUnmap buffer info => gstBufferUnmap pointers buffer info
  | .gstBufferNewAllocate allocator size params =>
    gstBufferNewAllocate pointers allocator size params
  | .gstVideoFrameUnmap frame => gstVideoFrameUnmap pointers frame

variable {pointers} {symbol : Symbol} {function : Function Memory}

theorem forward_of_found (hpointer : pointers symbol = some function) (arguments : List Word)
    (fallback : Result) (memory : Memory) :
    forward pointers symbol arguments fallback memory =
      ⟨[(symbol, arguments)], .word (function arguments memory).1,
        (function arguments memory).2⟩ := by
  simp only [forward, hpointer]

theorem forwardVoid_of_found (hpointer : pointers symbol = some function)
    (arguments : List Word) (memory : Memory) :
    forwardVoid pointers symbol arguments memory =
      ⟨[(symbol, arguments)], .void, (function arguments memory).2⟩ := by
  simp only [forwardVoid, hpointer]

/-- Whatever was loaded, a variadic call reaches nothing. -/
theorem exported_variadic {call : Call} (hvariadic : call.isVariadic = true)
    (memory : Memory) : (exported pointers call memory).reached = [] := by
  cases call
  case gstBinAddMany => rfl
  case gstElementLinkMany => rfl
  all_goals exact absurd hvariadic (by simp [Call.isVariadic])

end Exports

/-! ## Transparency -/

section Transparency

variable {Memory : Type u}

/-- What the client's call does where it is linked with the system's libraries. -/
def direct (system : Symbol → Function Memory) : Call → Wrapper Memory :=
  linked Symbol.isVoid Call.meant system

variable {Handle : Type} {loader : Loader Handle Symbol (Function Memory)}
  {system : Symbol → Function Memory}

/-- With everything found, a call is passed on unless it is variadic. -/
theorem exported_eq_direct (hfinds : Finds loader system) {call : Call}
    (hfixed : call.isVariadic = false) :
    exported (gstreamerStubInit loader) call = direct system call := by
  funext memory
  cases call
  case gstBinAddMany => exact absurd hfixed (by simp [Call.isVariadic])
  case gstElementLinkMany => exact absurd hfixed (by simp [Call.isVariadic])
  all_goals
    first
    | exact forward_of_found (hfinds.pointer _) _ _ memory
    | exact forwardVoid_of_found (hfinds.pointer _) _ memory

/-- With everything found, the shim is transparent for a session exactly when the
session has no variadic call. -/
theorem session_transparent_iff (hfinds : Finds loader system) (calls : List Call)
    (memory : Memory) :
    observe (exported (gstreamerStubInit loader)) calls memory =
        observe (direct system) calls memory ↔
      ∀ call ∈ calls, call.isVariadic = false := by
  have hfixed : ∀ call : Call, (!call.isVariadic) = true → call.isVariadic = false := by
    simp
  have hvariadic : ∀ call : Call, (!call.isVariadic) = false → call.isVariadic = true := by
    simp
  rw [observe_eq_iff (fun call hcall => exported_eq_direct hfinds (hfixed call hcall))
    (fun call memory hcall => exported_variadic (hvariadic call hcall) memory)
    (fun call memory => rfl)]
  simp

end Transparency

/-! ## A pipeline -/

/-- A system that counts the elements it was given. -/
def countingSystem : Symbol → Function ℕ
  | .gstBinAdd, _, count => (1, count + 1)
  | .gstBinAddMany, elements, count => (0, count + (elements.length - 1))
  | .gstElementSetState, _, count => (BitVec.ofNat 64 count, count)
  | _, _, count => (0, count)

/-- Every library is at the first path tried. -/
def fullLoader : Loader Unit Symbol (Function ℕ) :=
  ⟨fun _ => some (), fun _ symbol => some (countingSystem symbol)⟩

theorem finds_fullLoader : Finds fullLoader countingSystem :=
  ⟨fun _ _ => rfl, fun _ _ => rfl, fun _ _ => rfl⟩

/-- A pipeline whose elements are added one by one. -/
theorem session_transparent_addedSingly :
    observe (exported (gstreamerStubInit fullLoader))
        [.gstBinAdd 1 2, .gstBinAdd 1 3, .gstElementSetState 1 4] 0 =
      observe (direct countingSystem)
        [.gstBinAdd 1 2, .gstBinAdd 1 3, .gstElementSetState 1 4] 0 :=
  (session_transparent_iff finds_fullLoader _ 0).mpr (by decide)

/-- The same pipeline built with one call: the system gets nothing to play. -/
theorem not_transparent_addedTogether :
    observe (exported (gstreamerStubInit fullLoader))
        [.gstBinAddMany 1 [2, 3], .gstElementSetState 1 4] 0 ≠
      observe (direct countingSystem)
        [.gstBinAddMany 1 [2, 3], .gstElementSetState 1 4] 0 := by
  intro hsame
  have hreached := congrArg Observation.reached hsame
  exact absurd hreached (by decide)

end TizenRoblox.Stubs.Gstreamer
