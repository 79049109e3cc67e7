import XmonadWayland.Protocol

/-!
# XmonadWayland.Bridge.State

The records of `cbits/bridge.c`.  A record stands for the compositor's object, so
its proxies are its id, and the pointer `primary` is the id of a seat.  What the
bridge sends to the compositor is kept, oldest first, in `requests`, the text of every
failure in `failures` and every id given out in `issued`.  Memory and proxies are
always obtained; the overlay of the picker is a component of its own.
-/

namespace XmonadWayland.Bridge

inductive Phase where
  | idle | manage | render
deriving DecidableEq, Repr

inductive LayerFocus where
  | none | exclusive | nonExclusive
deriving DecidableEq, Repr

structure Window where
  id : Nat
  node : Bool := false
  announced : Bool := false
  closed : Bool := false
  configured : Bool := false
  visible : Bool := false
  focused : Bool := false
  parentDirty : Bool := false
  hintsDirty : Bool := false
  fullscreenDirty : Bool := false
  fullscreenRequested : Bool := false
  floating : Bool := false
  exitedFullscreen : Bool := false
  metaDirty : Bool := false
  appId : List UInt8 := []
  title : List UInt8 := []
  parentId : Nat := 0
  fullscreenOutput : Nat := 0
  minWidth : Int := 0
  minHeight : Int := 0
  maxWidth : Int := 0
  maxHeight : Int := 0
  x : Int := 0
  y : Int := 0
  width : Int := 0
  height : Int := 0
  border : Int := 0
  actualWidth : Int := 0
  actualHeight : Int := 0

structure Output where
  id : Nat
  layer : Bool := false
  announced : Bool := false
  removed : Bool := false
  dirty : Bool := false
  hasPosition : Bool := false
  hasDimensions : Bool := false
  x : Int := 0
  y : Int := 0
  width : Int := 0
  height : Int := 0
  areaDirty : Bool := false
  areaX : Int := 0
  areaY : Int := 0
  areaWidth : Int := 0
  areaHeight : Int := 0

/-- A key binding of a seat; the proxy knows the chord. -/
structure Binding where
  keysym : Nat
  modifiers : Nat
  index : Nat
  mode : Nat
  enabled : Bool := false

structure PointerBinding where
  button : Nat
  enabled : Bool := false

structure Seat where
  id : Nat
  layer : Bool := false
  bindings : List Binding := []
  pointerBindings : List PointerBinding := []
  pointerWindow : Nat := 0
  pointerX : Int := 0
  pointerY : Int := 0
  deltaX : Int := 0
  deltaY : Int := 0
  pointerKnown : Bool := false
  deltaPending : Bool := false
  releasePending : Bool := false
  removed : Bool := false
  configured : Bool := false
  layerFocus : LayerFocus := .none
  layerFocusOverride : Bool := false

/-- The kinds of queued input. -/
inductive InputKind where
  | interaction | binding | pointer
deriving DecidableEq, Repr

/-- The number of the event the input is delivered as. -/
def InputKind.code : InputKind → Int
  | interaction => 5
  | binding => 20
  | pointer => 21

structure Input where
  kind : InputKind
  id : Nat
  seatId : Nat
  argument : Int := 0
  b : Int := 0
  c : Int := 0
  d : Int := 0

/-- Requests to the compositor. -/
inductive Request where
  | opStartPointer (seat : Nat)
  | opEnd (seat : Nat)
  | informResizeStart (window : Nat)
  | informResizeEnd (window : Nat)
  | focusWindow (seat window : Nat)
  | clearFocus (seat : Nat)
  | close (window : Nat)
  | getNode (window : Nat)
  | setCapabilities (window : Nat)
  | useSsd (window : Nat)
  | setTiled (window edges : Nat)
  | proposeDimensions (window : Nat) (width height : Int)
  | setPosition (window : Nat) (x y : Int)
  | fullscreen (window output : Nat)
  | informFullscreen (window : Nat)
  | exitFullscreen (window : Nat)
  | informNotFullscreen (window : Nat)
  | setDefault (output : Nat)
  | hideWindow (window : Nat)
  | showWindow (window : Nat)
  | setBorders (window : Nat) (focused : Bool) (width : Int)
  | placeTop (window : Nat)
  | getXkbBinding (seat keysym modifiers : Nat)
  | enableBinding (seat index : Nat)
  | disableBinding (seat index : Nat)
  | destroyBinding (seat index : Nat)
  | getPointerBinding (seat button : Nat)
  | enablePointerBinding (seat button : Nat)
  | disablePointerBinding (seat button : Nat)
  | getLayerOutput (output : Nat)
  | getLayerSeat (seat : Nat)
  | destroyWindow (window : Nat)
  | destroyOutput (output : Nat)
  | destroySeat (seat : Nat)
  | manageFinish
  | renderFinish
  | stop
deriving DecidableEq, Repr

/-- The static state of the bridge. -/
structure State where
  xkb : Bool := false
  layerShell : Bool := false
  windows : List Window := []
  outputs : List Output := []
  seats : List Seat := []
  primary : Option Nat := none
  input : List Input := []
  phase : Phase := .idle
  nextId : Nat := 0
  bindingMode : Nat := 0
  pickerOutputId : Nat := 0
  pointerSeat : Nat := 0
  pointerWindow : Nat := 0
  pointerEdges : Nat := 0
  pointerCancelBatch : Bool := false
  running : Bool := true
  failed : Bool := false
  finished : Bool := false
  unavailable : Bool := false
  stopRequested : Bool := false
  stopSent : Bool := false
  managed : Bool := false
  awaitingRender : Bool := false
  locked : Bool := false
  lockChanged : Bool := false
  issued : List Nat := []
  failures : List String := []
  requests : List Request := []

/-! ## Helpers -/

def fail (message : String) (s : State) : State :=
  { s with failed := true, running := false, failures := s.failures ++ [message] }

/-- Send requests to the compositor. -/
def send (requests : List Request) (s : State) : State :=
  { s with requests := s.requests ++ requests }

def newId (s : State) : Nat × State :=
  if s.nextId = 4294967295 then (0, fail "exhausted stable window/output/seat IDs" s)
  else (s.nextId + 1, { s with nextId := s.nextId + 1, issued := s.issued ++ [s.nextId + 1] })

def findWindow (id : Nat) (s : State) : Option Window :=
  s.windows.find? fun w => w.id = id ∧ !w.closed

def findSeat (id : Nat) (s : State) : Option Seat :=
  s.seats.find? fun seat => seat.id = id ∧ !seat.removed

/-- The record `primary` points to. -/
def primarySeat (s : State) : Option Seat :=
  s.primary.bind fun id => s.seats.find? fun seat => seat.id = id

def modifyWindow (id : Nat) (f : Window → Window) (s : State) : State :=
  { s with windows := s.windows.map fun w => if w.id = id then f w else w }

def modifyOutput (id : Nat) (f : Output → Output) (s : State) : State :=
  { s with outputs := s.outputs.map fun output => if output.id = id then f output else output }

def modifySeat (id : Nat) (f : Seat → Seat) (s : State) : State :=
  { s with seats := s.seats.map fun seat => if seat.id = id then f seat else seat }

def layerHasFocus (s : State) : Bool :=
  match primarySeat s with
  | some seat => seat.layerFocus ≠ .none && !seat.layerFocusOverride
  | none => false

def sendStop (s : State) : State :=
  if s.stopRequested ∧ !s.stopSent ∧ !s.finished ∧ !s.unavailable ∧ !s.failed then
    send [.stop] { s with stopSent := true }
  else s

end XmonadWayland.Bridge
