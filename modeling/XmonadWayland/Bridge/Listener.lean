import XmonadWayland.Bridge.State

/-!
# XmonadWayland.Bridge.Listener

The compositor callbacks of `cbits/bridge.c` between two transactions.  They record
what the compositor says and queue input; nothing reaches Haskell before the next
manage or render sequence.  A callback names its object by id.
-/

namespace XmonadWayland.Bridge

/-! ## Input -/

def enqueue (event : Input) (s : State) : State := { s with input := s.input ++ [event] }

def queuePointer (seat : Seat) (window edges : Nat) (s : State) : State :=
  if s.primary ≠ some seat.id ∨ seat.removed ∨ s.locked ∨ s.failed ∨ s.pointerSeat ≠ 0
      ∨ findWindow window s = none ∨ seat.layerFocus = .exclusive then s
  else enqueue ⟨.pointer, window, seat.id, int32 seat.id, int32 edges, 0, 0⟩ s

def queueInput (kind : InputKind) (id : Nat) (argument : Int) (seat : Seat) (s : State) : State :=
  if s.failed ∨ s.locked ∨ s.primary ≠ some seat.id ∨ seat.removed then s
  else enqueue ⟨kind, id, seat.id, argument, 0, 0, 0⟩ s

/-- The record of a seat, removed or not. -/
def seatRecord (id : Nat) (s : State) : Option Seat := s.seats.find? fun seat => seat.id = id

/-- Run a callback of a seat on its record. -/
def withSeat (id : Nat) (f : Seat → State → State) (s : State) : State :=
  match seatRecord id s with
  | some seat => f seat s
  | none => s

def pointerPressed (seat button : Nat) : State → State :=
  withSeat seat fun seat s =>
    if ∃ binding ∈ seat.pointerBindings, binding.button = button then
      queuePointer seat seat.pointerWindow (if button = 272 then 0 else 16) s
    else s

def bindingPressed (seat index : Nat) : State → State :=
  withSeat seat fun seat s =>
    if ∃ binding ∈ seat.bindings, binding.index = index then
      queueInput .binding index 0 seat s
    else s

/-! ## Windows -/

def windowClosed (id : Nat) : State → State := modifyWindow id fun w => { w with closed := true }

def windowDimensions (id : Nat) (width height : Int) (s : State) : State :=
  if width ≤ 0 ∨ height ≤ 0 then fail "compositor sent invalid window dimensions" s
  else modifyWindow id (fun w => { w with actualWidth := width, actualHeight := height }) s

def windowDimensionsHint (id : Nat) (minWidth minHeight maxWidth maxHeight : Int) :
    State → State :=
  modifyWindow id fun w =>
    { w with
      minWidth := minWidth
      minHeight := minHeight
      maxWidth := maxWidth
      maxHeight := maxHeight
      hintsDirty := true }

/-- Protocol strings are untrusted: bound the copy. -/
def windowMeta (text : List UInt8) : List UInt8 := text.take 255

def windowAppId (id : Nat) (text : List UInt8) : State → State :=
  modifyWindow id fun w => { w with appId := windowMeta text, metaDirty := true }

def windowTitle (id : Nat) (text : List UInt8) : State → State :=
  modifyWindow id fun w => { w with title := windowMeta text, metaDirty := true }

def windowParent (id : Nat) (parent : Option Nat) (s : State) : State :=
  let parentId := match parent.bind fun i => findWindow i s with
    | some candidate => candidate.id
    | none => 0
  modifyWindow id (fun w => { w with parentId := parentId, parentDirty := true }) s

def windowPointerMove (id seat : Nat) : State → State :=
  withSeat seat fun candidate s => queuePointer candidate id 0 s

def windowPointerResize (id seat edges : Nat) (s : State) : State :=
  if edges = 0 ∨ 15 < edges ∨ edges &&& 3 = 3 ∨ edges &&& 12 = 12 then s
  else withSeat seat (fun candidate s => queuePointer candidate id edges s) s

/-- The protocol's requested output is a hint. Keep the window on its workspace's
output instead of moving a hidden client's workspace. -/
def windowFullscreen (id : Nat) : State → State :=
  modifyWindow id fun w => { w with fullscreenRequested := true, fullscreenDirty := true }

def windowExitFullscreen (id : Nat) : State → State :=
  modifyWindow id fun w => { w with fullscreenRequested := false, fullscreenDirty := true }

/-! ## Outputs -/

def cancelBatch (s : State) : State := { s with pointerCancelBatch := true }

/-- Does a value of the output's record change? -/
def outputDiffers (id : Nat) (f : Output → Bool) (s : State) : Bool :=
  s.outputs.any fun output => output.id = id && f output

def outputRemoved (id : Nat) (s : State) : State :=
  cancelBatch (modifyOutput id (fun output => { output with removed := true }) s)

def outputPosition (id : Nat) (x y : Int) (s : State) : State :=
  let s' := if outputDiffers id (fun output => output.x ≠ x ∨ output.y ≠ y) s then cancelBatch s
    else s
  modifyOutput id (fun output =>
    { output with x := x, y := y, hasPosition := true, dirty := true }) s'

def outputDimensions (id : Nat) (width height : Int) (s : State) : State :=
  if width ≤ 0 ∨ height ≤ 0 then fail "compositor sent invalid logical output dimensions" s
  else
    let s' := if outputDiffers id (fun output => output.width ≠ width ∨ output.height ≠ height) s
      then cancelBatch s else s
    modifyOutput id (fun output =>
      { output with width := width, height := height, hasDimensions := true, dirty := true }) s'

def layerArea (id : Nat) (x y width height : Int) (s : State) : State :=
  let s' := if outputDiffers id (fun output => output.areaX ≠ x ∨ output.areaY ≠ y
      ∨ output.areaWidth ≠ width ∨ output.areaHeight ≠ height) s then cancelBatch s else s
  modifyOutput id (fun output =>
    { output with
      areaX := x
      areaY := y
      areaWidth := width
      areaHeight := height
      areaDirty := true }) s'

/-! ## Seats -/

def seatRemoved (id : Nat) : State → State :=
  modifySeat id fun seat => { seat with removed := true }

def seatPointerEnter (id window : Nat) (s : State) : State :=
  let entered := match findWindow window s with
    | some w => w.id
    | none => 0
  modifySeat id (fun seat => { seat with pointerWindow := entered }) s

def seatPointerLeave (id : Nat) : State → State :=
  modifySeat id fun seat => { seat with pointerWindow := 0 }

/-- Resolve only against live local records, never trust a recycled ID. -/
def seatWindowInteraction (id window : Nat) : State → State :=
  withSeat id fun seat s => match findWindow window s with
    | some w => queueInput .interaction w.id 0 seat s
    | none => s

def seatDelta (id : Nat) (x y : Int) (s : State) : State :=
  if id ≠ s.pointerSeat then s
  else modifySeat id (fun seat => { seat with deltaX := x, deltaY := y, deltaPending := true }) s

def seatOpRelease (id : Nat) (s : State) : State :=
  if id ≠ s.pointerSeat then s
  else modifySeat id (fun seat => { seat with releasePending := true }) s

def seatPosition (id : Nat) (x y : Int) : State → State :=
  modifySeat id fun seat => { seat with pointerX := x, pointerY := y, pointerKnown := true }

def layerFocusExclusive (id : Nat) (s : State) : State :=
  let s' := modifySeat id (fun seat => { seat with layerFocus := .exclusive }) s
  if s.primary = some id then cancelBatch s' else s'

def layerFocusNonExclusive (id : Nat) : State → State :=
  modifySeat id fun seat => { seat with layerFocus := .nonExclusive }

def layerFocusNone (id : Nat) : State → State :=
  modifySeat id fun seat => { seat with layerFocus := .none }

/-! ## The manager and the registry -/

def attachLayerOutput (id : Nat) (s : State) : State :=
  if s.layerShell ∧ s.outputs.any fun output => output.id = id && !output.layer && !output.removed
  then send [.getLayerOutput id] (modifyOutput id (fun output => { output with layer := true }) s)
  else s

def attachLayerSeat (id : Nat) (s : State) : State :=
  if s.layerShell ∧ s.seats.any fun seat => seat.id = id && !seat.layer && !seat.removed
  then send [.getLayerSeat id] (modifySeat id (fun seat => { seat with layer := true }) s)
  else s

def managerWindow (s : State) : State :=
  let (id, s) := newId s
  { s with windows := s.windows ++ [{ id := id }] }

def managerOutput (s : State) : State :=
  let (id, s) := newId s
  attachLayerOutput id { s with outputs := s.outputs ++ [{ id := id }] }

def managerSeat (s : State) : State :=
  let (id, s) := newId s
  let primary := if s.primary = none then some id else s.primary
  attachLayerSeat id { s with seats := s.seats ++ [{ id := id }], primary := primary }

def managerLocked (s : State) : State :=
  { s with locked := true, lockChanged := true, pointerCancelBatch := true }

def managerUnlocked (s : State) : State := { s with locked := false, lockChanged := true }

def managerUnavailable (s : State) : State :=
  fail "River window management is unavailable (another window manager may be running)"
    { s with unavailable := true }

def managerFinished (s : State) : State := { s with finished := true, running := false }

def registryXkb (s : State) : State := { s with xkb := true }

def registryLayerShell (s : State) : State :=
  if s.layerShell then s
  else
    let s' := (s.outputs.map Output.id).foldl (fun s id => attachLayerOutput id s)
      { s with layerShell := true }
    (s'.seats.map Seat.id).foldl (fun s id => attachLayerSeat id s) s'

def registryGlobalRemove (s : State) : State :=
  fail "compositor removed a required River window-management global" s

end XmonadWayland.Bridge
