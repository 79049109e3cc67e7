import XmonadWayland.Bridge.State
import XmonadWayland.Keymap

/-!
# XmonadWayland.Bridge.Request

The functions of `cbits/bridge.c` that Haskell calls: bindings, the pointer
operation, the state of windows and the focus.  Most are allowed during a manage
sequence only.
-/

namespace XmonadWayland.Bridge

/-! ## Bindings -/

def xwAddBinding (keysym modifiers index mode : Nat) (s : State) : State :=
  match primarySeat s with
  | some seat =>
    if s.phase ≠ .manage ∨ !s.xkb then fail "keyboard bindings must be configured during manage" s
    else send [.getXkbBinding seat.id keysym modifiers] (modifySeat seat.id (fun seat =>
      { seat with bindings := ⟨keysym, modifiers, index, mode, false⟩ :: seat.bindings }) s)
  | none => fail "keyboard bindings must be configured during manage" s

/-- `xw_configure_bindings` of `Runtime.hs`: register every binding of the
configuration, then the picker's. -/
def xwConfigureBindings (cfg : Config) (s : State) : State :=
  (cfg.keyBindings ++ pickerBindings).zipIdx.foldl (fun s (binding, index) =>
    xwAddBinding binding.bindingKeysym binding.bindingModifiers index
      binding.bindingMode.fromEnum s) s

def configureSeat (cfg : Config) (seat : Seat) (s : State) : State :=
  let buttons := if seat.pointerBindings = [] then [272, 273] else []
  let s := send (buttons.map fun button => .getPointerBinding seat.id button)
    (modifySeat seat.id (fun seat => { seat with
      pointerBindings := seat.pointerBindings ++ buttons.map fun button => ⟨button, false⟩ }) s)
  modifySeat seat.id (fun seat => { seat with configured := true }) (xwConfigureBindings cfg s)

/-- Switch the bindings that differ from what they should be. -/
def switchRequests (seat : Seat) (key : Binding → Bool) (pointer : Bool) : List Request :=
  ((seat.bindings.filter fun binding => binding.enabled ≠ key binding).map fun binding =>
    if key binding then .enableBinding seat.id binding.index
    else .disableBinding seat.id binding.index)
  ++ (seat.pointerBindings.filter fun binding => binding.enabled ≠ pointer).map fun binding =>
    if pointer then .enablePointerBinding seat.id binding.button
    else .disablePointerBinding seat.id binding.button

def xwSetBindingMode (mode : Nat) (s : State) : State :=
  if s.phase ≠ .manage then fail "keyboard modes must be changed during manage" s
  else
    let s := { s with bindingMode := mode }
    match primarySeat s with
    | none => s
    | some seat =>
      let key (binding : Binding) : Bool := !s.locked && binding.mode = s.bindingMode
      let pointer := !s.locked && seat.layerFocus ≠ .exclusive
      send (switchRequests seat key pointer) (modifySeat seat.id (fun seat =>
        { seat with
          bindings := seat.bindings.map fun binding => { binding with enabled := key binding }
          pointerBindings := seat.pointerBindings.map fun binding =>
            { binding with enabled := pointer } }) s)

def xwResetBindings (cfg : Config) (s : State) : State :=
  if s.phase ≠ .manage then fail "keyboard bindings must be reloaded during manage" s
  else match primarySeat s with
    | none => s
    | some seat =>
      let s := send (seat.bindings.map fun binding => .destroyBinding seat.id binding.index)
        (modifySeat seat.id (fun seat => { seat with bindings := [] }) s)
      let s := configureSeat cfg { seat with bindings := [] } s
      xwSetBindingMode s.bindingMode s

/-! ## The pointer operation -/

def cannotReplace : String := "cannot replace pointer operation in one manage sequence"

/-- Forget the motion of a seat. -/
def Seat.settle (seat : Seat) : Seat := { seat with deltaPending := false, releasePending := false }

/-- End the operation in progress. -/
def endOperation (s : State) : State :=
  let ended := match findSeat s.pointerSeat s with
    | some seat => send [.opEnd seat.id] (modifySeat seat.id Seat.settle s)
    | none => s
  let informed := match findWindow s.pointerWindow s with
    | some window => if s.pointerEdges ≠ 0 then send [.informResizeEnd window.id] ended else ended
    | none => ended
  { informed with pointerSeat := 0, pointerWindow := 0, pointerEdges := 0 }

/-- Start an operation of the primary seat on a live window. -/
def startOperation (seat : Seat) (window : Window) (edges : Nat) (s : State) : State :=
  let started := send [.opStartPointer seat.id] (modifySeat seat.id Seat.settle
    { s with pointerSeat := seat.id, pointerWindow := window.id, pointerEdges := edges })
  if edges ≠ 0 then send [.informResizeStart window.id] started else started

def xwSetPointerOperation (seatId windowId edges : Nat) (s : State) : State :=
  if s.phase ≠ .manage then fail "pointer operations must change during manage" s
  else if seatId = s.pointerSeat ∧ windowId = s.pointerWindow ∧ edges = s.pointerEdges then s
  else if s.pointerSeat ≠ 0 then
    -- River ignores start while the previous operation is still active.
    if seatId ≠ 0 then fail cannotReplace (endOperation s) else endOperation s
  else if seatId = 0 then s
  else match findSeat seatId s, findWindow windowId s with
    | some seat, some window =>
      if s.primary ≠ some seat.id ∨ s.locked ∨ seat.layerFocus = .exclusive then s
      else startOperation seat window edges s
    | _, _ => s

/-! ## Windows, outputs and focus -/

/-- Run a request in a manage sequence; outside it fails. -/
def requireManage (f : State → State) (s : State) : State :=
  if s.failed then s
  else if s.phase ≠ .manage then
    fail "Haskell policy attempted a window-management request outside manage" s
  else f s

/-- Do arithmetic in 64 bits so even an extreme logical output position cannot cause
signed C overflow. -/
def contentPosition (v border : Int) : Int := min 2147483647 (v + border)

/-- Dimensions are proposed to visible windows that are not fullscreen. -/
def Window.proposes (w : Window) : Bool := w.visible && w.fullscreenOutput = 0

/-- River undefines position/dimensions after exit_fullscreen. Restore both in a manage
transaction, retaining the obligation while hidden. -/
def Window.restores (w : Window) : Bool := w.proposes && w.exitedFullscreen && w.node

/-- Windows are drawn without a frame. Keep the inset arithmetic so geometry stays
correct if a configurable border returns later. -/
def Window.placed (visible : Bool) (x y width height : Int) (focused : Bool) (w : Window) :
    Window :=
  { w with
    visible := visible
    focused := focused
    border := 0
    x := contentPosition x 0
    y := contentPosition y 0
    width := if 0 < width then width - 2 * 0 else 1
    height := if 0 < height then height - 2 * 0 else 1 }

def Window.restored (w : Window) : Window :=
  if w.restores then { w with exitedFullscreen := false } else w

def xwSetWindow (id : Nat) (visible : Bool) (x y width height : Int) (focused : Bool) :
    State → State :=
  requireManage fun s => match findWindow id s with
    | none => s
    | some w =>
      let place := Window.placed visible x y width height (focused && !layerHasFocus s)
      let placed := place w
      let requests : List Request :=
        (if placed.proposes then [.proposeDimensions id placed.width placed.height] else [])
        ++ if placed.restores then [.setPosition id placed.x placed.y] else []
      send requests (modifyWindow id (fun w => (place w).restored) s)

def xwSetOutput (id : Nat) : State → State :=
  requireManage fun s =>
    let s := { s with pickerOutputId := id }
    if s.outputs.any fun output => output.id = id && output.layer && !output.removed then
      send [.setDefault id] s
    else s

/-- Enter or leave fullscreen, and tell the window. -/
def applyFullscreen (w : Window) (outputId : Nat) (fullscreen : Bool) (s : State) : State :=
  let live := s.outputs.any fun output => output.id = outputId && !output.removed
  if !fullscreen || !live then
    if w.fullscreenOutput ≠ 0 then
      send [.exitFullscreen w.id, .informNotFullscreen w.id] (modifyWindow w.id (fun w =>
        { w with fullscreenOutput := 0, exitedFullscreen := true }) s)
    else s
  else if w.fullscreenOutput ≠ outputId then
    send [.fullscreen w.id outputId, .informFullscreen w.id]
      (modifyWindow w.id (fun w => { w with fullscreenOutput := outputId }) s)
  else s

def xwSetMode (id outputId : Nat) (floating fullscreen : Bool) : State → State :=
  requireManage fun s => match findWindow id s with
    | none => s
    | some w => applyFullscreen w outputId fullscreen
        (send [.setTiled w.id (if floating then 0 else 15)]
          (modifyWindow w.id (fun w => { w with floating := floating }) s))

def xwSetRenderPosition (id : Nat) (x y : Int) (s : State) : State :=
  if s.phase ≠ .render then
    fail "actual-size position corrections must occur during render" s
  else match findWindow id s with
    | none => s
    | some w =>
      if !w.visible then s
      else modifyWindow id (fun w =>
        { w with x := contentPosition x w.border, y := contentPosition y w.border }) s

def xwFocus (id : Nat) : State → State :=
  requireManage fun s => match primarySeat s with
    | none => s
    | some seat =>
      if seat.removed ∨ (!s.locked ∧ layerHasFocus s) then s
      else match findWindow id s with
        | some w =>
          if w.visible ∧ !s.locked then send [.focusWindow seat.id w.id] s
          else send [.clearFocus seat.id] s
        | none => send [.clearFocus seat.id] s

def xwClose (id : Nat) : State → State :=
  requireManage fun s =>
    if s.locked then s
    else match findWindow id s with
      | some w => send [.close w.id] s
      | none => s

def xwStop (s : State) : State :=
  let s := { s with stopRequested := true }
  if s.phase = .idle then sendStop s else s

end XmonadWayland.Bridge
