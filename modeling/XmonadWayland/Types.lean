import Std.Data.ExtTreeMap
import Mathlib.Data.Rat.Floor

/-!
# XmonadWayland.Types

The protocol-independent policy types of `src/XMonad/Wayland/Types.hs`: what the
compositor reports (`Event`), what the user asks for (`Action`), what the policy
hands back (`Effect`, `Placement`) and the declarative `Config`.

`WindowId`, `OutputId`, `SeatId` and the button/edge masks are `Word32` in the
source; the policy only compares them and masks bits, so they are naturals here.
A Haskell `Int` is an `Int`: every rectangle the policy computes with has been
normalised to the signed 32-bit range first, so no 64-bit operation wraps.
-/

namespace XmonadWayland

abbrev WindowId := Nat
abbrev OutputId := Nat
abbrev SeatId := Nat
abbrev WorkspaceId := Int

/-- `Data.Map.Strict` over keys compared by `compare`. -/
abbrev Map (κ α : Type) [Ord κ] := Std.ExtTreeMap κ α compare

structure Rect where
  rectX : Int
  rectY : Int
  rectWidth : Int
  rectHeight : Int
deriving DecidableEq, Repr

inductive Layout where
  | tall | mirror | full | tabbed | stacking | rows | columns
deriving DecidableEq, Repr

structure LayoutState where
  layoutKind : Layout
  masterRatio : ℚ
deriving DecidableEq

/-- An executable and literal arguments, never interpreted by a shell. -/
structure Command where
  executable : String
  arguments : List String
deriving DecidableEq, Repr

inductive Direction where
  | goLeft | goDown | goUp | goRight
deriving DecidableEq, Repr

inductive Axis where
  | width | height
deriving DecidableEq, Repr

inductive BindingMode where
  | normalMode | resizeMode | pickerMode
deriving DecidableEq, Repr

/-- `fromEnum` of a mode: the number the bridge stores for a binding. -/
def BindingMode.fromEnum : BindingMode → Nat
  | normalMode => 0
  | resizeMode => 1
  | pickerMode => 2

inductive Action where
  | focusNext | focusPrevious | swapMaster | nextLayout | shrink | expand
  | view (tag : WorkspaceId) | shift (tag : WorkspaceId) | close | terminal | launcher
  | stop | swapNext | swapPrevious
  | focusNextOutput | focusPreviousOutput | toggleFloat | toggleFullscreen
  | focusDirection (direction : Direction) | moveDirection (direction : Direction)
  | sink | focusModeToggle
  | setLayout (kind : Layout) | toggleSplit | cycleSwayLayout
  | resize (axis : Axis) (amount : Int)
  | enterMode (mode : BindingMode) | runCommand (command : Command) | reload
  | confirmExit (command : Command)
  | restart | pick | swapToWindow (wid : WindowId) | pickCandidate (index : Int) | pickCancel
deriving DecidableEq, Repr

structure KeyBinding where
  bindingKeysym : Nat
  bindingModifiers : Nat
  bindingMode : BindingMode
  bindingAction : Action
deriving DecidableEq, Repr

structure Config where
  terminalCommand : Command
  launcherCommand : Command
  initialLayout : Layout
  layoutCycle : List Layout
  initialMasterRatio : ℚ
  resizeIncrement : ℚ
  workspaceIds : List WorkspaceId
  keyBindings : List KeyBinding
  startupCommands : List Command
  cursorTheme : Option String
  cursorSize : Nat

inductive Event where
  | outputUpsert (oid : OutputId) (rect : Rect)
  | outputRemoved (oid : OutputId)
  | outputWorkArea (oid : OutputId) (rect : Rect)
  | windowAdded (wid : WindowId)
  | windowRemoved (wid : WindowId)
  | focusRequested (wid : WindowId)
  | windowParent (wid : WindowId) (parent : Option WindowId)
  | windowSizeHints (wid : WindowId) (minW minH maxW maxH : Int)
  | windowFullscreen (wid : WindowId) (enabled : Bool)
  | windowAppId (wid : WindowId) (text : String)
  | windowTitle (wid : WindowId) (text : String)
  | pointerStarted (sid : SeatId) (wid : WindowId) (edges : Nat) (x y : Int)
  | pointerMoved (sid : SeatId) (dx dy : Int)
  | pointerReleased (sid : SeatId)
  | pointerCancelled (sid : SeatId)
  | windowActualSize (wid : WindowId) (width height : Int)
  | actionRequested (action : Action)
  | locked
  | unlocked
deriving DecidableEq, Repr

inductive Effect where
  | closeWindow (wid : WindowId)
  | spawn (command : Command)
  | stopRuntime
  | reloadConfig
  | confirmSessionExit (command : Command)
  | restartRuntime
  | showPicker (candidates : List (Char × Rect))
  | hidePicker
deriving DecidableEq, Repr

structure Placement where
  placementWindow : WindowId
  placementRect : Rect
  placementVisible : Bool
  placementFocused : Bool
  placementOutput : Option OutputId
  placementFloating : Bool
  placementFullscreen : Bool
deriving DecidableEq, Repr

end XmonadWayland
