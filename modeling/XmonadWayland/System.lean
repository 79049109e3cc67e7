import XmonadWayland.Bridge.Manage

/-!
# XmonadWayland.System

The running window manager: whatever the compositor calls back, in any order.
-/

namespace XmonadWayland

open Bridge

/-- The compositor callbacks the bridge acts upon. -/
inductive Callback where
  | registryXkb
  | registryLayerShell
  | registryGlobalRemove
  | managerWindow
  | managerOutput
  | managerSeat
  | managerLocked
  | managerUnlocked
  | managerUnavailable
  | managerFinished
  | managerManageStart
  | managerRenderStart
  | windowClosed (window : Nat)
  | windowDimensions (window : Nat) (width height : Int)
  | windowDimensionsHint (window : Nat) (minWidth minHeight maxWidth maxHeight : Int)
  | windowAppId (window : Nat) (text : List UInt8)
  | windowTitle (window : Nat) (text : List UInt8)
  | windowParent (window : Nat) (parent : Option Nat)
  | windowPointerMove (window seat : Nat)
  | windowPointerResize (window seat edges : Nat)
  | windowFullscreen (window : Nat)
  | windowExitFullscreen (window : Nat)
  | outputRemoved (output : Nat)
  | outputPosition (output : Nat) (x y : Int)
  | outputDimensions (output : Nat) (width height : Int)
  | layerArea (output : Nat) (x y width height : Int)
  | seatRemoved (seat : Nat)
  | seatPointerEnter (seat window : Nat)
  | seatPointerLeave (seat : Nat)
  | seatWindowInteraction (seat window : Nat)
  | seatDelta (seat : Nat) (x y : Int)
  | seatOpRelease (seat : Nat)
  | seatPosition (seat : Nat) (x y : Int)
  | layerFocusExclusive (seat : Nat)
  | layerFocusNonExclusive (seat : Nat)
  | layerFocusNone (seat : Nat)
  | bindingPressed (seat index : Nat)
  | pointerPressed (seat button : Nat)
deriving DecidableEq, Repr

/-- Callbacks other than the two transactions only touch the bridge. -/
def listen : Callback → Bridge.State → Bridge.State
  | .registryXkb => registryXkb
  | .registryLayerShell => registryLayerShell
  | .registryGlobalRemove => registryGlobalRemove
  | .managerWindow => managerWindow
  | .managerOutput => managerOutput
  | .managerSeat => managerSeat
  | .managerLocked => managerLocked
  | .managerUnlocked => managerUnlocked
  | .managerUnavailable => managerUnavailable
  | .managerFinished => managerFinished
  | .managerManageStart => id
  | .managerRenderStart => id
  | .windowClosed window => windowClosed window
  | .windowDimensions window width height => windowDimensions window width height
  | .windowDimensionsHint window a b c d => windowDimensionsHint window a b c d
  | .windowAppId window text => windowAppId window text
  | .windowTitle window text => windowTitle window text
  | .windowParent window parent => windowParent window parent
  | .windowPointerMove window seat => windowPointerMove window seat
  | .windowPointerResize window seat edges => windowPointerResize window seat edges
  | .windowFullscreen window => windowFullscreen window
  | .windowExitFullscreen window => windowExitFullscreen window
  | .outputRemoved output => outputRemoved output
  | .outputPosition output x y => outputPosition output x y
  | .outputDimensions output width height => outputDimensions output width height
  | .layerArea output x y width height => layerArea output x y width height
  | .seatRemoved seat => seatRemoved seat
  | .seatPointerEnter seat window => seatPointerEnter seat window
  | .seatPointerLeave seat => seatPointerLeave seat
  | .seatWindowInteraction seat window => seatWindowInteraction seat window
  | .seatDelta seat x y => seatDelta seat x y
  | .seatOpRelease seat => seatOpRelease seat
  | .seatPosition seat x y => seatPosition seat x y
  | .layerFocusExclusive seat => layerFocusExclusive seat
  | .layerFocusNonExclusive seat => layerFocusNonExclusive seat
  | .layerFocusNone seat => layerFocusNone seat
  | .bindingPressed seat index => bindingPressed seat index
  | .pointerPressed seat button => pointerPressed seat button

/-- Callbacks that create a record. -/
def Callback.creates : Callback → Bool
  | .managerWindow => true
  | .managerOutput => true
  | .managerSeat => true
  | _ => false

/-- The system after a callback. -/
def System.step (sys : System) : Callback → System
  | .managerManageStart => managerManageStart sys
  | .managerRenderStart => managerRenderStart sys
  | cb => sys.onBridge (listen cb)

/-- A step is one of the two transactions or touches the bridge only. -/
theorem step_induction {P : System → Prop} {sys : System} (hmanage : P (managerManageStart sys))
    (hrender : P (managerRenderStart sys)) (hlisten : ∀ cb, P (sys.onBridge (listen cb)))
    (cb : Callback) : P (sys.step cb) := by
  cases cb with
  | managerManageStart => exact hmanage
  | managerRenderStart => exact hrender
  | _ => exact hlisten _

/-- The system after a sequence of callbacks. -/
def runSystem (cbs : List Callback) (sys : System) : System := cbs.foldl System.step sys

/-- What every step keeps, every run keeps. -/
theorem runSystem_induction {P : System → Prop} (hstep : ∀ sys cb, P sys → P (sys.step cb))
    {sys : System} (h : P sys) (cbs : List Callback) : P (runSystem cbs sys) :=
  List.foldlRecOn cbs System.step h fun t ht cb _ => hstep t cb ht

/-- The process started with a configuration, with what its loader will return and how
the locale decodes bytes. -/
def initialSystem (cfg : Config) (loads : List (Option Config))
    (decode : List UInt8 → String) : System where
  bridge := {}
  runtime :=
    { runtimeConfig := cfg
      runtimePolicy := initialPolicy cfg
      pendingEffects := (cfg.startupCommands.map Effect.spawn).reverse
      reloadConfig := loads
      peekCString := decode }

end XmonadWayland
