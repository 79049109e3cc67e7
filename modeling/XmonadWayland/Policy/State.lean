import XmonadWayland.StackSet
import XmonadWayland.Keymap

/-!
# XmonadWayland.Policy.State

The policy state of `src/XMonad/Wayland/Policy.hs`: the window set, the outputs
and their work areas, per-window metadata and the pointer bookkeeping.
-/

namespace XmonadWayland

abbrev WindowSet := StackSet WorkspaceId LayoutState WindowId (Option OutputId) Rect
abbrev WindowWorkspace := Workspace WorkspaceId LayoutState WindowId
abbrev OutputScreen := Screen WorkspaceId LayoutState WindowId (Option OutputId) Rect

/-- Minimum width and height, maximum width and height. -/
abbrev Hints := Int × Int × Int × Int

structure WindowMetadata where
  windowParent : Option WindowId
  windowHints : Hints
  windowFloating : Bool
  windowFullscreen : Bool
  windowFloatRect : Option Rect
  windowWidthWeight : ℚ
  windowHeightWeight : ℚ
  windowAppId : Option String
  windowTitle : Option String
deriving DecidableEq

def defaultMetadata : WindowMetadata :=
  ⟨none, (0, 0, 0, 0), false, false, none, 1, 1, none, none⟩

/-- Geometry is captured once: River reports cumulative logical displacement. -/
structure PointerOperation where
  pointerSeat : SeatId
  pointerWindow : WindowId
  pointerEdges : Nat
  pointerInitialRect : Rect
  pointerOutput : OutputId
  pointerOutputRect : Rect
  pointerArea : Rect
  pointerWorkspace : WorkspaceId
  pointerHints : Hints
deriving DecidableEq, Repr

/-- Kept after release: a client may acknowledge a quantized size later. -/
structure PointerAnchor where
  anchorEdges : Nat
  anchorInitialRect : Rect
  anchorOutput : OutputId
  anchorOutputRect : Rect
  anchorArea : Rect
  anchorWorkspace : WorkspaceId
deriving DecidableEq, Repr

structure Policy where
  windowSet : WindowSet
  outputs : Map OutputId Rect
  workAreas : Map OutputId Rect
  sessionLocked : Bool
  windowMetadata : Map WindowId WindowMetadata
  activeMode : BindingMode
  pointerOperation : Option PointerOperation
  pointerActualSizes : Map WindowId (Int × Int)
  pointerAnchors : Map WindowId PointerAnchor

def clampRatio (ratio : ℚ) : ℚ := max (1 / 10) (min (9 / 10) ratio)

/-- An empty workspace of the given configuration. -/
def initialWorkspace (cfg : Config) (i : WorkspaceId) : WindowWorkspace :=
  ⟨i, ⟨cfg.initialLayout, clampRatio cfg.initialMasterRatio⟩, none⟩

def initialPolicy (cfg : Config) : Policy :=
  let (first, rest) : WorkspaceId × List WorkspaceId := match cfg.workspaceIds.eraseDups with
    | [] => (1, [])
    | x :: xs => (x, xs)
  { windowSet :=
      ⟨⟨initialWorkspace cfg first, none, ⟨0, 0, 1, 1⟩⟩, [], rest.map (initialWorkspace cfg), []⟩
    outputs := ∅
    workAreas := ∅
    sessionLocked := false
    windowMetadata := ∅
    activeMode := .normalMode
    pointerOperation := none
    pointerActualSizes := ∅
    pointerAnchors := ∅ }

def alterMetadata (wid : WindowId) (f : WindowMetadata → WindowMetadata) (p : Policy) : Policy :=
  { p with windowMetadata := p.windowMetadata.modify wid f }

def metadataFor (p : Policy) (wid : WindowId) : WindowMetadata :=
  p.windowMetadata[wid]?.getD defaultMetadata

def fixedSize : Hints → Bool
  | (minW, minH, maxW, maxH) => 0 < minW ∧ 0 < minH ∧ minW = maxW ∧ minH = maxH

/-- Protocol strings are untrusted: bound their length and drop control
characters before they reach picker labels or any command line. -/
def sanitizeMeta (text : String) : String :=
  String.ofList ((text.toList.filter fun c => ' ' ≤ c ∧ c ≠ '\x7f').take 255)

/-- The window the compositor gives the keyboard to. -/
def focusedWindow (p : Policy) : Option WindowId :=
  if p.sessionLocked ∨ p.outputs.isEmpty then none else p.windowSet.peek

def focusedOutput (p : Policy) : Option OutputId := p.windowSet.current.screen

end XmonadWayland
