import XmonadWayland.Policy.Layout

/-!
# XmonadWayland.Policy.Render

`renderPolicy`: where every managed window goes.  Each screen with a live output
contributes the rectangles of the windows it shows; every other window gets an
invisible placement.
-/

namespace XmonadWayland

/-- What a screen says about a window it shows: its rectangle, its output, and
whether it is floating or fullscreen. -/
abbrev Shown := Rect × Option OutputId × Bool × Bool

/-- Pointer geometry has already resolved hint/workarea conflicts while preserving
the fixed edge. Applying minimum hints again here would enlarge the rectangle past
that edge when the minimum is impossible. -/
def pointerFloatRect (p : Policy) (wid : WindowId) (area : Rect) : Rect :=
  match p.pointerAnchors[wid]?, (metadataFor p wid).windowFloatRect with
  | some _, some rect => confineRect area rect
  | _, _ => floatRect area (metadataFor p wid)

/-- The area of an output left by its panels. -/
def screenArea (p : Policy) (rect : Rect) (output : Option OutputId) : Rect :=
  match output.bind fun oid => p.workAreas[oid]? with
  | some area => clipArea rect area
  | none => rect

def isFloat (p : Policy) (wid : WindowId) : Bool := (metadataFor p wid).windowFloating

/-- The tiled windows of a screen, with their rectangles. -/
def tiledRects (p : Policy) (s : OutputScreen) (area : Rect) (stack : Stack WindowId) :
    List (WindowId × Rect) :=
  match stack.filter fun wid => !isFloat p wid with
  | none => []
  | some tiles => layoutRects p s.workspace.layout area tiles

/-- The floating windows of a screen, with their rectangles. -/
def floatRects (p : Policy) (area : Rect) (stack : Stack WindowId) : List (WindowId × Rect) :=
  (stack.integrate.filter (isFloat p)).map fun wid => (wid, pointerFloatRect p wid area)

def screenRects (p : Policy) (s : OutputScreen) : List (WindowId × Shown) :=
  match s.screen.bind fun oid => p.outputs[oid]?, s.workspace.stack with
  | some rect, some stack =>
    if (metadataFor p stack.focus).windowFullscreen then
      [(stack.focus, (rect, s.screen, false, true))]
    else
      let area := screenArea p rect s.screen
      (tiledRects p s area stack ++ floatRects p area stack).map fun (wid, r) =>
        (wid, (r, s.screen, isFloat p wid, false))
  | _, _ => []

/-- The rectangles of all shown windows. -/
def rectangles (p : Policy) : Map WindowId Shown :=
  Std.ExtTreeMap.ofList (p.windowSet.screens.flatMap (screenRects p)) compare

def placement (p : Policy) (rects : Map WindowId Shown) (wid : WindowId) : Placement :=
  match rects[wid]? with
  | some (rect, output, floating, fullscreen) =>
    ⟨wid, rect, true, some wid = focusedWindow p, output, floating, fullscreen⟩
  | none => ⟨wid, ⟨0, 0, 1, 1⟩, false, false, none, false, false⟩

def renderPolicy (p : Policy) : List Placement :=
  p.windowSet.allWindows.map (placement p (rectangles p))

def visibleWindows (p : Policy) : List WindowId :=
  ((renderPolicy p).filter Placement.placementVisible).map Placement.placementWindow

def windowPlacement (wid : WindowId) (p : Policy) : Option Placement :=
  ((renderPolicy p).filter fun q => q.placementWindow = wid ∧ q.placementVisible).head?

def windowRect (wid : WindowId) (p : Policy) : Option Rect :=
  (((renderPolicy p).filter fun q => q.placementWindow = wid ∧ q.placementVisible).map
    Placement.placementRect).head?

def areaFor (oid : OutputId) (p : Policy) : Option Rect :=
  p.outputs[oid]?.map fun output => match p.workAreas[oid]? with
    | some area => clipArea output area
    | none => output

/-- The work area of the output that has the focus. -/
def currentArea (p : Policy) : Option Rect :=
  (focusedOutput p).bind fun oid => areaFor oid p

end XmonadWayland
