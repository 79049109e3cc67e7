import XmonadWayland.Policy.State

/-!
# XmonadWayland.Policy.Layout

The geometry functions of `Policy.hs`: normalising what the compositor reports,
clipping and confining rectangles, floating placement, and the tiling layouts.
Every function here is pure arithmetic on `Integer` or on numbers already
normalised by `positive` and `clipArea`.
-/

namespace XmonadWayland

def minInt32 : Int := -2147483648
def maxInt32 : Int := 2147483647

def abiExtent (size : Int) : Int := max 1 (min maxInt32 size)

def abiCoordinate (value : Int) : Int := max minInt32 (min maxInt32 value)

/-- `bounded` of `Runtime.hs`: the clamp of every number the policy hands to C. -/
def bounded (value : Int) : Int := max minInt32 (min maxInt32 value)

/-! ## Normalising reported geometry -/

/-- Rectangles may end one pixel beyond `maxInt32`, but their last pixel and every
emitted origin must remain representable by the signed C ABI. -/
def positive : Rect → Rect
  | ⟨x, y, w, h⟩ =>
    let coordinate (value : Int) := max minInt32 (min maxInt32 value)
    let extent (origin size : Int) := max 1 (min size (min maxInt32 (maxInt32 - origin + 1)))
    ⟨coordinate x, coordinate y, extent (coordinate x) w, extent (coordinate y) h⟩

/-- One axis of `clipArea`: the clipped origin and extent. -/
def clip (origin extent start size : Int) : Int × Int :=
  let lower := origin
  let upper := lower + extent
  let first := max lower (min (upper - 1) start)
  let lastPixel := min upper (max (first + 1) (start + size))
  (first, lastPixel - first)

/-- A stale or oversized panel hint must never place windows outside the output.
An exhausted workarea retains one pixel so the window protocol stays valid. -/
def clipArea : Rect → Rect → Rect
  | ⟨ox, oy, ow, oh⟩, ⟨x, y, w, h⟩ =>
    let (left, width) := clip ox ow x w
    let (top, height) := clip oy oh y h
    ⟨left, top, width, height⟩

/-- One axis of `confineRect`: the origin nearest to the requested one. -/
def confineOrigin (origin available size requested : Int) : Int :=
  let lower := origin
  let upper := lower + available - size
  abiCoordinate (max lower (min upper requested))

def confineRect : Rect → Rect → Rect
  | ⟨ax, ay, aw, ah⟩, ⟨x, y, w, h⟩ =>
    let width := max 1 (min aw w)
    let height := max 1 (min ah h)
    ⟨confineOrigin ax aw width x, confineOrigin ay ah height y, width, height⟩

/-! ## Floating windows -/

/-- Large hints are bounded to the output; the window is centred. -/
def floatingRect : Rect → Hints → Rect
  | ⟨x, y, w, h⟩, (minW, minH, maxW, maxH) =>
    let border : Int := 0
    let extent (available lower upper : Int) : Int :=
      let preferred := available / 2
      let ceilingSize := if 0 < upper then upper + border else available
      max 1 (min available (max (lower + border) (min preferred ceilingSize)))
    let width := extent w minW maxW
    let height := extent h minH maxH
    ⟨x + (w - width) / 2, y + (h - height) / 2, width, height⟩

def floatRect (area : Rect) (m : WindowMetadata) : Rect :=
  match m.windowFloatRect with
  | none => floatingRect area m.windowHints
  | some ⟨x, y, w, h⟩ =>
    let ⟨ax, ay, aw, ah⟩ := area
    let (minW, minH, maxW, maxH) := m.windowHints
    let border : Int := 0
    let bounded (available lower upper requested : Int) : Int :=
      max 1 (min available (max (lower + border)
        (min requested (if 0 < upper then upper + border else available))))
    let width := bounded aw minW maxW w
    let height := bounded ah minH maxH h
    ⟨max ax (min (ax + aw - width) x), max ay (min (ay + ah - height) y), width, height⟩

/-! ## Tiling -/

/-- The running sums of `scanl (+) 0`. -/
def prefixSums (weights : List ℚ) : List ℚ := weights.scanl (· + ·) 0

/-- The floors of the normalised running sums: the pixel edges of the slots. -/
def splitEdges (available : Int) (weights : List ℚ) : List Int :=
  (prefixSums weights).map fun e => ⌊e / weights.sum * available⌋

/-- A slot between two pixel edges, widened to at least one pixel. -/
def slot (available first lastPixel : Int) : Int × Int :=
  let start := min (available - 1) first
  (start, max 1 (min available lastPixel - start))

/-- The slots of the windows along one axis, as start and extent. -/
def weightedSlots (weight : WindowId → ℚ) (available : Int) (windows : List WindowId) :
    List (WindowId × (Int × Int)) :=
  let weights := windows.map fun wid => max (1 / 1000000) (weight wid)
  let edges := splitEdges available weights
  windows.zip ((edges.zip (edges.drop 1)).map fun (first, lastPixel) =>
    slot available first lastPixel)

def weightedRects (axis : Axis) (weight : WindowId → ℚ) (area : Rect) (windows : List WindowId) :
    List (WindowId × Rect) :=
  let ⟨x, y, w, h⟩ := area
  let available := if axis = .width then w else h
  (weightedSlots weight available windows).map fun (wid, (start, extent)) =>
    (wid, if axis = .width then ⟨x + start, y, extent, h⟩ else ⟨x, y + start, w, extent⟩)

/-- More windows than pixels necessarily overlap. Boundary pixels are reused
instead of emitting zero dimensions or escaping the output rectangle. -/
def tall (ratio : ℚ) (area : Rect) : List WindowId → List (WindowId × Rect)
  | [] => []
  | [wid] => [(wid, area)]
  | master :: rest =>
    let ⟨x, y, w, h⟩ := area
    let cut := if w ≤ 1 then 1 else max 1 (min (w - 1) ⌊(w : ℚ) * ratio⌋)
    let slaveX := if w ≤ 1 then x else x + cut
    let slaveWidth := if w ≤ 1 then 1 else w - cut
    let count : Int := rest.length
    let boundary (n : Int) : Int := n * h / count
    (master, ⟨x, y, cut, h⟩) :: rest.zipIdx.map fun (wid, i) =>
      let start := min (h - 1) (boundary i)
      let lastRow := min h (max (start + 1) (boundary (i + 1)))
      (wid, ⟨slaveX, y + start, slaveWidth, lastRow - start⟩)

def transpose : Rect → Rect
  | ⟨x, y, w, h⟩ => ⟨y, x, h, w⟩

/-- The weight of a window along an axis. -/
def weightOf (p : Policy) (axis : Axis) (wid : WindowId) : ℚ :=
  if axis = .width then (metadataFor p wid).windowWidthWeight
  else (metadataFor p wid).windowHeightWeight

/-- `tall`, with the slaves split again by their weights on the other axis. -/
def tallWeighted (p : Policy) (ratio : ℚ) (axis : Axis) (area : Rect) (windows : List WindowId) :
    List (WindowId × Rect) :=
  match tall ratio area windows with
  | [] => []
  | [single] => [single]
  | master :: slaves@((_, ⟨sx, sy, sw, _⟩) :: _) =>
    master :: weightedRects .height (weightOf p (if axis = .width then .height else .width))
      ⟨sx, sy, sw, area.rectHeight⟩ (slaves.map Prod.fst)

def layoutRects (p : Policy) (l : LayoutState) (rect : Rect) (stack : Stack WindowId) :
    List (WindowId × Rect) :=
  match l.layoutKind with
  | .full => [(stack.focus, rect)]
  | .tabbed => [(stack.focus, rect)]
  | .stacking => [(stack.focus, rect)]
  | .columns => weightedRects .width (weightOf p .width) rect stack.integrate
  | .rows => weightedRects .height (weightOf p .height) rect stack.integrate
  | .tall => tallWeighted p l.masterRatio .width rect stack.integrate
  | .mirror => (tallWeighted p l.masterRatio .height (transpose rect) stack.integrate).map
      fun (w, r) => (w, transpose r)

end XmonadWayland
