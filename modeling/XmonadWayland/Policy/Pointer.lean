import XmonadWayland.Policy.Render

/-!
# XmonadWayland.Policy.Pointer

Interactive move and resize: starting, moving and ending a pointer operation, the
anchors that outlive it, and the checks that drop both when the facts they were
captured under no longer hold.
-/

namespace XmonadWayland

/-! ## Displayed geometry -/

/-- One axis of `anchoredRect`. -/
def anchoredOrigin (leading : Bool) (initialOrigin initialExtent actualOrigin actualExtent
    areaOrigin areaExtent : Int) : Int :=
  let lower := areaOrigin
  let upper := max lower (lower + areaExtent - actualExtent)
  let desired := if leading then initialOrigin + initialExtent - actualExtent else actualOrigin
  abiCoordinate (max lower (min upper desired))

def anchoredRect (anchor : PointerAnchor) (actual : Rect) : Rect :=
  let initial := anchor.anchorInitialRect
  let area := anchor.anchorArea
  { actual with
    rectX := anchoredOrigin (anchor.anchorEdges &&& 4 ≠ 0) initial.rectX initial.rectWidth
      actual.rectX actual.rectWidth area.rectX area.rectWidth
    rectY := anchoredOrigin (anchor.anchorEdges &&& 1 ≠ 0) initial.rectY initial.rectHeight
      actual.rectY actual.rectHeight area.rectY area.rectHeight }

/-- Unlike a proposal, this rectangle describes what was actually rendered. -/
def displayedRect (wid : WindowId) (p : Policy) : Option Rect :=
  (windowPlacement wid p).map fun q =>
    let proposed := q.placementRect
    let (width, height) :=
      p.pointerActualSizes[wid]?.getD (proposed.rectWidth, proposed.rectHeight)
    let sized := { proposed with rectWidth := width, rectHeight := height }
    match p.pointerAnchors[wid]? with
    | none => sized
    | some anchor => anchoredRect anchor sized

/-! ## Anchors and operations -/

/-- Every fact an anchor was captured under still holds. -/
def anchorValid (wid : WindowId) (p : Policy) : Bool :=
  match p.pointerAnchors[wid]?, windowPlacement wid p with
  | some anchor, some q =>
    q.placementFloating ∧ ¬q.placementFullscreen
      ∧ ¬(metadataFor p wid).windowFullscreen
      ∧ q.placementOutput = some anchor.anchorOutput
      ∧ p.windowSet.findTag wid = some anchor.anchorWorkspace
      ∧ p.outputs[anchor.anchorOutput]? = some anchor.anchorOutputRect
      ∧ areaFor anchor.anchorOutput p = some anchor.anchorArea
  | _, _ => false

def operationValid (operation : PointerOperation) (p : Policy) : Bool :=
  ¬p.sessionLocked
    ∧ focusedWindow p = some operation.pointerWindow
    ∧ anchorValid operation.pointerWindow p
    ∧ (metadataFor p operation.pointerWindow).windowHints = operation.pointerHints

def validatePointerState (p : Policy) : Policy :=
  { p with
    pointerOperation := p.pointerOperation.filter fun operation => operationValid operation p
    pointerAnchors := p.pointerAnchors.filter fun wid _ => anchorValid wid p }

/-- Remember a float rectangle for the window. -/
def setFloatRect (wid : WindowId) (rect : Rect) (p : Policy) : Policy :=
  alterMetadata wid (fun m => { m with windowFloatRect := some rect }) p

def materializeAnchor (wid : WindowId) (p : Policy) : Policy :=
  match p.pointerAnchors[wid]? with
  | none => p
  | some _ =>
    let next := match displayedRect wid p with
      | none => p
      | some rect => setFloatRect wid rect p
    { next with pointerAnchors := next.pointerAnchors.erase wid }

def materializeAnchors (p : Policy) : Policy := p.pointerAnchors.keys.foldr materializeAnchor p

def preserveInvalidAnchor (previous : Policy) (wid : WindowId) (next : Policy) : Policy :=
  if anchorValid wid next then next
  else match displayedRect wid previous with
    | some rect => setFloatRect wid rect next
    | none => next

/-- Runtime applies these only in render, after the actual-size callbacks. -/
def renderPointerPositions (p : Policy) : List (WindowId × Int × Int) :=
  (p.pointerAnchors.keys.filter fun wid => anchorValid wid p).filterMap fun wid =>
    (displayedRect wid p).map fun rect => (wid, rect.rectX, rect.rectY)

def cancelPointer (p : Policy) : Policy := { p with pointerOperation := none }

def endPointer (sid : SeatId) (p : Policy) : Policy :=
  match p.pointerOperation with
  | some operation => if operation.pointerSeat = sid then cancelPointer p else p
  | none => p

/-! ## Starting and moving -/

def insideArea (rect area : Rect) : Bool :=
  area.rectX ≤ rect.rectX ∧ area.rectY ≤ rect.rectY
    ∧ rect.rectX + rect.rectWidth ≤ area.rectX + area.rectWidth
    ∧ rect.rectY + rect.rectHeight ≤ area.rectY + area.rectHeight

/-- The edges to drag; 16 asks for the corner nearest to the pointer. -/
def selectedEdges (requestedEdges : Nat) (px py : Int) (initial : Rect) : Option Nat :=
  if requestedEdges = 16 then
    some ((if 2 * px < 2 * initial.rectX + initial.rectWidth then 4 else 8)
      ||| (if 2 * py < 2 * initial.rectY + initial.rectHeight then 1 else 2))
  else if requestedEdges ∈ [0, 1, 2, 4, 8, 5, 6, 9, 10] then some requestedEdges
  else none

/-- What an accepted start captures: the edges, the output with its rectangle and
work area, and the workspace. -/
structure PointerCapture where
  edges : Nat
  oid : OutputId
  output : Rect
  area : Rect
  tag : WorkspaceId

/-- The guards of `startPointer` on the window displayed at `initial`. -/
def captureStart (wid : WindowId) (requestedEdges : Nat) (px py : Int) (p : Policy)
    (q : Placement) (initial : Rect) : Option PointerCapture := do
  guard (q.placementFloating ∧ ¬q.placementFullscreen)
  guard (¬(metadataFor p wid).windowFullscreen)
  let oid ← q.placementOutput
  let output ← p.outputs[oid]?
  let area ← areaFor oid p
  let tag ← p.windowSet.findTag wid
  guard (initial.rectWidth ≤ area.rectWidth ∧ initial.rectHeight ≤ area.rectHeight)
  guard (insideArea initial area)
  let edges ← selectedEdges requestedEdges px py initial
  pure ⟨edges, oid, output, area, tag⟩

def startPointer (sid : SeatId) (wid : WindowId) (requestedEdges : Nat) (px py : Int)
    (p : Policy) : Policy :=
  if sid = 0 ∨ p.sessionLocked ∨ p.pointerOperation ≠ none then p
  else match windowPlacement wid p, p.pointerActualSizes[wid]?, displayedRect wid p with
    | some q, some _, some initial =>
      match captureStart wid requestedEdges px py p q initial with
      | some ⟨edges, oid, output, area, tag⟩ =>
        let ready := materializeAnchor wid p
        let anchor : PointerAnchor := ⟨edges, initial, oid, output, area, tag⟩
        let operation : PointerOperation :=
          ⟨sid, wid, edges, initial, oid, output, area, tag, (metadataFor p wid).windowHints⟩
        { setFloatRect wid initial ready with
          pointerOperation := some operation
          pointerAnchors := ready.pointerAnchors.insert wid anchor
          windowSet := StackSet.focusWindow wid ready.windowSet }
      | none => p
    | _, _, _ => p

/-- One axis of a drag: the new origin and extent. -/
def dragAxis (edges leading trailing : Nat) (origin size areaOrigin areaSize motion
    lowerHint upperHint : Int) : Int × Int :=
  let border : Int := 0
  let lower := areaOrigin
  let upper := lower + areaSize
  if edges = 0 then
    (max lower (min (max lower (upper - size)) (origin + motion)), size)
  else
    let leadingActive := edges &&& leading ≠ 0
    let trailingActive := edges &&& trailing ≠ 0
    let desired := if leadingActive then size - motion
      else if trailingActive then size + motion else size
    let available := if leadingActive then origin + size - lower else upper - origin
    let maximumSize := max 1 (min maxInt32 available)
    let minimumSize := max 1 (lowerHint + border)
    let hintMaximum := if 0 < upperHint then upperHint + border else maximumSize
    let requested := if ¬leadingActive ∧ ¬trailingActive then size
      else max 1 (min maximumSize (max minimumSize (min hintMaximum desired)))
    (if leadingActive then origin + size - requested else origin, requested)

def dragGeometry (operation : PointerOperation) (dx dy : Int) : Rect :=
  let initial := operation.pointerInitialRect
  let area := operation.pointerArea
  let edges := operation.pointerEdges
  let (minW, minH, maxW, maxH) := operation.pointerHints
  let (x, width) := dragAxis edges 4 8 initial.rectX initial.rectWidth
    area.rectX area.rectWidth dx minW maxW
  let (y, height) := dragAxis edges 1 2 initial.rectY initial.rectHeight
    area.rectY area.rectHeight dy minH maxH
  ⟨abiCoordinate x, abiCoordinate y, width, height⟩

def movePointer (sid : SeatId) (dx dy : Int) (p : Policy) : Policy :=
  match p.pointerOperation with
  | some operation =>
    if operation.pointerSeat = sid ∧ operationValid operation p then
      setFloatRect operation.pointerWindow (dragGeometry operation dx dy) p
    else p
  | none => p

/-! ## Before an event -/

/-- Materialise the anchors of an output and cancel its operation. -/
def cancelOutput (oid : OutputId) (p : Policy) : Policy :=
  let next := match p.pointerOperation with
    | some operation => if operation.pointerOutput = oid then cancelPointer p else p
    | none => p
  ((p.pointerAnchors.toList.filter fun entry => entry.2.anchorOutput = oid).map
    Prod.fst).foldr materializeAnchor next

/-- Materialise the anchor of a window and cancel its operation. -/
def cancelWindow (wid : WindowId) (p : Policy) : Policy :=
  materializeAnchor wid (match p.pointerOperation with
    | some operation => if operation.pointerWindow = wid then cancelPointer p else p
    | none => p)

/-- Cancel the operation and materialise the anchor of the focused window. -/
def focusedGeometry (p : Policy) : Policy :=
  match focusedWindow p with
  | some wid => materializeAnchor wid (cancelPointer p)
  | none => cancelPointer p

def preparePointerAction (p : Policy) : Action → Policy
  | .terminal => p
  | .launcher => p
  | .runCommand _ => p
  | .reload => p
  | .confirmExit _ => p
  | .moveDirection _ => focusedGeometry p
  | .resize _ _ => focusedGeometry p
  | .toggleFloat => focusedGeometry p
  | .sink => focusedGeometry p
  | .toggleFullscreen => focusedGeometry p
  | _ => cancelPointer p

def preparePointerEvent (ev : Event) (p : Policy) : Policy :=
  match ev with
  | .actionRequested action => preparePointerAction p action
  | .windowAdded wid => if ¬p.windowSet.member wid ∧ wid ≠ 0 then cancelPointer p else p
  | .focusRequested wid =>
    if wid ∈ visibleWindows p ∧ some wid ≠ focusedWindow p then cancelPointer p else p
  | .locked => cancelPointer p
  | .windowSizeHints wid a b c d =>
    if (metadataFor p wid).windowHints ≠ (max 0 a, max 0 b, max 0 c, max 0 d) then
      cancelWindow wid p
    else p
  | .windowFullscreen wid enabled =>
    if (metadataFor p wid).windowFullscreen ≠ enabled then cancelWindow wid p else p
  | .windowParent wid parent =>
    if (metadataFor p wid).windowParent ≠ parent then materializeAnchors (cancelPointer p)
    else p
  | .outputUpsert oid rect =>
    if p.outputs[oid]? ≠ some (positive rect) then cancelOutput oid p else p
  | .outputRemoved oid => cancelOutput oid p
  | .outputWorkArea oid rect =>
    if p.workAreas[oid]? ≠ some rect then cancelOutput oid p else p
  | _ => p

end XmonadWayland
