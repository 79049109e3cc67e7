import XmonadWayland.Policy.Pointer
import Mathlib.Data.List.Sort

/-!
# XmonadWayland.Policy.Actions

The window-management actions of `Policy.hs`: the letter picker, directional
focus and movement, keyboard resizing, transient families and output hotplug.
-/

namespace XmonadWayland

/-! ## The picker -/

/-- Letter, screen rectangle and window id for every visible window of the current
workspace, in stack order; letters are dealt to the whole stack first. -/
def pickerChoices (p : Policy) : List (Char × Rect × WindowId) :=
  let placements : Map WindowId Rect := Std.ExtTreeMap.ofList
    (((renderPolicy p).filter Placement.placementVisible).map fun q =>
      (q.placementWindow, q.placementRect)) compare
  ((letters.zip p.windowSet.index).filterMap fun (letter, wid) =>
    placements[wid]?.map fun rect => (letter, rect, wid)).take 35

/-- Show the letter overlay and arm the picker mode. -/
def startPicker (p : Policy) : Policy × List Effect :=
  match pickerChoices p with
  | [] => (p, [])
  | candidates =>
    ({ p with activeMode := .pickerMode },
      [.showPicker (candidates.map fun (c, r, _) => (c, r))])

def cancelPicker (p : Policy) : Policy × List Effect :=
  ({ p with activeMode := .normalMode }, [.hidePicker])

/-- Swap the selected window with the head of the stack and focus it. -/
def swapToWindow (wid : WindowId) (stackSet : WindowSet) : WindowSet :=
  match stackSet.index with
  | focused :: rest =>
    if focused ≠ wid then
      match rest.idxOf? wid with
      | some idx => stackSet.modify' fun _ =>
          ⟨wid, rest.take idx, focused :: rest.drop (idx + 1)⟩
      | none => stackSet
    else stackSet
  | [] => stackSet

/-- Swap the candidate into the focused position and hide the overlay. -/
def finishPicker (index : Int) (p : Policy) : Policy × List Effect :=
  match (pickerChoices p).drop index.toNat with
  | (_, _, wid) :: _ =>
    ({ p with activeMode := .normalMode, windowSet := swapToWindow wid p.windowSet },
      [.hidePicker])
  | [] => cancelPicker p

/-! ## Directions -/

inductive Navigation where
  | toWindow (wid : WindowId)
  | toWorkspace (tag : WorkspaceId)
deriving DecidableEq, Repr

def focusOtherMode (p : Policy) : Policy :=
  match p.windowSet.current.workspace.stack with
  | none => p
  | some stack =>
    match (stack.up ++ stack.down).filter fun wid => isFloat p wid ≠ isFloat p stack.focus with
    | wid :: _ => { p with windowSet := p.windowSet.focusWindow wid }
    | [] => p

/-- Windows whose perpendicular spans overlap come first, then the closest edge.
Global rectangles make this work for outputs above, below or left of origin. -/
def directionScore (direction : Direction) (origin target : Rect) : Option (Int × Int × Int) :=
  let ⟨ox, oy, ow, oh⟩ := origin
  let ⟨tx, ty, tw, th⟩ := target
  let horizontal := direction = .goLeft ∨ direction = .goRight
  let positiveDirection := direction = .goRight ∨ direction = .goDown
  let delta := if horizontal then 2 * tx + tw - 2 * ox - ow else 2 * ty + th - 2 * oy - oh
  let forward := if positiveDirection then delta else -delta
  let sideways := if horizontal then 2 * ty + th - 2 * oy - oh else 2 * tx + tw - 2 * ox - ow
  let overlap := if horizontal then ty < oy + oh ∧ oy < ty + th else tx < ox + ow ∧ ox < tx + tw
  let gap := match direction with
    | .goLeft => ox - tx - tw
    | .goRight => tx - ox - ow
    | .goUp => oy - ty - th
    | .goDown => ty - oy - oh
  if forward ≤ 0 then none
  else some (if overlap then 0 else 1, max 0 gap, (sideways.natAbs : Int))

/-- The lexicographic order of two scores. -/
def scoreLe (a b : Int × Int × Int) : Bool :=
  a.1 < b.1 ∨ (a.1 = b.1 ∧ (a.2.1 < b.2.1 ∨ (a.2.1 = b.2.1 ∧ a.2.2 ≤ b.2.2)))

/-- Windows of the current workspace in the same mode as the focused one. -/
def sameMode (p : Policy) (wid : WindowId) : Bool :=
  match p.windowSet.peek with
  | none => true
  | some selected => isFloat p wid = isFloat p selected

/-- Layouts and fullscreen windows that show one tile only. -/
def singleTile (p : Policy) : Bool :=
  decide (p.windowSet.current.workspace.layout.layoutKind ∈ [Layout.full, .tabbed, .stacking])
    || match p.windowSet.peek with
      | none => false
      | some wid => (metadataFor p wid).windowFullscreen

/-- The neighbour in stack order, when the layout hides it. -/
def hiddenNeighbor (direction : Direction) (p : Policy) : Option WindowId := do
  let members := (Stack.integrate' p.windowSet.current.workspace.stack).filter (sameMode p)
  let wid ← p.windowSet.peek
  let index ← members.idxOf? wid
  let next : Int := index + if direction ∈ [Direction.goRight, .goDown] then 1 else -1
  if singleTile p ∧ ¬isFloat p wid ∧ 0 ≤ next ∧ next < members.length then
    members[next.toNat]?
  else none

def windowTargets (direction : Direction) (p : Policy) (origin : Rect) :
    List ((Int × Int × Int) × Navigation) :=
  (renderPolicy p).filterMap fun q =>
    if q.placementVisible ∧ some q.placementWindow ≠ p.windowSet.peek
        ∧ sameMode p q.placementWindow then
      (directionScore direction origin q.placementRect).map fun score =>
        (score, .toWindow q.placementWindow)
    else none

def emptyTargets (direction : Direction) (p : Policy) (origin : Rect) :
    List ((Int × Int × Int) × Navigation) :=
  p.windowSet.screens.filterMap fun screen =>
    if screen.screen ≠ p.windowSet.current.screen ∧ screen.workspace.stack = none then
      (screen.screen.bind fun oid => p.outputs[oid]?).bind fun rect =>
        (directionScore direction origin rect).map fun score =>
          (score, .toWorkspace screen.workspace.tag)
    else none

def directionTarget (direction : Direction) (p : Policy) : Option Navigation :=
  match hiddenNeighbor direction p with
  | some wid => some (.toWindow wid)
  | none => do
    let origin ← match p.windowSet.peek with
      | some wid => windowRect wid p
      | none => currentArea p
    ((windowTargets direction p origin ++ emptyTargets direction p origin).insertionSort
      fun a b => scoreLe a.1 b.1).head?.map Prod.snd

def focusDirection (direction : Direction) (p : Policy) : Policy :=
  match directionTarget direction p with
  | some (.toWindow wid) => { p with windowSet := p.windowSet.focusWindow wid }
  | some (.toWorkspace tag) => { p with windowSet := p.windowSet.view tag }
  | none => p

/-! ## Transient families -/

/-- The windows outside `seen` whose parent is in `seen`, by ascending id. -/
def childrenOf (p : Policy) (seen : List WindowId) : List WindowId :=
  (p.windowMetadata.toList.filter fun (wid, m) =>
    (match m.windowParent with
      | some i => decide (i ∈ seen)
      | none => false) && decide (wid ∉ seen)).map Prod.fst

/-- The managed windows not seen yet; what bounds the traversal. -/
def unseen (p : Policy) (seen : List WindowId) : List WindowId :=
  p.windowMetadata.keys.filter fun wid => wid ∉ seen

/-- Each round sees windows that were not seen before. -/
theorem length_unseen_lt {p : Policy} {seen : List WindowId} (h : childrenOf p seen ≠ []) :
    (unseen p (seen ++ childrenOf p seen)).length < (unseen p seen).length := by
  obtain ⟨wid, hwid⟩ := List.exists_mem_of_ne_nil _ h
  have hnew : wid ∈ unseen p seen := by
    obtain ⟨⟨k, m⟩, hmem, rfl⟩ := List.mem_map.mp hwid
    obtain ⟨hkm, hcond⟩ := List.mem_filter.mp hmem
    simp only [Bool.and_eq_true, decide_eq_true_eq] at hcond
    refine List.mem_filter.mpr ⟨?_, by simpa using hcond.2⟩
    rw [← Std.ExtTreeMap.map_fst_toList_eq_keys]
    exact List.mem_map_of_mem hkm
  have hsub : unseen p (seen ++ childrenOf p seen)
      = (unseen p seen).filter fun w => w ∉ childrenOf p seen := by
    simp only [unseen, List.filter_filter]
    congr 1
    funext w
    simp [Bool.and_comm]
  rw [hsub]
  exact List.length_filter_lt_length_iff_exists.mpr ⟨wid, hnew, by simpa using hwid⟩

/-- The breadth-first closure of `seen` under the transient relation. -/
def growFamily (p : Policy) (seen : List WindowId) : List WindowId :=
  if _h : childrenOf p seen = [] then seen else growFamily p (seen ++ childrenOf p seen)
termination_by (unseen p seen).length
decreasing_by exact length_unseen_lt _h

/-- A parent and its transient descendants move as a family. The visited list also
bounds traversal if a custom configuration supplies cyclic metadata. -/
def descendants (p : Policy) (root : WindowId) : List WindowId :=
  (growFamily p [root]).filter fun wid => wid ≠ root

def shiftFamily (wid : WindowId) (tag : WorkspaceId) (p : Policy) : Policy :=
  { p with windowSet := (wid :: descendants p wid).foldr (StackSet.shiftWin tag) p.windowSet }

/-! ## Moving and resizing -/

/-- Exchange two windows of the current stack. -/
def exchange (a b : WindowId) (stack : Stack WindowId) : Stack WindowId :=
  let replace (i : WindowId) := if i = a then b else if i = b then a else i
  ⟨replace stack.focus, stack.up.map replace, stack.down.map replace⟩

/-- Move the window's family to workspace `tag` and follow it. -/
def transferFamily (wid : WindowId) (tag : WorkspaceId) (p : Policy) : Policy :=
  let moved := shiftFamily wid tag p
  { moved with windowSet := (moved.windowSet.view tag).focusWindow wid }

/-- The step of a keyboard move. -/
def directionStep : Direction → Int × Int
  | .goLeft => (-10, 0)
  | .goRight => (10, 0)
  | .goUp => (0, -10)
  | .goDown => (0, 10)

def moveDirection (direction : Direction) (p : Policy) : Policy :=
  match p.windowSet.peek with
  | none => p
  | some wid =>
    if (metadataFor p wid).windowFullscreen then p
    else if (metadataFor p wid).windowFloating then
      match windowRect wid p with
      | none => p
      | some ⟨x, y, w, h⟩ =>
        let (dx, dy) := directionStep direction
        setFloatRect wid ⟨x + dx, y + dy, w, h⟩ p
    else match directionTarget direction p with
      | some (.toWindow other) =>
        if p.windowSet.findTag other = p.windowSet.findTag wid then
          { p with windowSet := (p.windowSet.modify' (exchange wid other)).focusWindow wid }
        else match p.windowSet.findTag other with
          | some tag => transferFamily wid tag p
          | none => p
      | some (.toWorkspace tag) => transferFamily wid tag p
      | none => p

/-- The tiled windows of the current workspace. -/
def currentTiles (p : Policy) : List WindowId :=
  (Stack.integrate' p.windowSet.current.workspace.stack).filter fun wid => !isFloat p wid

/-- Change the layout state of the current workspace. -/
def changeLayout (f : LayoutState → LayoutState) (s : WindowSet) : WindowSet :=
  s.mapWorkspace fun w => if w.tag = s.currentTag then { w with layout := f w.layout } else w

/-- Move the master split by `amount` pixels. -/
def splitMaster (wid : WindowId) (amount : Int) (p : Policy) (master : WindowId)
    (available : Int) : Policy :=
  let delta : ℚ := amount / available * if wid = master then 1 else -1
  let layout := p.windowSet.current.workspace.layout
  let update (_ : LayoutState) : LayoutState :=
    { layout with masterRatio := clampRatio (layout.masterRatio + delta) }
  { p with windowSet := changeLayout update p.windowSet }

/-- The extent of a shown window along an axis, 1 when it is not shown. -/
def extentOf (p : Policy) (axis : Axis) (i : WindowId) : Int :=
  match windowRect i p with
  | some r => if axis = .width then r.rectWidth else r.rectHeight
  | none => 1

/-- Rewrite the weights of a group so that `wid` takes pixels from a neighbour. -/
def exchangeWeights (axis : Axis) (amount : Int) (p : Policy) (wid : WindowId) (area : Rect)
    (group : List WindowId) : Policy :=
  let available := if axis = .width then area.rectWidth else area.rectHeight
  match group.idxOf? wid with
  | some index =>
    if 1 < group.length ∧ (group.length : Int) ≤ available then
      match group[if index + 1 < group.length then index + 1 else index - 1]? with
      | some other =>
        let delta := max (1 - extentOf p axis wid) (min (extentOf p axis other - 1) amount)
        let size (i : WindowId) := extentOf p axis i
          + if i = wid then delta else if i = other then -delta else 0
        let update (i : WindowId) := alterMetadata i fun m =>
          if axis = .width then { m with windowWidthWeight := size i }
          else { m with windowHeightWeight := size i }
        group.foldr update p
      | none => p
    else p
  | none => p

def resizeTile (axis : Axis) (amount : Int) (p : Policy) (wid : WindowId) (area : Rect) : Policy :=
  match p.windowSet.current.workspace.layout.layoutKind, axis, currentTiles p with
  | .columns, .width, tiles => exchangeWeights axis amount p wid area tiles
  | .rows, .height, tiles => exchangeWeights axis amount p wid area tiles
  | .tall, .width, master :: _ :: _ => splitMaster wid amount p master area.rectWidth
  | .mirror, .height, master :: _ :: _ => splitMaster wid amount p master area.rectHeight
  | .tall, .height, _ :: slaves =>
    if wid ∈ slaves then exchangeWeights axis amount p wid area slaves else p
  | .mirror, .width, _ :: slaves =>
    if wid ∈ slaves then exchangeWeights axis amount p wid area slaves else p
  | _, _, _ => p

/-- The rectangle a floating window is resized to, recentred. -/
def resizedFloat (axis : Axis) (amount : Int) (old : Rect) : Rect :=
  let grow (size : Int) := max 1 (min maxInt32 (size + amount))
  let width := if axis = .width then grow old.rectWidth else old.rectWidth
  let height := if axis = .height then grow old.rectHeight else old.rectHeight
  ⟨old.rectX + (old.rectWidth - width) / 2, old.rectY + (old.rectHeight - height) / 2,
    width, height⟩

def resizeWindow (axis : Axis) (amount : Int) (p : Policy) : Policy :=
  match p.windowSet.peek, currentArea p with
  | some wid, some area =>
    if (metadataFor p wid).windowFullscreen then p
    else match (metadataFor p wid).windowFloating, windowRect wid p with
      | true, some old =>
        let next := resizedFloat axis amount old
        let update (m : WindowMetadata) : WindowMetadata :=
          { m with windowFloatRect := some (floatRect area { m with windowFloatRect := some next }) }
        alterMetadata wid update p
      | _, _ => resizeTile axis amount p wid area
  | _, _ => p

/-! ## Hotplug -/

/-- Show workspaces from the pool on the given outputs, as far as both reach. -/
def assignOutputs (available : List (OutputId × Rect)) (pool : List WindowWorkspace) :
    List OutputScreen :=
  List.zipWith (fun (i, r) w => ⟨w, some i, r⟩) available pool

/-- Does the screen's output remain? -/
def alive (newOutputs : Map OutputId Rect) (s : OutputScreen) : Bool :=
  match s.screen with
  | none => false
  | some oid => newOutputs.contains oid

/-- The screen with the new rectangle of its output. -/
def refresh (newOutputs : Map OutputId Rect) (s : OutputScreen) : OutputScreen :=
  match s.screen.bind fun oid => newOutputs[oid]? with
  | some r => { s with screenDetail := r }
  | none => s

/-- The screens rebuilt for the new outputs. -/
def rebuild (newOutputs : Map OutputId Rect) (old : WindowSet) : WindowSet :=
  let retained := old.screens.filter (alive newOutputs)
  let removed := old.screens.filter fun s => !alive newOutputs s
  if newOutputs.isEmpty then
    ⟨⟨old.current.workspace, none, ⟨0, 0, 1, 1⟩⟩, [],
      old.visible.map Screen.workspace ++ old.hidden, old.floating⟩
  else match retained with
    | [] => match newOutputs.toList with
      | (oid, rect) :: rest =>
        let pool := old.visible.map Screen.workspace ++ old.hidden
        let added := assignOutputs rest pool
        ⟨⟨old.current.workspace, some oid, rect⟩, added, pool.drop added.length, old.floating⟩
      | [] => old
    | cur :: vis =>
      let assigned := retained.filterMap Screen.screen
      let available := newOutputs.toList.filter fun entry => entry.1 ∉ assigned
      let pool := old.hidden ++ removed.map Screen.workspace
      let added := assignOutputs available pool
      ⟨refresh newOutputs cur, vis.map (refresh newOutputs) ++ added, pool.drop added.length,
        old.floating⟩

/-- Keep workspace stacks intact while outputs come and go. A virtual screen keeps
the current workspace when the last output leaves. At most one output per workspace
is assigned; extras stay in the output map for later hotplug. -/
def reconcile (newOutputs : Map OutputId Rect) (p : Policy) : Policy :=
  { p with outputs := newOutputs, windowSet := rebuild newOutputs p.windowSet }

end XmonadWayland
