import XmonadWayland.Policy.Actions

/-!
# XmonadWayland.Policy.Handle

`handleEvent`: one policy transition.  The pointer bookkeeping is prepared, the
event handled, anchors the new state invalidates are preserved as float rectangles,
and the pointer state is validated.
-/

namespace XmonadWayland

/-! ## Actions -/

/-- Focus the output `direction` places further, by ascending id. -/
def focusOutput (direction : Int) (stackSet : WindowSet) : WindowSet :=
  let screens := (stackSet.screens.filter fun s => s.screen ≠ none).insertionSort
    fun a b => a.screen.getD 0 ≤ b.screen.getD 0
  match (screens.map Screen.screen).idxOf? stackSet.current.screen with
  | some index =>
    match screens[((index + direction) % screens.length).toNat]? with
    | some s => stackSet.view s.workspace.tag
    | none => stackSet
  | none => stackSet

def modifyFocused (f : WindowMetadata → WindowMetadata) (p : Policy) : Policy :=
  match p.windowSet.peek with
  | none => p
  | some wid => alterMetadata wid f p

/-- The layout after `kind` in the configured cycle. -/
def nextLayoutKind (choices : List Layout) (kind : Layout) : Layout :=
  match (choices ++ choices).dropWhile fun other => other ≠ kind with
  | _ :: next :: _ => next
  | _ => kind

def toggleSplitKind (kind : Layout) : Layout := if kind = .columns then .rows else .columns

def cycleSwayKind : Layout → Layout
  | .tabbed => .stacking
  | .stacking => .columns
  | _ => .tabbed

def resizeRatio (cfg : Config) (direction : ℚ → ℚ) (l : LayoutState) : LayoutState :=
  { l with masterRatio := clampRatio (l.masterRatio + direction (max 0 cfg.resizeIncrement)) }

/-- An action outside the picker and outside a locked session. -/
def handleAction (cfg : Config) (action : Action) (p : Policy) : Policy × List Effect :=
  let done (p' : Policy) : Policy × List Effect := (p', [])
  let change (f : WindowSet → WindowSet) := done { p with windowSet := f p.windowSet }
  let relayout (f : Layout → Layout) :=
    change (changeLayout fun l => { l with layoutKind := f l.layoutKind })
  match action with
  | .focusNext => change StackSet.focusDown
  | .focusPrevious => change StackSet.focusUp
  | .swapMaster => change StackSet.swapMaster
  | .swapNext => change StackSet.swapDown
  | .swapPrevious => change StackSet.swapUp
  | .view tag => change (StackSet.view tag)
  | .shift tag => done (match p.windowSet.peek with
    | none => p
    | some wid => shiftFamily wid tag p)
  | .focusNextOutput => change (focusOutput 1)
  | .focusPreviousOutput => change (focusOutput (-1))
  | .toggleFloat => done (modifyFocused (fun m => { m with windowFloating := !m.windowFloating }) p)
  | .sink => done (modifyFocused (fun m => { m with windowFloating := false }) p)
  | .focusModeToggle => done (focusOtherMode p)
  | .focusDirection direction => done (focusDirection direction p)
  | .moveDirection direction => done (moveDirection direction p)
  | .resize axis amount => done (resizeWindow axis amount p)
  | .setLayout kind => relayout fun _ => kind
  | .toggleSplit => relayout toggleSplitKind
  | .cycleSwayLayout => relayout cycleSwayKind
  | .enterMode mode => done { p with activeMode := mode }
  | .runCommand command => (p, [.spawn command])
  | .reload => (p, [.reloadConfig])
  | .confirmExit command => (p, [.confirmSessionExit command])
  | .toggleFullscreen =>
    done (modifyFocused (fun m => { m with windowFullscreen := !m.windowFullscreen }) p)
  | .nextLayout => relayout (nextLayoutKind cfg.layoutCycle)
  | .shrink => change (changeLayout (resizeRatio cfg fun d => -d))
  | .expand => change (changeLayout (resizeRatio cfg id))
  | .close => (p, match focusedWindow p with
    | none => []
    | some wid => [.closeWindow wid])
  | .terminal => (p, [.spawn cfg.terminalCommand])
  | .launcher => (p, [.spawn cfg.launcherCommand])
  | .stop => (p, [.stopRuntime])
  | .restart => (p, [.restartRuntime])
  | .swapToWindow wid => change (swapToWindow wid)
  | .pick => startPicker p
  | .pickCandidate index => finishPicker index p
  | .pickCancel => cancelPicker p

/-- While the picker is open only its own actions do anything. -/
def requestAction (cfg : Config) (action : Action) (p : Policy) : Policy × List Effect :=
  if p.sessionLocked then (p, [])
  else match action with
    | .pick => startPicker p
    | .pickCandidate index => finishPicker index p
    | .pickCancel => cancelPicker p
    | _ => if p.activeMode = .pickerMode then (p, []) else handleAction cfg action p

/-! ## Events -/

/-- The window's parent; a managed parent makes it float. -/
def recordParent (wid : WindowId) (liveParent : Option WindowId) (p : Policy) : Policy :=
  let update (m : WindowMetadata) : WindowMetadata :=
    { m with windowParent := liveParent, windowFloating := liveParent.isSome }
  alterMetadata wid update p

/-- A new parent is refused when it is the window itself or one of its descendants. -/
def parentRefused (wid : WindowId) (parent : Option WindowId) (p : Policy) : Bool :=
  !p.windowSet.member wid || match parent with
    | none => false
    | some i => decide (i = wid) || decide (i ∈ descendants p wid)

def setParent (wid : WindowId) (parent : Option WindowId) (p : Policy) : Policy :=
  if parentRefused wid parent p then p
  else
    let liveParent := parent.filter fun i => p.windowSet.member i
    let next := recordParent wid liveParent p
    match liveParent.bind fun i => p.windowSet.findTag i with
    | some tag => shiftFamily wid tag next
    | none => next

/-- Some dialogs have no mapped parent. Float a newly fixed-size window, but do not
undo a user's tiling override on repeated hint events. -/
def recordHints (hints : Hints) (m : WindowMetadata) : WindowMetadata :=
  { m with
    windowHints := hints
    windowFloating := m.windowFloating || (fixedSize hints && !fixedSize m.windowHints) }

/-- Forget a window as a parent. -/
def orphan (wid : WindowId) (m : WindowMetadata) : WindowMetadata :=
  if m.windowParent = some wid then { m with windowParent := none } else m

/-- Record metadata text of a managed window. -/
def recordText (wid : WindowId) (f : WindowMetadata → WindowMetadata) (p : Policy) : Policy :=
  if p.windowMetadata.contains wid then alterMetadata wid f p else p

def handleOrdinaryEvent (cfg : Config) (ev : Event) (p : Policy) : Policy × List Effect :=
  let ws := p.windowSet
  let done (p' : Policy) : Policy × List Effect := (p', [])
  match ev with
  | .pointerStarted sid wid edges x y =>
    if p.activeMode = .pickerMode then cancelPicker p
    else done (startPointer sid wid edges x y p)
  | .pointerMoved sid dx dy => done (movePointer sid dx dy p)
  | .pointerReleased sid => done (endPointer sid p)
  | .pointerCancelled sid => done (endPointer sid p)
  | .windowActualSize wid width height =>
    if ws.member wid ∧ 0 < width ∧ 0 < height then
      done { p with pointerActualSizes :=
        p.pointerActualSizes.insert wid (abiExtent width, abiExtent height) }
    else done p
  | .outputUpsert oid rect => done (reconcile (p.outputs.insert oid (positive rect)) p)
  | .outputRemoved oid =>
    done (reconcile (p.outputs.erase oid) { p with workAreas := p.workAreas.erase oid })
  | .outputWorkArea oid rect => done { p with workAreas := p.workAreas.insert oid rect }
  | .windowAdded wid =>
    if wid = 0 ∨ ws.member wid then done p
    else done { p with
      windowSet := ws.insertUp wid
      windowMetadata := p.windowMetadata.insert wid defaultMetadata }
  | .windowRemoved wid =>
    done { p with
      windowSet := ws.delete wid
      pointerActualSizes := p.pointerActualSizes.erase wid
      windowMetadata := (p.windowMetadata.erase wid).map fun _ m => orphan wid m }
  | .windowParent wid parent => done (setParent wid parent p)
  | .windowSizeHints wid minW minH maxW maxH =>
    done (alterMetadata wid (recordHints (max 0 minW, max 0 minH, max 0 maxW, max 0 maxH)) p)
  | .windowFullscreen wid enabled =>
    let next := alterMetadata wid (fun m => { m with windowFullscreen := enabled }) p
    if enabled ∧ ¬p.sessionLocked ∧ wid ∈ visibleWindows p then
      done { next with windowSet := ws.focusWindow wid }
    else done next
  | .windowAppId wid text =>
    done (recordText wid (fun m => { m with windowAppId := some (sanitizeMeta text) }) p)
  | .windowTitle wid text =>
    done (recordText wid (fun m => { m with windowTitle := some (sanitizeMeta text) }) p)
  | .focusRequested wid =>
    if ¬p.sessionLocked ∧ wid ∈ visibleWindows p then
      done { p with windowSet := ws.focusWindow wid }
    else done p
  | .locked => ({ p with sessionLocked := true, activeMode := .normalMode }, [.hidePicker])
  | .unlocked => done { p with sessionLocked := false }
  | .actionRequested action => requestAction cfg action p

/-- Visibility and topology changes can invalidate an anchor: the last displayed
float rectangle is preserved before that bookkeeping is dropped. -/
def settleAnchors (prepared next : Policy) : Policy :=
  prepared.pointerAnchors.keys.foldr (preserveInvalidAnchor prepared) next

def handleEvent (cfg : Config) (ev : Event) (original : Policy) : Policy × List Effect :=
  let prepared := preparePointerEvent ev original
  let (next, effects) := handleOrdinaryEvent cfg ev prepared
  (validatePointerState (settleAnchors prepared next), effects)

/-! ## Runs -/

/-- The policy after an event. -/
def step (cfg : Config) (p : Policy) (ev : Event) : Policy := (handleEvent cfg ev p).1

/-- The policy after a sequence of events. -/
def runEvents (cfg : Config) (evs : List Event) (p : Policy) : Policy := evs.foldl (step cfg) p

/-- The policies reachable from the initial policy of an accepted configuration; an
accepted reload replaces the configuration but not its workspaces. -/
inductive Reachable : Config → Policy → Prop
  | initial {cfg : Config} : validateConfig cfg = .ok () → Reachable cfg (initialPolicy cfg)
  | event {cfg : Config} {p : Policy} (ev : Event) :
      Reachable cfg p → Reachable cfg (step cfg p ev)
  | reload {cfg cfg' : Config} {p : Policy} : Reachable cfg p → validateConfig cfg' = .ok () →
      cfg'.workspaceIds = cfg.workspaceIds → Reachable cfg' p

/-- Runs reach reachable policies. -/
theorem Reachable.run {cfg : Config} {p : Policy} (h : Reachable cfg p) (evs : List Event) :
    Reachable cfg (runEvents cfg evs p) := by
  induction evs generalizing p with
  | nil => exact h
  | cons ev evs ih => exact ih (h.event ev)

/-- Every event sequence folded from an accepted configuration is reachable. -/
theorem reachable_runEvents {cfg : Config} (h : validateConfig cfg = .ok ()) (evs : List Event) :
    Reachable cfg (runEvents cfg evs (initialPolicy cfg)) := (Reachable.initial h).run evs

end XmonadWayland
