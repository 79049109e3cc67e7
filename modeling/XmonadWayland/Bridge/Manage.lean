import XmonadWayland.Runtime

/-!
# XmonadWayland.Bridge.Manage

The two transactions of `cbits/bridge.c`.  A manage sequence publishes what has
happened since the last one in a fixed order, drains the input queue and hands over to
Haskell; a render sequence publishes actual sizes and stacks the windows.
-/

namespace XmonadWayland.Bridge

/-! ## Publishing the lifecycle -/

/-- Events of removed outputs, which are then destroyed. -/
def dropOutputs (sys : System) : System :=
  let removed := sys.bridge.outputs.filter Output.removed
  let events := (removed.filter Output.announced).map fun output =>
    Delivered.event 2 output.id 0 0 0 0
  (sys.deliverAll events).onBridge fun s =>
    send (removed.map fun output => .destroyOutput output.id)
      { s with outputs := s.outputs.filter fun output => !output.removed }

/-- Events of closed windows, which are then destroyed. -/
def dropWindows (sys : System) : System :=
  let closed := sys.bridge.windows.filter Window.closed
  let events := (closed.filter Window.announced).map fun w => Delivered.event 4 w.id 0 0 0 0
  (sys.deliverAll events).onBridge fun s =>
    send (closed.map fun w => .destroyWindow w.id)
      { s with windows := s.windows.filter fun w => !w.closed }

/-- Never publish position with stale 0x0 size. -/
def Output.complete (output : Output) : Bool := output.hasPosition && output.hasDimensions

def Output.events (output : Output) : List Delivered :=
  (if output.dirty then
    [.event 1 output.id output.x output.y output.width output.height] else [])
  ++ if output.areaDirty then
    [.event 14 output.id output.areaX output.areaY output.areaWidth output.areaHeight] else []

def Output.published (output : Output) : Output :=
  { output with
    announced := output.announced || output.dirty
    dirty := false
    areaDirty := false }

/-- Publish the outputs before the first incomplete one. -/
def publishOutputs (sys : System) : System :=
  let ready := sys.bridge.outputs.takeWhile Output.complete
  let rest := sys.bridge.outputs.dropWhile Output.complete
  let sys := (sys.deliverAll (ready.flatMap Output.events)).onBridge fun s =>
    { s with outputs := ready.map Output.published ++ rest }
  if rest = [] then sys
  else sys.onBridge (fail "compositor started manage before sending output geometry")

def Window.configureRequests (w : Window) : List Request :=
  if w.configured then []
  else [.getNode w.id, .setCapabilities w.id, .useSsd w.id, .setTiled w.id 15]

/-- Configure and announce the new windows. -/
def announceWindows (sys : System) : System :=
  let events := (sys.bridge.windows.filter fun w => !w.announced).map fun w =>
    Delivered.event 3 w.id 0 0 0 0
  (sys.deliverAll events).onBridge fun s =>
    send (s.windows.flatMap Window.configureRequests)
      { s with windows := s.windows.map fun w =>
          { w with node := w.node || !w.configured, configured := true, announced := true } }

def Window.metadataEvents (w : Window) : List Delivered :=
  (if w.parentDirty then [.event 11 w.id (int32 w.parentId) 0 0 0] else [])
  ++ (if w.hintsDirty then
    [.event 12 w.id w.minWidth w.minHeight w.maxWidth w.maxHeight] else [])
  ++ (if w.metaDirty then [.windowString 26 w.id w.appId, .windowString 27 w.id w.title] else [])
  ++ if w.fullscreenDirty then
    [.event 13 w.id (if w.fullscreenRequested then 1 else 0) 0 0 0] else []

def Window.published (w : Window) : Window :=
  { w with parentDirty := false, hintsDirty := false, metaDirty := false, fullscreenDirty := false }

/-- Parent references may point at another window announced in this same transaction.
Insert every window before publishing its metadata. -/
def publishMetadata (sys : System) : System :=
  (sys.deliverAll (sys.bridge.windows.flatMap Window.metadataEvents)).onBridge fun s =>
    { s with windows := s.windows.map Window.published }

/-- Removed seats are destroyed; the oldest live seat is the primary one. -/
def dropSeats (sys : System) : System :=
  let removed := sys.bridge.seats.filter Seat.removed
  let events := removed.map fun seat => Delivered.event 24 seat.id 0 0 0 0
  (sys.deliverAll events).onBridge fun s =>
    let seats := s.seats.filter fun seat => !seat.removed
    let primary := s.primary.filter fun id => seats.any fun seat => seat.id = id
    send (removed.map fun seat => .destroySeat seat.id)
      { s with seats := seats, primary := primary.or (seats.head?.map Seat.id) }

/-- Configure a primary seat that is new. -/
def configurePrimary (cfg : Config) (s : State) : State :=
  match primarySeat s with
  | some seat => if seat.configured then s else configureSeat cfg seat s
  | none => s

def updateLifecycle (sys : System) : System :=
  let sys := publishOutputs (dropWindows (dropOutputs sys))
  if sys.bridge.outputs.any fun output => !output.complete then sys
  else
    let sys := dropSeats (publishMetadata (announceWindows sys))
    sys.onBridge fun s => xwSetBindingMode s.bindingMode (configurePrimary
      sys.runtime.runtimeConfig s)

/-! ## Manage -/

/-- Metadata can change policy focus. Publish the transaction's lock state first. -/
def publishLock (sys : System) : System :=
  if sys.bridge.lockChanged then
    (sys.deliver (.event (if sys.bridge.locked then 9 else 10) 0 0 0 0 0)).onBridge fun s =>
      { s with lockChanged := false }
  else sys

/-- Cancel the operation the batch has made impossible. -/
def cancelOperation (sys : System) : System :=
  let s := sys.bridge
  let lost : Bool := match primarySeat s with
    | none => true
    | some seat => seat.id ≠ s.pointerSeat ∨ seat.layerFocus = .exclusive
  if s.pointerSeat ≠ 0 ∧ (s.pointerCancelBatch ∨ s.locked ∨ lost) then
    sys.deliver (.event 24 s.pointerSeat 0 0 0 0)
  else sys

def modifyPrimary (f : Seat → Seat) (s : State) : State :=
  match primarySeat s with
  | some seat => modifySeat seat.id f s
  | none => s

/-- The primary seat, if the input may still be delivered. -/
def admits (event : Input) (s : State) : Option Seat :=
  (primarySeat s).filter fun seat =>
    !s.failed && !s.locked && event.seatId = seat.id
      && ((event.kind ≠ .interaction && event.kind ≠ .pointer) || (findWindow event.id s).isSome)
      && (event.kind ≠ .pointer || (!s.pointerCancelBatch && seat.layerFocus ≠ .exclusive))

/-- The position of the pointer is transaction state and may follow pressed. -/
def locateInput (seat : Seat) (event : Input) : Input :=
  if event.kind = .pointer ∧ event.b = 16 then
    if seat.pointerKnown then { event with c := seat.pointerX, d := seat.pointerY }
    else { event with b := 10 }
  else event

/-- A click or an explicit WM binding may leave an on-demand layer. Exclusive layer
focus remains compositor-controlled. -/
def drainEvent (sys : System) (event : Input) : System :=
  match admits event sys.bridge with
  | none => sys
  | some seat =>
    let event := locateInput seat event
    (sys.onBridge (if seat.layerFocus = .nonExclusive then
        modifySeat seat.id fun seat => { seat with layerFocusOverride := true }
      else id)).deliver
      (.event event.kind.code event.id event.argument event.b event.c event.d)

/-- Draining touches the focus of one seat at most. -/
theorem bridge_drainEvent (sys : System) (event : Input) :
    (drainEvent sys event).bridge = sys.bridge
      ∨ ∃ id, (drainEvent sys event).bridge
        = modifySeat id (fun seat => { seat with layerFocusOverride := true }) sys.bridge := by
  unfold drainEvent
  cases admits event sys.bridge with
  | none => exact Or.inl rfl
  | some seat =>
      simp only [System.deliver, System.onBridge]
      split
      · exact Or.inr ⟨seat.id, rfl⟩
      · exact Or.inl rfl

/-- What the focus of a seat does not change, draining does not change. -/
theorem drainEvents_induction {P : State → Prop} {sys : System} (events : List Input)
    (h : P sys.bridge)
    (hfocus : ∀ id s, P s → P (modifySeat id (fun seat => { seat with layerFocusOverride := true }) s)) :
    P (events.foldl drainEvent sys).bridge := by
  refine List.foldlRecOn (motive := fun t : System => P t.bridge) events drainEvent h
    fun t ht event _ => ?_
  rcases bridge_drainEvent t event with heq | ⟨id, heq⟩ <;> rw [heq]
  · exact ht
  · exact hfocus id t.bridge ht

def drainInput (sys : System) : System :=
  (sys.bridge.input.foldl drainEvent sys).onBridge fun s => { s with input := [] }

/-- River deltas are cumulative logical integers. Apply the newest total before
release even when the release callback preceded that delta. -/
def publishDrag (sys : System) : System :=
  match primarySeat sys.bridge with
  | none => sys
  | some seat =>
    if sys.bridge.pointerSeat ≠ seat.id then sys
    else
      let events : List Delivered :=
        (if seat.deltaPending then [.event 22 seat.id seat.deltaX seat.deltaY 0 0] else [])
        ++ if seat.releasePending then [.event 23 seat.id 0 0 0 0] else []
      (sys.deliverAll events).onBridge (modifySeat seat.id Seat.settle)

/-- Only motion of one seat is published, which is then settled. -/
theorem publishDrag_cases (sys : System) :
    publishDrag sys = sys
      ∨ ∃ (id : Nat) (events : List Delivered), (∀ d ∈ events, d.kind = 22 ∨ d.kind = 23)
        ∧ publishDrag sys = (sys.deliverAll events).onBridge (modifySeat id Seat.settle) := by
  unfold publishDrag
  cases primarySeat sys.bridge with
  | none => exact Or.inl rfl
  | some seat =>
      simp only
      split
      · exact Or.inl rfl
      · refine Or.inr ⟨seat.id, _, fun d hd => ?_, rfl⟩
        rcases List.mem_append.mp hd with hd | hd <;> split at hd
        · simp [List.mem_singleton.mp hd, Delivered.kind]
        · contradiction
        · simp [List.mem_singleton.mp hd, Delivered.kind]
        · contradiction

/-- Hand over to Haskell and finish the sequence. -/
def finishManage (sys : System) : System :=
  let sys := sys.onBridge fun s => { s with pointerCancelBatch := false }
  let sys := if sys.bridge.failed then sys else manage sys
  sys.onBridge fun s =>
    let s := if s.failed then s
      else { send [.manageFinish] s with managed := true, awaitingRender := true }
    sendStop { s with phase := .idle }

/-- The stages of a manage sequence. -/
def runManage (sys : System) : System :=
  let sys := publishLock (sys.onBridge fun s => { s with phase := .manage })
  let sys := cancelOperation (updateLifecycle sys)
  let sys := sys.onBridge (modifyPrimary fun seat => { seat with layerFocusOverride := false })
  finishManage (publishDrag (drainInput sys))

def managerManageStart (sys : System) : System :=
  let s := sys.bridge
  if s.failed then sys
  else if s.phase ≠ .idle ∨ s.awaitingRender then
    sys.onBridge (fail "compositor violated River manage/render sequence ordering")
  else if !s.xkb then
    sys.onBridge (fail "compositor lacks river_xkb_bindings_v1; River >= 0.4 is required")
  else runManage sys

/-- A manage sequence runs unless the bridge has failed or fails now. -/
theorem managerManageStart_cases (sys : System) :
    (sys.bridge.failed = true ∧ managerManageStart sys = sys)
      ∨ (∃ message, message ≠ cannotReplace
        ∧ managerManageStart sys = sys.onBridge (fail message))
      ∨ sys.bridge.failed = false ∧ managerManageStart sys = runManage sys := by
  unfold managerManageStart
  simp only
  split
  · next hf => exact Or.inl ⟨hf, rfl⟩
  · next hf =>
    split
    · exact Or.inr (Or.inl ⟨_, by decide, rfl⟩)
    · split
      · exact Or.inr (Or.inl ⟨_, by decide, rfl⟩)
      · exact Or.inr (Or.inr ⟨Bool.eq_false_iff.mpr hf, rfl⟩)

/-! ## Render -/

/-- Borders may change without another content dimensions event. Publish actual outer
sizes using the current border before correcting anchors. -/
def sizeEvents (windows : List Window) : List Delivered :=
  (windows.filter fun w => !w.closed && w.announced && 0 < w.actualWidth && 0 < w.actualHeight).map
    fun w => .event 25 w.id (min 2147483647 (w.actualWidth + 2 * w.border))
      (min 2147483647 (w.actualHeight + 2 * w.border)) 0 0

/-- How deep a window hangs below floating ancestors; the fuel bounds the traversal
even if a faulty compositor violates the protocol's acyclic tree rule. -/
def ancestryDepth (s : State) : Nat → Window → Nat
  | 0, _ => 1
  | fuel + 1, w => match findWindow w.parentId s with
    | some parent => if parent.floating then ancestryDepth s fuel parent + 1 else 1
    | none => 1

def stackingDepth (s : State) (w : Window) : Nat := ancestryDepth s (s.windows.length - 1) w

/-- Windows with a node that are not closed. -/
def renderable (s : State) : List Window := s.windows.filter fun w => !w.closed && w.node

def showRequests (s : State) (w : Window) : List Request :=
  if !w.visible then [.hideWindow w.id]
  else [.showWindow w.id, .setPosition w.id w.x w.y,
      .setBorders w.id (w.focused && !s.locked) w.border]
    ++ if !w.floating then [.placeTop w.id] else []

/-- The last visible window with the focus. -/
def focusedRecord (s : State) : Option Window :=
  ((renderable s).filter fun w => w.visible && w.focused && !s.locked).getLast?

/-- Floating dialogs must remain above tiles and their own parents, including a
focused floating parent. -/
def stackRequests (s : State) : List Request :=
  let depths := (s.windows.filter Window.floating).map (stackingDepth s)
  let raise (w : Option Window) (f : Window → Bool) : List Request :=
    ((w.filter f).map fun w => Request.placeTop w.id).toList
  raise (focusedRecord s) (fun w => !w.floating)
  ++ (List.range (depths.foldl max 0)).flatMap fun i =>
    (((renderable s).filter fun w => w.visible && w.floating && stackingDepth s w = i + 1).map
      fun w => .placeTop w.id)
    ++ raise (focusedRecord s) fun w => w.floating && stackingDepth s w = i + 1

def runRender (sys : System) : System :=
  let sys := sys.onBridge fun s => { s with phase := .render }
  let sys := render (sys.deliverAll (sizeEvents sys.bridge.windows))
  sys.onBridge fun s =>
    let s := if s.failed then s
      else { send ((renderable s).flatMap (showRequests s) ++ stackRequests s ++ [.renderFinish]) s
        with awaitingRender := false }
    sendStop { s with phase := .idle }

def managerRenderStart (sys : System) : System :=
  let s := sys.bridge
  if s.failed then sys
  else if s.phase ≠ .idle ∨ !s.managed then
    sys.onBridge (fail "compositor violated River render sequence ordering")
  else runRender sys

/-- A render callback does nothing, fails in its check or runs a transaction. -/
theorem managerRenderStart_cases (sys : System) :
    (sys.bridge.failed = true ∧ managerRenderStart sys = sys)
      ∨ (∃ message, message ≠ cannotReplace
        ∧ managerRenderStart sys = sys.onBridge (fail message))
      ∨ sys.bridge.failed = false ∧ managerRenderStart sys = runRender sys := by
  unfold managerRenderStart
  simp only
  split
  · next hf => exact Or.inl ⟨hf, rfl⟩
  · next hf =>
    split
    · exact Or.inr (Or.inl ⟨_, by decide, rfl⟩)
    · exact Or.inr (Or.inr ⟨Bool.eq_false_iff.mpr hf, rfl⟩)

end XmonadWayland.Bridge
