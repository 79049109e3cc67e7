import XmonadWayland.Policy.Handle
import XmonadWayland.Base.Maps

/-!
# XmonadWayland.Policy.Frame

What the pointer bookkeeping around an event may touch.  Preparing an event,
preserving anchors and validating the pointer state drop the operation or anchors
and rewrite float rectangles; window set, outputs, mode, lock and every other
metadata field stay (`PointerFrame`).  Actions, in turn, are about windows and their
metadata only (`Steady`), unless they change the mode.
-/

namespace XmonadWayland

/-! ## The frame -/

/-- Metadata without the float rectangle. -/
def unplaced (m : WindowMetadata) : WindowMetadata := { m with windowFloatRect := none }

/-- What stays the same in the recorded metadata of a window stays so in its metadata. -/
theorem metadataFor_congr {β : Type} {g : WindowMetadata → β} {p p' : Policy} {wid : WindowId}
    (h : p'.windowMetadata[wid]?.map g = p.windowMetadata[wid]?.map g) :
    g (metadataFor p' wid) = g (metadataFor p wid) := by
  rw [metadataFor, metadataFor, ← Option.getD_map g, ← Option.getD_map g, h]

/-- `p'` differs from `p` by a dropped operation, dropped anchors and float
rectangles at most. -/
structure PointerFrame (p p' : Policy) : Prop where
  windowSet : p'.windowSet = p.windowSet
  outputs : p'.outputs = p.outputs
  workAreas : p'.workAreas = p.workAreas
  sessionLocked : p'.sessionLocked = p.sessionLocked
  activeMode : p'.activeMode = p.activeMode
  actualSizes : p'.pointerActualSizes = p.pointerActualSizes
  metadata : ∀ wid : WindowId,
    p'.windowMetadata[wid]?.map unplaced = p.windowMetadata[wid]?.map unplaced
  anchors : ∀ wid : WindowId,
    p'.pointerAnchors[wid]? = p.pointerAnchors[wid]? ∨ p'.pointerAnchors[wid]? = none
  operation : p'.pointerOperation = p.pointerOperation ∨ p'.pointerOperation = none

namespace PointerFrame

theorem refl (p : Policy) : PointerFrame p p :=
  ⟨rfl, rfl, rfl, rfl, rfl, rfl, fun _ => rfl, fun _ => Or.inl rfl, Or.inl rfl⟩

variable {p p' p'' : Policy}

theorem trans (h : PointerFrame p p') (h' : PointerFrame p' p'') : PointerFrame p p'' where
  windowSet := h'.windowSet.trans h.windowSet
  outputs := h'.outputs.trans h.outputs
  workAreas := h'.workAreas.trans h.workAreas
  sessionLocked := h'.sessionLocked.trans h.sessionLocked
  activeMode := h'.activeMode.trans h.activeMode
  actualSizes := h'.actualSizes.trans h.actualSizes
  metadata wid := (h'.metadata wid).trans (h.metadata wid)
  anchors wid := (h'.anchors wid).elim (fun e => e ▸ h.anchors wid) Or.inr
  operation := h'.operation.elim (fun e => e ▸ h.operation) Or.inr

theorem foldr {f : WindowId → Policy → Policy} (hf : ∀ wid q, PointerFrame q (f wid q))
    (l : List WindowId) (p : Policy) : PointerFrame p (l.foldr f p) := by
  induction l with
  | nil => exact refl p
  | cons wid l ih => exact ih.trans (hf wid _)

/-! ## What the frame keeps -/

/-- Metadata is kept for the same windows. -/
theorem mem_metadata (h : PointerFrame p p') {wid : WindowId} :
    wid ∈ p'.windowMetadata ↔ wid ∈ p.windowMetadata := by
  have hm := congrArg Option.isSome (h.metadata wid)
  rw [Option.isSome_map, Option.isSome_map] at hm
  rw [Std.ExtTreeMap.mem_iff_isSome_getElem?, Std.ExtTreeMap.mem_iff_isSome_getElem?, hm]

/-- Metadata stays, but for the float rectangle. -/
theorem metadataFor (h : PointerFrame p p') (wid : WindowId) :
    unplaced (metadataFor p' wid) = unplaced (metadataFor p wid) := metadataFor_congr (h.metadata wid)

/-- Size hints stay. -/
theorem hints (h : PointerFrame p p') (wid : WindowId) :
    (XmonadWayland.metadataFor p' wid).windowHints
      = (XmonadWayland.metadataFor p wid).windowHints :=
  congrArg (fun m => m.windowHints) (h.metadataFor wid)

/-- Full screen stays. -/
theorem fullscreen (h : PointerFrame p p') (wid : WindowId) :
    (XmonadWayland.metadataFor p' wid).windowFullscreen
      = (XmonadWayland.metadataFor p wid).windowFullscreen :=
  congrArg (fun m => m.windowFullscreen) (h.metadataFor wid)

/-- Floating windows stay floating. -/
theorem isFloat (h : PointerFrame p p') (wid : WindowId) : isFloat p' wid = isFloat p wid :=
  congrArg (fun m => m.windowFloating) (h.metadataFor wid)

/-- The focus stays. -/
theorem focusedWindow (h : PointerFrame p p') : focusedWindow p' = focusedWindow p := by
  unfold XmonadWayland.focusedWindow
  rw [h.sessionLocked, h.outputs, h.windowSet]

/-- Work areas stay. -/
theorem areaFor (h : PointerFrame p p') (oid : OutputId) : areaFor oid p' = areaFor oid p := by
  unfold XmonadWayland.areaFor
  rw [h.outputs, h.workAreas]

end PointerFrame

/-! ## Functions within the frame -/

/-- Updates of the float rectangle stay within the frame. -/
theorem frame_alterMetadata (f : WindowMetadata → WindowMetadata)
    (hf : ∀ m, unplaced (f m) = unplaced m) (wid : WindowId) (p : Policy) :
    PointerFrame p (alterMetadata wid f p) := by
  refine ⟨rfl, rfl, rfl, rfl, rfl, rfl, fun wid' => ?_, fun _ => Or.inl rfl, Or.inl rfl⟩
  simp only [alterMetadata, getElem?_map_modify]
  split
  · rw [Option.map_map]
    exact congrArg (fun g => Option.map g _) (funext hf)
  · rfl

/-- A new float rectangle is within the frame. -/
theorem frame_setFloatRect (wid : WindowId) (rect : Rect) (p : Policy) :
    PointerFrame p (setFloatRect wid rect p) :=
  frame_alterMetadata (fun m => { m with windowFloatRect := some rect }) (fun _ => rfl) wid p

/-- So is cancelling the operation. -/
theorem frame_cancelPointer (p : Policy) : PointerFrame p (cancelPointer p) :=
  ⟨rfl, rfl, rfl, rfl, rfl, rfl, fun _ => rfl, fun _ => Or.inl rfl, Or.inr rfl⟩

/-- So is dropping an anchor. -/
theorem frame_eraseAnchor (wid : WindowId) (p : Policy) :
    PointerFrame p { p with pointerAnchors := p.pointerAnchors.erase wid } := by
  refine ⟨rfl, rfl, rfl, rfl, rfl, rfl, fun _ => rfl, fun wid' => ?_, Or.inl rfl⟩
  simp only [getElem?_map_erase]
  split
  · exact Or.inr rfl
  · exact Or.inl rfl

/-- So is materialising an anchor. -/
theorem frame_materializeAnchor (wid : WindowId) (p : Policy) :
    PointerFrame p (materializeAnchor wid p) := by
  unfold materializeAnchor
  split
  · exact PointerFrame.refl p
  · split
    · exact frame_eraseAnchor wid p
    · exact (frame_setFloatRect wid _ p).trans (frame_eraseAnchor wid _)

/-- So is materialising all of them. -/
theorem frame_materializeAnchors (p : Policy) : PointerFrame p (materializeAnchors p) :=
  PointerFrame.foldr frame_materializeAnchor _ p

/-- Ending an operation stays within the frame. -/
theorem frame_endPointer (sid : SeatId) (p : Policy) : PointerFrame p (endPointer sid p) := by
  unfold endPointer
  split
  · split
    · exact frame_cancelPointer p
    · exact PointerFrame.refl p
  · exact PointerFrame.refl p

/-- So does moving. -/
theorem frame_movePointer (sid : SeatId) (dx dy : Int) (p : Policy) :
    PointerFrame p (movePointer sid dx dy p) := by
  unfold movePointer
  split
  · split
    · exact frame_setFloatRect _ _ p
    · exact PointerFrame.refl p
  · exact PointerFrame.refl p

/-- So does cancelling what happens on an output. -/
theorem frame_cancelOutput (oid : OutputId) (p : Policy) : PointerFrame p (cancelOutput oid p) := by
  unfold cancelOutput
  refine PointerFrame.trans ?_ (PointerFrame.foldr frame_materializeAnchor _ _)
  split
  · split
    · exact frame_cancelPointer p
    · exact PointerFrame.refl p
  · exact PointerFrame.refl p

/-- So does cancelling what happens to a window. -/
theorem frame_cancelWindow (wid : WindowId) (p : Policy) : PointerFrame p (cancelWindow wid p) := by
  unfold cancelWindow
  refine PointerFrame.trans ?_ (frame_materializeAnchor wid _)
  split
  · split
    · exact frame_cancelPointer p
    · exact PointerFrame.refl p
  · exact PointerFrame.refl p

/-- Preparing the focused window stays within the frame. -/
theorem frame_focusedGeometry (p : Policy) : PointerFrame p (focusedGeometry p) := by
  unfold focusedGeometry
  split
  · exact (frame_cancelPointer p).trans (frame_materializeAnchor _ _)
  · exact frame_cancelPointer p

/-- So does preparing an action. -/
theorem frame_preparePointerAction (action : Action) (p : Policy) :
    PointerFrame p (preparePointerAction p action) := by
  unfold preparePointerAction
  split <;> first
    | exact PointerFrame.refl p
    | exact frame_focusedGeometry p
    | exact frame_cancelPointer p

/-- Preparing an event stays within the frame. -/
theorem frame_preparePointerEvent (ev : Event) (p : Policy) :
    PointerFrame p (preparePointerEvent ev p) := by
  unfold preparePointerEvent
  split
  case h_1 action => exact frame_preparePointerAction action p
  case h_4 => exact frame_cancelPointer p
  case h_9 oid => exact frame_cancelOutput oid p
  all_goals first | exact PointerFrame.refl p | split
  all_goals first
    | exact PointerFrame.refl p
    | exact frame_cancelPointer p
    | exact frame_cancelWindow _ p
    | exact frame_cancelOutput _ p
    | exact (frame_cancelPointer p).trans (frame_materializeAnchors _)

/-- Preserving an anchor stays within the frame. -/
theorem frame_preserveInvalidAnchor (previous : Policy) (wid : WindowId) (next : Policy) :
    PointerFrame next (preserveInvalidAnchor previous wid next) := by
  unfold preserveInvalidAnchor
  split
  · exact PointerFrame.refl next
  · split
    · exact frame_setFloatRect _ _ next
    · exact PointerFrame.refl next

/-- So does settling. -/
theorem frame_settleAnchors (prepared next : Policy) :
    PointerFrame next (settleAnchors prepared next) :=
  PointerFrame.foldr (frame_preserveInvalidAnchor prepared) _ next

/-- So does validating. -/
theorem frame_validatePointerState (p : Policy) : PointerFrame p (validatePointerState p) := by
  refine ⟨rfl, rfl, rfl, rfl, rfl, rfl, fun _ => rfl, fun wid => ?_, ?_⟩
  · simp only [validatePointerState, getElem?_map_filter]
    cases p.pointerAnchors[wid]? with
    | none => exact Or.inl rfl
    | some a => simp only [Option.filter_some]; split <;> simp
  · simp only [validatePointerState]
    cases p.pointerOperation with
    | none => exact Or.inl rfl
    | some op => simp only [Option.filter_some]; split <;> simp

/-- What follows the handler of an event stays within the frame. -/
theorem frame_finish (prepared next : Policy) :
    PointerFrame next (validatePointerState (settleAnchors prepared next)) :=
  (frame_settleAnchors prepared next).trans (frame_validatePointerState _)

/-! ## Window set and metadata only -/

/-- `p'` differs from `p` by window set and metadata at most. -/
def Steady (p p' : Policy) : Prop := ∃ ws md, p' = { p with windowSet := ws, windowMetadata := md }

namespace Steady

theorem refl (p : Policy) : Steady p p := ⟨_, _, rfl⟩

theorem trans {p p' p'' : Policy} (h : Steady p p') (h' : Steady p' p'') : Steady p p'' := by
  obtain ⟨ws, md, rfl⟩ := h
  obtain ⟨ws', md', rfl⟩ := h'
  exact ⟨ws', md', rfl⟩

theorem foldr {f : WindowId → Policy → Policy} (hf : ∀ wid q, Steady q (f wid q))
    (l : List WindowId) (p : Policy) : Steady p (l.foldr f p) := by
  induction l with
  | nil => exact refl p
  | cons wid l ih => exact ih.trans (hf wid _)

end Steady

/-- Altering metadata is steady. -/
theorem steady_alterMetadata (wid : WindowId) (f : WindowMetadata → WindowMetadata) (p : Policy) :
    Steady p (alterMetadata wid f p) := ⟨_, _, rfl⟩

/-- Shifting a family is steady. -/
theorem steady_shiftFamily (wid : WindowId) (tag : WorkspaceId) (p : Policy) :
    Steady p (shiftFamily wid tag p) := ⟨_, _, rfl⟩

/-- Modifying the focused window is steady. -/
theorem steady_modifyFocused (f : WindowMetadata → WindowMetadata) (p : Policy) :
    Steady p (modifyFocused f p) := by
  unfold modifyFocused
  split
  · exact Steady.refl p
  · exact steady_alterMetadata _ f p

/-- Focusing the other mode is steady. -/
theorem steady_focusOtherMode (p : Policy) : Steady p (focusOtherMode p) := by
  unfold focusOtherMode
  split
  · exact Steady.refl p
  · split
    · exact ⟨_, _, rfl⟩
    · exact Steady.refl p

/-- Focusing in a direction is steady. -/
theorem steady_focusDirection (direction : Direction) (p : Policy) :
    Steady p (focusDirection direction p) := by
  unfold focusDirection
  split
  · exact ⟨_, _, rfl⟩
  · exact ⟨_, _, rfl⟩
  · exact Steady.refl p

/-- Moving in a direction is steady. -/
theorem steady_moveDirection (direction : Direction) (p : Policy) :
    Steady p (moveDirection direction p) := by
  unfold moveDirection
  split
  · exact Steady.refl p
  · split
    · exact Steady.refl p
    · split
      · split
        · exact Steady.refl p
        · exact steady_alterMetadata _ _ p
      · split
        · split
          · exact ⟨_, _, rfl⟩
          · split
            · exact ⟨_, _, rfl⟩
            · exact Steady.refl p
        · exact ⟨_, _, rfl⟩
        · exact Steady.refl p

/-- Exchanging weights is steady. -/
theorem steady_exchangeWeights (axis : Axis) (amount : Int) (p : Policy) (wid : WindowId)
    (area : Rect) (group : List WindowId) :
    Steady p (exchangeWeights axis amount p wid area group) := by
  unfold exchangeWeights
  extract_lets available
  split
  · split
    · split
      · exact Steady.foldr (fun i q => steady_alterMetadata i _ q) group p
      · exact Steady.refl p
    · exact Steady.refl p
  · exact Steady.refl p

/-- Resizing a tile is steady. -/
theorem steady_resizeTile (axis : Axis) (amount : Int) (p : Policy) (wid : WindowId)
    (area : Rect) : Steady p (resizeTile axis amount p wid area) := by
  unfold resizeTile
  split
  · exact steady_exchangeWeights _ _ _ _ _ _
  · exact steady_exchangeWeights _ _ _ _ _ _
  · exact ⟨_, _, rfl⟩
  · exact ⟨_, _, rfl⟩
  · split
    · exact steady_exchangeWeights _ _ _ _ _ _
    · exact Steady.refl p
  · split
    · exact steady_exchangeWeights _ _ _ _ _ _
    · exact Steady.refl p
  · exact Steady.refl p

/-- Resizing a window is steady. -/
theorem steady_resizeWindow (axis : Axis) (amount : Int) (p : Policy) :
    Steady p (resizeWindow axis amount p) := by
  unfold resizeWindow
  split
  · split
    · exact Steady.refl p
    · split
      · exact steady_alterMetadata _ _ p
      · exact steady_resizeTile _ _ _ _ _
  · exact Steady.refl p

/-- Actions that may change the binding mode. -/
def Action.isModal : Action → Bool
  | .enterMode _ => true
  | .pick => true
  | .pickCandidate _ => true
  | .pickCancel => true
  | _ => false

/-- Every other action is about windows and their metadata. -/
theorem steady_handleAction (cfg : Config) {action : Action} (h : action.isModal = false)
    (p : Policy) : Steady p (handleAction cfg action p).1 := by
  have hself : ∀ ws : WindowSet, Steady p { p with windowSet := ws } := fun ws => ⟨_, _, rfl⟩
  cases action with
  | shift tag =>
      simp only [handleAction]
      split
      · exact Steady.refl p
      · exact steady_shiftFamily _ tag p
  | toggleFloat => exact steady_modifyFocused _ p
  | sink => exact steady_modifyFocused _ p
  | toggleFullscreen => exact steady_modifyFocused _ p
  | focusModeToggle => exact steady_focusOtherMode p
  | focusDirection direction => exact steady_focusDirection direction p
  | moveDirection direction => exact steady_moveDirection direction p
  | resize axis amount => exact steady_resizeWindow axis amount p
  | enterMode mode => contradiction
  | pick => contradiction
  | pickCandidate index => contradiction
  | pickCancel => contradiction
  | _ => exact hself _

/-! ## Part of a window's metadata -/

/-- The part `g` of the window's metadata is as it was. -/
def Retains {β : Type} (g : WindowMetadata → β) (wid : WindowId) (p p' : Policy) : Prop :=
  p'.windowMetadata[wid]?.map g = p.windowMetadata[wid]?.map g

namespace Retains

variable {β : Type} {g : WindowMetadata → β} {wid : WindowId} {p p' p'' : Policy}

theorem refl (g : WindowMetadata → β) (wid : WindowId) (p : Policy) : Retains g wid p p := rfl

theorem trans (h : Retains g wid p p') (h' : Retains g wid p' p'') : Retains g wid p p'' :=
  Eq.trans h' h

theorem foldr {f : WindowId → Policy → Policy} (hf : ∀ w q, Retains g wid q (f w q))
    (l : List WindowId) (p : Policy) : Retains g wid p (l.foldr f p) := by
  induction l with
  | nil => exact refl g wid p
  | cons w l ih => exact ih.trans (hf w _)

/-- What is retained of the record is retained of the window. -/
theorem metadataFor (h : Retains g wid p p') :
    g (metadataFor p' wid) = g (metadataFor p wid) := metadataFor_congr h

end Retains

section Retained

variable {β : Type} {g : WindowMetadata → β} {wid : WindowId}

/-- An update of another window, or of another part. -/
theorem retains_alterMetadata {wid' : WindowId} {f : WindowMetadata → WindowMetadata}
    (h : wid' ≠ wid ∨ ∀ m, g (f m) = g m) (p : Policy) :
    Retains g wid p (alterMetadata wid' f p) := by
  unfold Retains
  simp only [alterMetadata, getElem?_map_modify]
  split
  · next heq =>
    have hf := h.resolve_left (not_not.mpr heq)
    rw [Option.map_map]
    exact Option.map_congr fun m _ => hf m
  · rfl

/-- What an action does not look at: flags and weights. -/
structure Unweighted (g : WindowMetadata → β) : Prop where
  floating : ∀ m b, g { m with windowFloating := b } = g m
  fullscreen : ∀ m b, g { m with windowFullscreen := b } = g m
  width : ∀ m weight, g { m with windowWidthWeight := weight } = g m
  height : ∀ m weight, g { m with windowHeightWeight := weight } = g m

/-- Actions that place the focused window anew. -/
def Action.isPlacing : Action → Bool
  | .moveDirection _ => true
  | .resize _ _ => true
  | _ => false

/-- A change of another part of the focused window's metadata. -/
theorem retains_modifyFocused {f : WindowMetadata → WindowMetadata} (h : ∀ m, g (f m) = g m)
    (p : Policy) : Retains g wid p (modifyFocused f p) := by
  unfold modifyFocused
  split
  · exact Retains.refl g wid p
  · exact retains_alterMetadata (Or.inr h) p

/-- Moving writes the float rectangle of the focused window at most. -/
theorem retains_moveDirection {p : Policy}
    (h : p.windowSet.peek ≠ some wid ∨ ∀ m r, g { m with windowFloatRect := some r } = g m)
    (direction : Direction) : Retains g wid p (moveDirection direction p) := by
  have hself := Retains.refl g wid p
  unfold moveDirection
  split
  · exact hself
  · next focus hfocus =>
    split
    · exact hself
    · split
      · split
        · exact hself
        · exact retains_alterMetadata (h.imp (fun hne heq => hne (heq ▸ hfocus)) fun hg m => hg m _) p
      · split
        · split
          · exact hself
          · split
            · exact hself
            · exact hself
        · exact hself
        · exact hself

/-- Exchanging weights writes weights only. -/
theorem retains_exchangeWeights (hg : Unweighted g) (axis : Axis) (amount : Int) (p : Policy)
    (focus : WindowId) (area : Rect) (group : List WindowId) :
    Retains g wid p (exchangeWeights axis amount p focus area group) := by
  have hself := Retains.refl g wid p
  unfold exchangeWeights
  extract_lets available
  split
  · split
    · split
      · refine Retains.foldr (fun i q => retains_alterMetadata (Or.inr fun m => ?_) q) group p
        split
        · exact hg.width m _
        · exact hg.height m _
      · exact hself
    · exact hself
  · exact hself

/-- So does resizing a tile. -/
theorem retains_resizeTile (hg : Unweighted g) (axis : Axis) (amount : Int) (p : Policy)
    (focus : WindowId) (area : Rect) : Retains g wid p (resizeTile axis amount p focus area) := by
  have hself := Retains.refl g wid p
  unfold resizeTile
  split
  · exact retains_exchangeWeights hg _ _ _ _ _ _
  · exact retains_exchangeWeights hg _ _ _ _ _ _
  · exact hself
  · exact hself
  · split
    · exact retains_exchangeWeights hg _ _ _ _ _ _
    · exact hself
  · split
    · exact retains_exchangeWeights hg _ _ _ _ _ _
    · exact hself
  · exact hself

/-- Resizing writes weights, or the float rectangle of the focused window. -/
theorem retains_resizeWindow (hg : Unweighted g) {p : Policy}
    (h : p.windowSet.peek ≠ some wid ∨ ∀ m r, g { m with windowFloatRect := some r } = g m)
    (axis : Axis) (amount : Int) : Retains g wid p (resizeWindow axis amount p) := by
  have hself := Retains.refl g wid p
  unfold resizeWindow
  split
  · next focus _ hfocus _ =>
    split
    · exact hself
    · split
      · exact retains_alterMetadata (h.imp (fun hne heq => hne (heq ▸ hfocus)) fun hg m => hg m _) p
      · exact retains_resizeTile hg _ _ _ _ _
  · exact hself

/-- An action changes flags and weights, and the float rectangle of the focused window
if it places it anew. -/
theorem retains_handleAction (cfg : Config) (hg : Unweighted g) {action : Action} {p : Policy}
    (h : action.isPlacing = false ∨ p.windowSet.peek ≠ some wid
      ∨ ∀ m r, g { m with windowFloatRect := some r } = g m) :
    Retains g wid p (handleAction cfg action p).1 := by
  have hself := Retains.refl g wid p
  cases action with
  | shift tag =>
      simp only [handleAction]
      split <;> exact hself
  | toggleFloat => exact retains_modifyFocused (fun m => hg.floating m _) p
  | sink => exact retains_modifyFocused (fun m => hg.floating m _) p
  | toggleFullscreen => exact retains_modifyFocused (fun m => hg.fullscreen m _) p
  | focusModeToggle =>
      simp only [handleAction, focusOtherMode]
      split
      · exact hself
      · split <;> exact hself
  | focusDirection direction =>
      simp only [handleAction, focusDirection]
      split <;> exact hself
  | moveDirection direction =>
      exact retains_moveDirection (h.resolve_left Bool.noConfusion) direction
  | resize axis amount => exact retains_resizeWindow hg (h.resolve_left Bool.noConfusion) axis amount
  | pick =>
      simp only [handleAction, startPicker]
      split <;> exact hself
  | pickCandidate index =>
      simp only [handleAction, finishPicker]
      split <;> exact hself
  | _ => exact hself

/-- Actions that place no window write neither. -/
theorem retains_requestAction (cfg : Config) (hg : Unweighted g) {action : Action} {p : Policy}
    (h : action.isPlacing = false ∨ p.windowSet.peek ≠ some wid
      ∨ ∀ m r, g { m with windowFloatRect := some r } = g m) :
    Retains g wid p (requestAction cfg action p).1 := by
  have hself := Retains.refl g wid p
  unfold requestAction
  split
  · exact hself
  · split
    · exact (retains_handleAction cfg hg (Or.inl rfl) : Retains g wid p (handleAction cfg .pick p).1)
    · exact (retains_handleAction cfg hg (Or.inl rfl) :
        Retains g wid p (handleAction cfg (.pickCandidate _) p).1)
    · exact hself
    · split
      · exact hself
      · exact retains_handleAction cfg hg h

end Retained

end XmonadWayland
