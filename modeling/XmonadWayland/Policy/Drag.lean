import XmonadWayland.Policy.Grab

/-!
# XmonadWayland.Policy.Drag

A drag.  Motions are cumulative, so each one places the window from the rectangle
captured at the start, whatever the motions before it and the sizes acknowledged meanwhile
were: nothing in between invalidates the operation or its anchor (`Dragging`).
-/

namespace XmonadWayland

open StackSet

/-- An operation under way. -/
structure Dragging (op : PointerOperation) (p : Policy) : Prop where
  wellFormed : p.windowSet.WellFormed
  settled : Settled p
  operation : p.pointerOperation = some op
  anchor : p.pointerAnchors[op.pointerWindow]? = some op.anchor
  mem : op.pointerWindow ∈ p.windowMetadata

/-- A live operation of a reachable policy is under way. -/
theorem dragging_of_reachable {cfg : Config} {p : Policy} (h : Reachable cfg p)
    {op : PointerOperation} (hop : p.pointerOperation = some op) : Dragging op p := by
  have hm := managed_of_reachable h
  have hanchor := (backed_of_reachable h op hop).anchor
  exact ⟨hm.wellFormed, settled_of_reachable h, hop, hanchor,
    (hm.metadata _).mpr (hm.anchors _ (mem_map_iff.mpr ⟨_, hanchor⟩))⟩

/-! ## Nothing to settle -/

/-- An event that is not prepared and leaves a settled policy with the same anchors. -/
theorem step_of_settled (cfg : Config) {ev : Event} {p next : Policy}
    (hprep : preparePointerEvent ev p = p) (hnext : (handleOrdinaryEvent cfg ev p).1 = next)
    (hanchors : next.pointerAnchors = p.pointerAnchors) (hset : Settled next) :
    step cfg p ev = next := by
  have hsettle : settleAnchors p next = next := by
    rw [settleAnchors, ← hanchors]
    exact foldr_preserveInvalidAnchor_of_valid fun wid hw =>
      hset.anchors wid (Std.ExtTreeMap.mem_keys.mp hw)
  rw [step, handleEvent, hprep]
  change validatePointerState (settleAnchors p (handleOrdinaryEvent cfg ev p).1) = next
  rw [hnext, hsettle, validatePointerState_self hset]

/-- Within the frame, with the same anchors, a settled policy stays settled. -/
theorem Settled.frame {p p' : Policy} (h : Settled p) (hs : p.windowSet.WellFormed)
    (hframe : PointerFrame p p') (hanchors : p'.pointerAnchors = p.pointerAnchors) :
    Settled p' := by
  have hvalid : ∀ wid : WindowId, anchorValid wid p' = true ↔ anchorValid wid p = true :=
    fun wid => anchorValid_frame hs hframe (by rw [hanchors])
  refine ⟨fun wid hw => (hvalid wid).mpr (h.anchors wid (hanchors ▸ hw)), fun op hop => ?_⟩
  have hbefore : p.pointerOperation = some op :=
    hframe.operation.elim (fun he => he.symm.trans hop) fun he => absurd (he.symm.trans hop)
      (Option.some_ne_none op).symm
  obtain ⟨hlock, hfocus, hanchor, hhints⟩ := operationValid_iff.mp (h.operation op hbefore)
  exact operationValid_iff.mpr ⟨hframe.sessionLocked.trans hlock, hframe.focusedWindow.trans hfocus,
    (hvalid _).mpr hanchor, (hframe.hints _).trans hhints⟩

/-! ## Acknowledged sizes -/

/-- `p'` is `p` but for acknowledged sizes of its windows. -/
structure Acknowledged (p p' : Policy) : Prop where
  same : p' = { p with pointerActualSizes := p'.pointerActualSizes }
  sizes : ∀ wid : WindowId, p'.pointerActualSizes[wid]? ≠ p.pointerActualSizes[wid]? →
    wid ∈ p.windowSet.windows

namespace Acknowledged

variable {p p' p'' : Policy}

theorem refl (p : Policy) : Acknowledged p p := ⟨rfl, fun _ h => absurd rfl h⟩

theorem trans (h : Acknowledged p p') (h' : Acknowledged p' p'') : Acknowledged p p'' where
  same := by
    rw [h'.same, h.same]
  sizes wid hne := by
    by_cases heq : p''.pointerActualSizes[wid]? = p'.pointerActualSizes[wid]?
    · exact h.sizes wid (heq ▸ hne)
    · have hwin : p'.windowSet = p.windowSet := by rw [h.same]
      exact hwin ▸ h'.sizes wid heq

/-- Acknowledging moves no window. -/
theorem windowSet (h : Acknowledged p p') : p'.windowSet = p.windowSet := by rw [h.same]

/-- It keeps the anchors. -/
theorem anchors (h : Acknowledged p p') : p'.pointerAnchors = p.pointerAnchors := by rw [h.same]

/-- It keeps the metadata. -/
theorem metadata (h : Acknowledged p p') : p'.windowMetadata = p.windowMetadata := by rw [h.same]

/-- It keeps the operation. -/
theorem operation (h : Acknowledged p p') : p'.pointerOperation = p.pointerOperation := by
  rw [h.same]

/-- Validity does not look at the sizes. -/
theorem settled (h : Acknowledged p p') (hset : Settled p) : Settled p' := by
  rw [h.same]
  exact ⟨fun wid hw => hset.anchors wid hw, fun op hop => hset.operation op hop⟩

end Acknowledged

/-- The handler records the size and nothing else. -/
theorem acknowledged_handler (cfg : Config) (p : Policy) (wid : WindowId) (width height : Int) :
    Acknowledged p (handleOrdinaryEvent cfg (.windowActualSize wid width height) p).1 := by
  simp only [handleOrdinaryEvent]
  split
  · next hvalid =>
    refine ⟨rfl, fun w hne => ?_⟩
    by_cases hw : wid = w
    · exact hw ▸ member_iff.mp hvalid.1
    · simp only [getElem?_map_insert, if_neg hw, ne_eq, not_true_eq_false] at hne
  · exact .refl p

/-- Nothing is prepared, preserved or dropped: the sizes are all that changes. -/
theorem step_windowActualSize (cfg : Config) {p : Policy} (h : Settled p) (wid : WindowId)
    (width height : Int) : step cfg p (.windowActualSize wid width height)
      = (handleOrdinaryEvent cfg (.windowActualSize wid width height) p).1 := by
  have hack := acknowledged_handler cfg p wid width height
  exact step_of_settled cfg rfl rfl hack.anchors (hack.settled h)

/-- So does the whole step. -/
theorem acknowledged_step (cfg : Config) {p : Policy} (h : Settled p) (wid : WindowId)
    (width height : Int) : Acknowledged p (step cfg p (.windowActualSize wid width height)) := by
  rw [step_windowActualSize cfg h]
  exact acknowledged_handler cfg p wid width height

/-- A render sequence: its sizes are all that changes. -/
theorem acknowledged_runEvents (cfg : Config) {p : Policy} (h : Settled p)
    (sizes : List (WindowId × Int × Int)) :
    Acknowledged p
      (runEvents cfg (sizes.map fun s => .windowActualSize s.1 s.2.1 s.2.2) p) := by
  induction sizes generalizing p with
  | nil => exact .refl p
  | cons s sizes ih =>
      have hstep := acknowledged_step cfg h s.1 s.2.1 s.2.2
      exact hstep.trans (ih (hstep.settled h))

/-! ## The events of a drag -/

variable {op : PointerOperation} {p : Policy}

/-- A motion drags from the captured rectangle. -/
theorem Dragging.moved (h : Dragging op p) (cfg : Config) (dx dy : Int) :
    step cfg p (.pointerMoved op.pointerSeat dx dy)
      = setFloatRect op.pointerWindow (dragGeometry op dx dy) p := by
  refine step_of_settled cfg rfl ?_ rfl (h.settled.frame h.wellFormed (frame_setFloatRect _ _ p) rfl)
  have hvalid := h.settled.operation op h.operation
  simp only [handleOrdinaryEvent, movePointer, h.operation, hvalid, and_self, if_true]

/-- A motion keeps the drag going and places its window. -/
theorem dragging_moved (h : Dragging op p) (cfg : Config) (dx dy : Int) :
    Dragging op (step cfg p (.pointerMoved op.pointerSeat dx dy))
      ∧ (metadataFor (step cfg p (.pointerMoved op.pointerSeat dx dy))
        op.pointerWindow).windowFloatRect = some (dragGeometry op dx dy) := by
  have hframe := frame_setFloatRect op.pointerWindow (dragGeometry op dx dy) p
  rw [h.moved cfg dx dy]
  exact ⟨⟨h.wellFormed, h.settled.frame h.wellFormed hframe rfl, h.operation, h.anchor,
    hframe.mem_metadata.mpr h.mem⟩, floatRect_setFloatRect h.mem _⟩

/-- An acknowledged size leaves the drag alone. -/
theorem dragging_acknowledged (h : Dragging op p) (cfg : Config) (wid : WindowId)
    (width height : Int) :
    Dragging op (step cfg p (.windowActualSize wid width height))
      ∧ (metadataFor (step cfg p (.windowActualSize wid width height))
        op.pointerWindow).windowFloatRect = (metadataFor p op.pointerWindow).windowFloatRect := by
  have hack := acknowledged_step cfg h.settled wid width height
  refine ⟨⟨hack.windowSet ▸ h.wellFormed, hack.settled h.settled, hack.operation.trans h.operation,
    hack.anchors ▸ h.anchor, hack.metadata ▸ h.mem⟩, ?_⟩
  rw [metadataFor, metadataFor, hack.metadata]

/-- The release ends the operation and keeps the anchor. -/
theorem Dragging.released (h : Dragging op p) (cfg : Config) :
    step cfg p (.pointerReleased op.pointerSeat) = cancelPointer p := by
  refine step_of_settled cfg rfl ?_ rfl (h.settled.frame h.wellFormed (frame_cancelPointer p) rfl)
  simp only [handleOrdinaryEvent, endPointer, h.operation, if_true]

end XmonadWayland
