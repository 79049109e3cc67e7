import XmonadWayland.Policy.Lock
import XmonadWayland.Policy.Geometry

/-!
# XmonadWayland.Policy.Grab

A live pointer operation.  Its snapshot is the anchor of its window, and the float
rectangle of the window is a drag of the initial rectangle inside the captured area
(`Backed`).  Whatever keeps the operation leaves anchor and rectangle of its window
alone, except a motion, which drags again; so every event keeps the operation backed
or drops it.  Rendering confines a rectangle that is already inside the area, so the
drag is what is placed.
-/

namespace XmonadWayland

open StackSet

/-! ## Dragging -/

/-- A drag of the span `origin`, `size`: a move keeps the size, a resize the edge
opposite to the dragged one. -/
structure DragsAxis (edges leading : Nat) (origin size newOrigin newSize : Int) : Prop where
  move : edges = 0 → newSize = size
  trailing : edges &&& leading ≠ 0 → newOrigin + newSize = origin + size
  leading : edges ≠ 0 → edges &&& leading = 0 → newOrigin = origin

theorem DragsAxis.refl (edges leading : Nat) (origin size : Int) :
    DragsAxis edges leading origin size origin size :=
  ⟨fun _ => rfl, fun _ => rfl, fun _ _ => rfl⟩

/-- A drag of the operation's initial rectangle inside its area. -/
structure Dragged (op : PointerOperation) (r : Rect) : Prop where
  within : Within r op.pointerArea
  horizontal : DragsAxis op.pointerEdges 4 op.pointerInitialRect.rectX
    op.pointerInitialRect.rectWidth r.rectX r.rectWidth
  vertical : DragsAxis op.pointerEdges 1 op.pointerInitialRect.rectY
    op.pointerInitialRect.rectHeight r.rectY r.rectHeight

/-- An extent clamped to the room of the dragged edge. -/
theorem clampRoom_mem (room : Int) (h : 1 ≤ room) (v : Int) :
    1 ≤ max 1 (min (max 1 (min maxInt32 room)) v)
      ∧ max 1 (min (max 1 (min maxInt32 room)) v) ≤ room := by
  simp only [maxInt32]
  omega

/-- Whatever the motion and the hints are, a drag stays in the area and keeps its
fixed edge. -/
theorem dragAxis_spec (edges leading trailing : Nat) {origin size areaOrigin areaSize : Int}
    (motion lowerHint upperHint : Int) (h : Fits origin size areaOrigin areaSize) :
    let drag := dragAxis edges leading trailing origin size areaOrigin areaSize motion
      lowerHint upperHint
    Fits drag.1 drag.2 areaOrigin areaSize
      ∧ DragsAxis edges leading origin size drag.1 drag.2 := by
  have hfit := h
  obtain ⟨h1, h2, h3⟩ := h
  intro drag
  by_cases h0 : edges = 0
  · have hdrag : drag = (max areaOrigin (min (max areaOrigin (areaOrigin + areaSize - size))
        (origin + motion)), size) := by
      simp only [drag, dragAxis, if_pos h0]
    rw [hdrag]
    refine ⟨⟨by omega, h2, by omega⟩, fun _ => rfl, fun he => ?_, fun he => absurd h0 he⟩
    exact absurd (by rw [h0, Nat.zero_and]) he
  · by_cases hl : edges &&& leading = 0
    · by_cases ht : edges &&& trailing = 0
      · have hdrag : drag = (origin, size) := by simp [drag, dragAxis, h0, hl, ht]
        rw [hdrag]
        exact ⟨hfit, DragsAxis.refl _ _ _ _⟩
      · -- The extent is clamped to the room right of the origin.
        obtain ⟨v, hdrag⟩ : ∃ v, drag
            = (origin, max 1 (min (max 1 (min maxInt32 (areaOrigin + areaSize - origin))) v)) := by
          refine ⟨?v, ?drag⟩
          case drag =>
            simp only [drag, dragAxis, h0, hl, ht, ne_eq, not_true_eq_false, not_false_eq_true,
              and_false, if_true, if_false]
            rfl
        obtain ⟨hw1, hw2⟩ := clampRoom_mem (areaOrigin + areaSize - origin) (by omega) v
        rw [hdrag]
        exact ⟨⟨h1, hw1, by omega⟩, fun he => absurd he h0, fun he => absurd hl he, fun _ _ => rfl⟩
    · -- The extent is clamped to the room left of the far edge, which stays.
      obtain ⟨w, v, hw, hdrag⟩ : ∃ w v,
          w = max 1 (min (max 1 (min maxInt32 (origin + size - areaOrigin))) v)
            ∧ drag = (origin + size - w, w) := by
        refine ⟨_, ?request, rfl, ?leading⟩
        case leading =>
          simp only [drag, dragAxis, h0, hl, ne_eq, not_true_eq_false, not_false_eq_true,
            false_and, if_true, if_false]
          rfl
      obtain ⟨hw1, hw2⟩ := clampRoom_mem (origin + size - areaOrigin) (by omega) v
      rw [← hw] at hw1 hw2
      rw [hdrag]
      exact ⟨⟨by omega, hw1, by omega⟩, fun he => absurd he h0, fun _ => by omega,
        fun _ he => absurd he hl⟩

/-- What a drag makes of the initial rectangle moves the dragged edges only. -/
theorem dragged_dragGeometry {op : PointerOperation} (hn : Normal op.pointerArea)
    (h : Within op.pointerInitialRect op.pointerArea) (dx dy : Int) :
    Dragged op (dragGeometry op dx dy) := by
  obtain ⟨hx, hdx⟩ := dragAxis_spec op.pointerEdges 4 8 dx
    op.pointerHints.1 op.pointerHints.2.2.1 h.horizontal
  obtain ⟨hy, hdy⟩ := dragAxis_spec op.pointerEdges 1 2 dy
    op.pointerHints.2.1 op.pointerHints.2.2.2 h.vertical
  have hcoord : ∀ {start size origin extent : Int}, Fits start size origin extent →
      Fits origin extent minInt32 4294967296 → abiCoordinate start = start := by
    intro start size origin extent h h'
    obtain ⟨h1, h2, h3⟩ := h.trans h'
    simp only [abiCoordinate, minInt32, maxInt32] at *
    omega
  refine ⟨⟨?_, ?_⟩, ?_, ?_⟩
  · simpa only [dragGeometry, hcoord hx hn.range.horizontal] using hx
  · simpa only [dragGeometry, hcoord hy hn.range.vertical] using hy
  · simpa only [dragGeometry, hcoord hx hn.range.horizontal] using hdx
  · simpa only [dragGeometry, hcoord hy hn.range.vertical] using hdy

/-! ## What leaves a window alone -/

/-- Anchor and float rectangle of the window are as they were. -/
structure Untouched (wid : WindowId) (p p' : Policy) : Prop where
  anchor : p'.pointerAnchors[wid]? = p.pointerAnchors[wid]?
  floatRect : (metadataFor p' wid).windowFloatRect = (metadataFor p wid).windowFloatRect

namespace Untouched

variable {wid : WindowId} {p p' p'' : Policy}

theorem refl (wid : WindowId) (p : Policy) : Untouched wid p p := ⟨rfl, rfl⟩

theorem trans (h : Untouched wid p p') (h' : Untouched wid p' p'') : Untouched wid p p'' :=
  ⟨h'.anchor.trans h.anchor, h'.floatRect.trans h.floatRect⟩

/-- Neither anchors nor metadata differ. -/
theorem of_eq (ha : p'.pointerAnchors = p.pointerAnchors)
    (hm : p'.windowMetadata = p.windowMetadata) : Untouched wid p p' :=
  ⟨by rw [ha], by rw [metadataFor, metadataFor, hm]⟩

theorem foldr {f : WindowId → Policy → Policy} {l : List WindowId}
    (hf : ∀ w ∈ l, ∀ q, Untouched wid q (f w q)) (p : Policy) :
    Untouched wid p (l.foldr f p) := by
  induction l with
  | nil => exact refl wid p
  | cons w l ih =>
      exact (ih fun w' hw' => hf w' (List.mem_cons_of_mem w hw')).trans (hf w List.mem_cons_self _)

end Untouched

/-- Altering the metadata of one window. -/
theorem metadataFor_alterMetadata (wid wid' : WindowId) (f : WindowMetadata → WindowMetadata)
    (p : Policy) : metadataFor (alterMetadata wid f p) wid'
      = if wid = wid' then (p.windowMetadata[wid']?.map f).getD defaultMetadata
        else metadataFor p wid' := by
  simp only [metadataFor, alterMetadata, getElem?_map_modify]
  split <;> rfl

/-- Updates of other fields, or of another window. -/
theorem untouched_alterMetadata {wid wid' : WindowId} {f : WindowMetadata → WindowMetadata}
    (h : wid ≠ wid' ∨ ∀ m, (f m).windowFloatRect = m.windowFloatRect) (p : Policy) :
    Untouched wid' p (alterMetadata wid f p) := by
  refine ⟨rfl, ?_⟩
  rw [metadataFor_alterMetadata]
  split
  · next heq =>
    have hf := h.resolve_left (not_not.mpr heq)
    rw [metadataFor]
    cases p.windowMetadata[wid']? with
    | none => rfl
    | some m => exact hf m
  · rfl

/-- Materialising an anchor leaves the other windows alone. -/
theorem untouched_materializeAnchor {wid wid' : WindowId} (h : wid ≠ wid') (p : Policy) :
    Untouched wid' p (materializeAnchor wid p) := by
  have herase : ∀ q : Policy,
      Untouched wid' q { q with pointerAnchors := q.pointerAnchors.erase wid } := fun q =>
    ⟨by simp only [getElem?_map_erase, if_neg h], rfl⟩
  unfold materializeAnchor
  split
  · exact Untouched.refl wid' p
  · split
    · exact herase p
    · exact (untouched_alterMetadata (Or.inl h) p).trans (herase _)

/-! ## Events before they are handled -/

/-- The anchor of an operation's window. -/
def PointerOperation.anchor (op : PointerOperation) : PointerAnchor :=
  ⟨op.pointerEdges, op.pointerInitialRect, op.pointerOutput, op.pointerOutputRect,
    op.pointerArea, op.pointerWorkspace⟩

/-- Actions that do not cancel an operation before they are handled. -/
def Action.sparesPointer : Action → Bool
  | .terminal => true
  | .launcher => true
  | .runCommand _ => true
  | .reload => true
  | .confirmExit _ => true
  | _ => false

/-- Materialising keeps the operation. -/
theorem operation_materializeAnchor (wid : WindowId) (p : Policy) :
    (materializeAnchor wid p).pointerOperation = p.pointerOperation := by
  unfold materializeAnchor
  split
  · rfl
  · split <;> rfl

/-- So does materialising several anchors. -/
theorem operation_foldr_materializeAnchor (l : List WindowId) (p : Policy) :
    (l.foldr materializeAnchor p).pointerOperation = p.pointerOperation := by
  induction l with
  | nil => rfl
  | cons wid l ih => exact (operation_materializeAnchor wid _).trans ih

/-- Materialising the anchors of an output spares an operation on another one. -/
theorem untouched_cancelOutput {oid : OutputId} {p : Policy} {op : PointerOperation}
    (hanchor : p.pointerAnchors[op.pointerWindow]? = some op.anchor)
    (hop : (cancelOutput oid p).pointerOperation = some op) :
    Untouched op.pointerWindow p (cancelOutput oid p) := by
  unfold cancelOutput at hop ⊢
  rw [operation_foldr_materializeAnchor] at hop
  cases hp : p.pointerOperation with
  | none =>
      rw [hp] at hop
      exact absurd (hp.symm.trans hop) nofun
  | some op' =>
      rw [hp] at hop
      simp only at hop ⊢
      split at hop
      · contradiction
      · next hne =>
        rw [if_neg hne]
        obtain rfl : op' = op := Option.some.inj (hp.symm.trans hop)
        refine Untouched.foldr (fun wid hwid q => untouched_materializeAnchor ?_ q) p
        rintro rfl
        obtain ⟨⟨wid, anchor⟩, hmem, heq⟩ := List.mem_map.mp hwid
        obtain ⟨hentry, hout⟩ := List.mem_filter.mp hmem
        simp only at heq
        have hget := Std.ExtTreeMap.mem_toList_iff_getElem?_eq_some.mp hentry
        rw [heq, hanchor, Option.some.injEq] at hget
        rw [← hget, decide_eq_true_eq] at hout
        exact hne hout

/-- Cancelling a window spares an operation on another one. -/
theorem untouched_cancelWindow {wid : WindowId} {p : Policy} {op : PointerOperation}
    (hop : (cancelWindow wid p).pointerOperation = some op) :
    Untouched op.pointerWindow p (cancelWindow wid p) := by
  unfold cancelWindow at hop ⊢
  rw [operation_materializeAnchor] at hop
  cases hp : p.pointerOperation with
  | none =>
      rw [hp] at hop
      exact absurd (hp.symm.trans hop) nofun
  | some op' =>
      rw [hp] at hop
      simp only at hop ⊢
      split at hop
      · contradiction
      · next hne =>
        rw [if_neg hne]
        obtain rfl : op' = op := Option.some.inj (hp.symm.trans hop)
        exact untouched_materializeAnchor (Ne.symm hne) p

/-- Preparing the focused window ends the operation. -/
theorem operation_focusedGeometry (p : Policy) : (focusedGeometry p).pointerOperation = none := by
  unfold focusedGeometry
  split
  · exact operation_materializeAnchor _ _
  · rfl

/-- Actions that do not spare the operation cancel it. -/
theorem preparePointerAction_of_live {action : Action} {p : Policy}
    (hop : (preparePointerAction p action).pointerOperation ≠ none) :
    preparePointerAction p action = p ∧ action.sparesPointer := by
  cases action <;> first
    | exact ⟨rfl, rfl⟩
    | exact absurd (operation_focusedGeometry p) hop
    | exact absurd rfl hop

/-- An event that spares the operation does not touch its window. -/
theorem untouched_preparePointerEvent {ev : Event} {p : Policy} {op : PointerOperation}
    (hanchor : p.pointerAnchors[op.pointerWindow]? = some op.anchor)
    (hop : (preparePointerEvent ev p).pointerOperation = some op) :
    Untouched op.pointerWindow p (preparePointerEvent ev p) := by
  have hself := Untouched.refl op.pointerWindow p
  have hlive : ∀ q : Policy, q.pointerOperation = none → q.pointerOperation ≠ some op :=
    fun q hq => by rw [hq]; exact nofun
  cases ev with
  | actionRequested action =>
      have h := preparePointerAction_of_live (hop ▸ Option.some_ne_none op)
      rw [preparePointerEvent, h.1]
      exact hself
  | windowAdded wid =>
      simp only [preparePointerEvent] at hop ⊢
      split at hop
      · contradiction
      · next h => rw [if_neg h]; exact hself
  | focusRequested wid =>
      simp only [preparePointerEvent] at hop ⊢
      split at hop
      · contradiction
      · next h => rw [if_neg h]; exact hself
  | windowSizeHints wid a b c d =>
      simp only [preparePointerEvent] at hop ⊢
      split at hop
      · next h => rw [if_pos h]; exact untouched_cancelWindow hop
      · next h => rw [if_neg h]; exact hself
  | windowFullscreen wid enabled =>
      simp only [preparePointerEvent] at hop ⊢
      split at hop
      · next h => rw [if_pos h]; exact untouched_cancelWindow hop
      · next h => rw [if_neg h]; exact hself
  | windowParent wid parent =>
      simp only [preparePointerEvent] at hop ⊢
      split at hop
      · exact absurd hop (hlive _ (operation_foldr_materializeAnchor _ _))
      · next h => rw [if_neg h]; exact hself
  | outputUpsert oid rect =>
      simp only [preparePointerEvent] at hop ⊢
      split at hop
      · next h => rw [if_pos h]; exact untouched_cancelOutput hanchor hop
      · next h => rw [if_neg h]; exact hself
  | outputRemoved oid => exact untouched_cancelOutput hanchor hop
  | outputWorkArea oid rect =>
      simp only [preparePointerEvent] at hop ⊢
      split at hop
      · next h => rw [if_pos h]; exact untouched_cancelOutput hanchor hop
      · next h => rw [if_neg h]; exact hself
  | locked => contradiction
  | _ => exact hself

/-! ## Starting -/

/-- The operation a start captures. -/
def capturedOperation (sid : SeatId) (wid : WindowId) (initial : Rect) (p : Policy)
    (capture : PointerCapture) : PointerOperation :=
  ⟨sid, wid, capture.edges, initial, capture.oid, capture.output, capture.area, capture.tag,
    (metadataFor p wid).windowHints⟩

/-- What a start does: nothing, or it captures the displayed rectangle. -/
theorem startPointer_cases (sid : SeatId) (wid : WindowId) (edges : Nat) (x y : Int) (p : Policy) :
    startPointer sid wid edges x y p = p
      ∨ ∃ q size initial capture, windowPlacement wid p = some q
        ∧ p.pointerActualSizes[wid]? = some size ∧ displayedRect wid p = some initial
        ∧ captureStart wid edges x y p q initial = some capture
        ∧ startPointer sid wid edges x y p =
          { setFloatRect wid initial (materializeAnchor wid p) with
            pointerOperation := some (capturedOperation sid wid initial p capture)
            pointerAnchors := (materializeAnchor wid p).pointerAnchors.insert wid
              (capturedOperation sid wid initial p capture).anchor
            windowSet := StackSet.focusWindow wid (materializeAnchor wid p).windowSet } := by
  by_cases hfree : sid = 0 ∨ p.sessionLocked ∨ p.pointerOperation ≠ none
  · exact Or.inl (if_pos hfree)
  · cases hq : windowPlacement wid p with
    | none => exact Or.inl (by simp only [startPointer, if_neg hfree, hq])
    | some q =>
        cases hsize : p.pointerActualSizes[wid]? with
        | none => exact Or.inl (by simp only [startPointer, if_neg hfree, hq, hsize])
        | some size =>
            cases hinitial : displayedRect wid p with
            | none => exact Or.inl (by simp only [startPointer, if_neg hfree, hq, hsize, hinitial])
            | some initial =>
                cases hcapture : captureStart wid edges x y p q initial with
                | none =>
                    exact Or.inl (by
                      simp only [startPointer, if_neg hfree, hq, hsize, hinitial, hcapture])
                | some capture =>
                    refine Or.inr ⟨q, size, initial, capture, rfl, rfl, rfl, hcapture, ?_⟩
                    simp only [startPointer, if_neg hfree, hq, hsize, hinitial, hcapture]
                    rfl

/-! ## Handling an event -/

/-- Events that may add or remove the window, start a drag of it or place it anew. -/
def Event.touches (p : Policy) (wid : WindowId) : Event → Prop
  | .pointerStarted _ wid' _ _ _ => wid' = wid
  | .pointerMoved sid _ _ => ∃ op, p.pointerOperation = some op ∧ op.pointerSeat = sid
      ∧ op.pointerWindow = wid
  | .windowAdded wid' => wid' = wid ∧ wid' ≠ 0 ∧ ¬p.windowSet.member wid'
  | .windowRemoved wid' => wid' = wid
  | .actionRequested action => action.isPlacing ∧ p.sessionLocked = false
      ∧ p.windowSet.peek = some wid
  | _ => False

/-- Actions keep anchors and actual sizes. -/
theorem pointer_handleAction (cfg : Config) (action : Action) (p : Policy) :
    (handleAction cfg action p).1.pointerAnchors = p.pointerAnchors
      ∧ (handleAction cfg action p).1.pointerActualSizes = p.pointerActualSizes := by
  by_cases hmodal : action.isModal = false
  · obtain ⟨ws, md, heq⟩ := steady_handleAction cfg hmodal p
    rw [heq]
    exact ⟨rfl, rfl⟩
  · cases action with
    | enterMode mode => exact ⟨rfl, rfl⟩
    | pick =>
        simp only [handleAction, startPicker]
        split <;> exact ⟨rfl, rfl⟩
    | pickCandidate index =>
        simp only [handleAction, finishPicker]
        split <;> exact ⟨rfl, rfl⟩
    | pickCancel => exact ⟨rfl, rfl⟩
    | _ => exact absurd rfl hmodal

/-- An action drops no anchor and acknowledges no size. -/
theorem pointer_requestAction (cfg : Config) (action : Action) (p : Policy) :
    (requestAction cfg action p).1.pointerAnchors = p.pointerAnchors
      ∧ (requestAction cfg action p).1.pointerActualSizes = p.pointerActualSizes := by
  unfold requestAction
  split
  · exact ⟨rfl, rfl⟩
  · split
    · exact pointer_handleAction cfg .pick p
    · exact pointer_handleAction cfg (.pickCandidate _) p
    · exact ⟨rfl, rfl⟩
    · split
      · exact ⟨rfl, rfl⟩
      · exact pointer_handleAction cfg action p

/-- An action leaves a window alone, unless it places the focused window anew. -/
theorem untouched_requestAction (cfg : Config) {action : Action} {p : Policy} {wid : WindowId}
    (h : ¬(Event.actionRequested action).touches p wid) :
    Untouched wid p (requestAction cfg action p).1 := by
  refine ⟨by rw [(pointer_requestAction cfg action p).1], ?_⟩
  by_cases hlock : p.sessionLocked
  · have hignore : requestAction cfg action p = (p, []) := if_pos hlock
    rw [hignore]
  · have hfree : action.isPlacing = false ∨ p.windowSet.peek ≠ some wid := by
      rw [← Bool.not_eq_true, ← not_and_or]
      exact fun hboth => h ⟨hboth.1, Bool.eq_false_iff.mpr hlock, hboth.2⟩
    have hkeep : Retains WindowMetadata.windowFloatRect wid p (requestAction cfg action p).1 :=
      retains_requestAction cfg ⟨fun _ _ => rfl, fun _ _ => rfl, fun _ _ => rfl, fun _ _ => rfl⟩
        (hfree.imp_right Or.inl)
    exact hkeep.metadataFor

/-- Setting a parent touches no anchor. -/
theorem untouched_setParent (wid wid' : WindowId) (parent : Option WindowId) (p : Policy) :
    Untouched wid' p (setParent wid parent p) := by
  unfold setParent
  split
  · exact Untouched.refl wid' p
  · have hrecord : Untouched wid' p (recordParent wid (parent.filter fun i => p.windowSet.member i) p) :=
      untouched_alterMetadata (Or.inr fun _ => by rfl) p
    simp only
    split
    · exact hrecord.trans (Untouched.of_eq rfl rfl)
    · exact hrecord

/-- Recording a text touches no anchor. -/
theorem untouched_recordText (wid wid' : WindowId) {f : WindowMetadata → WindowMetadata}
    (hf : ∀ m, (f m).windowFloatRect = m.windowFloatRect) (p : Policy) :
    Untouched wid' p (recordText wid f p) := by
  unfold recordText
  split
  · exact untouched_alterMetadata (Or.inr hf) p
  · exact Untouched.refl wid' p

/-- Removing another window. -/
theorem untouched_windowRemoved {wid wid' : WindowId} (h : wid ≠ wid') (p : Policy) :
    Untouched wid' p (handleOrdinaryEvent defaultConfig (.windowRemoved wid) p).1 := by
  refine ⟨rfl, ?_⟩
  simp only [handleOrdinaryEvent, metadataFor, Std.ExtTreeMap.getElem?_map, getElem?_map_erase,
    if_neg h]
  cases p.windowMetadata[wid']? with
  | none => rfl
  | some m =>
      simp only [Option.map_some, Option.getD_some, orphan]
      split <;> rfl

/-- Adding another window. -/
theorem untouched_windowAdded {wid wid' : WindowId} {p : Policy}
    (h : ¬(Event.windowAdded wid).touches p wid') :
    Untouched wid' p (handleOrdinaryEvent defaultConfig (.windowAdded wid) p).1 := by
  simp only [handleOrdinaryEvent]
  split
  · exact Untouched.refl wid' p
  · next hnew =>
    have hne : wid ≠ wid' := fun heq => h ⟨heq, not_or.mp hnew⟩
    exact ⟨rfl, by simp only [metadataFor, getElem?_map_insert, if_neg hne]⟩

/-- A start touches its own window only. -/
theorem untouched_startPointer {sid : SeatId} {wid wid' : WindowId} (h : wid ≠ wid') (edges : Nat)
    (x y : Int) (p : Policy) : Untouched wid' p (startPointer sid wid edges x y p) := by
  rcases startPointer_cases sid wid edges x y p with
    heq | ⟨q, size, initial, capture, -, -, -, -, heq⟩
  · rw [heq]
    exact Untouched.refl wid' p
  · have hready : Untouched wid' p (setFloatRect wid initial (materializeAnchor wid p)) :=
      (untouched_materializeAnchor h p).trans (untouched_alterMetadata (Or.inl h) _)
    rw [heq]
    refine ⟨?_, hready.floatRect⟩
    simp only [getElem?_map_insert, if_neg h]
    exact hready.anchor

/-- A motion touches the window of the operation only. -/
theorem untouched_movePointer {sid : SeatId} {dx dy : Int} {p : Policy} {wid : WindowId}
    (h : ¬(Event.pointerMoved sid dx dy).touches p wid) :
    Untouched wid p (movePointer sid dx dy p) := by
  unfold movePointer
  split
  · next op hop =>
    split
    · next hmove =>
      exact untouched_alterMetadata (Or.inl fun heq => h ⟨op, hop, hmove.1, heq⟩) p
    · exact Untouched.refl wid p
  · exact Untouched.refl wid p

/-- Ending touches no anchor. -/
theorem untouched_endPointer (sid : SeatId) (wid : WindowId) (p : Policy) :
    Untouched wid p (endPointer sid p) := by
  unfold endPointer
  split
  · split <;> exact Untouched.of_eq rfl rfl
  · exact Untouched.refl wid p

/-- The handler leaves alone every window its event does not touch. -/
theorem untouched_handler (cfg : Config) {ev : Event} {p : Policy} {wid : WindowId}
    (h : ¬ev.touches p wid) : Untouched wid p (handleOrdinaryEvent cfg ev p).1 := by
  cases ev with
  | pointerStarted sid wid' edges x y =>
      simp only [handleOrdinaryEvent]
      split
      · exact Untouched.of_eq rfl rfl
      · exact untouched_startPointer h edges x y p
  | pointerMoved sid dx dy => exact untouched_movePointer h
  | pointerReleased sid => exact untouched_endPointer sid wid p
  | pointerCancelled sid => exact untouched_endPointer sid wid p
  | windowActualSize wid' width height =>
      simp only [handleOrdinaryEvent]
      split <;> exact Untouched.of_eq rfl rfl
  | outputUpsert oid rect => exact Untouched.of_eq rfl rfl
  | outputRemoved oid => exact Untouched.of_eq rfl rfl
  | outputWorkArea oid rect => exact Untouched.of_eq rfl rfl
  | windowAdded wid' => exact untouched_windowAdded h
  | windowRemoved wid' => exact untouched_windowRemoved h p
  | windowParent wid' parent => exact untouched_setParent wid' wid parent p
  | windowSizeHints wid' a b c d => exact untouched_alterMetadata (Or.inr fun _ => by rfl) p
  | windowFullscreen wid' enabled =>
      have hrecord : Untouched wid p
          (alterMetadata wid' (fun m => { m with windowFullscreen := enabled }) p) :=
        untouched_alterMetadata (Or.inr fun _ => by rfl) p
      simp only [handleOrdinaryEvent]
      split
      · exact hrecord.trans (Untouched.of_eq rfl rfl)
      · exact hrecord
  | windowAppId wid' text => exact untouched_recordText wid' wid (fun _ => by rfl) p
  | windowTitle wid' text => exact untouched_recordText wid' wid (fun _ => by rfl) p
  | focusRequested wid' =>
      simp only [handleOrdinaryEvent]
      split <;> exact Untouched.of_eq rfl rfl
  | locked => exact Untouched.of_eq rfl rfl
  | unlocked => exact Untouched.of_eq rfl rfl
  | actionRequested action => exact untouched_requestAction cfg h

/-- Apart from a start, an event keeps the operation or ends it. -/
theorem operation_handleOrdinaryEvent (cfg : Config) {ev : Event} {p : Policy}
    (hs : p.windowSet.WellFormed) (hstart : ∀ sid wid edges x y, ev ≠ .pointerStarted sid wid edges x y) :
    (handleOrdinaryEvent cfg ev p).1.pointerOperation = p.pointerOperation
      ∨ (handleOrdinaryEvent cfg ev p).1.pointerOperation = none := by
  by_cases hev : ev.isLifecycle
  · cases ev with
    | windowAdded wid =>
        simp only [handleOrdinaryEvent]
        split <;> exact Or.inl rfl
    | outputUpsert oid rect => exact Or.inl rfl
    | outputRemoved oid => exact Or.inl rfl
    | windowRemoved wid => exact Or.inl rfl
    | _ => contradiction
  · by_cases hpassive : ev.isPassive
    · exact (kept_handleOrdinaryEvent cfg hs (Bool.eq_false_iff.mpr hev) hpassive).operation
    · cases ev with
      | locked => exact Or.inl rfl
      | unlocked => exact Or.inl rfl
      | pointerStarted sid wid edges x y => exact absurd rfl (hstart sid wid edges x y)
      | _ => contradiction

/-- A live operation is neither replaced nor, a motion apart, is its window touched,
unless the window is gone. -/
theorem untouched_handleOrdinaryEvent (cfg : Config) {ev : Event} {p : Policy}
    (hs : p.windowSet.WellFormed) {op : PointerOperation}
    (hop : (preparePointerEvent ev p).pointerOperation = some op)
    (hmove : ∀ sid dx dy, ev ≠ .pointerMoved sid dx dy)
    (hgone : ev ≠ .windowRemoved op.pointerWindow) :
    let prepared := preparePointerEvent ev p
    let next := (handleOrdinaryEvent cfg ev prepared).1
    Untouched op.pointerWindow prepared next
      ∧ (next.pointerOperation = some op ∨ next.pointerOperation = none) := by
  intro prepared next
  by_cases hstart : ∃ sid wid edges x y, ev = .pointerStarted sid wid edges x y
  · -- No start replaces the operation.
    obtain ⟨sid, wid, edges, x, y, rfl⟩ := hstart
    have hlive : prepared.pointerOperation ≠ none := hop ▸ Option.some_ne_none op
    simp only [next, handleOrdinaryEvent]
    split
    · exact ⟨Untouched.of_eq rfl rfl, Or.inl hop⟩
    · rw [startPointer, if_pos (Or.inr (Or.inr hlive))]
      exact ⟨Untouched.refl _ _, Or.inl hop⟩
  · have hws := (frame_preparePointerEvent ev p).windowSet
    have hkeep := operation_handleOrdinaryEvent cfg (p := prepared) (hws ▸ hs)
      fun sid wid edges x y heq => hstart ⟨sid, wid, edges, x, y, heq⟩
    refine ⟨untouched_handler cfg fun htouch => ?_, hop ▸ hkeep⟩
    cases ev with
    | pointerStarted sid wid edges x y => exact hstart ⟨sid, wid, edges, x, y, rfl⟩
    | pointerMoved sid dx dy => exact hmove sid dx dy rfl
    | windowAdded wid =>
        -- A new window would have cancelled the operation.
        obtain ⟨-, hzero, hnew⟩ := htouch
        rw [hws] at hnew
        rw [preparePointerEvent, if_pos ⟨hnew, hzero⟩] at hop
        contradiction
    | windowRemoved wid => exact hgone (congrArg Event.windowRemoved htouch)
    | actionRequested action =>
        have hspares := (preparePointerAction_of_live (hop ▸ Option.some_ne_none op)).2
        cases action <;> first
          | contradiction
          | exact absurd htouch.1 Bool.false_ne_true
    | _ => exact htouch

/-- Without an operation only an accepted start begins one. -/
theorem started_of_operation (cfg : Config) {ev : Event} {p : Policy}
    (hs : p.windowSet.WellFormed) (hnone : p.pointerOperation = none)
    (hop : (handleOrdinaryEvent cfg ev p).1.pointerOperation ≠ none) :
    ∃ sid wid edges x y, ev = .pointerStarted sid wid edges x y
      ∧ (handleOrdinaryEvent cfg ev p).1 = startPointer sid wid edges x y p := by
  by_cases hstart : ∃ sid wid edges x y, ev = .pointerStarted sid wid edges x y
  · obtain ⟨sid, wid, edges, x, y, rfl⟩ := hstart
    simp only [handleOrdinaryEvent] at hop ⊢
    split at hop
    · exact absurd hnone hop
    · next h => exact ⟨sid, wid, edges, x, y, rfl, by rw [if_neg h]⟩
  · have hkeep := operation_handleOrdinaryEvent cfg hs fun sid wid edges x y heq =>
      hstart ⟨sid, wid, edges, x, y, heq⟩
    exact absurd (hkeep.elim (fun h => h.trans hnone) id) hop

/-! ## Actual sizes -/

/-- Reported sizes are positive. -/
def SizesPositive (p : Policy) : Prop :=
  ∀ (wid : WindowId) (size : Int × Int), p.pointerActualSizes[wid]? = some size →
    1 ≤ size.1 ∧ 1 ≤ size.2

/-- Only positive sizes are recorded. -/
theorem sizes_handleOrdinaryEvent (cfg : Config) (ev : Event) {p : Policy}
    (hs : p.windowSet.WellFormed) (h : SizesPositive p) :
    SizesPositive (handleOrdinaryEvent cfg ev p).1 := by
  have hsame : ∀ p' : Policy, p'.pointerActualSizes = p.pointerActualSizes → SizesPositive p' :=
    fun p' he wid size hz => h wid size (he ▸ hz)
  by_cases hev : ev.isLifecycle
  · cases ev with
    | outputUpsert oid rect => exact hsame _ rfl
    | outputRemoved oid => exact hsame _ rfl
    | windowAdded wid =>
        refine hsame _ ?_
        simp only [handleOrdinaryEvent]
        split <;> rfl
    | windowRemoved wid =>
        intro wid' size hz
        change (p.pointerActualSizes.erase wid)[wid']? = some size at hz
        rw [getElem?_map_erase] at hz
        split at hz
        · contradiction
        · exact h wid' size hz
    | _ => contradiction
  · intro wid size hz
    have hk := sameWindows_handleOrdinaryEvent cfg hs (Bool.eq_false_iff.mpr hev)
    exact (hk.sizes wid size hz).elim (h wid size) And.right

/-- Actual sizes are always positive. -/
theorem sizesPositive_of_reachable {cfg : Config} {p : Policy} (h : Reachable cfg p) :
    SizesPositive p := by
  induction h with
  | initial hcfg => exact fun wid size hz => by simp [initialPolicy] at hz
  | @event cfg p ev h ih =>
      have hprep := frame_preparePointerEvent ev p
      have hfin := frame_finish (preparePointerEvent ev p)
        (handleOrdinaryEvent cfg ev (preparePointerEvent ev p)).1
      have hs : (preparePointerEvent ev p).windowSet.WellFormed :=
        hprep.windowSet ▸ (managed_of_reachable h).wellFormed
      have hnext := sizes_handleOrdinaryEvent cfg ev hs
        (fun wid size hz => ih wid size (hprep.actualSizes ▸ hz))
      exact fun wid size hz => hnext wid size (hfin.actualSizes ▸ hz)
  | reload _ _ _ ih => exact ih

/-! ## The invariant -/

/-- The anchor of the operation's window is its snapshot, and the window's float
rectangle a drag inside the captured area. -/
structure Backed (p : Policy) (op : PointerOperation) : Prop where
  anchor : p.pointerAnchors[op.pointerWindow]? = some op.anchor
  initial : Within op.pointerInitialRect op.pointerArea
  dragged : ∃ r, (metadataFor p op.pointerWindow).windowFloatRect = some r ∧ Dragged op r

/-- An operation stays backed while its window is left alone. -/
theorem Backed.untouched {p p' : Policy} {op : PointerOperation} (h : Backed p op)
    (hu : Untouched op.pointerWindow p p') : Backed p' op :=
  ⟨hu.anchor.trans h.anchor, h.initial, hu.floatRect ▸ h.dragged⟩

/-- A window is displayed at the size it acknowledged. -/
theorem displayedRect_extent {wid : WindowId} {p : Policy} {size : Int × Int} {r : Rect}
    (hsize : p.pointerActualSizes[wid]? = some size) (h : displayedRect wid p = some r) :
    r.rectWidth = size.1 ∧ r.rectHeight = size.2 := by
  obtain ⟨q, -, rfl⟩ := Option.map_eq_some_iff.mp h
  simp only [hsize, Option.getD_some]
  split <;> exact ⟨rfl, rfl⟩

/-- A start captures a rectangle within the area. -/
theorem within_of_captureStart {wid : WindowId} {edges : Nat} {x y : Int} {p : Policy}
    {q : Placement} {initial : Rect} {capture : PointerCapture}
    (h : captureStart wid edges x y p q initial = some capture) (hw : 1 ≤ initial.rectWidth)
    (hh : 1 ≤ initial.rectHeight) : Within initial capture.area := by
  simp only [captureStart, Option.bind_eq_bind, Option.bind_eq_some_iff, Option.guard_eq_some',
    Option.pure_def, Option.some.injEq] at h
  obtain ⟨-, -, -, -, oid, -, output, -, area, -, tag, -, -, -, -, hin, edges', -, rfl⟩ := h
  simp only [insideArea, decide_eq_true_eq] at hin
  exact ⟨⟨hin.1, hw, hin.2.2.1⟩, ⟨hin.2.1, hh, hin.2.2.2⟩⟩

/-- The float rectangle that is set. -/
theorem floatRect_setFloatRect {wid : WindowId} {p : Policy} (h : wid ∈ p.windowMetadata)
    (r : Rect) : (metadataFor (setFloatRect wid r p) wid).windowFloatRect = some r := by
  obtain ⟨m, hm⟩ := mem_map_iff.mp h
  rw [setFloatRect, metadataFor_alterMetadata, if_pos rfl, hm]
  rfl

/-- An accepted start is backed. -/
theorem backed_startPointer {tags : List WorkspaceId} {p : Policy} (hc : Consistent tags p)
    (hz : SizesPositive p) {sid : SeatId} {wid : WindowId} {edges : Nat} {x y : Int}
    {op : PointerOperation} (hnone : p.pointerOperation = none)
    (hop : (startPointer sid wid edges x y p).pointerOperation = some op) :
    Backed (startPointer sid wid edges x y p) op := by
  rcases startPointer_cases sid wid edges x y p with
    heq | ⟨q, size, initial, capture, hq, hsize, hinitial, hcapture, heq⟩
  · rw [heq, hnone] at hop
    contradiction
  · rw [heq] at hop ⊢
    obtain rfl := Option.some.inj hop
    obtain ⟨hw, hh⟩ := displayedRect_extent hsize hinitial
    obtain ⟨hpw, hph⟩ := hz wid size hsize
    have hwithin : Within initial capture.area :=
      within_of_captureStart hcapture (hw ▸ hpw) (hh ▸ hph)
    have hmem : wid ∈ (materializeAnchor wid p).windowMetadata :=
      (frame_materializeAnchor wid p).mem_metadata.mpr
        ((hc.metadata wid).mpr (mem_windows_of_windowPlacement hq))
    refine ⟨?_, hwithin, initial, floatRect_setFloatRect hmem initial, hwithin,
      DragsAxis.refl _ _ _ _, DragsAxis.refl _ _ _ _⟩
    simp only [capturedOperation, getElem?_map_insert, if_true]

/-- Work areas are normal. -/
theorem normal_areaFor {p : Policy} (hn : OutputsNormal p) {oid : OutputId} {area : Rect}
    (h : areaFor oid p = some area) : Normal area := by
  obtain ⟨output, hout, rfl⟩ := Option.map_eq_some_iff.mp h
  have hnormal := hn oid output hout
  split
  · exact hnormal.within (within_clipArea hnormal.range.self _)
  · exact hnormal

/-- The area of a valid operation is a work area of the policy. -/
theorem anchorHolds_of_valid {p : Policy} (hs : p.windowSet.WellFormed) {op : PointerOperation}
    (hanchor : p.pointerAnchors[op.pointerWindow]? = some op.anchor)
    (hvalid : operationValid op p = true) : AnchorHolds p op.pointerWindow op.anchor := by
  obtain ⟨anchor, ha, hholds⟩ := (anchorValid_iff hs).mp (operationValid_iff.mp hvalid).2.2.1
  rw [hanchor, Option.some.injEq] at ha
  exact ha ▸ hholds

/-- A motion drags again. -/
theorem backed_movePointer {p : Policy} (hs : p.windowSet.WellFormed) (hn : OutputsNormal p)
    (sid : SeatId) (dx dy : Int) {op : PointerOperation} (hop : p.pointerOperation = some op)
    (h : Backed p op) :
    Backed (movePointer sid dx dy p) op ∧ (movePointer sid dx dy p).pointerOperation = some op := by
  unfold movePointer
  rw [hop]
  simp only
  split
  · next hmove =>
    have harea := normal_areaFor hn (anchorHolds_of_valid hs h.anchor hmove.2).area
    have hmem : op.pointerWindow ∈ p.windowMetadata := by
      obtain ⟨r, hr, -⟩ := h.dragged
      cases hm : p.windowMetadata[op.pointerWindow]? with
      | none => simp [metadataFor, hm, defaultMetadata] at hr
      | some m => exact mem_map_iff.mpr ⟨m, hm⟩
    exact ⟨⟨h.anchor, h.initial, dragGeometry op dx dy, floatRect_setFloatRect hmem _,
      dragged_dragGeometry harea h.initial dx dy⟩, hop⟩
  · exact ⟨h, hop⟩

/-! ## After the handler -/

/-- Preserving writes no anchor. -/
theorem anchors_foldr_preserveInvalidAnchor (prepared next : Policy) (keys : List WindowId) :
    (keys.foldr (preserveInvalidAnchor prepared) next).pointerAnchors = next.pointerAnchors := by
  induction keys with
  | nil => rfl
  | cons w keys ih =>
      rw [List.foldr_cons]
      unfold preserveInvalidAnchor
      split
      · exact ih
      · split <;> exact ih

/-- Nor does settling. -/
theorem anchors_settleAnchors (prepared next : Policy) :
    (settleAnchors prepared next).pointerAnchors = next.pointerAnchors :=
  anchors_foldr_preserveInvalidAnchor prepared next _

/-- Settling the other anchors leaves a window with a valid anchor alone. -/
theorem untouched_settleAnchors {next : Policy} (hs : next.windowSet.WellFormed) {wid : WindowId}
    (hvalid : anchorValid wid next = true) (prepared : Policy) :
    Untouched wid next (settleAnchors prepared next) := by
  have hfold : ∀ keys : List WindowId,
      Untouched wid next (keys.foldr (preserveInvalidAnchor prepared) next) := by
    intro keys
    induction keys with
    | nil => exact Untouched.refl wid next
    | cons w keys ih =>
        have hf := PointerFrame.foldr (frame_preserveInvalidAnchor prepared) keys next
        have hstill := (anchorValid_frame hs hf ih.anchor).mpr hvalid
        refine ih.trans ?_
        rw [List.foldr_cons]
        unfold preserveInvalidAnchor
        split
        · exact Untouched.refl wid _
        · next hinvalid =>
          have hne : w ≠ wid := fun heq => hinvalid (heq ▸ hstill)
          split
          · exact untouched_alterMetadata (Or.inl hne) _
          · exact Untouched.refl wid _
  exact hfold _

/-- Validation keeps valid anchors. -/
theorem untouched_validatePointerState {p : Policy} {wid : WindowId}
    (hvalid : anchorValid wid p = true) : Untouched wid p (validatePointerState p) := by
  refine ⟨?_, rfl⟩
  simp only [validatePointerState, getElem?_map_filter]
  cases p.pointerAnchors[wid]? with
  | none => rfl
  | some anchor => rw [Option.filter_some, if_pos hvalid]

/-- An operation that survives the end of an event is valid, and its window is left as
the handler left it. -/
theorem untouched_finish {next : Policy} (hs : next.windowSet.WellFormed) (prepared : Policy)
    {op : PointerOperation}
    (hop : (validatePointerState (settleAnchors prepared next)).pointerOperation = some op) :
    next.pointerOperation = some op ∧ anchorValid op.pointerWindow next = true
      ∧ Untouched op.pointerWindow next (validatePointerState (settleAnchors prepared next)) := by
  have hf := frame_settleAnchors prepared next
  obtain ⟨hsettled, hvalid⟩ := Option.filter_eq_some_iff.mp hop
  have hlive : (settleAnchors prepared next).pointerOperation = next.pointerOperation :=
    hf.operation.resolve_right fun h => absurd (hsettled.symm.trans h) nofun
  have hanchor := (operationValid_iff.mp hvalid).2.2.1
  have hnext := (anchorValid_frame hs hf (by rw [anchors_settleAnchors])).mp hanchor
  exact ⟨hlive.symm.trans hsettled, hnext,
    (untouched_settleAnchors hs hnext prepared).trans (untouched_validatePointerState hanchor)⟩

/-! ## Every event -/

/-- A removed window has no valid anchor. -/
theorem not_anchorValid_windowRemoved (cfg : Config) (p : Policy) (wid : WindowId) :
    anchorValid wid (handleOrdinaryEvent cfg (.windowRemoved wid) p).1 ≠ true := by
  intro hvalid
  unfold anchorValid at hvalid
  split at hvalid
  · next hq =>
    have hmem := mem_windows_of_windowPlacement hq
    change wid ∈ (p.windowSet.delete wid).windows at hmem
    rw [windows_delete, List.mem_filter] at hmem
    simp at hmem
  · contradiction

/-- An operation after an event is the one before it, or the event started it; it is
backed if the one before was. -/
theorem backed_step (cfg : Config) {ev : Event} {tags : List WorkspaceId} {p : Policy}
    (hc : Consistent tags p) (hn : OutputsNormal p) (hz : SizesPositive p)
    (hb : ∀ op, p.pointerOperation = some op → Backed p op) {op : PointerOperation}
    (hop : (step cfg p ev).pointerOperation = some op) :
    Backed (step cfg p ev) op ∧ (p.pointerOperation = some op ∨ p.pointerOperation = none) := by
  have hprep := frame_preparePointerEvent ev p
  have hc' := hc.frame hprep
  have hcnext := consistent_handleOrdinaryEvent cfg ev hc'
  obtain ⟨hnext, hvalid, hfinish⟩ := untouched_finish hcnext.wellFormed _ hop
  cases hlive : (preparePointerEvent ev p).pointerOperation with
  | none =>
      obtain ⟨sid, wid, edges, x, y, rfl, hstart⟩ :=
        started_of_operation cfg hc'.wellFormed hlive (hnext ▸ Option.some_ne_none op)
      have hback : Backed (handleOrdinaryEvent cfg (.pointerStarted sid wid edges x y)
          (preparePointerEvent (.pointerStarted sid wid edges x y) p)).1 op := by
        rw [hstart] at hnext ⊢
        exact backed_startPointer hc hz hlive hnext
      exact ⟨hback.untouched hfinish, Or.inr hlive⟩
  | some live =>
      have hbefore : p.pointerOperation = some live :=
        hprep.operation.elim (fun h => h.symm.trans hlive) fun h => absurd (hlive.symm.trans h) nofun
      have hback : Backed (preparePointerEvent ev p) live :=
        (hb live hbefore).untouched (untouched_preparePointerEvent (hb live hbefore).anchor hlive)
      by_cases hmove : ∃ sid dx dy, ev = .pointerMoved sid dx dy
      · obtain ⟨sid, dx, dy, rfl⟩ := hmove
        obtain ⟨hmoved, hsame⟩ := backed_movePointer hc.wellFormed hn sid dx dy hlive hback
        obtain rfl : live = op := Option.some.inj (hsame.symm.trans hnext)
        exact ⟨hmoved.untouched hfinish, Or.inl hbefore⟩
      · by_cases hgone : ev = .windowRemoved live.pointerWindow
        · subst hgone
          obtain rfl : live = op := Option.some.inj (hlive.symm.trans hnext)
          exact absurd hvalid (not_anchorValid_windowRemoved cfg _ _)
        · obtain ⟨huntouched, hsame⟩ := untouched_handleOrdinaryEvent cfg hc.wellFormed hlive
            (fun sid dx dy h => hmove ⟨sid, dx, dy, h⟩) hgone
          have hkept := hsame.resolve_right fun h => absurd (hnext.symm.trans h) nofun
          obtain rfl : live = op := Option.some.inj (hkept.symm.trans hnext)
          exact ⟨(hback.untouched huntouched).untouched hfinish, Or.inl hbefore⟩

/-- Every operation is backed. -/
theorem backed_of_reachable {cfg : Config} {p : Policy} (h : Reachable cfg p) :
    ∀ op, p.pointerOperation = some op → Backed p op := by
  induction h with
  | initial hcfg => exact fun op hop => by contradiction
  | event ev h ih =>
      exact fun op hop => (backed_step _ (managed_of_reachable h).toConsistent
        (outputsNormal_of_reachable h) (sizesPositive_of_reachable h) ih hop).1
  | reload _ _ _ ih => exact ih

/-- Without a start the operation stays or ends. -/
theorem operation_step {cfg : Config} {p : Policy} (h : Reachable cfg p) {ev : Event}
    (hev : ∀ sid wid edges x y, ev ≠ .pointerStarted sid wid edges x y) :
    (step cfg p ev).pointerOperation = p.pointerOperation
      ∨ (step cfg p ev).pointerOperation = none := by
  have hc := (managed_of_reachable h).toConsistent
  have hprep := frame_preparePointerEvent ev p
  cases hop : (step cfg p ev).pointerOperation with
  | none => exact Or.inr rfl
  | some op =>
      have hbefore := (backed_step cfg hc (outputsNormal_of_reachable h)
        (sizesPositive_of_reachable h) (backed_of_reachable h) hop).2
      rcases hbefore with hlive | hnone
      · exact Or.inl hlive.symm
      · have hcnext := consistent_handleOrdinaryEvent cfg ev (hc.frame hprep)
        have hnext := (untouched_finish hcnext.wellFormed _ hop).1
        obtain ⟨sid, wid, edges, x, y, heq, -⟩ := started_of_operation cfg
          (hc.frame hprep).wellFormed (hprep.operation.elim (fun he => he.trans hnone) id)
          (hnext ▸ Option.some_ne_none op)
        exact absurd heq (hev sid wid edges x y)

/-- A start leaves the operation alone, or begins one of its seat on its window. -/
theorem operation_step_pointerStarted {cfg : Config} {p : Policy} (h : Reachable cfg p)
    {sid : SeatId} {wid : WindowId} {edges : Nat} {x y : Int} {op : PointerOperation}
    (hop : (step cfg p (.pointerStarted sid wid edges x y)).pointerOperation = some op) :
    p.pointerOperation = some op ∨ p.pointerOperation = none ∧ op.pointerSeat = sid
      ∧ op.pointerWindow = wid := by
  have hc := (managed_of_reachable h).toConsistent
  have hbefore := (backed_step cfg hc (outputsNormal_of_reachable h)
    (sizesPositive_of_reachable h) (backed_of_reachable h) hop).2
  refine hbefore.imp_right fun hnone => ⟨hnone, ?_⟩
  have hcnext := consistent_handleOrdinaryEvent cfg (.pointerStarted sid wid edges x y) hc
  have hnext := (untouched_finish hcnext.wellFormed _ hop).1
  obtain ⟨sid', wid', edges', x', y', heq, hstart⟩ :=
    started_of_operation cfg hc.wellFormed hnone (hnext ▸ Option.some_ne_none op)
  simp only [Event.pointerStarted.injEq] at heq
  obtain ⟨rfl, rfl, rfl, rfl, rfl⟩ := heq
  rw [hstart] at hnext
  rcases startPointer_cases sid wid edges x y p with hsame | ⟨q, size, initial, capture, -, -, -, -, hcap⟩
  · rw [hsame, hnone] at hnext
    contradiction
  · rw [hcap] at hnext
    obtain rfl := Option.some.inj hnext
    exact ⟨rfl, rfl⟩

/-! ## Rendering -/

/-- A floating window is placed by `pointerFloatRect`. -/
theorem screenRects_floating {p : Policy} {s : OutputScreen} {wid : WindowId} {v : Shown}
    (h : (wid, v) ∈ screenRects p s) (hfloat : v.2.2.1 = true) :
    ∃ rect, screenOutput p s = some rect
      ∧ v.1 = pointerFloatRect p wid (screenArea p rect s.screen) := by
  obtain ⟨rect, stack, hr, -, ⟨-, rfl⟩ | ⟨r, rfl, hplaced⟩⟩ := mem_screenRects h
  · contradiction
  · refine ⟨rect, hr, ?_⟩
    rcases hplaced with htile | hfl
    · -- A tile does not float.
      have hmem := List.mem_map_of_mem (f := Prod.fst) htile
      rw [fst_tiledRects] at hmem
      have hnot := (List.mem_filter.mp ((sublist_tileWindows _ _ _).subset hmem)).2
      simp only at hfloat hnot
      rw [hfloat] at hnot
      contradiction
    · obtain ⟨w', -, hw'⟩ := List.mem_map.mp hfl
      obtain ⟨rfl, rfl⟩ := Prod.mk.inj hw'
      rfl

/-- The window of an anchor that holds is placed by `pointerFloatRect` in the anchor's area. -/
theorem rectangles_of_holds {p : Policy} (hs : p.windowSet.WellFormed) {wid : WindowId}
    {anchor : PointerAnchor} (h : AnchorHolds p wid anchor) :
    ∃ v, (rectangles p)[wid]? = some v ∧ v.1 = pointerFloatRect p wid anchor.anchorArea := by
  obtain ⟨v, hv, hflags⟩ := Option.map_eq_some_iff.mp h.shown
  obtain ⟨sc, -, hmem⟩ := (getElem?_rectangles hs).mp hv
  obtain ⟨rect, hrect, hplace⟩ := screenRects_floating hmem (by rw [hflags])
  obtain ⟨-, -, hout, -⟩ := screenRects_cases hmem
  have harea : screenArea p rect sc.screen = anchor.anchorArea := by
    have hid : sc.screen = some anchor.anchorOutput := by rw [← hout, hflags]
    have hget := h.area
    rw [screenOutput, hid, Option.bind_some] at hrect
    rw [areaFor, hrect, Option.map_some, Option.some.injEq] at hget
    rw [← hget, screenArea, hid, Option.bind_some]
  exact ⟨v, hv, harea ▸ hplace⟩

/-- The window of a backed operation is placed where its float rectangle says. -/
theorem windowRect_of_backed {p : Policy} (hs : p.windowSet.WellFormed) (hn : OutputsNormal p)
    {op : PointerOperation} (hb : Backed p op)
    (hholds : AnchorHolds p op.pointerWindow op.anchor) {r : Rect}
    (hr : (metadataFor p op.pointerWindow).windowFloatRect = some r)
    (hin : Within r op.pointerArea) : windowRect op.pointerWindow p = some r := by
  obtain ⟨v, hv, hplace⟩ := rectangles_of_holds hs hholds
  rw [windowRect_eq hs, hv, Option.map_some, hplace, pointerFloatRect, hb.anchor, hr]
  exact congrArg some (confineRect_of_within (normal_areaFor hn hholds.area) hin)

/-- **Pointer operations**: a live operation is backed by facts that still hold, its
window is placed at a drag of the initial rectangle inside the captured area, and it
never changes while it lives. -/
theorem pointer_operation_backed {cfg : Config} {p : Policy} (h : Reachable cfg p)
    {op : PointerOperation} (hop : p.pointerOperation = some op) :
    (p.sessionLocked = false ∧ focusedWindow p = some op.pointerWindow
      ∧ (∃ q, windowPlacement op.pointerWindow p = some q ∧ q.placementVisible = true
        ∧ q.placementFloating = true ∧ q.placementFullscreen = false
        ∧ q.placementOutput = some op.pointerOutput)
      ∧ (metadataFor p op.pointerWindow).windowFullscreen = false
      ∧ p.windowSet.findTag op.pointerWindow = some op.pointerWorkspace)
    ∧ ((metadataFor p op.pointerWindow).windowHints = op.pointerHints
      ∧ p.outputs[op.pointerOutput]? = some op.pointerOutputRect
      ∧ areaFor op.pointerOutput p = some op.pointerArea
      ∧ p.pointerAnchors[op.pointerWindow]? = some ⟨op.pointerEdges, op.pointerInitialRect,
        op.pointerOutput, op.pointerOutputRect, op.pointerArea, op.pointerWorkspace⟩)
    ∧ (∃ r, (metadataFor p op.pointerWindow).windowFloatRect = some r
      ∧ windowRect op.pointerWindow p = some r ∧ Dragged op r)
    ∧ ∀ (ev : Event) (op' : PointerOperation),
      (step cfg p ev).pointerOperation = some op' → op' = op := by
  have hm := managed_of_reachable h
  have hs := hm.wellFormed
  have hn := outputsNormal_of_reachable h
  have hback := backed_of_reachable h
  have hb := hback op hop
  have hvalid := (settled_of_reachable h).operation op hop
  have hholds := anchorHolds_of_valid hs hb.anchor hvalid
  obtain ⟨hfree, hfocus, -, hhints⟩ := operationValid_iff.mp hvalid
  obtain ⟨v, hv, hflags⟩ := Option.map_eq_some_iff.mp hholds.shown
  obtain ⟨r, hr, hdragged⟩ := hb.dragged
  refine ⟨⟨hfree, hfocus, ⟨shownPlacement p op.pointerWindow v, ?_, rfl, ?_, ?_, ?_⟩,
    hholds.fullscreen, hholds.workspace⟩, ⟨hhints, hholds.output, hholds.area, hb.anchor⟩,
    ⟨r, hr, windowRect_of_backed hs hn hb hholds hr hdragged.within, hdragged⟩, ?_⟩
  · rw [windowPlacement_eq hs, hv]
    rfl
  · simp [shownPlacement, hflags]
  · simp [shownPlacement, hflags]
  · simp [shownPlacement, hflags, PointerOperation.anchor]
  · intro ev op' hop'
    have hbefore := (backed_step cfg hm.toConsistent hn (sizesPositive_of_reachable h) hback hop').2
    rw [hop] at hbefore
    exact (Option.some.inj (hbefore.resolve_right (Option.some_ne_none op))).symm

/-- A drag in progress. -/
theorem pointer_operation_backed_default :
    let p := runEvents defaultConfig [.outputUpsert 1 ⟨0, 0, 800, 600⟩, .windowAdded 10,
      .actionRequested .toggleFloat, .windowActualSize 10 400 300, .pointerStarted 5 10 5 0 0,
      .pointerMoved 5 9223372036854775807 20] (initialPolicy defaultConfig)
    windowRect 10 p = some ⟨599, 170, 1, 280⟩ := by
  have hop : (runEvents defaultConfig [.outputUpsert 1 ⟨0, 0, 800, 600⟩, .windowAdded 10,
      .actionRequested .toggleFloat, .windowActualSize 10 400 300, .pointerStarted 5 10 5 0 0,
      .pointerMoved 5 9223372036854775807 20] (initialPolicy defaultConfig)).pointerOperation
        = some ⟨5, 10, 5, ⟨200, 150, 400, 300⟩, 1, ⟨0, 0, 800, 600⟩, ⟨0, 0, 800, 600⟩, 1,
          (0, 0, 0, 0)⟩ := by decide +kernel
  have h := pointer_operation_backed (reachable_runEvents validateConfig_defaultConfig
    [.outputUpsert 1 ⟨0, 0, 800, 600⟩, .windowAdded 10, .actionRequested .toggleFloat,
      .windowActualSize 10 400 300, .pointerStarted 5 10 5 0 0,
      .pointerMoved 5 9223372036854775807 20]) hop
  obtain ⟨r, hr, hrect, -⟩ := h.2.2.1
  have hr' : r = ⟨599, 170, 1, 280⟩ := Option.some.inj (hr.symm.trans (by decide +kernel))
  exact hr' ▸ hrect

end XmonadWayland
