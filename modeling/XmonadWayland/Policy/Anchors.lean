import XmonadWayland.Policy.Family

/-!
# XmonadWayland.Policy.Anchors

Losing an anchor never loses the window's position.  What an anchored window is displayed
at depends on its anchor, its float rectangle and its acknowledged size only (`Anchored`),
and whatever takes the anchor away first records that rectangle: the preparation of the
event, a new start on the window, or the preservation after the handler.  Preparing
several anchors in one fold goes one window at a time, and each leaves the other windows
alone.
-/

namespace XmonadWayland

open StackSet

/-! ## The display of an anchored window -/

/-- Where a window with the anchor and the float rectangle `r` is displayed once it
acknowledged `size`. -/
def anchoredDisplay (anchor : PointerAnchor) (r : Rect) (size : Option (Int × Int)) : Rect :=
  let proposed := confineRect anchor.anchorArea r
  let (width, height) := size.getD (proposed.rectWidth, proposed.rectHeight)
  anchoredRect anchor { proposed with rectWidth := width, rectHeight := height }

/-- A window whose anchor holds, with its float rectangle. -/
structure Anchored (p : Policy) (wid : WindowId) (anchor : PointerAnchor) (r : Rect) : Prop where
  entry : p.pointerAnchors[wid]? = some anchor
  holds : AnchorHolds p wid anchor
  floatRect : (metadataFor p wid).windowFloatRect = some r

namespace Anchored

variable {p p' : Policy} {wid : WindowId} {anchor : PointerAnchor} {r : Rect}

/-- Where an anchored window is displayed depends on this alone. -/
theorem displayed (hs : p.windowSet.WellFormed) (h : Anchored p wid anchor r) :
    displayedRect wid p = some (anchoredDisplay anchor r p.pointerActualSizes[wid]?) := by
  obtain ⟨v, hv, hplace⟩ := rectangles_of_holds hs h.holds
  rw [pointerFloatRect, h.entry, h.floatRect] at hplace
  rw [displayedRect, windowPlacement_eq hs, hv, Option.map_some, Option.map_some]
  simp only [shownPlacement, hplace, h.entry, anchoredDisplay]

/-- An anchored window that is left alone stays anchored. -/
theorem frame (h : Anchored p wid anchor r) (hframe : PointerFrame p p')
    (hu : Untouched wid p p') : Anchored p' wid anchor r :=
  ⟨hu.anchor.trans h.entry, (anchorHolds_frame hframe).mpr h.holds, hu.floatRect.trans h.floatRect⟩

/-- It has metadata. -/
theorem mem_metadata (h : Anchored p wid anchor r) : wid ∈ p.windowMetadata := by
  have hr := h.floatRect
  cases hm : p.windowMetadata[wid]? with
  | none =>
      rw [metadataFor, hm] at hr
      contradiction
  | some m => exact mem_map_iff.mpr ⟨m, hm⟩

/-- It has an anchor. -/
theorem mem_anchors (h : Anchored p wid anchor r) : wid ∈ p.pointerAnchors :=
  mem_map_iff.mpr ⟨anchor, h.entry⟩

end Anchored

/-- Without an anchor, the window has the float rectangle `rect`. -/
structure Rests (p : Policy) (wid : WindowId) (rect : Rect) : Prop where
  gone : p.pointerAnchors[wid]? = none
  floatRect : (metadataFor p wid).windowFloatRect = some rect

theorem Rests.untouched {p p' : Policy} {wid : WindowId} {rect : Rect} (h : Rests p wid rect)
    (hu : Untouched wid p p') : Rests p' wid rect :=
  ⟨hu.anchor.trans h.gone, hu.floatRect.trans h.floatRect⟩

/-! ## Before an event -/

/-- The window is anchored as before, or it rests where it was displayed. -/
def Holding (wid : WindowId) (anchor : PointerAnchor) (r : Rect) (p p' : Policy) : Prop :=
  Anchored p' wid anchor r ∨ Rests p' wid (anchoredDisplay anchor r p.pointerActualSizes[wid]?)

section Holding

variable {p p' : Policy} {wid : WindowId} {anchor : PointerAnchor} {r : Rect}

theorem Holding.untouched {p'' : Policy} (h : Holding wid anchor r p p')
    (hframe : PointerFrame p' p'') (hu : Untouched wid p' p'') : Holding wid anchor r p p'' :=
  h.imp (fun ha => ha.frame hframe hu) fun hr => hr.untouched hu

/-- Materialising an anchor records where its window is displayed. -/
theorem Holding.materializeAnchor (hs : p.windowSet.WellFormed) (hframe : PointerFrame p p')
    (h : Holding wid anchor r p p') (w : WindowId) :
    Holding wid anchor r p (materializeAnchor w p') := by
  by_cases hw : w = wid
  · subst hw
    rcases h with ha | hr
    · have hdisplay := ha.displayed (hframe.windowSet ▸ hs)
      refine Or.inr ⟨?_, ?_⟩
      · simp only [XmonadWayland.materializeAnchor, ha.entry, hdisplay, getElem?_map_erase, if_pos]
      · rw [hframe.actualSizes] at hdisplay
        simp only [XmonadWayland.materializeAnchor, ha.entry, hdisplay]
        exact floatRect_setFloatRect ha.mem_metadata _
    · have hself : XmonadWayland.materializeAnchor w p' = p' := by
        simp only [XmonadWayland.materializeAnchor, hr.gone]
      rw [hself]
      exact Or.inr hr
  · exact h.untouched (frame_materializeAnchor w p') (untouched_materializeAnchor hw p')

/-- Materialising several anchors goes one window at a time. -/
theorem Holding.foldr_materializeAnchor (hs : p.windowSet.WellFormed) (hframe : PointerFrame p p')
    (h : Holding wid anchor r p p') (l : List WindowId) :
    Holding wid anchor r p (l.foldr XmonadWayland.materializeAnchor p') := by
  induction l with
  | nil => exact h
  | cons w l ih =>
      exact ih.materializeAnchor hs (hframe.trans (PointerFrame.foldr frame_materializeAnchor l p')) w

/-- Cancelling the operation leaves anchors alone. -/
theorem Holding.cancelPointer (h : Holding wid anchor r p p') :
    Holding wid anchor r p (cancelPointer p') :=
  h.untouched (frame_cancelPointer p') (Untouched.of_eq rfl rfl)

/-- Preparing an event keeps the anchor or records where its window is displayed. -/
theorem holding_preparePointerEvent (hs : p.windowSet.WellFormed) (ev : Event)
    (h : Anchored p wid anchor r) : Holding wid anchor r p (preparePointerEvent ev p) := by
  have hself : Holding wid anchor r p p := Or.inl h
  have hcancel := hself.cancelPointer
  have hfocused : Holding wid anchor r p (focusedGeometry p) := by
    unfold focusedGeometry
    split
    · exact hcancel.materializeAnchor hs (frame_cancelPointer p) _
    · exact hcancel
  have hkept := fun l => hself.foldr_materializeAnchor hs (PointerFrame.refl p) l
  have hcancelled := fun l => hcancel.foldr_materializeAnchor hs (frame_cancelPointer p) l
  have houtput : ∀ oid, Holding wid anchor r p (cancelOutput oid p) := by
    intro oid
    unfold cancelOutput
    simp only
    split
    · split
      · exact hcancelled _
      · exact hkept _
    · exact hkept _
  have hwindow : ∀ w, Holding wid anchor r p (cancelWindow w p) := by
    intro w
    unfold cancelWindow
    split
    · split
      · exact hcancelled [w]
      · exact hkept [w]
    · exact hkept [w]
  unfold preparePointerEvent
  split
  case h_1 action =>
    unfold preparePointerAction
    split <;> first
      | exact hself
      | exact hfocused
      | exact hcancel
  case h_4 => exact hcancel
  case h_9 oid => exact houtput oid
  all_goals first | exact hself | split
  all_goals first
    | exact hself
    | exact hcancel
    | exact hwindow _
    | exact houtput _
    | exact hcancel.foldr_materializeAnchor hs (frame_cancelPointer p) _

end Holding

/-! ## After the handler -/

/-- Preserving the anchor of a window leaves the others alone. -/
theorem untouched_preserveInvalidAnchor {w wid : WindowId} (h : w ≠ wid) (prepared next : Policy) :
    Untouched wid next (preserveInvalidAnchor prepared w next) := by
  unfold preserveInvalidAnchor
  split
  · exact Untouched.refl wid next
  · split
    · exact untouched_alterMetadata (Or.inl h) next
    · exact Untouched.refl wid next

/-- Settling leaves a window without an anchor alone. -/
theorem untouched_settleAnchors_of_gone {prepared : Policy} {wid : WindowId}
    (h : prepared.pointerAnchors[wid]? = none) (next : Policy) :
    Untouched wid next (settleAnchors prepared next) := by
  refine Untouched.foldr (fun w hw q => untouched_preserveInvalidAnchor ?_ prepared q) next
  rintro rfl
  obtain ⟨anchor, ha⟩ := mem_map_iff.mp (Std.ExtTreeMap.mem_keys.mp hw)
  exact Option.some_ne_none anchor (ha.symm.trans h)

/-- An anchor the handler invalidated is preserved as a float rectangle. -/
theorem floatRect_settleAnchors {prepared next : Policy} (hs : next.windowSet.WellFormed)
    {wid : WindowId} {rect : Rect} (hkey : wid ∈ prepared.pointerAnchors)
    (hinvalid : ¬anchorValid wid next = true) (hdisplay : displayedRect wid prepared = some rect)
    (hmem : wid ∈ next.windowMetadata) :
    (metadataFor (settleAnchors prepared next) wid).windowFloatRect = some rect := by
  have hfold : ∀ keys : List WindowId, wid ∈ keys →
      (metadataFor (keys.foldr (preserveInvalidAnchor prepared) next) wid).windowFloatRect
        = some rect := by
    intro keys hkeys
    induction keys with
    | nil => contradiction
    | cons w keys ih =>
        rw [List.foldr_cons]
        by_cases hw : w = wid
        · subst hw
          have hf := PointerFrame.foldr (frame_preserveInvalidAnchor prepared) keys next
          have hstill : ¬anchorValid w (keys.foldr (preserveInvalidAnchor prepared) next) = true :=
            fun hvalid => hinvalid ((anchorValid_frame hs hf (by
              rw [anchors_foldr_preserveInvalidAnchor])).mp hvalid)
          rw [preserveInvalidAnchor, if_neg hstill, hdisplay]
          exact floatRect_setFloatRect (hf.mem_metadata.mpr hmem) rect
        · rw [(untouched_preserveInvalidAnchor hw prepared _).floatRect]
          exact ih ((List.mem_cons.mp hkeys).resolve_left (Ne.symm hw))
  exact hfold _ (Std.ExtTreeMap.mem_keys.mpr hkey)

/-- Validation drops the anchors that do not hold. -/
theorem anchors_validatePointerState {p : Policy} {wid : WindowId} (h : ¬anchorValid wid p = true) :
    (validatePointerState p).pointerAnchors[wid]? = none := by
  simp only [validatePointerState, getElem?_map_filter]
  cases p.pointerAnchors[wid]? with
  | none => rfl
  | some anchor => rw [Option.filter_some, if_neg h]

/-- What becomes of a window after the handler. -/
theorem anchored_finish {prepared next : Policy} (hs : prepared.windowSet.WellFormed)
    (hs' : next.windowSet.WellFormed) {wid : WindowId} {anchor : PointerAnchor} {r : Rect}
    (h : Anchored prepared wid anchor r) (hmem : wid ∈ next.windowMetadata) :
    Untouched wid next (validatePointerState (settleAnchors prepared next))
      ∧ anchorValid wid next = true
    ∨ Rests (validatePointerState (settleAnchors prepared next)) wid
      (anchoredDisplay anchor r prepared.pointerActualSizes[wid]?) := by
  have hf := frame_settleAnchors prepared next
  have hanchors : (settleAnchors prepared next).pointerAnchors[wid]? = next.pointerAnchors[wid]? := by
    rw [anchors_settleAnchors]
  by_cases hvalid : anchorValid wid next = true
  · have hsettled := (anchorValid_frame hs' hf hanchors).mpr hvalid
    exact Or.inl ⟨(untouched_settleAnchors hs' hvalid prepared).trans
      (untouched_validatePointerState hsettled), hvalid⟩
  · have hsettled := fun hv => hvalid ((anchorValid_frame hs' hf hanchors).mp hv)
    exact Or.inr ⟨anchors_validatePointerState hsettled,
      floatRect_settleAnchors hs' h.mem_anchors hvalid (h.displayed hs) hmem⟩

/-- No anchor comes back after the handler. -/
theorem anchors_finish_of_gone {next : Policy} {wid : WindowId}
    (h : next.pointerAnchors[wid]? = none) (prepared : Policy) :
    (validatePointerState (settleAnchors prepared next)).pointerAnchors[wid]? = none := by
  rw [← anchors_settleAnchors prepared next] at h
  exact ((frame_validatePointerState _).anchors wid).elim (fun he => he.trans h) id

/-- A window at rest stays so. -/
theorem Rests.finish {prepared next : Policy} {wid : WindowId} {rect : Rect}
    (h : prepared.pointerAnchors[wid]? = none) (hnext : Rests next wid rect) :
    Rests (validatePointerState (settleAnchors prepared next)) wid rect :=
  ⟨anchors_finish_of_gone hnext.gone prepared,
    (untouched_settleAnchors_of_gone h next).floatRect.trans hnext.floatRect⟩

/-! ## One event -/

/-- What an event does to an anchored window that was displayed at `rect`. -/
inductive AnchorStep (p : Policy) (ev : Event) (p' : Policy) (wid : WindowId)
    (anchor : PointerAnchor) (r rect : Rect) : Prop
  | stays (r' : Rect) : p'.pointerAnchors[wid]? = some anchor →
      (metadataFor p' wid).windowFloatRect = some r' →
      r' = r ∨ (∃ sid dx dy, ev = .pointerMoved sid dx dy) ∧ ev.touches p wid →
      AnchorStep p ev p' wid anchor r rect
  | starts (anchor' : PointerAnchor) : p'.pointerAnchors[wid]? = some anchor' →
      (metadataFor p' wid).windowFloatRect = some rect → anchor'.anchorInitialRect = rect →
      Within rect anchor'.anchorArea → (∃ sid edges x y, ev = .pointerStarted sid wid edges x y) →
      AnchorStep p ev p' wid anchor r rect
  | rests : Rests p' wid rect → AnchorStep p ev p' wid anchor r rect
  | placed (action : Action) : ev = .actionRequested action → action.isPlacing →
      focusedWindow p = some wid → p'.pointerAnchors[wid]? = none →
      (metadataFor (preparePointerEvent ev p) wid).windowFloatRect = some rect →
      AnchorStep p ev p' wid anchor r rect

/-- A materialised anchor is gone. -/
theorem anchors_materializeAnchor_self (wid : WindowId) (p : Policy) :
    (materializeAnchor wid p).pointerAnchors[wid]? = none := by
  unfold materializeAnchor
  split
  · next h => exact h
  · simp only [getElem?_map_erase, if_pos]

section Step

variable {p : Policy} {wid : WindowId} {anchor : PointerAnchor} {r : Rect}

/-- A placing action finds the anchor of the focused window materialised. -/
theorem prepared_of_placing (h : Anchored p wid anchor r) {action : Action}
    (hplacing : action.isPlacing) (hlock : p.sessionLocked = false)
    (hpeek : p.windowSet.peek = some wid) : focusedWindow p = some wid
      ∧ (preparePointerEvent (.actionRequested action) p).pointerAnchors[wid]? = none := by
  have houtputs : ¬p.outputs.isEmpty := fun hempty => by
    have hout := h.holds.output
    rw [Std.ExtTreeMap.isEmpty_iff.mp hempty, Std.ExtTreeMap.getElem?_empty] at hout
    contradiction
  have hfocus : focusedWindow p = some wid := by
    rw [focusedWindow, if_neg, hpeek]
    exact not_or.mpr ⟨Bool.eq_false_iff.mp hlock, houtputs⟩
  have hprep : preparePointerEvent (.actionRequested action) p
      = materializeAnchor wid (cancelPointer p) := by
    cases action with
    | moveDirection direction => simp only [preparePointerEvent, preparePointerAction,
        focusedGeometry, hfocus]
    | resize axis amount => simp only [preparePointerEvent, preparePointerAction,
        focusedGeometry, hfocus]
    | _ => contradiction
  exact ⟨hfocus, hprep ▸ anchors_materializeAnchor_self wid _⟩

/-- The handler left the window alone. -/
theorem AnchorStep.of_untouched {ev : Event} {prepared next : Policy}
    (hs : prepared.windowSet.WellFormed) (hs' : next.windowSet.WellFormed)
    (hframe : PointerFrame p prepared) (hhold : Holding wid anchor r p prepared)
    (hu : Untouched wid prepared next) (hmem : wid ∈ next.windowMetadata) :
    AnchorStep p ev (validatePointerState (settleAnchors prepared next)) wid anchor r
      (anchoredDisplay anchor r p.pointerActualSizes[wid]?) := by
  rcases hhold with ha | hr
  · rcases anchored_finish hs hs' ha hmem with ⟨hkeep, -⟩ | hrests
    · exact .stays r (hkeep.anchor.trans (hu.anchor.trans ha.entry))
        (hkeep.floatRect.trans (hu.floatRect.trans ha.floatRect)) (Or.inl rfl)
    · exact .rests (hframe.actualSizes ▸ hrests)
  · exact .rests (Rests.finish hr.gone (hr.untouched hu))

/-- An accepted start on the window. -/
theorem AnchorStep.of_start {tags : List WorkspaceId} (hc : Consistent tags p)
    (hz : SizesPositive p) (h : Anchored p wid anchor r) {sid : SeatId} {edges : Nat} {x y : Int}
    (hs' : (startPointer sid wid edges x y p).windowSet.WellFormed)
    (hmem : wid ∈ (startPointer sid wid edges x y p).windowMetadata) :
    AnchorStep p (.pointerStarted sid wid edges x y)
      (validatePointerState (settleAnchors p (startPointer sid wid edges x y p))) wid anchor r
      (anchoredDisplay anchor r p.pointerActualSizes[wid]?) := by
  have hs := hc.wellFormed
  have hdisplay := h.displayed hs
  rcases startPointer_cases sid wid edges x y p with
    heq | ⟨q, size, initial, capture, -, hsize, hinitial, hcapture, heq⟩
  · rw [heq] at hs' hmem ⊢
    exact .of_untouched hs hs' (PointerFrame.refl p) (Or.inl h) (Untouched.refl wid p) hmem
  · have hrect := Option.some.inj (hinitial.symm.trans hdisplay)
    rcases anchored_finish hs hs' h hmem with ⟨hkeep, -⟩ | hrests
    · obtain ⟨hw, hh⟩ := displayedRect_extent hsize hinitial
      obtain ⟨hpw, hph⟩ := hz wid size hsize
      rw [← hrect]
      refine .starts (capturedOperation sid wid initial p capture).anchor ?_ ?_ rfl
        (within_of_captureStart hcapture (hw ▸ hpw) (hh ▸ hph)) ⟨sid, edges, x, y, rfl⟩
      · rw [hkeep.anchor, heq]
        simp only [getElem?_map_insert, if_pos]
      · rw [hkeep.floatRect, heq]
        exact floatRect_setFloatRect ((frame_materializeAnchor wid p).mem_metadata.mpr
          h.mem_metadata) initial
    · exact .rests hrests

/-- A motion of the window's operation. -/
theorem AnchorStep.of_motion (hs : p.windowSet.WellFormed) (h : Anchored p wid anchor r)
    {sid : SeatId} {dx dy : Int} (htouch : (Event.pointerMoved sid dx dy).touches p wid) :
    AnchorStep p (.pointerMoved sid dx dy)
      (validatePointerState (settleAnchors p (movePointer sid dx dy p))) wid anchor r
      (anchoredDisplay anchor r p.pointerActualSizes[wid]?) := by
  have hframe := frame_movePointer sid dx dy p
  have hs' : (movePointer sid dx dy p).windowSet.WellFormed := hframe.windowSet ▸ hs
  have hmem := hframe.mem_metadata.mpr h.mem_metadata
  obtain ⟨op, hop, hseat, hwid⟩ := htouch
  by_cases hvalid : operationValid op p
  · have hmove : movePointer sid dx dy p = setFloatRect wid (dragGeometry op dx dy) p := by
      simp only [movePointer, hop, hseat, hvalid, and_self, if_pos, hwid]
    rcases anchored_finish hs hs' h hmem with ⟨hkeep, -⟩ | hrests
    · refine .stays (dragGeometry op dx dy) ?_ ?_ (Or.inr ⟨⟨sid, dx, dy, rfl⟩, op, hop, hseat, hwid⟩)
      · rw [hkeep.anchor, hmove]
        exact h.entry
      · rw [hkeep.floatRect, hmove]
        exact floatRect_setFloatRect h.mem_metadata _
    · exact .rests hrests
  · have hmove : movePointer sid dx dy p = p := by
      simp only [movePointer, hop, hvalid, and_false, if_neg, Bool.false_eq_true, not_false_eq_true]
    rw [hmove]
    exact .of_untouched hs hs (PointerFrame.refl p) (Or.inl h) (Untouched.refl wid p) h.mem_metadata

/-- Every event keeps the anchor with the float rectangle of its window, starts anew
where the window is displayed, or leaves that as the float rectangle. -/
theorem anchorStep (cfg : Config) {ev : Event} {tags : List WorkspaceId} (hc : Consistent tags p)
    (hz : SizesPositive p) (h : Anchored p wid anchor r) (hgone : ev ≠ .windowRemoved wid) :
    AnchorStep p ev (step cfg p ev) wid anchor r
      (anchoredDisplay anchor r p.pointerActualSizes[wid]?) := by
  have hframe := frame_preparePointerEvent ev p
  have hc' := hc.frame hframe
  have hnext := consistent_handleOrdinaryEvent cfg ev hc'
  have hhold := holding_preparePointerEvent hc.wellFormed ev h
  have hwid : wid ∈ p.windowSet.windows := (hc.metadata wid).mp h.mem_metadata
  have hmem : wid ∈ (handleOrdinaryEvent cfg ev (preparePointerEvent ev p)).1.windowMetadata := by
    rw [hnext.metadata, mem_windows_handleOrdinaryEvent cfg hc'.wellFormed, hframe.windowSet]
    cases ev with
    | windowAdded w => exact Or.inl hwid
    | windowRemoved w => exact ⟨hwid, fun heq => hgone (heq ▸ rfl)⟩
    | _ => exact hwid
  by_cases htouch : ev.touches (preparePointerEvent ev p) wid
  · cases ev with
    | pointerStarted sid w edges x y =>
        obtain rfl : w = wid := htouch
        have hstep : step cfg p (.pointerStarted sid w edges x y) = validatePointerState
            (settleAnchors p (handleOrdinaryEvent cfg (.pointerStarted sid w edges x y) p).1) := rfl
        have hs' : (handleOrdinaryEvent cfg (.pointerStarted sid w edges x y) p).1.windowSet.WellFormed :=
          hnext.wellFormed
        have hmem' : w ∈ (handleOrdinaryEvent cfg (.pointerStarted sid w edges x y) p).1.windowMetadata :=
          hmem
        rw [hstep]
        simp only [handleOrdinaryEvent] at hs' hmem' ⊢
        split
        · exact .of_untouched hc.wellFormed hc.wellFormed hframe (Or.inl h)
            (Untouched.of_eq rfl rfl) h.mem_metadata
        · next hmode =>
          rw [if_neg hmode] at hs' hmem'
          exact .of_start hc hz h hs' hmem'
    | pointerMoved sid dx dy => exact .of_motion hc.wellFormed h htouch
    | windowAdded w =>
        obtain ⟨rfl, -, hnew⟩ := htouch
        exact absurd (member_iff.mpr (hframe.windowSet ▸ hwid)) hnew
    | windowRemoved w => exact absurd (congrArg Event.windowRemoved htouch) hgone
    | actionRequested action =>
        obtain ⟨hplacing, hlock, hpeek⟩ := htouch
        rw [hframe.sessionLocked] at hlock
        rw [hframe.windowSet] at hpeek
        obtain ⟨hfocus, hnone⟩ := prepared_of_placing h hplacing hlock hpeek
        have hrests := hhold.resolve_left fun ha =>
          Option.some_ne_none anchor (ha.entry.symm.trans hnone)
        refine .placed action rfl hplacing hfocus (anchors_finish_of_gone ?_ _) hrests.floatRect
        exact congrArg (·[wid]?) (pointer_requestAction cfg action _).1 |>.trans hnone
    | _ => exact absurd htouch id
  · exact .of_untouched hc'.wellFormed hnext.wellFormed hframe hhold (untouched_handler cfg htouch)
      hmem

end Step

/-! ## Every run -/

/-- An anchor that survives the event was left by the handler, and it holds. -/
theorem untouched_finish_of_anchor {next : Policy} (hs : next.windowSet.WellFormed)
    (prepared : Policy) {wid : WindowId} {anchor : PointerAnchor}
    (h : (validatePointerState (settleAnchors prepared next)).pointerAnchors[wid]? = some anchor) :
    next.pointerAnchors[wid]? = some anchor
      ∧ Untouched wid next (validatePointerState (settleAnchors prepared next)) := by
  have hf := frame_settleAnchors prepared next
  by_cases hvalid : anchorValid wid (settleAnchors prepared next) = true
  · have hnext := (anchorValid_frame hs hf (by rw [anchors_settleAnchors])).mp hvalid
    have hu := (untouched_settleAnchors hs hnext prepared).trans (untouched_validatePointerState hvalid)
    exact ⟨hu.anchor.symm.trans h, hu⟩
  · exact absurd ((anchors_validatePointerState hvalid).symm.trans h) (Option.some_ne_none _).symm

/-- Only a start on the window gives it an anchor. -/
theorem anchors_handleOrdinaryEvent (cfg : Config) {ev : Event} {p : Policy} {wid : WindowId}
    (hstart : ∀ sid edges x y, ev ≠ .pointerStarted sid wid edges x y) :
    (handleOrdinaryEvent cfg ev p).1.pointerAnchors[wid]? = p.pointerAnchors[wid]? := by
  by_cases htouch : ev.touches p wid
  · cases ev with
    | pointerStarted sid w edges x y =>
        obtain rfl : w = wid := htouch
        exact absurd rfl (hstart sid edges x y)
    | pointerMoved sid dx dy =>
        simp only [handleOrdinaryEvent, movePointer]
        split
        · split <;> rfl
        · rfl
    | windowAdded w =>
        simp only [handleOrdinaryEvent]
        split <;> rfl
    | windowRemoved w => rfl
    | actionRequested action => exact congrArg (·[wid]?) (pointer_requestAction cfg action p).1
    | _ => exact absurd htouch id
  · exact (untouched_handler cfg htouch).anchor

/-- The acknowledged size of a window that stays. -/
theorem actualSize_handleOrdinaryEvent (cfg : Config) {ev : Event} {p : Policy} {wid : WindowId}
    (hsize : ∀ width height, ev ≠ .windowActualSize wid width height)
    (hgone : ev ≠ .windowRemoved wid) :
    (handleOrdinaryEvent cfg ev p).1.pointerActualSizes[wid]? = p.pointerActualSizes[wid]? := by
  cases ev with
  | pointerStarted sid w edges x y =>
      simp only [handleOrdinaryEvent]
      split
      · rfl
      · rcases startPointer_cases sid w edges x y p with
          heq | ⟨q, size, initial, capture, -, -, -, -, heq⟩
        · rw [heq]
        · rw [heq]
          exact congrArg (·[wid]?) ((frame_materializeAnchor w p).trans
            (frame_setFloatRect w initial _)).actualSizes
  | pointerMoved sid dx dy => exact congrArg (·[wid]?) (frame_movePointer sid dx dy p).actualSizes
  | pointerReleased sid => exact congrArg (·[wid]?) (frame_endPointer sid p).actualSizes
  | pointerCancelled sid => exact congrArg (·[wid]?) (frame_endPointer sid p).actualSizes
  | windowActualSize w width height =>
      have hne : w ≠ wid := fun heq => hsize width height (heq ▸ rfl)
      simp only [handleOrdinaryEvent]
      split
      · simp only [getElem?_map_insert, if_neg hne]
      · rfl
  | windowAdded w =>
      simp only [handleOrdinaryEvent]
      split <;> rfl
  | windowRemoved w =>
      have hne : w ≠ wid := fun heq => hgone (heq ▸ rfl)
      simp only [handleOrdinaryEvent, getElem?_map_erase, if_neg hne]
  | windowParent w parent =>
      simp only [handleOrdinaryEvent, setParent]
      split
      · rfl
      · split <;> rfl
  | windowFullscreen w enabled =>
      simp only [handleOrdinaryEvent]
      split <;> rfl
  | windowAppId w text =>
      simp only [handleOrdinaryEvent, recordText]
      split <;> rfl
  | windowTitle w text =>
      simp only [handleOrdinaryEvent, recordText]
      split <;> rfl
  | focusRequested w =>
      simp only [handleOrdinaryEvent]
      split <;> rfl
  | actionRequested action => exact congrArg (·[wid]?) (pointer_requestAction cfg action p).2
  | _ => rfl

/-- Only an acknowledgement of the window, or its end, changes its actual size. -/
theorem actualSize_step (cfg : Config) {ev : Event} {p : Policy} {wid : WindowId}
    (hsize : ∀ width height, ev ≠ .windowActualSize wid width height)
    (hgone : ev ≠ .windowRemoved wid) :
    (step cfg p ev).pointerActualSizes[wid]? = p.pointerActualSizes[wid]? := by
  have hnext := actualSize_handleOrdinaryEvent cfg (p := preparePointerEvent ev p) hsize hgone
  rw [(frame_preparePointerEvent ev p).actualSizes] at hnext
  rw [← hnext]
  exact congrArg (·[wid]?) (frame_finish _ _).actualSizes

/-- A start that gives a window an anchor records where it is displayed. -/
theorem floatRect_of_started {p : Policy} {tags : List WorkspaceId} (hc : Consistent tags p)
    (cfg : Config) {sid : SeatId} {wid : WindowId} {edges : Nat} {x y : Int}
    {anchor : PointerAnchor} (hnone : p.pointerAnchors[wid]? = none)
    (h : (handleOrdinaryEvent cfg (.pointerStarted sid wid edges x y) p).1.pointerAnchors[wid]?
      = some anchor) :
    ∃ r, (metadataFor (handleOrdinaryEvent cfg (.pointerStarted sid wid edges x y) p).1
      wid).windowFloatRect = some r := by
  have hsame : ∀ p' : Policy, p'.pointerAnchors = p.pointerAnchors →
      p'.pointerAnchors[wid]? ≠ some anchor := fun p' heq hsome => by
    rw [heq, hnone] at hsome
    contradiction
  simp only [handleOrdinaryEvent] at h ⊢
  split at h
  · exact absurd h (hsame _ rfl)
  · next hmode =>
    rw [if_neg hmode]
    rcases startPointer_cases sid wid edges x y p with
      heq | ⟨q, size, initial, capture, hq, -, -, -, heq⟩
    · rw [heq] at h
      exact absurd h (hsame _ rfl)
    · refine ⟨initial, ?_⟩
      rw [heq]
      exact floatRect_setFloatRect ((frame_materializeAnchor wid p).mem_metadata.mpr
        ((hc.metadata wid).mpr (mem_windows_of_windowPlacement hq))) initial

/-- Every anchored window of a reachable policy has a float rectangle, and its anchor
holds. -/
theorem anchored_of_reachable {cfg : Config} {p : Policy} (h : Reachable cfg p) {wid : WindowId}
    {anchor : PointerAnchor} (ha : p.pointerAnchors[wid]? = some anchor) :
    ∃ r, Anchored p wid anchor r := by
  suffices hfloat : ∃ r, (metadataFor p wid).windowFloatRect = some r by
    obtain ⟨r, hr⟩ := hfloat
    have hvalid := (settled_of_reachable h).anchors wid (mem_map_iff.mpr ⟨anchor, ha⟩)
    obtain ⟨anchor', ha', hholds⟩ := (anchorValid_iff (managed_of_reachable h).wellFormed).mp hvalid
    rw [ha, Option.some.injEq] at ha'
    exact ⟨r, ha, ha' ▸ hholds, hr⟩
  induction h generalizing anchor with
  | initial hcfg => simp [initialPolicy] at ha
  | @event cfg p ev h ih =>
      have hc := (managed_of_reachable h).toConsistent
      have hprep := frame_preparePointerEvent ev p
      have hgone : ev ≠ .windowRemoved wid := by
        rintro rfl
        have hmem := (managed_of_reachable (h.event (.windowRemoved wid))).anchors wid
          (mem_map_iff.mpr ⟨anchor, ha⟩)
        exact ((mem_windows_step h _ _).mp hmem).2 rfl
      cases hbefore : p.pointerAnchors[wid]? with
      | some anchor' =>
          obtain ⟨r, hr⟩ := ih hbefore
          have hvalid := (settled_of_reachable h).anchors wid (mem_map_iff.mpr ⟨_, hbefore⟩)
          obtain ⟨a, ha', hholds⟩ := (anchorValid_iff hc.wellFormed).mp hvalid
          cases anchorStep cfg hc (sizesPositive_of_reachable h) ⟨ha', hholds, hr⟩ hgone with
          | stays r' _ hr' _ => exact ⟨r', hr'⟩
          | starts _ _ hr' _ _ _ => exact ⟨_, hr'⟩
          | rests hrests => exact ⟨_, hrests.floatRect⟩
          | placed _ _ _ _ hnone _ => exact absurd (hnone.symm.trans ha) (Option.some_ne_none _).symm
      | none =>
          have hnone : (preparePointerEvent ev p).pointerAnchors[wid]? = none :=
            (hprep.anchors wid).elim (fun he => he.trans hbefore) id
          have hc' := hc.frame hprep
          obtain ⟨hnext, hu⟩ := untouched_finish_of_anchor
            (consistent_handleOrdinaryEvent cfg ev hc').wellFormed _ ha
          by_cases hstart : ∃ sid edges x y, ev = .pointerStarted sid wid edges x y
          · obtain ⟨sid, edges, x, y, rfl⟩ := hstart
            obtain ⟨r, hr⟩ := floatRect_of_started hc cfg hnone hnext
            exact ⟨r, hu.floatRect.trans hr⟩
          · have hkeep : _ = (preparePointerEvent ev p).pointerAnchors[wid]? :=
              anchors_handleOrdinaryEvent cfg fun sid edges x y heq => hstart ⟨sid, edges, x, y, heq⟩
            exact absurd ((hkeep.trans hnone).symm.trans hnext) (Option.some_ne_none _).symm
  | reload _ _ _ ih => exact ih ha

/-! ## A start where the window is displayed -/

/-- A window of the initial size stays where it is. -/
theorem anchoredOrigin_self {origin extent areaOrigin areaExtent : Int} (leading : Bool)
    (h : Fits origin extent areaOrigin areaExtent)
    (hrange : Fits areaOrigin areaExtent minInt32 4294967296) :
    anchoredOrigin leading origin extent origin extent areaOrigin areaExtent = origin := by
  obtain ⟨h1, h2, h3⟩ := h
  obtain ⟨h4, h5, h6⟩ := hrange
  have hdesired : (if leading then origin + extent - extent else origin) = origin := by
    split <;> omega
  simp only [anchoredOrigin, hdesired, abiCoordinate, minInt32, maxInt32] at *
  omega

/-- A window displayed at the initial rectangle of its anchor is displayed there. -/
theorem anchoredDisplay_initial {anchor : PointerAnchor} {rect : Rect} {size : Option (Int × Int)}
    (hn : Normal anchor.anchorArea) (hin : Within rect anchor.anchorArea)
    (hinitial : anchor.anchorInitialRect = rect)
    (hsize : ∀ s, size = some s → rect.rectWidth = s.1 ∧ rect.rectHeight = s.2) :
    anchoredDisplay anchor rect size = rect := by
  have hextent : size.getD (rect.rectWidth, rect.rectHeight) = (rect.rectWidth, rect.rectHeight) := by
    cases size with
    | none => rfl
    | some s => exact Prod.ext (hsize s rfl).1.symm (hsize s rfl).2.symm
  simp only [anchoredDisplay, confineRect_of_within hn hin, hextent, anchoredRect, hinitial,
    anchoredOrigin_self _ hin.horizontal hn.range.horizontal,
    anchoredOrigin_self _ hin.vertical hn.range.vertical]

/-- **Anchors**: a window that loses its anchor, or gets another one, has the rectangle it
was displayed at as its float rectangle, unless it has the focus and is placed anew from
that rectangle; a window that keeps its anchor is displayed where it was, unless its client
acknowledges a size or its operation moves. -/
theorem anchor_keeps_position {cfg : Config} {p : Policy} (h : Reachable cfg p) (ev : Event)
    {wid : WindowId} {anchor : PointerAnchor} (ha : p.pointerAnchors[wid]? = some anchor)
    (hwid : wid ∈ (step cfg p ev).windowSet.windows) :
    let p' := step cfg p ev
    ∃ rect, displayedRect wid p = some rect
      ∧ (p'.pointerAnchors[wid]? ≠ some anchor →
        (metadataFor p' wid).windowFloatRect = some rect
          ∨ ∃ action, ev = .actionRequested action ∧ action.isPlacing
            ∧ focusedWindow p = some wid
            ∧ (metadataFor (preparePointerEvent ev p) wid).windowFloatRect = some rect)
      ∧ (p'.pointerAnchors[wid]? = some anchor →
        displayedRect wid p' = some rect
          ∨ (∃ width height, ev = .windowActualSize wid width height)
          ∨ ∃ sid dx dy op, ev = .pointerMoved sid dx dy ∧ p.pointerOperation = some op
            ∧ op.pointerSeat = sid ∧ op.pointerWindow = wid) := by
  intro p'
  have h' := h.event ev
  have hs := (managed_of_reachable h).wellFormed
  have hs' := (managed_of_reachable h').wellFormed
  have hgone : ev ≠ .windowRemoved wid := by
    rintro rfl
    exact ((mem_windows_step h _ _).mp hwid).2 rfl
  obtain ⟨r, hanchored⟩ := anchored_of_reachable h ha
  have hdisplay := hanchored.displayed hs
  -- What the window is displayed at afterwards, if its anchor is kept.
  have hafter : ∀ r', p'.pointerAnchors[wid]? = some anchor →
      (metadataFor p' wid).windowFloatRect = some r' → ∀ size, p'.pointerActualSizes[wid]? = size →
      displayedRect wid p' = some (anchoredDisplay anchor r' size) := by
    rintro r' hentry hr' size rfl
    obtain ⟨r'', hkept⟩ := anchored_of_reachable h' hentry
    obtain rfl : r'' = r' := Option.some.inj (hkept.floatRect.symm.trans hr')
    exact hkept.displayed hs'
  refine ⟨_, hdisplay, ?_⟩
  cases anchorStep cfg (managed_of_reachable h).toConsistent (sizesPositive_of_reachable h)
    hanchored hgone with
  | stays r' hentry hr' hor =>
      refine ⟨fun hne => absurd hentry hne, fun _ => ?_⟩
      rcases hor with rfl | ⟨⟨sid, dx, dy, rfl⟩, op, hop, hseat, hop'⟩
      · by_cases hsize : ∃ width height, ev = .windowActualSize wid width height
        · exact Or.inr (Or.inl hsize)
        · exact Or.inl (hafter r' hentry hr' _ (actualSize_step cfg
            (fun width height heq => hsize ⟨width, height, heq⟩) hgone))
      · exact Or.inr (Or.inr ⟨sid, dx, dy, op, rfl, hop, hseat, hop'⟩)
  | starts anchor' hentry hr' hinitial hwithin hstart =>
      refine ⟨fun _ => Or.inl hr', fun hkept => Or.inl ?_⟩
      obtain rfl : anchor' = anchor := Option.some.inj (hentry.symm.trans hkept)
      obtain ⟨sid, edges, x, y, rfl⟩ := hstart
      obtain ⟨r'', hstarted⟩ := anchored_of_reachable h' hkept
      have hsame : p'.pointerActualSizes[wid]? = p.pointerActualSizes[wid]? :=
        actualSize_step cfg (fun _ _ => Event.noConfusion) Event.noConfusion
      rw [hafter _ hkept hr' _ hsame, anchoredDisplay_initial
        (normal_areaFor (outputsNormal_of_reachable h') hstarted.holds.area) hwithin hinitial]
      exact fun size hsize => displayedRect_extent hsize hdisplay
  | rests hrests =>
      exact ⟨fun _ => Or.inl hrests.floatRect,
        fun hkept => absurd (hrests.gone.symm.trans hkept) (Option.some_ne_none _).symm⟩
  | placed action heq hplacing hfocus hnone hprep =>
      exact ⟨fun _ => Or.inr ⟨action, heq, hplacing, hfocus, hprep⟩,
        fun hkept => absurd (hnone.symm.trans hkept) (Option.some_ne_none _).symm⟩

/-- The output of a dragged window goes, its rectangle stays. -/
theorem anchor_keeps_position_default :
    let p := runEvents defaultConfig [.outputUpsert 1 ⟨0, 0, 800, 600⟩, .windowAdded 10,
      .actionRequested .toggleFloat, .windowActualSize 10 400 300, .pointerStarted 5 10 5 0 0,
      .pointerMoved 5 10 20, .pointerReleased 5, .windowActualSize 10 380 270]
      (initialPolicy defaultConfig)
    displayedRect 10 p = some ⟨220, 180, 380, 270⟩
      ∧ (metadataFor (step defaultConfig p (.outputRemoved 1)) 10).windowFloatRect
        = some ⟨220, 180, 380, 270⟩ := by
  intro p
  have hanchor : p.pointerAnchors[10]? = some ⟨5, ⟨200, 150, 400, 300⟩, 1, ⟨0, 0, 800, 600⟩,
      ⟨0, 0, 800, 600⟩, 1⟩ := by decide +kernel
  obtain ⟨rect, hdisplay, hlost, -⟩ := anchor_keeps_position
    (reachable_runEvents validateConfig_defaultConfig [.outputUpsert 1 ⟨0, 0, 800, 600⟩,
      .windowAdded 10, .actionRequested .toggleFloat, .windowActualSize 10 400 300,
      .pointerStarted 5 10 5 0 0, .pointerMoved 5 10 20, .pointerReleased 5,
      .windowActualSize 10 380 270]) (.outputRemoved 1) hanchor (by decide +kernel)
  have hrect : displayedRect 10 p = some ⟨220, 180, 380, 270⟩ := by decide +kernel
  obtain rfl := Option.some.inj (hrect.symm.trans hdisplay)
  refine ⟨hrect, (hlost (by decide +kernel)).resolve_right ?_⟩
  rintro ⟨action, heq, -⟩
  contradiction

end XmonadWayland
