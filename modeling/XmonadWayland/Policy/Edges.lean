import XmonadWayland.Policy.Anchors
import XmonadWayland.Policy.Drag
import XmonadWayland.StackSet.Order

/-!
# XmonadWayland.Policy.Edges

What a grab shows.  An accepted start anchors the window where it is displayed, so it is
displayed there again.  While the anchor holds, a client may acknowledge any size: the edge
opposite to the dragged one stays where it was at the start, as long as the window does not
have to leave the area for it.
-/

namespace XmonadWayland

open StackSet

/-! ## The initial rectangle of an anchor -/

/-- Every anchor was captured with its window inside the area. -/
def AnchorsInside (p : Policy) : Prop :=
  ∀ (wid : WindowId) (anchor : PointerAnchor), p.pointerAnchors[wid]? = some anchor →
    Within anchor.anchorInitialRect anchor.anchorArea

theorem AnchorsInside.frame {p p' : Policy} (h : AnchorsInside p) (hframe : PointerFrame p p') :
    AnchorsInside p' := by
  intro wid anchor ha
  have hbefore := (hframe.anchors wid).resolve_right fun hnone =>
    Option.some_ne_none anchor (ha.symm.trans hnone)
  exact h wid anchor (hbefore.symm.trans ha)

/-- A start anchors a window inside its area. -/
theorem anchorsInside_startPointer {p : Policy} (hz : SizesPositive p) (h : AnchorsInside p)
    (sid : SeatId) (wid : WindowId) (edges : Nat) (x y : Int) :
    AnchorsInside (startPointer sid wid edges x y p) := by
  rcases startPointer_cases sid wid edges x y p with
    heq | ⟨q, size, initial, capture, -, hsize, hinitial, hcapture, heq⟩
  · rw [heq]
    exact h
  · obtain ⟨hw, hh⟩ := displayedRect_extent hsize hinitial
    obtain ⟨hpw, hph⟩ := hz wid size hsize
    have hwithin := within_of_captureStart hcapture (hw ▸ hpw) (hh ▸ hph)
    intro w anchor ha
    rw [heq, getElem?_map_insert] at ha
    split at ha
    · exact Option.some.inj ha ▸ hwithin
    · exact h.frame (frame_materializeAnchor wid p) w anchor ha

/-- The handler keeps anchors inside. -/
theorem anchorsInside_handleOrdinaryEvent (cfg : Config) (ev : Event) {p : Policy}
    (hz : SizesPositive p) (h : AnchorsInside p) :
    AnchorsInside (handleOrdinaryEvent cfg ev p).1 := by
  by_cases hstart : ∃ sid wid edges x y, ev = .pointerStarted sid wid edges x y
  · obtain ⟨sid, wid, edges, x, y, rfl⟩ := hstart
    simp only [handleOrdinaryEvent]
    split
    · exact h
    · exact anchorsInside_startPointer hz h sid wid edges x y
  · intro wid anchor ha
    rw [anchors_handleOrdinaryEvent cfg fun sid edges x y heq =>
      hstart ⟨sid, wid, edges, x, y, heq⟩] at ha
    exact h wid anchor ha

/-- Anchors are always inside. -/
theorem anchorsInside_of_reachable {cfg : Config} {p : Policy} (h : Reachable cfg p) :
    AnchorsInside p := by
  induction h with
  | initial hcfg => exact fun wid anchor ha => by simp [initialPolicy] at ha
  | @event cfg p ev h ih =>
      have hprep := frame_preparePointerEvent ev p
      have hz : SizesPositive (preparePointerEvent ev p) := fun wid size hsize =>
        sizesPositive_of_reachable h wid size (hprep.actualSizes ▸ hsize)
      exact (anchorsInside_handleOrdinaryEvent cfg ev hz (ih.frame hprep)).frame (frame_finish _ _)
  | reload _ _ _ ih => exact ih

/-! ## Anchored windows -/

/-- One axis of an anchored window: inside the area if it fits, and with its far edge where it
was if it leads. -/
theorem anchoredOrigin_spec {initial extent size areaOrigin areaExtent : Int}
    (leading : Bool) (actual : Int) (h : Fits initial extent areaOrigin areaExtent)
    (hrange : Fits areaOrigin areaExtent minInt32 4294967296) (hsize : 1 ≤ size) :
    let origin := anchoredOrigin leading initial extent actual size areaOrigin areaExtent
    (leading = true → areaOrigin ≤ initial + extent - size → origin + size = initial + extent)
      ∧ (size ≤ areaExtent → Fits origin size areaOrigin areaExtent) := by
  obtain ⟨h1, h2, h3⟩ := h
  obtain ⟨h4, h5, h6⟩ := hrange
  simp only [anchoredOrigin, abiCoordinate, minInt32, maxInt32] at *
  constructor
  · intro hlead hroom
    rw [if_pos hlead]
    omega
  · intro hfit
    exact ⟨by split <;> omega, hsize, by split <;> omega⟩

/-- An anchored window displayed at `d`: the edge opposite to the dragged one is that of the
initial rectangle, if the origin this takes is inside the area; a window that fits is inside. -/
structure HoldsEdges (anchor : PointerAnchor) (d : Rect) : Prop where
  right : anchor.anchorEdges &&& 4 ≠ 0 →
    anchor.anchorArea.rectX
      ≤ anchor.anchorInitialRect.rectX + anchor.anchorInitialRect.rectWidth - d.rectWidth →
    d.rectX + d.rectWidth
      = anchor.anchorInitialRect.rectX + anchor.anchorInitialRect.rectWidth
  bottom : anchor.anchorEdges &&& 1 ≠ 0 →
    anchor.anchorArea.rectY
      ≤ anchor.anchorInitialRect.rectY + anchor.anchorInitialRect.rectHeight - d.rectHeight →
    d.rectY + d.rectHeight
      = anchor.anchorInitialRect.rectY + anchor.anchorInitialRect.rectHeight
  inside : d.rectWidth ≤ anchor.anchorArea.rectWidth →
    d.rectHeight ≤ anchor.anchorArea.rectHeight → Within d anchor.anchorArea

/-- An anchored window keeps the edges that are not dragged. -/
theorem holdsEdges_anchoredDisplay {anchor : PointerAnchor} {r : Rect} {size : Option (Int × Int)}
    (hn : Normal anchor.anchorArea) (hin : Within anchor.anchorInitialRect anchor.anchorArea)
    (hsize : ∀ s, size = some s → 1 ≤ s.1 ∧ 1 ≤ s.2) :
    HoldsEdges anchor (anchoredDisplay anchor r size) := by
  have hproposed := within_confineRect hn r
  obtain ⟨hw, hh⟩ : 1 ≤ (anchoredDisplay anchor r size).rectWidth
      ∧ 1 ≤ (anchoredDisplay anchor r size).rectHeight := by
    cases size with
    | none => exact ⟨hproposed.horizontal.pos, hproposed.vertical.pos⟩
    | some s => exact hsize s rfl
  have hx := anchoredOrigin_spec (anchor.anchorEdges &&& 4 ≠ 0)
    (confineRect anchor.anchorArea r).rectX hin.horizontal hn.range.horizontal hw
  have hy := anchoredOrigin_spec (anchor.anchorEdges &&& 1 ≠ 0)
    (confineRect anchor.anchorArea r).rectY hin.vertical hn.range.vertical hh
  exact ⟨fun he => hx.1 (by simpa using he), fun he => hy.1 (by simpa using he),
    fun hfitw hfith => ⟨hx.2 hfitw, hy.2 hfith⟩⟩

/-- The size an anchored window is displayed at is the acknowledged one. -/
theorem anchoredDisplay_size (anchor : PointerAnchor) (r : Rect) (size : Int × Int) :
    (anchoredDisplay anchor r (some size)).rectWidth = size.1
      ∧ (anchoredDisplay anchor r (some size)).rectHeight = size.2 := ⟨rfl, rfl⟩

/-- The origin stays within the area. -/
theorem anchoredOrigin_range (leading : Bool) (initial extent actual size areaOrigin areaExtent : Int) :
    let origin := anchoredOrigin leading initial extent actual size areaOrigin areaExtent
    minInt32 ≤ origin ∧ origin ≤ maxInt32 := by
  simp only [anchoredOrigin, abiCoordinate, minInt32, maxInt32]
  omega

/-- The display of an anchored window of a reachable policy. -/
theorem displayed_of_anchor {cfg : Config} {p : Policy} (h : Reachable cfg p) {wid : WindowId}
    {anchor : PointerAnchor} (ha : p.pointerAnchors[wid]? = some anchor) :
    ∃ r, displayedRect wid p = some (anchoredDisplay anchor r p.pointerActualSizes[wid]?)
      ∧ HoldsEdges anchor (anchoredDisplay anchor r p.pointerActualSizes[wid]?) := by
  obtain ⟨r, hr⟩ := anchored_of_reachable h ha
  have hn := normal_areaFor (outputsNormal_of_reachable h) hr.holds.area
  exact ⟨r, hr.displayed (managed_of_reachable h).wellFormed, holdsEdges_anchoredDisplay hn
    (anchorsInside_of_reachable h wid anchor ha) (sizesPositive_of_reachable h wid)⟩

/-! ## Starting -/

section Start

variable {p : Policy} {sid : SeatId} {wid : WindowId} {edges : Nat} {x y : Int}

/-- What the guards of a start say of the placement. -/
theorem captureStart_spec {q : Placement} {initial : Rect} {capture : PointerCapture}
    (h : captureStart wid edges x y p q initial = some capture) :
    q.placementFloating = true ∧ q.placementFullscreen = false
      ∧ (metadataFor p wid).windowFullscreen = false ∧ q.placementOutput = some capture.oid
      ∧ p.outputs[capture.oid]? = some capture.output
      ∧ areaFor capture.oid p = some capture.area
      ∧ p.windowSet.findTag wid = some capture.tag := by
  simp only [captureStart, Option.bind_eq_bind, Option.bind_eq_some_iff, Option.guard_eq_some',
    Option.pure_def, Option.some.injEq] at h
  obtain ⟨-, ⟨hfloat, hplain⟩, -, hfull, oid, hoid, output, houtput, area, harea, tag, htag, -, -,
    -, -, edges', -, rfl⟩ := h
  exact ⟨hfloat, by simpa using hplain, by simpa using hfull, hoid, houtput, harea, htag⟩

/-- A floating window is shown by the same output once it is focused. -/
theorem flags_focusWindow {p p' : Policy} (hs : p.windowSet.WellFormed) {wid : WindowId} {v : Shown}
    (hv : (rectangles p)[wid]? = some v) (hfloat : v.2.2.1 = true)
    (hws : p'.windowSet = p.windowSet.focusWindow wid) (hout : p'.outputs = p.outputs)
    (hkeep : isFloat p' wid = isFloat p wid) (hfull : (metadataFor p' wid).windowFullscreen = false) :
    (rectangles p')[wid]?.map Prod.snd = some (v.2.1, true, false) := by
  obtain ⟨sc, hsc, hmem⟩ := (getElem?_rectangles hs).mp hv
  have hw := mem_stack_of_screenRects hmem
  have hs' : p'.windowSet.WellFormed := hws ▸ (rearranged_focusWindow hs wid).wellFormed hs
  obtain ⟨rect, stack, hrect, -, ⟨-, rfl⟩ | ⟨r, rfl, -⟩⟩ := mem_screenRects hmem
  · contradiction
  · have hcur : shown p'.windowSet.current = shown sc := hws ▸ (shown_focusWindow hs hsc hw).2
    have hid : p'.windowSet.current.screen = sc.screen := congrArg Prod.fst hcur
    have hpeek : p'.windowSet.peek = some wid :=
      hws ▸ peek_focusWindow hs (mem_windows_of_mem (mem_workspaces_of_mem_screens hsc) hw)
    obtain ⟨st, hst, rfl⟩ := peek_eq_some.mp hpeek
    have hrect' : screenOutput p' p'.windowSet.current = some rect := by
      rw [screenOutput, hid, hout, ← screenOutput, hrect]
    have hshown : (st.focus, (pointerFloatRect p' st.focus
        (screenArea p' rect p'.windowSet.current.screen), p'.windowSet.current.screen,
        isFloat p' st.focus, false)) ∈ screenRects p' p'.windowSet.current := by
      rw [screenRects_tiled hrect' hst (by simp [hfull]), List.mem_map]
      refine ⟨(st.focus, _), List.mem_append_right _ ?_, rfl⟩
      exact List.mem_map_of_mem (List.mem_filter.mpr ⟨st.focus_mem_integrate, hkeep.trans hfloat⟩)
    rw [(getElem?_rectangles hs').mpr ⟨_, current_mem_screens _, hshown⟩, Option.map_some, hid,
      hkeep]
    exact congrArg (fun b => some (sc.screen, b, false)) hfloat

/-- The anchor of an accepted start holds. -/
theorem anchored_startPointer {tags : List WorkspaceId} (hc : Consistent tags p)
    (hstart : (startPointer sid wid edges x y p).pointerOperation ≠ p.pointerOperation) :
    ∃ anchor rect, displayedRect wid p = some rect ∧ anchor.anchorInitialRect = rect
      ∧ Anchored (startPointer sid wid edges x y p) wid anchor rect := by
  have hs := hc.wellFormed
  rcases startPointer_cases sid wid edges x y p with
    heq | ⟨q, size, initial, capture, hq, hsize, hinitial, hcapture, heq⟩
  · rw [heq] at hstart
    contradiction
  · obtain ⟨hfloat, -, hfull, hoid, houtput, harea, htag⟩ := captureStart_spec hcapture
    rw [windowPlacement_eq hs] at hq
    obtain ⟨v, hv, rfl⟩ := Option.map_eq_some_iff.mp hq
    have hwid := mem_windows_of_rectangles hs hv
    have hframe := (frame_materializeAnchor wid p).trans
      (frame_setFloatRect wid initial (materializeAnchor wid p))
    have hwin : (startPointer sid wid edges x y p).windowSet = p.windowSet.focusWindow wid := by
      rw [heq, (frame_materializeAnchor wid p).windowSet]
    have hmeta : ∀ w, metadataFor (startPointer sid wid edges x y p) w
        = metadataFor (setFloatRect wid initial (materializeAnchor wid p)) w := fun w => by
      rw [heq]
      rfl
    have hfull' : (metadataFor (startPointer sid wid edges x y p) wid).windowFullscreen = false := by
      rw [hmeta, hframe.fullscreen, hfull]
    refine ⟨(capturedOperation sid wid initial p capture).anchor, initial, hinitial, rfl, ?_, ?_, ?_⟩
    · simp only [heq, getElem?_map_insert, if_pos]
    · refine ⟨?_, hfull', ?_, ?_, ?_⟩
      · rw [flags_focusWindow hs hv hfloat hwin (by rw [heq]; exact hframe.outputs) ?_ hfull']
        · exact congrArg (fun o => some (o, true, false)) hoid
        · rw [isFloat, hmeta, ← isFloat, hframe.isFloat]
      · rw [hwin, findTag_of_orders hs ((rearranged_focusWindow hs wid).wellFormed hs)
          (fun t => orderOf_focusWindow hs wid t)]
        exact htag
      · rw [heq]
        exact (congrArg (·[capture.oid]?) hframe.outputs).trans houtput
      · rw [heq]
        exact (hframe.areaFor _).trans harea
    · rw [hmeta]
      exact floatRect_setFloatRect ((frame_materializeAnchor wid p).mem_metadata.mpr
        ((hc.metadata wid).mpr hwid)) initial

/-- An accepted start leaves its window displayed where it was. -/
theorem displayedRect_started {cfg : Config} (h : Reachable cfg p)
    (hstart : (handleOrdinaryEvent cfg (.pointerStarted sid wid edges x y) p).1.pointerOperation
      ≠ p.pointerOperation) :
    displayedRect wid (step cfg p (.pointerStarted sid wid edges x y)) = displayedRect wid p := by
  have hc := (managed_of_reachable h).toConsistent
  have hmode : p.activeMode ≠ .pickerMode := fun hpicker => hstart (by
    simp only [handleOrdinaryEvent, if_pos hpicker]
    rfl)
  have hhandle : (handleOrdinaryEvent cfg (.pointerStarted sid wid edges x y) p).1
      = startPointer sid wid edges x y p := by
    simp only [handleOrdinaryEvent, if_neg hmode]
  rw [hhandle] at hstart
  obtain ⟨anchor, rect, hrect, hinitial, hanchored⟩ := anchored_startPointer hc hstart
  have hs' : (startPointer sid wid edges x y p).windowSet.WellFormed :=
    hhandle ▸ (consistent_handleOrdinaryEvent cfg (.pointerStarted sid wid edges x y) hc).wellFormed
  -- The anchor holds, so finishing the event leaves it and the rectangle alone.
  have hvalid : anchorValid wid (startPointer sid wid edges x y p) = true :=
    (anchorValid_iff hs').mpr ⟨anchor, hanchored.entry, hanchored.holds⟩
  have hfin := frame_finish p (startPointer sid wid edges x y p)
  have hsettled := (anchorValid_frame hs' (frame_settleAnchors p _)
    (by rw [anchors_settleAnchors])).mpr hvalid
  have hkept := (untouched_settleAnchors hs' hvalid p).trans (untouched_validatePointerState hsettled)
  have hstep : step cfg p (.pointerStarted sid wid edges x y)
      = validatePointerState (settleAnchors p (startPointer sid wid edges x y p)) := by
    rw [← hhandle]
    rfl
  have hafter : Anchored (step cfg p (.pointerStarted sid wid edges x y)) wid anchor rect := by
    rw [hstep]
    exact hanchored.frame hfin hkept
  have hreach' := h.event (.pointerStarted sid wid edges x y)
  have hn := normal_areaFor (outputsNormal_of_reachable hreach') hafter.holds.area
  rw [hafter.displayed (managed_of_reachable hreach').wellFormed,
    anchoredDisplay_initial hn (hinitial ▸ anchorsInside_of_reachable hreach' wid anchor
      hafter.entry) hinitial, hrect]
  intro size hsize
  rw [actualSize_step cfg (fun _ _ => Event.noConfusion) Event.noConfusion] at hsize
  exact displayedRect_extent hsize hrect

end Start

/-! ## Acknowledged sizes -/

/-- **Edges**: an accepted start leaves its window displayed where it was; whatever sizes the
client acknowledges while the anchor stands, the edge opposite to the dragged one stays where
it was captured, as long as the origin this takes is inside the area; the positions of a render
sequence are in range, and put windows that fit the area inside it. -/
theorem grab_keeps_edges {cfg : Config} {p : Policy} (h : Reachable cfg p) :
    (∀ sid wid edges x y,
      (handleOrdinaryEvent cfg (.pointerStarted sid wid edges x y) p).1.pointerOperation
          ≠ p.pointerOperation →
        displayedRect wid (step cfg p (.pointerStarted sid wid edges x y)) = displayedRect wid p)
      ∧ (∀ (wid : WindowId) (anchor : PointerAnchor) (sizes : List (Int × Int)),
        p.pointerAnchors[wid]? = some anchor →
        let p' := runEvents cfg (sizes.map fun s => .windowActualSize wid s.1 s.2) p
        let initial := anchor.anchorInitialRect
        let area := anchor.anchorArea
        p'.pointerAnchors[wid]? = some anchor
          ∧ ∃ d, displayedRect wid p' = some d
            ∧ (∀ size, p'.pointerActualSizes[wid]? = some size →
              d.rectWidth = size.1 ∧ d.rectHeight = size.2)
            ∧ (anchor.anchorEdges &&& 4 ≠ 0 →
              area.rectX ≤ initial.rectX + initial.rectWidth - d.rectWidth →
              d.rectX + d.rectWidth = initial.rectX + initial.rectWidth)
            ∧ (anchor.anchorEdges &&& 1 ≠ 0 →
              area.rectY ≤ initial.rectY + initial.rectHeight - d.rectHeight →
              d.rectY + d.rectHeight = initial.rectY + initial.rectHeight))
      ∧ ∀ (wid : WindowId) (x y : Int), (wid, x, y) ∈ renderPointerPositions p →
        minInt32 ≤ x ∧ x ≤ maxInt32 ∧ minInt32 ≤ y ∧ y ≤ maxInt32
          ∧ ∃ anchor, p.pointerAnchors[wid]? = some anchor
            ∧ ∀ width height, p.pointerActualSizes[wid]? = some (width, height) →
              width ≤ anchor.anchorArea.rectWidth → height ≤ anchor.anchorArea.rectHeight →
              Within ⟨x, y, width, height⟩ anchor.anchorArea := by
  refine ⟨fun sid wid edges x y hstart => displayedRect_started h hstart, ?_, ?_⟩
  · intro wid anchor sizes ha p' initial area
    have hack := acknowledged_runEvents cfg (settled_of_reachable h) (sizes.map fun s => (wid, s))
    rw [List.map_map] at hack
    have ha' : p'.pointerAnchors[wid]? = some anchor := hack.anchors ▸ ha
    obtain ⟨r, hdisplay, hedges⟩ := displayed_of_anchor (h.run _) ha'
    refine ⟨ha', _, hdisplay, fun size hsize => ?_, hedges.right, hedges.bottom⟩
    rw [hsize]
    exact anchoredDisplay_size anchor r size
  · intro wid x y hpos
    obtain ⟨w, hw, hmap⟩ := List.mem_filterMap.mp hpos
    obtain ⟨d, hd, heq⟩ := Option.map_eq_some_iff.mp hmap
    obtain ⟨rfl, rfl, rfl⟩ := heq
    obtain ⟨anchor, ha⟩ := mem_map_iff.mp (Std.ExtTreeMap.mem_keys.mp (List.mem_filter.mp hw).1)
    obtain ⟨r, hdisplay, hedges⟩ := displayed_of_anchor h ha
    obtain rfl := Option.some.inj (hdisplay.symm.trans hd)
    obtain ⟨hx1, hx2⟩ := anchoredOrigin_range (anchor.anchorEdges &&& 4 ≠ 0) _ _ _ _ _ _
    obtain ⟨hy1, hy2⟩ := anchoredOrigin_range (anchor.anchorEdges &&& 1 ≠ 0) _ _ _ _ _ _
    refine ⟨hx1, hx2, hy1, hy2, anchor, ha, fun width height hsize => ?_⟩
    rw [hsize] at hedges ⊢
    exact hedges.inside

/-- A terminal that rounds its size down keeps its right edge. -/
theorem grab_keeps_edges_quantised :
    let p := runEvents defaultConfig [.outputUpsert 1 ⟨0, 0, 800, 600⟩, .windowAdded 10,
      .actionRequested .toggleFloat, .windowActualSize 10 400 300, .pointerStarted 5 10 5 0 0,
      .pointerMoved 5 (-50) 0, .pointerReleased 5] (initialPolicy defaultConfig)
    ∃ d, displayedRect 10 (runEvents defaultConfig [.windowActualSize 10 440 300,
        .windowActualSize 10 448 300] p) = some d
      ∧ d.rectX + d.rectWidth = 600 := by
  intro p
  have hreach : Reachable defaultConfig p := reachable_runEvents validateConfig_defaultConfig _
  have hanchor : p.pointerAnchors[10]? = some ⟨5, ⟨200, 150, 400, 300⟩, 1, ⟨0, 0, 800, 600⟩,
    ⟨0, 0, 800, 600⟩, 1⟩ := by decide +kernel
  obtain ⟨-, d, hd, hsize, hright, -⟩ :=
    (grab_keeps_edges hreach).2.1 10 _ [(440, 300), (448, 300)] hanchor
  obtain ⟨hw, -⟩ := hsize (448, 300) (by decide +kernel)
  exact ⟨d, hd, hright (by decide) (by rw [hw]; decide)⟩

end XmonadWayland
