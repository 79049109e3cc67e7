import XmonadWayland.Policy.Invariant

/-!
# XmonadWayland.Policy.Visible

Which windows are shown, where, and what that depends on.  A layout shows the tiles
of `shownTiles` whatever the weights are; no window is shown twice, so a lookup in
`rectangles` finds exactly what one screen says about the window.  The pointer
bookkeeping moves windows but never shows or hides one, hence never changes the
validity of an anchor that is kept.
-/

namespace XmonadWayland

open StackSet

/-! ## The windows a layout shows -/

/-- The tiles a layout shows: all of them, or the focused one. -/
def shownTiles (l : LayoutState) (stack : Stack WindowId) : List WindowId :=
  if l.layoutKind ∈ [Layout.full, .tabbed, .stacking] then [stack.focus] else stack.integrate

theorem length_splitEdges (available : Int) (weights : List ℚ) :
    (splitEdges available weights).length = weights.length + 1 := by
  simp [splitEdges, prefixSums]

theorem fst_weightedSlots (weight : WindowId → ℚ) (available : Int) (windows : List WindowId) :
    (weightedSlots weight available windows).map Prod.fst = windows := by
  rw [weightedSlots, List.map_fst_zip]
  simp only [List.length_map, List.length_zip, List.length_drop, length_splitEdges]
  omega

/-- Every tile gets a rectangle, in order. -/
theorem fst_weightedRects (axis : Axis) (weight : WindowId → ℚ) (area : Rect)
    (windows : List WindowId) : (weightedRects axis weight area windows).map Prod.fst = windows := by
  simp only [weightedRects, List.map_map, Function.comp_def]
  exact fst_weightedSlots weight _ windows

/-- So it does in tall. -/
theorem fst_tall (ratio : ℚ) (area : Rect) (windows : List WindowId) :
    (tall ratio area windows).map Prod.fst = windows := by
  unfold tall
  split
  · rfl
  · rfl
  · simp only [List.map_cons, List.map_map, Function.comp_def]
    rw [List.cons.injEq]
    exact ⟨rfl, List.zipIdx_map_fst _ _⟩

/-- So it does with weights. -/
theorem fst_tallWeighted (p : Policy) (ratio : ℚ) (axis : Axis) (area : Rect)
    (windows : List WindowId) :
    (tallWeighted p ratio axis area windows).map Prod.fst = windows := by
  have hfst := fst_tall ratio area windows
  unfold tallWeighted
  split
  · next h => rwa [h] at hfst
  · next h => rwa [h] at hfst
  · next h =>
    rw [h, List.map_cons] at hfst
    rw [List.map_cons, fst_weightedRects]
    exact hfst

/-- A layout shows the same windows whatever their weights and the area are. -/
theorem fst_layoutRects (p : Policy) (l : LayoutState) (area : Rect) (stack : Stack WindowId) :
    (layoutRects p l area stack).map Prod.fst = shownTiles l stack := by
  unfold layoutRects shownTiles
  cases l.layoutKind with
  | full => rfl
  | tabbed => rfl
  | stacking => rfl
  | columns => exact fst_weightedRects _ _ _ _
  | rows => exact fst_weightedRects _ _ _ _
  | tall => exact fst_tallWeighted _ _ _ _ _
  | mirror =>
      simp only [List.map_map, Function.comp_def]
      exact fst_tallWeighted _ _ _ _ _

/-- The tiled windows a screen shows when its focus is not fullscreen. -/
def tileWindows (floating : WindowId → Bool) (l : LayoutState) (stack : Stack WindowId) :
    List WindowId :=
  match stack.filter fun wid => !floating wid with
  | none => []
  | some tiles => shownTiles l tiles

/-- Every shown tile is placed. -/
theorem fst_tiledRects (p : Policy) (s : OutputScreen) (area : Rect) (stack : Stack WindowId) :
    (tiledRects p s area stack).map Prod.fst
      = tileWindows (isFloat p) s.workspace.layout stack := by
  unfold tiledRects tileWindows
  cases stack.filter fun wid => !isFloat p wid with
  | none => rfl
  | some tiles => exact fst_layoutRects p _ area tiles

/-- Every floating window is placed. -/
theorem fst_floatRects (p : Policy) (area : Rect) (stack : Stack WindowId) :
    (floatRects p area stack).map Prod.fst = stack.integrate.filter (isFloat p) := by
  rw [floatRects, List.map_map]
  exact List.map_id _

/-- What is shown is part of the stack. -/
theorem sublist_shownTiles (l : LayoutState) (stack : Stack WindowId) :
    (shownTiles l stack).Sublist stack.integrate := by
  unfold shownTiles
  split
  · exact List.singleton_sublist.mpr stack.focus_mem_integrate
  · exact List.Sublist.refl _

/-- The tiles shown are tiled windows of the stack, in its order. -/
theorem sublist_tileWindows (floating : WindowId → Bool) (l : LayoutState)
    (stack : Stack WindowId) :
    (tileWindows floating l stack).Sublist (stack.integrate.filter fun wid => !floating wid) := by
  have hfilter := Stack.integrate'_filter (fun wid => !floating wid) stack
  unfold tileWindows
  split
  · exact List.nil_sublist _
  · next tiles h =>
    rw [h, Stack.integrate'] at hfilter
    exact hfilter ▸ sublist_shownTiles l tiles

/-! ## What a screen shows -/

/-- The output a screen is on, with its rectangle. -/
def screenOutput (p : Policy) (s : OutputScreen) : Option Rect := s.screen.bind fun oid => p.outputs[oid]?

/-- A screen without output or windows shows nothing. -/
theorem screenRects_eq_nil {p : Policy} {s : OutputScreen}
    (h : screenOutput p s = none ∨ s.workspace.stack = none) : screenRects p s = [] := by
  unfold screenRects
  split
  · next hr hs => rcases h with h | h <;> simp_all [screenOutput]
  · rfl

/-- A window in full screen covers the others. -/
theorem screenRects_fullscreen {p : Policy} {s : OutputScreen} {rect : Rect}
    {stack : Stack WindowId} (hr : screenOutput p s = some rect)
    (hs : s.workspace.stack = some stack) (hf : (metadataFor p stack.focus).windowFullscreen) :
    screenRects p s = [(stack.focus, (rect, s.screen, false, true))] := by
  unfold screenOutput at hr
  simp only [screenRects, hr, hs, hf, if_true]

/-- Otherwise tiles and floating windows are shown. -/
theorem screenRects_tiled {p : Policy} {s : OutputScreen} {rect : Rect}
    {stack : Stack WindowId} (hr : screenOutput p s = some rect)
    (hs : s.workspace.stack = some stack) (hf : ¬(metadataFor p stack.focus).windowFullscreen) :
    screenRects p s = (tiledRects p s (screenArea p rect s.screen) stack
        ++ floatRects p (screenArea p rect s.screen) stack).map
      fun e => (e.1, (e.2, s.screen, isFloat p e.1, false)) := by
  unfold screenOutput at hr
  simp only [screenRects, hr, hs, hf, Bool.false_eq_true, if_false]

/-- A screen shows each of its windows once. -/
theorem nodup_screenRects {p : Policy} {s : OutputScreen}
    (h : (Stack.integrate' s.workspace.stack).Nodup) : ((screenRects p s).map Prod.fst).Nodup := by
  cases hr : screenOutput p s with
  | none => rw [screenRects_eq_nil (Or.inl hr)]; exact List.nodup_nil
  | some rect =>
      cases hs : s.workspace.stack with
      | none => rw [screenRects_eq_nil (Or.inr hs)]; exact List.nodup_nil
      | some stack =>
          rw [hs, Stack.integrate'] at h
          by_cases hf : (metadataFor p stack.focus).windowFullscreen
          · rw [screenRects_fullscreen hr hs hf]
            exact List.nodup_singleton _
          · rw [screenRects_tiled hr hs hf, List.map_map]
            have hfst : (Prod.fst ∘ fun e : WindowId × Rect =>
                (e.1, (e.2, s.screen, isFloat p e.1, false))) = Prod.fst := rfl
            rw [hfst, List.map_append, fst_tiledRects, fst_floatRects, List.nodup_append]
            have htiles := sublist_tileWindows (isFloat p) s.workspace.layout stack
            refine ⟨(h.filter _).sublist htiles, h.filter _, ?_⟩
            intro a ha b hb hab
            have hna := (List.mem_filter.mp (htiles.subset ha)).2
            have hbf := (List.mem_filter.mp hb).2
            rw [hab, hbf] at hna
            contradiction

/-- A screen shows its fullscreen focus, or tiles and floating windows. -/
theorem mem_screenRects {p : Policy} {s : OutputScreen} {wid : WindowId} {v : Shown}
    (h : (wid, v) ∈ screenRects p s) :
    ∃ rect stack, screenOutput p s = some rect ∧ s.workspace.stack = some stack
      ∧ (wid = stack.focus ∧ v = (rect, s.screen, false, true)
        ∨ ∃ r, v = (r, s.screen, isFloat p wid, false)
          ∧ ((wid, r) ∈ tiledRects p s (screenArea p rect s.screen) stack
            ∨ (wid, r) ∈ floatRects p (screenArea p rect s.screen) stack)) := by
  cases hr : screenOutput p s with
  | none => rw [screenRects_eq_nil (Or.inl hr)] at h; contradiction
  | some rect =>
      cases hs : s.workspace.stack with
      | none => rw [screenRects_eq_nil (Or.inr hs)] at h; contradiction
      | some stack =>
          refine ⟨rect, stack, rfl, rfl, ?_⟩
          by_cases hf : (metadataFor p stack.focus).windowFullscreen
          · rw [screenRects_fullscreen hr hs hf, List.mem_singleton, Prod.mk.injEq] at h
            exact Or.inl h
          · rw [screenRects_tiled hr hs hf, List.mem_map] at h
            obtain ⟨⟨w, r⟩, he, heq⟩ := h
            obtain ⟨rfl, rfl⟩ := Prod.mk.inj heq
            exact Or.inr ⟨r, rfl, List.mem_append.mp he⟩

/-- A screen shows only windows of its workspace. -/
theorem mem_stack_of_screenRects {p : Policy} {s : OutputScreen} {wid : WindowId} {v : Shown}
    (h : (wid, v) ∈ screenRects p s) : wid ∈ Stack.integrate' s.workspace.stack := by
  obtain ⟨rect, stack, -, hs, ⟨rfl, -⟩ | ⟨r, -, htile | hfloat⟩⟩ := mem_screenRects h <;>
    rw [hs, Stack.integrate']
  · exact stack.focus_mem_integrate
  · have hmem := List.mem_map_of_mem (f := Prod.fst) htile
    rw [fst_tiledRects] at hmem
    exact (List.mem_filter.mp ((sublist_tileWindows _ _ _).subset hmem)).1
  · have hmem := List.mem_map_of_mem (f := Prod.fst) hfloat
    rw [fst_floatRects] at hmem
    exact (List.mem_filter.mp hmem).1

/-! ## Lookups -/

/-- No window is shown twice. -/
theorem nodup_shown {p : Policy} (hs : p.windowSet.WellFormed) :
    ((p.windowSet.screens.flatMap (screenRects p)).map Prod.fst).Nodup := by
  rw [List.map_flatMap, List.nodup_flatMap]
  constructor
  · intro sc hsc
    exact nodup_screenRects (hs.stack_nodup (mem_workspaces_of_mem_screens hsc))
  · refine hs.screens_nodup.of_map.imp_of_mem fun {sc sc'} hsc hsc' hne => ?_
    intro wid hw hw'
    obtain ⟨⟨_, v⟩, hv, rfl⟩ := List.mem_map.mp hw
    obtain ⟨⟨_, v'⟩, hv', heq⟩ := List.mem_map.mp hw'
    simp only at heq
    subst heq
    have hws := hs.workspace_eq_of_mem (mem_workspaces_of_mem_screens hsc)
      (mem_workspaces_of_mem_screens hsc') (mem_stack_of_screenRects hv)
      (mem_stack_of_screenRects hv')
    exact hne (hs.screen_eq_of_tag hsc hsc' (congrArg Workspace.tag hws))

/-- A window is shown as exactly one screen says. -/
theorem getElem?_rectangles {p : Policy} (hs : p.windowSet.WellFormed) {wid : WindowId}
    {v : Shown} : (rectangles p)[wid]? = some v ↔
      ∃ sc ∈ p.windowSet.screens, (wid, v) ∈ screenRects p sc := by
  rw [rectangles, getElem?_map_ofList_eq_some (nodup_shown hs), List.mem_flatMap]

/-- Only windows have rectangles. -/
theorem mem_windows_of_rectangles {p : Policy} (hs : p.windowSet.WellFormed) {wid : WindowId}
    {v : Shown} (h : (rectangles p)[wid]? = some v) : wid ∈ p.windowSet.windows := by
  obtain ⟨sc, hsc, hv⟩ := (getElem?_rectangles hs).mp h
  exact mem_windows_of_mem (mem_workspaces_of_mem_screens hsc) (mem_stack_of_screenRects hv)

/-- The placement of a shown window. -/
def shownPlacement (p : Policy) (wid : WindowId) (v : Shown) : Placement :=
  ⟨wid, v.1, true, some wid = focusedWindow p, v.2.1, v.2.2.1, v.2.2.2⟩

theorem placement_of_some {p : Policy} {rects : Map WindowId Shown} {wid : WindowId} {v : Shown}
    (h : rects[wid]? = some v) : placement p rects wid = shownPlacement p wid v := by
  rw [placement, h]
  rfl

theorem placementVisible_placement (p : Policy) (rects : Map WindowId Shown) (wid : WindowId) :
    (placement p rects wid).placementVisible = rects[wid]?.isSome := by
  unfold placement
  split <;> simp_all

/-- The visible placements of a window: at most one. -/
theorem filter_renderPolicy {p : Policy} (hs : p.windowSet.WellFormed) (wid : WindowId) :
    ((renderPolicy p).filter fun q => q.placementWindow = wid ∧ q.placementVisible)
      = ((rectangles p)[wid]?.map (shownPlacement p wid)).toList := by
  cases h : (rectangles p)[wid]? with
  | none =>
      rw [Option.map_none, Option.toList_none, List.filter_eq_nil_iff]
      intro q hq
      obtain ⟨wid', -, rfl⟩ := List.mem_map.mp hq
      rw [decide_eq_true_eq, placementWindow_placement, placementVisible_placement]
      rintro ⟨rfl, hvis⟩
      rw [h] at hvis
      contradiction
  | some v =>
      have hmem : wid ∈ p.windowSet.allWindows :=
        mem_allWindows.mpr (mem_windows_of_rectangles hs h)
      have hplace : placement p (rectangles p) wid = shownPlacement p wid v := placement_of_some h
      have hnd : (renderPolicy p).Nodup := by
        refine List.Nodup.of_map Placement.placementWindow ?_
        rw [map_placementWindow]
        exact nodup_allWindows _
      rw [Option.map_some, Option.toList_some]
      refine filter_eq_singleton hnd ?_ ?_ ?_
      · exact hplace ▸ List.mem_map_of_mem hmem
      · simp [shownPlacement]
      · intro q hq hcond
        obtain ⟨wid', -, rfl⟩ := List.mem_map.mp hq
        rw [decide_eq_true_eq, placementWindow_placement] at hcond
        rw [hcond.1, hplace]

/-- The placement of a window by its rectangle. -/
theorem windowPlacement_eq {p : Policy} (hs : p.windowSet.WellFormed) (wid : WindowId) :
    windowPlacement wid p = (rectangles p)[wid]?.map (shownPlacement p wid) := by
  rw [windowPlacement, filter_renderPolicy hs]
  cases (rectangles p)[wid]? <;> rfl

/-- Its rectangle. -/
theorem windowRect_eq {p : Policy} (hs : p.windowSet.WellFormed) (wid : WindowId) :
    windowRect wid p = (rectangles p)[wid]?.map Prod.fst := by
  rw [windowRect, filter_renderPolicy hs]
  cases (rectangles p)[wid]? <;> rfl

/-- Visible windows are those with a rectangle. -/
theorem mem_visibleWindows {p : Policy} (hs : p.windowSet.WellFormed) {wid : WindowId} :
    wid ∈ visibleWindows p ↔ ∃ v, (rectangles p)[wid]? = some v := by
  rw [visibleWindows, List.mem_map]
  constructor
  · rintro ⟨q, hq, rfl⟩
    obtain ⟨hmem, hvis⟩ := List.mem_filter.mp hq
    obtain ⟨wid', -, rfl⟩ := List.mem_map.mp hmem
    rw [placementVisible_placement] at hvis
    rw [placementWindow_placement]
    exact Option.isSome_iff_exists.mp hvis
  · rintro ⟨v, hv⟩
    refine ⟨shownPlacement p wid v, List.mem_filter.mpr ⟨?_, rfl⟩, rfl⟩
    rw [← placement_of_some hv]
    exact List.mem_map_of_mem (mem_allWindows.mpr (mem_windows_of_rectangles hs hv))

/-! ## Visibility under the pointer frame -/

/-- What a screen says about its windows apart from their rectangles. -/
def screenFlags (p : Policy) (s : OutputScreen) : List (WindowId × (Option OutputId × Bool × Bool)) :=
  (screenRects p s).map fun e => (e.1, e.2.2)

theorem screenFlags_frame {p p' : Policy} (h : PointerFrame p p') (s : OutputScreen) :
    screenFlags p' s = screenFlags p s := by
  have hout : screenOutput p' s = screenOutput p s := by
    rw [screenOutput, screenOutput, h.outputs]
  have hfloat : isFloat p' = isFloat p := funext h.isFloat
  unfold screenFlags
  cases hr : screenOutput p s with
  | none => rw [screenRects_eq_nil (Or.inl hr), screenRects_eq_nil (Or.inl (hout.trans hr))]
  | some rect =>
      cases hs : s.workspace.stack with
      | none => rw [screenRects_eq_nil (Or.inr hs), screenRects_eq_nil (Or.inr hs)]
      | some stack =>
          by_cases hf : (metadataFor p stack.focus).windowFullscreen
          · have hf' := h.fullscreen stack.focus ▸ hf
            rw [screenRects_fullscreen hr hs hf, screenRects_fullscreen (hout.trans hr) hs hf']
          · have hf' := h.fullscreen stack.focus ▸ hf
            rw [screenRects_tiled hr hs hf, screenRects_tiled (hout.trans hr) hs hf', hfloat]
            simp only [List.map_map, Function.comp_def]
            have hmap : ∀ l : List (WindowId × Rect),
                l.map (fun e => (e.1, s.screen, isFloat p e.1, false))
                  = (l.map Prod.fst).map fun wid => (wid, s.screen, isFloat p wid, false) := by
              intro l
              rw [List.map_map]
              rfl
            have hfst : ∀ (q : Policy) (area : Rect),
                (tiledRects q s area stack ++ floatRects q area stack).map Prod.fst
                  = tileWindows (isFloat q) s.workspace.layout stack
                    ++ stack.integrate.filter (isFloat q) := by
              intro q area
              rw [List.map_append, fst_tiledRects, fst_floatRects]
            rw [hmap, hmap, hfst, hfst, hfloat]

/-- The pointer bookkeeping shows, hides, floats and fullscreens nothing. -/
theorem flags_frame {p p' : Policy} (h : PointerFrame p p') (wid : WindowId) :
    (rectangles p')[wid]?.map Prod.snd = (rectangles p)[wid]?.map Prod.snd := by
  have hflat : ∀ q : Policy, (q.windowSet.screens.flatMap (screenRects q)).map
      (fun e => (e.1, Prod.snd e.2)) = q.windowSet.screens.flatMap (screenFlags q) := by
    intro q
    rw [List.map_flatMap]
    rfl
  rw [rectangles, rectangles, ← getElem?_map_ofList_map, ← getElem?_map_ofList_map, hflat, hflat,
    h.windowSet]
  congr 2
  exact List.flatMap_congr fun s _ => screenFlags_frame h s

/-- Pointer bookkeeping changes no visibility. -/
theorem visibleWindows_frame {p p' : Policy} (hs : p.windowSet.WellFormed)
    (h : PointerFrame p p') {wid : WindowId} : wid ∈ visibleWindows p' ↔ wid ∈ visibleWindows p := by
  have hflags := congrArg Option.isSome (flags_frame h wid)
  rw [Option.isSome_map, Option.isSome_map] at hflags
  rw [mem_visibleWindows (h.windowSet ▸ hs), mem_visibleWindows hs, ← Option.isSome_iff_exists,
    ← Option.isSome_iff_exists, hflags]

/-! ## Anchor validity -/

/-- An anchored window floats where the anchor says. -/
structure AnchorHolds (p : Policy) (wid : WindowId) (anchor : PointerAnchor) : Prop where
  shown : (rectangles p)[wid]?.map Prod.snd = some (some anchor.anchorOutput, true, false)
  fullscreen : (metadataFor p wid).windowFullscreen = false
  workspace : p.windowSet.findTag wid = some anchor.anchorWorkspace
  output : p.outputs[anchor.anchorOutput]? = some anchor.anchorOutputRect
  area : areaFor anchor.anchorOutput p = some anchor.anchorArea

/-- An anchor is valid when it holds. -/
theorem anchorValid_iff {p : Policy} (hs : p.windowSet.WellFormed) {wid : WindowId} :
    anchorValid wid p = true ↔
      ∃ anchor, p.pointerAnchors[wid]? = some anchor ∧ AnchorHolds p wid anchor := by
  unfold anchorValid
  rw [windowPlacement_eq hs]
  cases ha : p.pointerAnchors[wid]? with
  | none => simp
  | some anchor =>
      cases hv : (rectangles p)[wid]? with
      | none =>
          simp only [Option.map_none, Bool.false_eq_true, false_iff]
          rintro ⟨anchor', -, hh⟩
          simpa [hv] using hh.shown
      | some v =>
          obtain ⟨r, o, fl, fs⟩ := v
          simp only [Option.map_some, shownPlacement, decide_eq_true_eq, Option.some.injEq,
            exists_eq_left', Bool.not_eq_true]
          constructor
          · rintro ⟨hfl, hfs, hfull, hout, htag, hrect, harea⟩
            exact ⟨by rw [hv, hfl, hfs, hout]; rfl, hfull, htag, hrect, harea⟩
          · rintro ⟨hshown, hfull, htag, hrect, harea⟩
            simp only [hv, Option.map_some, Option.some.injEq, Prod.mk.injEq] at hshown
            exact ⟨hshown.2.1, hshown.2.2, hfull, hshown.1, htag, hrect, harea⟩

/-- Pointer bookkeeping keeps anchors holding. -/
theorem anchorHolds_frame {p p' : Policy} (h : PointerFrame p p') {wid : WindowId}
    {anchor : PointerAnchor} : AnchorHolds p' wid anchor ↔ AnchorHolds p wid anchor := by
  constructor
  · intro ha
    exact ⟨(flags_frame h wid).symm.trans ha.shown, (h.fullscreen wid).symm.trans ha.fullscreen,
      h.windowSet ▸ ha.workspace, h.outputs ▸ ha.output, (h.areaFor _).symm.trans ha.area⟩
  · intro ha
    exact ⟨(flags_frame h wid).trans ha.shown, (h.fullscreen wid).trans ha.fullscreen,
      h.windowSet ▸ ha.workspace, h.outputs ▸ ha.output, (h.areaFor _).trans ha.area⟩

/-- An anchor that is kept stays as valid as it was. -/
theorem anchorValid_frame {p p' : Policy} (hs : p.windowSet.WellFormed) (h : PointerFrame p p')
    {wid : WindowId} (ha : p'.pointerAnchors[wid]? = p.pointerAnchors[wid]?) :
    anchorValid wid p' = true ↔ anchorValid wid p = true := by
  have hs' : p'.windowSet.WellFormed := h.windowSet ▸ hs
  rw [anchorValid_iff hs, anchorValid_iff hs', ha]
  exact exists_congr fun anchor => and_congr_right fun _ => anchorHolds_frame h

/-- Validation does not invalidate what it keeps. -/
theorem anchorValid_validate {p : Policy} (hs : p.windowSet.WellFormed) {wid : WindowId}
    (h : anchorValid wid p = true) : anchorValid wid (validatePointerState p) = true := by
  refine (anchorValid_frame hs (frame_validatePointerState p) ?_).mpr h
  simp only [validatePointerState, getElem?_map_filter]
  cases p.pointerAnchors[wid]? with
  | none => rfl
  | some a => rw [Option.filter_some, if_pos h]

/-- What makes an operation valid. -/
theorem operationValid_iff {op : PointerOperation} {p : Policy} :
    operationValid op p = true ↔ p.sessionLocked = false
      ∧ focusedWindow p = some op.pointerWindow ∧ anchorValid op.pointerWindow p = true
      ∧ (metadataFor p op.pointerWindow).windowHints = op.pointerHints := by
  simp [operationValid]

/-- Every anchor and the operation are valid. -/
structure Settled (p : Policy) : Prop where
  anchors : ∀ wid : WindowId, wid ∈ p.pointerAnchors → anchorValid wid p = true
  operation : ∀ op : PointerOperation, p.pointerOperation = some op → operationValid op p = true

/-- Validating settles. -/
theorem settled_validate {p : Policy} (hs : p.windowSet.WellFormed) :
    Settled (validatePointerState p) where
  anchors wid h := by
    obtain ⟨a, ha⟩ := mem_map_iff.mp h
    simp only [validatePointerState, getElem?_map_filter] at ha
    exact anchorValid_validate hs (Option.filter_eq_some_iff.mp ha).2
  operation op h := by
    obtain ⟨hlock, hfocus, hanchor, hhints⟩ :=
      operationValid_iff.mp (Option.filter_eq_some_iff.mp h).2
    have hf := frame_validatePointerState p
    exact operationValid_iff.mpr ⟨hf.sessionLocked.trans hlock, hf.focusedWindow.trans hfocus,
      anchorValid_validate hs hanchor, (hf.hints _).trans hhints⟩

/-- Every step settles. -/
theorem settled_step (cfg : Config) (ev : Event) {tags : List WorkspaceId} {p : Policy}
    (hc : Consistent tags p) : Settled (step cfg p ev) := by
  have hprep := hc.frame (frame_preparePointerEvent ev p)
  have hnext := consistent_handleOrdinaryEvent cfg ev hprep
  exact settled_validate (hnext.frame (frame_settleAnchors _ _)).wellFormed

/-- Reachable policies are settled. -/
theorem settled_of_reachable {cfg : Config} {p : Policy} (h : Reachable cfg p) : Settled p := by
  induction h with
  | initial hcfg =>
      exact ⟨fun wid hw => absurd hw Std.ExtTreeMap.not_mem_empty, fun op hop => by contradiction⟩
  | event ev h _ => exact settled_step _ ev (managed_of_reachable h).toConsistent
  | reload _ _ _ ih => exact ih

end XmonadWayland
