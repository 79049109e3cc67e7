import XmonadWayland.Policy.Stacked
import XmonadWayland.Policy.Drag

/-!
# XmonadWayland.Policy.Reweigh

Rewriting the weights of a group of tiles.  Nothing else depends on weights, so every
window outside the group keeps its rectangle, every anchor stays valid, and the tiles of
the group get the sizes that were written.
-/

namespace XmonadWayland

open StackSet

/-! ## Weights -/

/-- The weights of a group along an axis rewritten. -/
def reweigh (axis : Axis) (size : WindowId → Int) (group : List WindowId) (p : Policy) : Policy :=
  group.foldr (fun i => alterMetadata i fun m =>
    if axis = .width then { m with windowWidthWeight := size i }
    else { m with windowHeightWeight := size i }) p

/-- Metadata without the weights. -/
def unweighted (m : WindowMetadata) : WindowMetadata :=
  { m with windowWidthWeight := 1, windowHeightWeight := 1 }

/-- `q` differs from `p` by the weights of the group at most. -/
structure Reweighed (group : List WindowId) (p q : Policy) : Prop where
  same : q = { p with windowMetadata := q.windowMetadata }
  retains : ∀ wid : WindowId, Retains unweighted wid p q
  others : ∀ wid ∉ group, Retains id wid p q

/-- Reweighing changes the weights of the group only. -/
theorem reweighed_reweigh (axis : Axis) (size : WindowId → Int) (group : List WindowId)
    (p : Policy) : Reweighed group p (reweigh axis size group p) where
  same := by
    induction group with
    | nil => rfl
    | cons i group ih =>
        rw [reweigh, List.foldr_cons, ← reweigh, ih]
        rfl
  retains wid := Retains.foldr (fun i q => retains_alterMetadata (Or.inr fun m => by
    split <;> rfl) q) group p
  others wid hwid := by
    induction group with
    | nil => exact Retains.refl id wid p
    | cons i group ih =>
        rw [List.mem_cons, not_or] at hwid
        exact (ih hwid.2).trans (retains_alterMetadata (Or.inl (Ne.symm hwid.1)) _)

/-- The weights that were written. -/
theorem weightOf_reweigh (axis : Axis) (size : WindowId → Int) {group : List WindowId}
    {p : Policy} {i : WindowId} (hi : i ∈ group) (hmem : i ∈ p.windowMetadata) :
    weightOf (reweigh axis size group p) axis i = size i := by
  induction group with
  | nil => simp at hi
  | cons j group ih =>
      by_cases hj : j = i
      · subst hj
        have hrest := (reweighed_reweigh axis size group p).retains j
        obtain ⟨m, hm⟩ := mem_map_iff.mp hmem
        rw [Retains, hm, Option.map_some, Option.map_eq_some_iff] at hrest
        obtain ⟨m', hm', -⟩ := hrest
        rw [reweigh, List.foldr_cons, ← reweigh, weightOf, metadataFor_alterMetadata, if_pos rfl,
          hm', Option.map_some, Option.getD_some]
        split <;> rfl
      · rw [← ih ((List.mem_cons.mp hi).resolve_left (Ne.symm hj)), reweigh, List.foldr_cons,
          ← reweigh, weightOf, weightOf, metadataFor_alterMetadata, if_neg hj]

/-! ## What does not depend on weights -/

namespace Reweighed

variable {group : List WindowId} {p q : Policy}

theorem windowSet (h : Reweighed group p q) : q.windowSet = p.windowSet := by rw [h.same]

theorem anchors (h : Reweighed group p q) : q.pointerAnchors = p.pointerAnchors := by rw [h.same]

theorem outputs (h : Reweighed group p q) : q.outputs = p.outputs := by rw [h.same]

theorem workAreas (h : Reweighed group p q) : q.workAreas = p.workAreas := by rw [h.same]

/-- Floating windows stay floating. -/
theorem isFloat (h : Reweighed group p q) : isFloat q = isFloat p := by
  funext wid
  exact congrArg (fun m => m.windowFloating) (h.retains wid).metadataFor

/-- Full screen stays. -/
theorem fullscreen (h : Reweighed group p q) (wid : WindowId) :
    (metadataFor q wid).windowFullscreen = (metadataFor p wid).windowFullscreen :=
  congrArg (fun m => m.windowFullscreen) (h.retains wid).metadataFor

theorem areaFor (h : Reweighed group p q) (oid : OutputId) : areaFor oid q = areaFor oid p := by
  rw [XmonadWayland.areaFor, XmonadWayland.areaFor, h.outputs, h.workAreas]

theorem screenArea (h : Reweighed group p q) (rect : Rect) (output : Option OutputId) :
    screenArea q rect output = screenArea p rect output := by
  rw [XmonadWayland.screenArea, XmonadWayland.screenArea, h.workAreas]

/-- The tiles stay. -/
theorem currentTiles (h : Reweighed group p q) : currentTiles q = currentTiles p := by
  rw [XmonadWayland.currentTiles, XmonadWayland.currentTiles, h.windowSet, h.isFloat]

/-- The area stays. -/
theorem currentArea (h : Reweighed group p q) : currentArea q = currentArea p := by
  unfold XmonadWayland.currentArea focusedOutput
  rw [h.windowSet]
  exact congrArg _ (funext h.areaFor)

/-- Floating windows are placed where they were. -/
theorem floatRects (h : Reweighed group p q) (area : Rect) (stack : Stack WindowId) :
    floatRects q area stack = floatRects p area stack := by
  unfold XmonadWayland.floatRects
  rw [h.isFloat]
  refine List.map_congr_left fun wid _ => ?_
  have hmeta := (h.retains wid).metadataFor
  have hrect := congrArg (fun m => m.windowFloatRect) hmeta
  have hhints := congrArg (fun m => m.windowHints) hmeta
  simp only [unweighted] at hrect hhints
  simp only [pointerFloatRect, floatRect, h.anchors, hrect, hhints]

/-- Tiles outside the group keep their weights. -/
theorem weightOf (h : Reweighed group p q) {wid : WindowId} (hwid : wid ∉ group) (axis : Axis) :
    weightOf q axis wid = weightOf p axis wid := by
  have hmeta := (h.others wid hwid).metadataFor
  simp only [id] at hmeta
  rw [XmonadWayland.weightOf, XmonadWayland.weightOf, hmeta]

/-- So are tiles outside the group. -/
theorem layoutRects (h : Reweighed group p q) (l : LayoutState) (area : Rect)
    {tiles : Stack WindowId} (hout : ∀ wid ∈ tiles.integrate, wid ∉ group) :
    layoutRects q l area tiles = layoutRects p l area tiles := by
  have hweights : ∀ axis : Axis, ∀ base : Rect, ∀ windows : List WindowId,
      (∀ wid ∈ windows, wid ∉ group) → ∀ axis' : Axis,
      weightedRects axis' (XmonadWayland.weightOf q axis) base windows
        = weightedRects axis' (XmonadWayland.weightOf p axis) base windows := by
    intro axis base windows hwindows axis'
    rw [weightedRects_eq, weightedRects_eq,
      weightedSlots_congr fun wid hwid => h.weightOf (hwindows wid hwid) axis]
  have htall : ∀ axis : Axis, ∀ area : Rect, tallWeighted q l.masterRatio axis area tiles.integrate
      = tallWeighted p l.masterRatio axis area tiles.integrate := by
    intro axis area
    have hfst := fst_tall l.masterRatio area tiles.integrate
    unfold tallWeighted
    split
    · rfl
    · rfl
    · next master _ sx sy sw _ slaves hrects =>
      rw [hrects, List.map_cons] at hfst
      refine congrArg _ (hweights _ _ _ (fun wid hwid => hout wid ?_) _)
      exact hfst ▸ List.mem_cons_of_mem _ hwid
  unfold XmonadWayland.layoutRects
  split
  · rfl
  · rfl
  · rfl
  · exact hweights _ _ _ hout _
  · exact hweights _ _ _ hout _
  · exact htall _ _
  · rw [htall]

/-- A screen without windows of the group shows what it showed. -/
theorem screenRects (h : Reweighed group p q) {sc : OutputScreen}
    (hout : ∀ wid ∈ Stack.integrate' sc.workspace.stack, wid ∉ group) :
    screenRects q sc = screenRects p sc := by
  unfold XmonadWayland.screenRects
  rw [h.outputs]
  split
  · next rect stack _ hstack =>
    rw [hstack, Stack.integrate'] at hout
    have htiles : tiledRects q sc (XmonadWayland.screenArea p rect sc.screen) stack
        = tiledRects p sc (XmonadWayland.screenArea p rect sc.screen) stack := by
      unfold tiledRects
      rw [h.isFloat]
      split
      · rfl
      · next tiles htiles =>
        refine h.layoutRects _ _ fun wid hwid => hout wid ?_
        have hmem : wid ∈ Stack.integrate' (stack.filter fun wid => !XmonadWayland.isFloat p wid) := by
          rw [htiles]
          exact hwid
        rw [Stack.integrate'_filter] at hmem
        exact (List.mem_filter.mp hmem).1
    simp only [h.fullscreen, h.screenArea, h.floatRects, htiles, h.isFloat]
  · rfl

end Reweighed

/-! ## The stacked tiles of the current workspace -/

/-- The tiles that the layout of the current workspace stacks. -/
def stackGroup (p : Policy) : List WindowId :=
  p.windowSet.current.workspace.layout.layoutKind.stacked (currentTiles p)

/-- The group consists of tiles. -/
theorem mem_tiles_of_mem_stackGroup {p : Policy} {wid : WindowId} (h : wid ∈ stackGroup p) :
    wid ∈ Stack.integrate' p.windowSet.current.workspace.stack ∧ isFloat p wid = false := by
  have hmem : wid ∈ currentTiles p := by
    unfold stackGroup Layout.stacked at h
    split at h
    · exact List.mem_of_mem_tail h
    · exact h
  simpa [currentTiles] using hmem

/-- The extent of a shown window is that of its rectangle. -/
theorem extentOf_eq {p : Policy} {i : WindowId} {r : Rect} (h : windowRect i p = some r)
    (axis : Axis) : extentOf p axis i = r.along axis := by
  rw [extentOf, h]
  cases axis <;> rfl

/-- A window with an anchor that holds is floating. -/
theorem AnchorHolds.isFloat {p : Policy} (hs : p.windowSet.WellFormed) {wid : WindowId}
    {anchor : PointerAnchor} (h : AnchorHolds p wid anchor) : isFloat p wid = true := by
  obtain ⟨v, hv, hflags⟩ := Option.map_eq_some_iff.mp h.shown
  obtain ⟨sc, -, hplaced⟩ := (getElem?_rectangles hs).mp hv
  obtain ⟨_, stack, -, -, ⟨-, rfl⟩ | ⟨r, rfl, -⟩⟩ := mem_screenRects hplaced
  · simp at hflags
  · exact congrArg (fun x => x.2.1) hflags

/-- A current workspace with a split layout that stacks some tiles. -/
structure Stacking (p : Policy) (area : Rect) (stack : Stack WindowId) : Prop where
  wellFormed : p.windowSet.WellFormed
  work : currentArea p = some area
  normal : Normal area
  shown : p.windowSet.current.workspace.stack = some stack
  fullscreen : (metadataFor p stack.focus).windowFullscreen = false
  splits : p.windowSet.current.workspace.layout.layoutKind.splits = true
  some_tile : stackGroup p ≠ []

namespace Stacking

variable {p q : Policy} {area : Rect} {stack : Stack WindowId}

/-- The axis of the stacked tiles, and their area. -/
abbrev axis (_ : Stacking p area stack) : Axis :=
  p.windowSet.current.workspace.layout.layoutKind.stackingAxis

abbrev base (_ : Stacking p area stack) : Rect :=
  stackArea p.windowSet.current.workspace.layout area

/-- The master is placed first, then the group. -/
theorem tiledRects_eq (h : Stacking p area stack) :
    tiledRects p p.windowSet.current area stack
      = masterRects p.windowSet.current.workspace.layout area (currentTiles p)
        ++ weightedRects h.axis (weightOf p h.axis) h.base (stackGroup p) := by
  have hmany := h.some_tile
  have htiles := Stack.integrate'_filter (fun wid => !isFloat p wid) stack
  have hcurrent : currentTiles p = stack.integrate.filter fun wid => !isFloat p wid := by
    rw [currentTiles, h.shown, Stack.integrate']
  unfold tiledRects
  cases hfilter : stack.filter fun wid => !isFloat p wid with
  | none =>
      rw [hfilter, Stack.integrate', ← hcurrent] at htiles
      refine absurd ?_ hmany
      rw [stackGroup, ← htiles, Layout.stacked]
      simp
  | some tiles =>
      rw [hfilter, Stack.integrate', ← hcurrent] at htiles
      rw [stackGroup, ← htiles] at hmany ⊢
      exact layoutRects_split p h.splits h.normal.range.self tiles hmany

/-- New weights keep the stack. -/
theorem reweighed (h : Stacking p area stack) (hq : Reweighed (stackGroup p) p q) :
    Stacking q area stack ∧ stackGroup q = stackGroup p := by
  have hgroup : stackGroup q = stackGroup p := by
    rw [stackGroup, stackGroup, hq.windowSet, hq.currentTiles]
  refine ⟨?_, hgroup⟩
  exact {
    wellFormed := hq.windowSet ▸ h.wellFormed
    work := hq.currentArea.trans h.work
    normal := h.normal
    shown := hq.windowSet ▸ h.shown
    fullscreen := (hq.fullscreen _).trans h.fullscreen
    splits := hq.windowSet ▸ h.splits
    some_tile := hgroup ▸ h.some_tile }

/-- A window outside the group is placed as before. -/
theorem rectangles_others (h : Stacking p area stack) (hq : Reweighed (stackGroup p) p q)
    {wid : WindowId} (hwid : wid ∉ stackGroup p) :
    (rectangles q)[wid]? = (rectangles p)[wid]? := by
  obtain ⟨h', hgroup⟩ := h.reweighed hq
  have hscreen : ∀ sc ∈ p.windowSet.screens, ∀ v : Shown,
      (wid, v) ∈ screenRects q sc ↔ (wid, v) ∈ screenRects p sc := by
    intro sc hsc v
    by_cases hcur : sc = p.windowSet.current
    · -- The current screen: the tiles of the group are not this window.
      subst hcur
      obtain ⟨rect, hrect, harea⟩ := exists_output_of_currentArea h.work
      have hrect' : screenOutput q p.windowSet.current = some rect := by
        rw [← hrect, screenOutput, screenOutput, hq.outputs]
      have hmem : ∀ r, (wid, r) ∈ tiledRects q p.windowSet.current area stack
          ↔ (wid, r) ∈ tiledRects p p.windowSet.current area stack := by
        intro r
        have heq := h'.tiledRects_eq
        have hnot : ∀ weight : WindowId → ℚ, ∀ axis base,
            (wid, r) ∉ weightedRects axis weight base (stackGroup p) := by
          intro weight axis base hr
          have hfst := List.mem_map_of_mem (f := Prod.fst) hr
          rw [fst_weightedRects] at hfst
          exact hwid hfst
        simp only [hq.windowSet, hgroup, hq.currentTiles] at heq
        rw [heq, h.tiledRects_eq, List.mem_append, List.mem_append,
          or_iff_left (hnot _ _ _), or_iff_left (hnot _ _ _)]
      rw [screenRects_tiled hrect' h.shown (by simp [h'.fullscreen]),
        screenRects_tiled hrect h.shown (by simp [h.fullscreen]), hq.screenArea, hq.isFloat, harea,
        hq.floatRects]
      simp only [List.mem_map, List.mem_append, Prod.exists, Prod.mk.injEq]
      constructor
      · rintro ⟨_, r, hr, rfl, hv⟩
        exact ⟨_, r, hr.imp_left (hmem r).mp, rfl, hv⟩
      · rintro ⟨_, r, hr, rfl, hv⟩
        exact ⟨_, r, hr.imp_left (hmem r).mpr, rfl, hv⟩
    · -- Another screen shows no tile of the group.
      rw [hq.screenRects fun i hi hgrp => hcur ?_]
      have htag := h.wellFormed.findTag_eq (mem_workspaces_of_mem_screens hsc) hi
      rw [h.wellFormed.findTag_eq p.windowSet.current_mem_workspaces
        (mem_tiles_of_mem_stackGroup hgrp).1, Option.some.injEq] at htag
      exact h.wellFormed.screen_eq_of_tag hsc p.windowSet.current_mem_screens htag.symm
  refine Option.ext fun v => ?_
  rw [getElem?_rectangles h'.wellFormed, getElem?_rectangles h.wellFormed, hq.windowSet]
  exact exists_congr fun sc => and_congr_right fun hsc => hscreen sc hsc v

/-- Windows outside the group are placed where they were. -/
theorem windowRect_others (h : Stacking p area stack) (hq : Reweighed (stackGroup p) p q)
    {wid : WindowId} (hwid : wid ∉ stackGroup p) : windowRect wid q = windowRect wid p := by
  rw [windowRect_eq (h.reweighed hq).1.wellFormed, windowRect_eq h.wellFormed,
    h.rectangles_others hq hwid]

/-- Anchors belong to floating windows: they stay valid. -/
theorem settled (h : Stacking p area stack) (hq : Reweighed (stackGroup p) p q)
    (hset : Settled p) (hnone : p.pointerOperation = none) : Settled q where
  anchors wid hwid := by
    obtain ⟨anchor, ha, hholds⟩ :=
      (anchorValid_iff h.wellFormed).mp (hset.anchors wid (hq.anchors ▸ hwid))
    have hout : wid ∉ stackGroup p := fun hmem => Bool.false_ne_true
      ((mem_tiles_of_mem_stackGroup hmem).2.symm.trans (hholds.isFloat h.wellFormed))
    refine (anchorValid_iff (h.reweighed hq).1.wellFormed).mpr ⟨anchor, hq.anchors ▸ ha, ?_⟩
    exact {
      shown := (congrArg _ (h.rectangles_others hq hout)).trans hholds.shown
      fullscreen := (hq.fullscreen wid).trans hholds.fullscreen
      workspace := hq.windowSet ▸ hholds.workspace
      output := hq.outputs ▸ hholds.output
      area := (hq.areaFor _).trans hholds.area }
  operation op hop := by
    rw [hq.same] at hop
    exact absurd (hnone.symm.trans hop) (Option.some_ne_none op).symm

/-- The tiles of the group are placed in their slots. -/
theorem windowRect_slot (h : Stacking p area stack) {e : WindowId × (Int × Int)}
    (he : e ∈ weightedSlots (weightOf p h.axis) (area.along h.axis) (stackGroup p)) :
    windowRect e.1 p = some (placeAlong h.axis h.base e.2) := by
  refine windowRect_tile h.wellFormed h.work h.shown h.fullscreen ?_
  rw [h.tiledRects_eq, weightedRects_eq, along_stackArea]
  exact List.mem_append_right _ (List.mem_map_of_mem he)

/-- The extents of the group along the axis. -/
theorem extents (h : Stacking p area stack) :
    (weightedSlots (weightOf p h.axis) (area.along h.axis) (stackGroup p)).map (fun e => e.2.2)
      = (stackGroup p).map (extentOf p h.axis) := by
  have hfst := fst_weightedSlots (weightOf p h.axis) (area.along h.axis) (stackGroup p)
  conv_rhs => rw [← hfst, List.map_map]
  refine List.map_congr_left fun e he => ?_
  simp [extentOf_eq (h.windowRect_slot he)]

/-- There is a pixel along the axis. -/
theorem along_pos (h : Stacking p area stack) : 1 ≤ area.along h.axis := by
  have hw := h.normal.range.horizontal.pos
  have hh := h.normal.range.vertical.pos
  cases h.axis <;> assumption

/-- Displayed extents that fill the area place the group. -/
theorem slots_of_sum (h : Stacking p area stack)
    (hsum : ((stackGroup p).map (extentOf p h.axis)).sum = area.along h.axis) :
    weightedSlots (weightOf p h.axis) (area.along h.axis) (stackGroup p)
      = slotsOf (extentOf p h.axis) 0 (stackGroup p) :=
  weightedSlots_of_sum h.along_pos h.some_tile h.extents hsum

/-- Sizes that were written and fill the area place the group. -/
theorem slots_of_reweigh (h : Stacking p area stack)
    (hmeta : ∀ wid ∈ stackGroup p, wid ∈ p.windowMetadata) {size : WindowId → Int}
    (hpos : ∀ i ∈ stackGroup p, 1 ≤ size i)
    (hsum : ((stackGroup p).map size).sum = area.along h.axis) :
    weightedSlots (weightOf (reweigh h.axis size (stackGroup p) p) h.axis) (area.along h.axis)
      (stackGroup p) = slotsOf size 0 (stackGroup p) :=
  weightedSlots_of_sizes h.some_tile
    (fun i hi => weightOf_reweigh h.axis size hi (hmeta i hi)) hpos hsum

end Stacking

end XmonadWayland
