import XmonadWayland.Policy.Target
import XmonadWayland.Policy.Tiling
import XmonadWayland.Policy.Shown
import XmonadWayland.Policy.Drag
import XmonadWayland.StackSet.Order

/-!
# XmonadWayland.Policy.Refocus

Changing the focus only.  As long as every displayed workspace has a split layout and no
window is fullscreen, the rectangles depend on the order of the windows and not on the
focus: focusing a displayed window, or viewing a displayed workspace, moves nothing.
-/

namespace XmonadWayland

open StackSet

/-! ## Layouts by order -/

/-- Layouts depend on the order only. -/
theorem layoutRects_of_order (p : Policy) {l : LayoutState} (hk : l.layoutKind.splits) (area : Rect)
    {tiles tiles' : Stack WindowId} (h : tiles'.integrate = tiles.integrate) :
    layoutRects p l area tiles' = layoutRects p l area tiles := by
  unfold layoutRects
  cases hkind : l.layoutKind with
  | columns => simp only [h]
  | rows => simp only [h]
  | tall => simp only [h]
  | mirror => simp only [h]
  | _ => simp [hkind, Layout.splits] at hk

/-- So does what they place. -/
theorem tiledRects_of_order (p : Policy) {sc sc' : OutputScreen}
    (hlayout : sc'.workspace.layout = sc.workspace.layout)
    (hk : sc.workspace.layout.layoutKind.splits) (area : Rect) {stack stack' : Stack WindowId}
    (h : stack'.integrate = stack.integrate) :
    tiledRects p sc' area stack' = tiledRects p sc area stack := by
  have htiles := Stack.integrate'_filter (fun wid => !isFloat p wid) stack
  have htiles' := Stack.integrate'_filter (fun wid => !isFloat p wid) stack'
  rw [h, ← htiles] at htiles'
  unfold tiledRects
  rw [hlayout]
  cases hf : stack.filter fun wid => !isFloat p wid with
  | none =>
      cases hf' : stack'.filter fun wid => !isFloat p wid with
      | none => rfl
      | some tiles' =>
          rw [hf, hf'] at htiles'
          exact absurd htiles' (List.ne_nil_of_mem tiles'.focus_mem_integrate)
  | some tiles =>
      cases hf' : stack'.filter fun wid => !isFloat p wid with
      | none =>
          rw [hf, hf'] at htiles'
          exact absurd htiles'.symm (List.ne_nil_of_mem tiles.focus_mem_integrate)
      | some tiles' =>
          rw [hf, hf'] at htiles'
          exact layoutRects_of_order p hk area htiles'

/-- No window is fullscreen, and every displayed workspace has a split layout. -/
structure PlainDisplay (p : Policy) : Prop where
  fullscreen : ∀ wid ∈ p.windowSet.windows, (metadataFor p wid).windowFullscreen = false
  splits : ∀ sc ∈ p.windowSet.screens, sc.workspace.layout.layoutKind.splits = true

/-- The screen shows the same windows in the same places. -/
theorem screenRects_of_order {p : Policy} (hp : PlainDisplay p) {sc sc' : OutputScreen}
    (hsc : sc ∈ p.windowSet.screens) (hscreen : sc'.screen = sc.screen)
    (hlayout : sc'.workspace.layout = sc.workspace.layout)
    (horder : Stack.integrate' sc'.workspace.stack = Stack.integrate' sc.workspace.stack) :
    screenRects p sc' = screenRects p sc := by
  have hout : screenOutput p sc' = screenOutput p sc := by rw [screenOutput, screenOutput, hscreen]
  have hfull : ∀ stack : Stack WindowId, stack.focus ∈ Stack.integrate' sc.workspace.stack →
      ¬(metadataFor p stack.focus).windowFullscreen := fun stack hfocus => by
    simp [hp.fullscreen _ (mem_windows_of_mem (mem_workspaces_of_mem_screens hsc) hfocus)]
  cases hrect : screenOutput p sc with
  | none => rw [screenRects_eq_nil (Or.inl hrect), screenRects_eq_nil (Or.inl (hout.trans hrect))]
  | some rect =>
      cases hst : sc.workspace.stack with
      | none =>
          cases hst' : sc'.workspace.stack with
          | none => rw [screenRects_eq_nil (Or.inr hst), screenRects_eq_nil (Or.inr hst')]
          | some stack' =>
              rw [hst, hst'] at horder
              exact absurd horder (List.ne_nil_of_mem stack'.focus_mem_integrate)
      | some stack =>
          cases hst' : sc'.workspace.stack with
          | none =>
              rw [hst, hst'] at horder
              exact absurd horder.symm (List.ne_nil_of_mem stack.focus_mem_integrate)
          | some stack' =>
              rw [hst, hst', Stack.integrate', Stack.integrate'] at horder
              rw [hst, Stack.integrate'] at hfull
              rw [screenRects_tiled (hout.trans hrect) hst'
                  (hfull stack' (horder ▸ stack'.focus_mem_integrate)),
                screenRects_tiled hrect hst (hfull stack stack.focus_mem_integrate), hscreen,
                tiledRects_of_order p hlayout (hp.splits sc hsc) _ horder]
              simp only [floatRects, horder]

/-! ## Policies that differ in focus -/

/-- `p'` differs from `p` by the focus and the pointer operation at most. -/
structure Refocused (p p' : Policy) : Prop where
  same : p' = { p with windowSet := p'.windowSet, pointerOperation := p'.pointerOperation }
  wellFormed : p'.windowSet.WellFormed
  orders : SameOrders p.windowSet p'.windowSet
  windows : p'.windowSet.windows.Perm p.windowSet.windows

namespace Refocused

variable {p p' p'' : Policy}

theorem refl (hs : p.windowSet.WellFormed) : Refocused p p :=
  ⟨rfl, hs, SameOrders.refl _, List.Perm.refl _⟩

theorem trans (h : Refocused p p') (h' : Refocused p' p'') : Refocused p p'' where
  same := by
    have hsame := h.same
    rw [h'.same, hsame]
  wellFormed := h'.wellFormed
  orders := h.orders.trans h'.orders
  windows := h'.windows.trans h.windows

/-- Metadata is as it was. -/
theorem metadataFor (h : Refocused p p') (wid : WindowId) : metadataFor p' wid = metadataFor p wid := by
  rw [h.same]
  rfl

theorem outputs (h : Refocused p p') : p'.outputs = p.outputs := by rw [h.same]

theorem anchors (h : Refocused p p') : p'.pointerAnchors = p.pointerAnchors := by rw [h.same]

theorem areaFor (h : Refocused p p') (oid : OutputId) : areaFor oid p' = areaFor oid p := by
  rw [h.same]
  rfl

/-- Every screen shows what it did. -/
theorem screenRects (h : Refocused p p') (sc : OutputScreen) : screenRects p' sc = screenRects p sc := by
  rw [h.same]
  rfl

/-- Nothing covers the display. -/
theorem plainDisplay (h : Refocused p p') (hs : p.windowSet.WellFormed) (hp : PlainDisplay p) :
    PlainDisplay p' where
  fullscreen wid hwid := by
    rw [h.metadataFor]
    exact hp.fullscreen wid (h.windows.mem_iff.mp hwid)
  splits sc' hsc' := by
    obtain ⟨sc, hsc, -, hlabel, -⟩ := h.orders.exists_screen hs h.wellFormed hsc'
    have hlayout : sc.workspace.layout = sc'.workspace.layout := congrArg Prod.snd hlabel
    exact hlayout ▸ hp.splits sc hsc

/-- Every window is placed where it was. -/
theorem rectangles_eq (h : Refocused p p') (hs : p.windowSet.WellFormed) (hp : PlainDisplay p)
    (wid : WindowId) : (rectangles p')[wid]? = (rectangles p)[wid]? := by
  refine Option.ext fun v => ?_
  rw [getElem?_rectangles h.wellFormed, getElem?_rectangles hs]
  constructor
  · rintro ⟨sc', hsc', hv⟩
    obtain ⟨sc, hsc, hshown, hlabel, horder⟩ := h.orders.exists_screen hs h.wellFormed hsc'
    refine ⟨sc, hsc, ?_⟩
    rwa [h.screenRects, screenRects_of_order hp hsc (congrArg Prod.fst hshown).symm
      (congrArg Prod.snd hlabel).symm horder.symm] at hv
  · rintro ⟨sc, hsc, hv⟩
    obtain ⟨sc', hsc', hshown, hlabel, horder⟩ := h.orders.symm.exists_screen h.wellFormed hs hsc
    refine ⟨sc', hsc', ?_⟩
    rwa [h.screenRects, screenRects_of_order hp hsc (congrArg Prod.fst hshown)
      (congrArg Prod.snd hlabel) horder]

/-- Every window is placed where it was. -/
theorem windowRect_eq (h : Refocused p p') (hs : p.windowSet.WellFormed) (hp : PlainDisplay p)
    (wid : WindowId) : windowRect wid p' = windowRect wid p := by
  rw [XmonadWayland.windowRect_eq h.wellFormed, XmonadWayland.windowRect_eq hs,
    h.rectangles_eq hs hp]

/-- Anchors stay valid. -/
theorem settled (h : Refocused p p') (hs : p.windowSet.WellFormed) (hp : PlainDisplay p)
    (hset : Settled p) (hnone : p'.pointerOperation = none) : Settled p' where
  anchors wid hwid := by
    obtain ⟨anchor, ha, hholds⟩ := (anchorValid_iff hs).mp (hset.anchors wid (h.anchors ▸ hwid))
    refine (anchorValid_iff h.wellFormed).mpr ⟨anchor, h.anchors ▸ ha, ?_⟩
    exact {
      shown := (congrArg _ (h.rectangles_eq hs hp wid)).trans hholds.shown
      fullscreen := (congrArg _ (h.metadataFor wid)).trans hholds.fullscreen
      workspace := (findTag_of_orders hs h.wellFormed h.orders.orders wid).trans hholds.workspace
      output := h.outputs ▸ hholds.output
      area := (h.areaFor _).trans hholds.area }
  operation op hop := absurd (hnone.symm.trans hop) (Option.some_ne_none op).symm

end Refocused

/-- Directional focus changes the focus only. -/
theorem refocused_focusDirection {p : Policy} (hs : p.windowSet.WellFormed) (direction : Direction) :
    Refocused p (focusDirection direction p) := by
  unfold focusDirection
  cases htarget : directionTarget direction p with
  | none => exact Refocused.refl hs
  | some nav =>
      have hfound := found_of_directionTarget htarget
      cases nav with
      | toWindow wid =>
          obtain ⟨sc, hsc, hwid⟩ := hfound.exists_screen hs
          have hre := rearranged_focusWindow hs wid
          exact ⟨rfl, hre.wellFormed hs, sameOrders_focusWindow hs hsc hwid, hre.windows⟩
      | toWorkspace tag =>
          cases hfound with
          | workspace _ sc _ _ _ hsc =>
              exact ⟨rfl, hs.view _, sameOrders_view hs hsc, windows_view_perm hs _⟩

end XmonadWayland
