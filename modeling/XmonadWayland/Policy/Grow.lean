import XmonadWayland.Policy.Shown
import XmonadWayland.Policy.Mode
import XmonadWayland.Policy.Anchors

/-!
# XmonadWayland.Policy.Grow

Growing the focused floating window and shrinking it by the same amount.  Each step moves
the origin by half of the difference, rounded down: for an even amount the two halves
cancel, for an odd amount the window has its size back one pixel before its old origin.
-/

namespace XmonadWayland

open StackSet

/-! ## Rectangles -/

/-- The rectangle grown around its centre, within no bounds. -/
def grown (axis : Axis) (amount : Int) (r : Rect) : Rect :=
  match axis with
  | .width => { r with rectX := r.rectX + -amount / 2, rectWidth := r.rectWidth + amount }
  | .height => { r with rectY := r.rectY + -amount / 2, rectHeight := r.rectHeight + amount }

/-- The rectangle one pixel before its origin. -/
def nudged (axis : Axis) (r : Rect) : Rect :=
  match axis with
  | .width => { r with rectX := r.rectX - 1 }
  | .height => { r with rectY := r.rectY - 1 }

/-- A rectangle that the minimum of one pixel, the size hints and the area leave as it is. -/
def Unclamped (area : Rect) (m : WindowMetadata) (r : Rect) : Prop :=
  floatRect area { m with windowFloatRect := some r } = r

/-- An even amount is taken back exactly. -/
theorem grown_back_even (axis : Axis) {amount : Int} (h : 2 ∣ amount) (r : Rect) :
    grown axis (-amount) (grown axis amount r) = r := by
  obtain ⟨k, rfl⟩ := h
  obtain ⟨x, y, w, hgt⟩ := r
  cases axis <;> simp only [grown, Rect.mk.injEq, true_and, and_true] <;> omega

/-- An odd amount leaves the window one pixel off. -/
theorem grown_back_odd (axis : Axis) {amount : Int} (h : ¬2 ∣ amount) (r : Rect) :
    grown axis (-amount) (grown axis amount r) = nudged axis r := by
  obtain ⟨x, y, w, hgt⟩ := r
  cases axis <;> simp only [grown, nudged, Rect.mk.injEq, true_and, and_true] <;> omega

/-- Without clamping the rectangle lies within the area. -/
theorem Unclamped.within {area : Rect} (ha : Within area area) {m : WindowMetadata} {r : Rect}
    (h : Unclamped area m r) : Within r area := h ▸ within_floatRect ha _

/-- Without bounds, `resizeWindow` proposes the grown rectangle. -/
theorem resizedFloat_eq {area : Rect} (ha : Normal area) {axis : Axis} {amount : Int} {r : Rect}
    (h : Within (grown axis amount r) area) : resizedFloat axis amount r = grown axis amount r := by
  have hn := ha.within h
  have hwidth := h.horizontal.pos
  have hheight := h.vertical.pos
  have hmax := hn.width
  have hmax' := hn.height
  obtain ⟨x, y, w, hgt⟩ := r
  have hsame : ∀ origin size : Int, origin + (size - size) / 2 = origin := by
    intro origin size
    omega
  have hhalf : ∀ size : Int, size - (size + amount) = -amount := by
    intro size
    omega
  cases axis <;>
    simp only [grown, resizedFloat, reduceCtorEq, if_true, if_false] at * <;>
    rw [min_eq_right (by assumption), max_eq_right (by assumption), hsame, hhalf]

/-- The bounds of a rectangle depend on the hints only. -/
theorem floatRect_hints {area r : Rect} {m m' : WindowMetadata} (h : m'.windowHints = m.windowHints) :
    floatRect area { m' with windowFloatRect := some r }
      = floatRect area { m with windowFloatRect := some r } := by
  simp only [floatRect, h]

/-- A rectangle of the same size inside the area is unclamped as well. -/
theorem Unclamped.moved {area : Rect} {m : WindowMetadata} {r r' : Rect} (h : Unclamped area m r)
    (hr : Within r' area) (hw : r'.rectWidth = r.rectWidth) (hh : r'.rectHeight = r.rectHeight) :
    Unclamped area m r' := by
  obtain ⟨x, y, w, hgt⟩ := r
  obtain ⟨x', y', w', hgt'⟩ := r'
  obtain ⟨ax, ay, aw, ah⟩ := area
  obtain ⟨⟨h1, h2, h3⟩, ⟨h4, h5, h6⟩⟩ := hr
  simp only at hw hh h1 h2 h3 h4 h5 h6
  subst hw hh
  simp only [Unclamped, floatRect, Rect.mk.injEq] at h ⊢
  obtain ⟨-, -, hwidth, hheight⟩ := h
  rw [hwidth, hheight]
  omega

/-! ## One resize -/

/-- The rectangle a window is displayed at: what was rendered while it has an anchor, and
its placement otherwise. -/
def shownRect (wid : WindowId) (p : Policy) : Option Rect :=
  match p.pointerAnchors[wid]? with
  | some _ => displayedRect wid p
  | none => windowRect wid p

/-- A floating window that has the focus and is displayed, not fullscreen. -/
structure FloatFocus (p : Policy) (wid : WindowId) (area : Rect) : Prop where
  peek : p.windowSet.peek = some wid
  floating : isFloat p wid = true
  fullscreen : (metadataFor p wid).windowFullscreen = false
  area : currentArea p = some area

namespace FloatFocus

variable {p p' : Policy} {wid : WindowId} {area : Rect}

/-- Pointer bookkeeping keeps a floating focus. -/
theorem frame (h : FloatFocus p wid area) (hframe : PointerFrame p p') : FloatFocus p' wid area :=
  ⟨hframe.windowSet ▸ h.peek, (hframe.isFloat wid).trans h.floating,
    (hframe.fullscreen wid).trans h.fullscreen, (currentArea_frame hframe).trans h.area⟩

/-- It is placed at its float rectangle. -/
theorem windowRect_eq (h : FloatFocus p wid area) (hs : p.windowSet.WellFormed) :
    windowRect wid p = some (pointerFloatRect p wid area) := by
  obtain ⟨stack, hstack, rfl⟩ := peek_eq_some.mp h.peek
  exact windowRect_float hs h.area hstack h.fullscreen stack.focus_mem_integrate h.floating

/-- A window at rest is placed at its float rectangle, unless that is bounded. -/
theorem windowRect_of_rests (h : FloatFocus p wid area) (hs : p.windowSet.WellFormed) {r : Rect}
    (hr : Rests p wid r) (hfit : Unclamped area (metadataFor p wid) r) :
    windowRect wid p = some r := by
  have hm : metadataFor p wid = { metadataFor p wid with windowFloatRect := some r } := by
    rw [← hr.floatRect]
  rw [h.windowRect_eq hs, pointerFloatRect, hr.gone, hm]
  exact congrArg some hfit

/-- It has the focus. -/
theorem focusedWindow_eq (hopen : Open p) (h : FloatFocus p wid area) : focusedWindow p = some wid := by
  obtain ⟨rect, hrect, -⟩ := exists_output_of_currentArea h.area
  obtain ⟨oid, -, hout⟩ := Option.bind_eq_some_iff.mp hrect
  rw [focusedWindow, if_neg, h.peek]
  rintro (hlock | hempty)
  · exact Bool.false_ne_true (hopen.unlocked.symm.trans hlock)
  · rw [Std.ExtTreeMap.isEmpty_iff.mp hempty, Std.ExtTreeMap.getElem?_empty] at hout
    contradiction

end FloatFocus

theorem fits_anchoredOrigin {leading : Bool} {initialOrigin initialExtent actualOrigin actualExtent
    areaOrigin areaExtent : Int} (hpos : 1 ≤ actualExtent) (hle : actualExtent ≤ areaExtent)
    (hrange : Fits areaOrigin areaExtent minInt32 4294967296) :
    Fits (anchoredOrigin leading initialOrigin initialExtent actualOrigin actualExtent areaOrigin
      areaExtent) actualExtent areaOrigin areaExtent := by
  obtain ⟨h1, h2, h3⟩ := hrange
  simp only [anchoredOrigin, abiCoordinate, minInt32, maxInt32] at *
  generalize (if leading = true then initialOrigin + initialExtent - actualExtent else actualOrigin)
    = desired
  exact ⟨by omega, hpos, by omega⟩

section Resize

variable {cfg : Config} {p : Policy} {wid : WindowId} {area : Rect}

/-- An anchored window whose size fits is displayed inside the area. -/
theorem within_displayed (h : Reachable cfg p) (hfocus : FloatFocus p wid area)
    {anchor : PointerAnchor} {r : Rect} (hanchored : Anchored p wid anchor r) {shown : Rect}
    (hshown : displayedRect wid p = some shown) (hw : 1 ≤ shown.rectWidth)
    (hw' : shown.rectWidth ≤ area.rectWidth) (hh : 1 ≤ shown.rectHeight)
    (hh' : shown.rectHeight ≤ area.rectHeight) : Within shown area := by
  have hs := (managed_of_reachable h).wellFormed
  have hn := normal_currentArea (outputsNormal_of_reachable h) hfocus.area
  have hanchor : anchor.anchorArea = area := by
    obtain ⟨stack, hstack, rfl⟩ := peek_eq_some.mp hfocus.peek
    have hplaced := rectangles_current hs hfocus.area hstack hfocus.fullscreen
      (List.mem_append_right _ (List.mem_map_of_mem (List.mem_filter.mpr
        ⟨stack.focus_mem_integrate, hfocus.floating⟩)))
    have hout := hanchored.holds.shown
    rw [hplaced, Option.map_some, Option.some.injEq] at hout
    have hid : p.windowSet.current.screen = some anchor.anchorOutput := congrArg Prod.fst hout
    have harea := hfocus.area
    rw [currentArea, focusedOutput, hid, Option.bind_some, hanchored.holds.area] at harea
    exact Option.some.inj harea
  rw [hanchored.displayed hs, Option.some.injEq] at hshown
  subst hshown hanchor
  exact ⟨fits_anchoredOrigin hw hw' hn.range.horizontal,
    fits_anchoredOrigin hh hh' hn.range.vertical⟩

/-- A resize starts from where the window is displayed. -/
theorem windowRect_prepared (h : Reachable cfg p) (hopen : Open p)
    (hfocus : FloatFocus p wid area) {r : Rect} (hr : shownRect wid p = some r)
    (hfit : Unclamped area (metadataFor p wid) r ∨ p.pointerAnchors[wid]? = none) (axis : Axis)
    (amount : Int) : windowRect wid (preparePointerAction p (.resize axis amount)) = some r
      ∧ (preparePointerAction p (.resize axis amount)).pointerAnchors[wid]? = none := by
  have hs := (managed_of_reachable h).wellFormed
  have hprep := frame_preparePointerAction (.resize axis amount) p
  have heq : preparePointerAction p (.resize axis amount)
      = materializeAnchor wid (cancelPointer p) := by
    simp only [preparePointerAction, focusedGeometry, hfocus.focusedWindow_eq hopen]
  have hgone : (preparePointerAction p (.resize axis amount)).pointerAnchors[wid]? = none := by
    rw [heq]
    exact anchors_materializeAnchor_self wid _
  refine ⟨?_, hgone⟩
  cases ha : p.pointerAnchors[wid]? with
  | none =>
      have hsame : materializeAnchor wid (cancelPointer p) = cancelPointer p := by
        unfold materializeAnchor
        split
        · rfl
        · next hsome => exact absurd (ha.symm.trans hsome) (Option.some_ne_none _).symm
      rw [shownRect, ha] at hr
      rw [heq, hsame]
      exact hr
  | some anchor =>
      obtain ⟨r₀, hanchored⟩ := anchored_of_reachable h ha
      rw [shownRect, ha, hanchored.displayed hs, Option.some.injEq] at hr
      have hrests : Rests (preparePointerAction p (.resize axis amount)) wid r := by
        rcases holding_preparePointerEvent hs (.actionRequested (.resize axis amount)) hanchored with
          hanchored' | hrests
        · exact absurd (hgone.symm.trans hanchored'.entry) (Option.some_ne_none _).symm
        · exact hr ▸ hrests
      have hfit' := hfit.resolve_right (by simp [ha])
      refine (hfocus.frame hprep).windowRect_of_rests (hprep.windowSet ▸ hs) hrests ?_
      exact (floatRect_hints (hprep.hints wid)).trans hfit'

/-- A resize that nothing bounds records the grown rectangle. -/
theorem resize_step (h : Reachable cfg p) (hopen : Open p) (hfocus : FloatFocus p wid area) {r : Rect}
    (hr : shownRect wid p = some r)
    (hfit : Unclamped area (metadataFor p wid) r ∨ p.pointerAnchors[wid]? = none) {axis : Axis}
    {amount : Int} (hgrown : Unclamped area (metadataFor p wid) (grown axis amount r)) :
    let p' := step cfg p (.actionRequested (.resize axis amount))
    PointerFrame p p' ∧ Rests p' wid (grown axis amount r) := by
  intro p'
  let q := preparePointerAction p (.resize axis amount)
  have hprep : PointerFrame p q := frame_preparePointerAction (.resize axis amount) p
  have hc := (managed_of_reachable h).toConsistent.frame hprep
  have hn := normal_currentArea (outputsNormal_of_reachable h) hfocus.area
  have hfocus' := hfocus.frame hprep
  obtain ⟨hrect, hgone⟩ : windowRect wid q = some r ∧ q.pointerAnchors[wid]? = none :=
    windowRect_prepared h hopen hfocus hr hfit axis amount
  -- The handler stores the bounded rectangle in the metadata of the window.
  let update (m : WindowMetadata) : WindowMetadata := { m with
    windowFloatRect := some (floatRect area { m with
      windowFloatRect := some (resizedFloat axis amount r) }) }
  have hfloating : (metadataFor q wid).windowFloating = true := hfocus'.floating
  have hnext : (handleAction cfg (.resize axis amount) q).1 = alterMetadata wid update q := by
    simp only [handleAction, resizeWindow, hfocus'.peek, hfocus'.area, hfocus'.fullscreen, hfloating,
      hrect, Bool.false_eq_true, if_false]
    rfl
  have hstored : (metadataFor (alterMetadata wid update q) wid).windowFloatRect
      = some (grown axis amount r) := by
    obtain ⟨m, hm⟩ := mem_map_iff.mp ((hc.metadata wid).mpr (mem_windows_of_peek hfocus'.peek))
    have hhints : m.windowHints = (metadataFor p wid).windowHints := by
      rw [← hprep.hints wid, metadataFor, hm, Option.getD_some]
    rw [metadataFor_alterMetadata, if_pos rfl, hm, Option.map_some, Option.getD_some]
    simp only [update]
    rw [resizedFloat_eq hn (hgrown.within hn.range.self), floatRect_hints hhints]
    exact congrArg some hgrown
  have hp' : p' = validatePointerState (settleAnchors q (alterMetadata wid update q)) := by
    rw [← hnext]
    exact step_action cfg (.resize axis amount) hopen
  rw [hp']
  refine ⟨?_, Rests.finish hgone ⟨hgone, hstored⟩⟩
  exact (hprep.trans (frame_alterMetadata update (fun _ => rfl) wid q)).trans (frame_finish q _)

/-! ## What is rendered -/

/-- A rectangle with the size its client acknowledged. -/
def acknowledged (size : Option (Int × Int)) (r : Rect) : Rect :=
  { r with
    rectWidth := (size.getD (r.rectWidth, r.rectHeight)).1
    rectHeight := (size.getD (r.rectWidth, r.rectHeight)).2 }

/-- A nudge does not change what is acknowledged. -/
theorem acknowledged_nudged (size : Option (Int × Int)) (axis : Axis) (r : Rect) :
    acknowledged size (nudged axis r) = nudged axis (acknowledged size r) := by
  cases axis <;> rfl

/-- Without an anchor a window is displayed where it is placed. -/
theorem displayedRect_of_gone (hs : p.windowSet.WellFormed)
    (hgone : p.pointerAnchors[wid]? = none) :
    displayedRect wid p = (windowRect wid p).map (acknowledged p.pointerActualSizes[wid]?) := by
  rw [displayedRect, windowPlacement_eq hs, windowRect_eq hs, Option.map_map, Option.map_map, hgone]
  rfl

/-- A window is displayed where it is shown. -/
theorem displayedRect_of_shownRect (h : Reachable cfg p) {r : Rect} (hr : shownRect wid p = some r) :
    displayedRect wid p = some (acknowledged p.pointerActualSizes[wid]? r) := by
  have hs := (managed_of_reachable h).wellFormed
  cases ha : p.pointerAnchors[wid]? with
  | none =>
      have hrect : windowRect wid p = some r := by simpa only [shownRect, ha] using hr
      rw [displayedRect_of_gone hs ha, hrect]
      rfl
  | some anchor =>
      obtain ⟨r₀, hanchored⟩ := anchored_of_reachable h ha
      rw [shownRect, ha, hanchored.displayed hs, Option.some.injEq] at hr
      rw [hanchored.displayed hs, ← hr]
      cases p.pointerActualSizes[wid]? <;> rfl

/-- **Growing and shrinking**: by an even amount a floating window comes back to the
rectangle it was displayed at, by an odd amount it comes back one pixel before. -/
theorem resize_and_back (h : Reachable cfg p) (hopen : Open p) (hpeek : p.windowSet.peek = some wid)
    (hfloat : isFloat p wid = true) (hfull : (metadataFor p wid).windowFullscreen = false)
    (harea : currentArea p = some area) {r : Rect} (hr : shownRect wid p = some r) (axis : Axis)
    (amount : Int) (hgrown : Unclamped area (metadataFor p wid) (grown axis amount r))
    (hback : Unclamped area (metadataFor p wid) (grown axis (-amount) (grown axis amount r))) :
    let p' := step cfg (step cfg p (.actionRequested (.resize axis amount)))
      (.actionRequested (.resize axis (-amount)))
    (2 ∣ amount → windowRect wid p' = some r ∧ displayedRect wid p' = displayedRect wid p)
      ∧ (¬2 ∣ amount → windowRect wid p' = some (nudged axis r)
        ∧ displayedRect wid p' = (displayedRect wid p).map (nudged axis)) := by
  intro p'
  have hfocus : FloatFocus p wid area := ⟨hpeek, hfloat, hfull, harea⟩
  have hn := normal_currentArea (outputsNormal_of_reachable h) harea
  have hfit : Unclamped area (metadataFor p wid) r ∨ p.pointerAnchors[wid]? = none := by
    cases ha : p.pointerAnchors[wid]? with
    | none => exact Or.inr rfl
    | some anchor =>
        obtain ⟨r₀, hanchored⟩ := anchored_of_reachable h ha
        rw [shownRect, ha] at hr
        have hsize : r.rectWidth = (grown axis (-amount) (grown axis amount r)).rectWidth
            ∧ r.rectHeight = (grown axis (-amount) (grown axis amount r)).rectHeight := by
          cases axis <;> simp [grown]
        have hin := hback.within hn.range.self
        exact Or.inl (hback.moved (within_displayed h hfocus hanchored hr
          (hsize.1 ▸ hin.horizontal.pos) (hsize.1 ▸ hin.horizontal.size_le)
          (hsize.2 ▸ hin.vertical.pos) (hsize.2 ▸ hin.vertical.size_le)) hsize.1 hsize.2)
  obtain ⟨hframe, hrests⟩ := resize_step h hopen hfocus hr hfit hgrown
  have h' := h.event (.actionRequested (.resize axis amount))
  have hfocus' := hfocus.frame hframe
  have hhints := hframe.hints wid
  have hgrown' : Unclamped area _ (grown axis amount r) := (floatRect_hints hhints).trans hgrown
  have hback' : Unclamped area _ (grown axis (-amount) (grown axis amount r)) :=
    (floatRect_hints hhints).trans hback
  have hr' : shownRect wid (step cfg p (.actionRequested (.resize axis amount)))
      = some (grown axis amount r) := by
    rw [shownRect, hrests.gone]
    exact hfocus'.windowRect_of_rests (managed_of_reachable h').wellFormed hrests hgrown'
  obtain ⟨hframe', hrests'⟩ := resize_step h' (hopen.frame hframe) hfocus' hr' (Or.inr hrests.gone)
    hback'
  have hs := (managed_of_reachable (h'.event (.actionRequested (.resize axis (-amount))))).wellFormed
  have hrect : windowRect wid p' = some (grown axis (-amount) (grown axis amount r)) :=
    (hfocus'.frame hframe').windowRect_of_rests hs hrests'
      ((floatRect_hints (hframe'.hints wid)).trans hback')
  have hshown : displayedRect wid p' = some (acknowledged p.pointerActualSizes[wid]?
      (grown axis (-amount) (grown axis amount r))) := by
    rw [displayedRect_of_gone hs hrests'.gone, hrect, (hframe.trans hframe').actualSizes]
    rfl
  rw [hrect, hshown, displayedRect_of_shownRect h hr]
  refine ⟨fun heven => ?_, fun hodd => ?_⟩
  · rw [grown_back_even axis heven]
    exact ⟨rfl, rfl⟩
  · rw [grown_back_odd axis hodd, acknowledged_nudged]
    exact ⟨rfl, rfl⟩

end Resize

/-- A floating window in the middle of its output. -/
def floatingPolicy : Policy :=
  runEvents defaultConfig [.outputUpsert 1 ⟨0, 0, 800, 600⟩, .windowAdded 7,
    .actionRequested .toggleFloat] (initialPolicy defaultConfig)

instance (area : Rect) (m : WindowMetadata) (r : Rect) : Decidable (Unclamped area m r) :=
  inferInstanceAs (Decidable (_ = _))

/-- Ten pixels and back. -/
theorem resize_and_back_ten :
    windowRect 7 (step defaultConfig (step defaultConfig floatingPolicy
      (.actionRequested (.resize .width 10))) (.actionRequested (.resize .width (-10))))
        = some ⟨200, 150, 400, 300⟩ := by
  have harea : currentArea floatingPolicy = some ⟨0, 0, 800, 600⟩ := by decide +kernel
  exact ((resize_and_back (reachable_runEvents validateConfig_defaultConfig _)
    ⟨by decide +kernel, by decide +kernel⟩ (by decide +kernel) (by decide +kernel)
    (by decide +kernel) harea (by decide +kernel) .width 10 (by decide +kernel)
    (by decide +kernel)).1 (by decide)).1

/-- One pixel of width: no bound applies, and the window is back one pixel to the left. -/
theorem odd_resize_drifts :
    Reachable defaultConfig floatingPolicy ∧ Open floatingPolicy
      ∧ floatingPolicy.windowSet.peek = some 7 ∧ isFloat floatingPolicy 7 = true
      ∧ (metadataFor floatingPolicy 7).windowFullscreen = false
      ∧ currentArea floatingPolicy = some ⟨0, 0, 800, 600⟩
      ∧ shownRect 7 floatingPolicy = some ⟨200, 150, 400, 300⟩
      ∧ Unclamped ⟨0, 0, 800, 600⟩ (metadataFor floatingPolicy 7)
        (grown .width 1 ⟨200, 150, 400, 300⟩)
      ∧ Unclamped ⟨0, 0, 800, 600⟩ (metadataFor floatingPolicy 7)
        (grown .width (-1) (grown .width 1 ⟨200, 150, 400, 300⟩))
      ∧ windowRect 7 (step defaultConfig (step defaultConfig floatingPolicy
        (.actionRequested (.resize .width 1))) (.actionRequested (.resize .width (-1))))
          = some ⟨199, 150, 400, 300⟩ :=
  ⟨reachable_runEvents validateConfig_defaultConfig _, ⟨by decide +kernel, by decide +kernel⟩,
    by decide +kernel, by decide +kernel, by decide +kernel, by decide +kernel, by decide +kernel,
    by decide +kernel, by decide +kernel, by decide +kernel⟩

end XmonadWayland
