import XmonadWayland.Policy.Visible
import XmonadWayland.Policy.Population
import XmonadWayland.Base.Spans
import Mathlib.Algebra.Order.BigOperators.Group.List

/-!
# XmonadWayland.Policy.Geometry

Where windows are placed.  Outputs are normalised to the signed 32-bit range;
clipping, confining, floating and every layout stay inside the area they are given,
whatever the hints, weights and panels say.  So every placement lies in its output,
and the focused window is always one of those shown.
-/

namespace XmonadWayland

open StackSet

/-! ## Rectangles -/

/-- `r` is not empty and lies inside `area`. -/
structure Within (r area : Rect) : Prop where
  horizontal : Fits r.rectX r.rectWidth area.rectX area.rectWidth
  vertical : Fits r.rectY r.rectHeight area.rectY area.rectHeight

theorem Within.refl {r : Rect} (hw : 1 ≤ r.rectWidth) (hh : 1 ≤ r.rectHeight) : Within r r :=
  ⟨Fits.refl hw, Fits.refl hh⟩

theorem Within.trans {r area area' : Rect} (h : Within r area) (h' : Within area area') :
    Within r area' := ⟨h.horizontal.trans h'.horizontal, h.vertical.trans h'.vertical⟩

/-- A rectangle that lies within something lies within itself. -/
theorem Within.self {r area : Rect} (h : Within r area) : Within r r :=
  Within.refl h.horizontal.pos h.vertical.pos

/-- All pixels have signed 32-bit coordinates; the far edge may be one beyond. -/
def screenRange : Rect := ⟨minInt32, minInt32, 4294967296, 4294967296⟩

/-- A rectangle the C ABI can express, with its extents. -/
structure Normal (r : Rect) : Prop where
  range : Within r screenRange
  width : r.rectWidth ≤ maxInt32
  height : r.rectHeight ≤ maxInt32

/-- A rectangle made positive is normal. -/
theorem normal_positive (r : Rect) : Normal (positive r) := by
  obtain ⟨x, y, w, h⟩ := r
  refine ⟨⟨⟨?_, ?_, ?_⟩, ⟨?_, ?_, ?_⟩⟩, ?_, ?_⟩ <;>
    simp only [positive, screenRange, minInt32, maxInt32] <;> omega

/-- What lies within a normal area is normal. -/
theorem Normal.within {r area : Rect} (h : Normal area) (hr : Within r area) : Normal r :=
  ⟨hr.trans h.range, hr.horizontal.size_le.trans h.width, hr.vertical.size_le.trans h.height⟩

/-- The clamps of `applyPolicy` do not change a normal rectangle. -/
theorem Normal.bounded {r : Rect} (h : Normal r) :
    bounded r.rectX = r.rectX ∧ bounded r.rectY = r.rectY
      ∧ bounded r.rectWidth = r.rectWidth ∧ bounded r.rectHeight = r.rectHeight := by
  obtain ⟨⟨⟨h1, h2, h3⟩, ⟨h4, h5, h6⟩⟩, h7, h8⟩ := h
  simp only [screenRange, minInt32, maxInt32, XmonadWayland.bounded] at *
  omega

/-! ## Clipping and confining -/

/-- A clipped span fits. -/
theorem fits_clip {origin extent : Int} (h : 1 ≤ extent) (start size : Int) :
    Fits (clip origin extent start size).1 (clip origin extent start size).2 origin extent := by
  refine ⟨?_, ?_, ?_⟩ <;> simp only [clip] <;> omega

/-- A clipped area lies within the output. -/
theorem within_clipArea {area : Rect} (h : Within area area) (panel : Rect) :
    Within (clipArea area panel) area :=
  ⟨fits_clip h.horizontal.pos _ _, fits_clip h.vertical.pos _ _⟩

/-- Inside the 32-bit range the clamp of `confineRect` is the identity. -/
theorem confineOrigin_eq {origin available size : Int} (requested : Int)
    (hpos : 1 ≤ size) (hle : size ≤ available)
    (h : Fits origin available minInt32 4294967296) :
    confineOrigin origin available size requested
      = max origin (min (origin + available - size) requested) := by
  obtain ⟨h1, h2, h3⟩ := h
  simp only [confineOrigin, abiCoordinate, minInt32, maxInt32] at *
  omega

/-- A confined span fits. -/
theorem fits_confineOrigin {origin available size : Int} (requested : Int)
    (hpos : 1 ≤ size) (hle : size ≤ available) (h : Fits origin available minInt32 4294967296) :
    Fits (confineOrigin origin available size requested) size origin available := by
  rw [confineOrigin_eq requested hpos hle h]
  exact fits_clamp hpos hle

/-- A confined rectangle lies within the area. -/
theorem within_confineRect {area : Rect} (h : Normal area) (r : Rect) :
    Within (confineRect area r) area := by
  obtain ⟨hx, hy⟩ := h.range
  have hw := hx.pos
  have hh := hy.pos
  exact ⟨fits_confineOrigin _ (clamp_mem hw _).1 (clamp_mem hw _).2 hx,
    fits_confineOrigin _ (clamp_mem hh _).1 (clamp_mem hh _).2 hy⟩

/-- A rectangle inside the area is already confined. -/
theorem confineRect_of_within {area r : Rect} (h : Normal area) (hr : Within r area) :
    confineRect area r = r := by
  obtain ⟨x, y, w, hgt⟩ := r
  obtain ⟨hx, hy⟩ := hr
  have hwidth : max 1 (min area.rectWidth w) = w := by
    exact clamp_of_mem hx.pos hx.size_le
  have hheight : max 1 (min area.rectHeight hgt) = hgt := by
    exact clamp_of_mem hy.pos hy.size_le
  simp only [confineRect, hwidth, hheight, confineOrigin_eq x hx.pos hx.size_le h.range.horizontal,
    confineOrigin_eq y hy.pos hy.size_le h.range.vertical, clamp_of_fits hx, clamp_of_fits hy]

/-! ## Floating -/

/-- The first rectangle of a floating window lies within the area. -/
theorem within_floatingRect {area : Rect} (h : Within area area) (hints : Hints) :
    Within (floatingRect area hints) area := by
  obtain ⟨minW, minH, maxW, maxH⟩ := hints
  have hw := h.horizontal.pos
  have hh := h.vertical.pos
  have hcentre : ∀ available size : Int, 1 ≤ size → size ≤ available →
      Fits ((available - size) / 2) size 0 available := fun _ _ h1 h2 =>
    ⟨by omega, h1, by omega⟩
  exact ⟨(hcentre _ _ (clamp_mem hw _).1 (clamp_mem hw _).2).shift _,
    (hcentre _ _ (clamp_mem hh _).1 (clamp_mem hh _).2).shift _⟩

/-- So does the one it has. -/
theorem within_floatRect {area : Rect} (h : Within area area) (m : WindowMetadata) :
    Within (floatRect area m) area := by
  have hw := h.horizontal.pos
  have hh := h.vertical.pos
  unfold floatRect
  split
  · exact within_floatingRect h _
  · exact ⟨fits_clamp (clamp_mem hw _).1 (clamp_mem hw _).2,
      fits_clamp (clamp_mem hh _).1 (clamp_mem hh _).2⟩

/-- So does the one it is anchored at. -/
theorem within_pointerFloatRect (p : Policy) (wid : WindowId) {area : Rect} (h : Normal area) :
    Within (pointerFloatRect p wid area) area := by
  unfold pointerFloatRect
  split
  · exact within_confineRect h _
  · exact within_floatRect h.range.self _

/-! ## Tiling -/

/-- No edge lies before the start. -/
theorem splitEdges_nonneg {available : Int} (h : 0 ≤ available) {weights : List ℚ}
    (hw : ∀ w ∈ weights, 0 ≤ w) : ∀ e ∈ splitEdges available weights, 0 ≤ e := by
  intro e he
  obtain ⟨s, hs, rfl⟩ := List.mem_map.mp he
  have hs0 := scanl_add_nonneg hw (le_refl 0) s hs
  have hsum := List.sum_nonneg hw
  have hav : (0 : ℚ) ≤ available := by exact_mod_cast h
  exact Int.floor_nonneg.mpr (mul_nonneg (div_nonneg hs0 hsum) hav)

/-- A slot fits. -/
theorem fits_slot {available first : Int} (h : 1 ≤ available) (hfirst : 0 ≤ first)
    (lastPixel : Int) :
    Fits (slot available first lastPixel).1 (slot available first lastPixel).2 0 available := by
  refine ⟨?_, ?_, ?_⟩ <;> simp only [slot] <;> omega

/-- Every slot lies inside the span it was cut from. -/
theorem fits_weightedSlots {weight : WindowId → ℚ} {available : Int} (h : 1 ≤ available)
    {windows : List WindowId} {e : WindowId × (Int × Int)}
    (he : e ∈ weightedSlots weight available windows) : Fits e.2.1 e.2.2 0 available := by
  have hmem := (List.of_mem_zip he).2
  obtain ⟨⟨first, lastPixel⟩, hpair, heq⟩ := List.mem_map.mp hmem
  have hfirst := (List.of_mem_zip hpair).1
  have hnonneg : ∀ w ∈ windows.map (fun wid => max (1 / 1000000) (weight wid)), (0 : ℚ) ≤ w := by
    intro w hw
    obtain ⟨wid, -, rfl⟩ := List.mem_map.mp hw
    exact le_max_of_le_left (by norm_num)
  rw [← heq]
  exact fits_slot h (splitEdges_nonneg (by omega) hnonneg first hfirst) lastPixel

/-- Weighted tiles lie within the area. -/
theorem within_weightedRects {axis : Axis} {weight : WindowId → ℚ} {area : Rect}
    (h : Within area area) {windows : List WindowId} {e : WindowId × Rect}
    (he : e ∈ weightedRects axis weight area windows) : Within e.2 area := by
  obtain ⟨hw, hh⟩ := h
  simp only [weightedRects, List.mem_map] at he
  obtain ⟨⟨wid, start, extent⟩, hslot, rfl⟩ := he
  cases axis with
  | width =>
      have hfit := fits_weightedSlots hw.pos hslot
      exact ⟨hfit.shift _, Fits.refl hh.pos⟩
  | height =>
      have hfit := fits_weightedSlots hh.pos hslot
      exact ⟨Fits.refl hw.pos, hfit.shift _⟩

/-- The column of the slaves. -/
theorem fits_cut {w : Int} (h : 1 ≤ w) (ratio : ℚ) :
    let cut := if w ≤ 1 then 1 else max 1 (min (w - 1) ⌊(w : ℚ) * ratio⌋)
    Fits 0 cut 0 w ∧ Fits (if w ≤ 1 then 0 else cut) (if w ≤ 1 then 1 else w - cut) 0 w := by
  intro cut
  by_cases h1 : w ≤ 1
  · simp only [cut, if_pos h1]
    exact ⟨⟨by omega, by omega, by omega⟩, ⟨by omega, by omega, by omega⟩⟩
  · simp only [cut, if_neg h1]
    exact ⟨⟨by omega, by omega, by omega⟩, ⟨by omega, by omega, by omega⟩⟩

/-- A row fits. -/
theorem fits_row {h boundary boundary' : Int} (hh : 1 ≤ h) (hb : 0 ≤ boundary) :
    let start := min (h - 1) boundary
    Fits start (min h (max (start + 1) boundary') - start) 0 h := by
  intro start
  exact ⟨by omega, by omega, by omega⟩

/-- The tiles of tall lie within the area. -/
theorem within_tall {ratio : ℚ} {area : Rect} (h : Within area area) {windows : List WindowId}
    {e : WindowId × Rect} (he : e ∈ tall ratio area windows) : Within e.2 area := by
  obtain ⟨x, y, w, hgt⟩ := area
  obtain ⟨hw, hh⟩ := h
  obtain ⟨hmaster, hslave⟩ := fits_cut hw.pos ratio
  rcases windows with _ | ⟨master, _ | ⟨first, slaves⟩⟩
  · contradiction
  · rw [List.mem_singleton.mp he]
    exact ⟨hw, hh⟩
  · simp only [tall, List.mem_cons, List.mem_map] at he
    rcases he with rfl | ⟨⟨wid, i⟩, hi, rfl⟩
    · exact ⟨by simpa using hmaster.shift x, Fits.refl hh.pos⟩
    · have hhgt : 1 ≤ hgt := hh.pos
      have hcount : (0 : Int) ≤ (first :: slaves).length := Int.natCast_nonneg _
      have hb : 0 ≤ (i : Int) * hgt / (first :: slaves).length :=
        Int.ediv_nonneg (mul_nonneg (Int.natCast_nonneg i) (by omega)) hcount
      refine ⟨?_, (fits_row hh.pos hb).shift _⟩
      have hx := hslave.shift x
      by_cases h1 : w ≤ 1
      · simpa [h1] using hx
      · simpa [h1] using hx

/-- The first slave starts at the top. -/
theorem tall_slave {ratio : ℚ} {area : Rect} (h : Within area area) {windows : List WindowId}
    {master slave : WindowId × Rect} {rest : List (WindowId × Rect)}
    (he : tall ratio area windows = master :: slave :: rest) :
    slave.2.rectY = area.rectY := by
  obtain ⟨x, y, w, hgt⟩ := area
  have hh : 1 ≤ hgt := h.vertical.pos
  rcases windows with _ | ⟨m, _ | ⟨first, slaves⟩⟩
  · contradiction
  · simp [tall] at he
  · simp only [tall, List.zipIdx_cons, List.map_cons, List.cons.injEq] at he
    rw [← he.2.1]
    simp only [Nat.cast_zero, zero_mul, Int.zero_ediv]
    omega

/-- So do those with weights. -/
theorem within_tallWeighted {p : Policy} {ratio : ℚ} {axis : Axis} {area : Rect}
    (h : Within area area) {windows : List WindowId} {e : WindowId × Rect}
    (he : e ∈ tallWeighted p ratio axis area windows) : Within e.2 area := by
  unfold tallWeighted at he
  split at he
  · contradiction
  · next single hs =>
    rw [List.mem_singleton.mp he]
    exact within_tall h (hs ▸ List.mem_singleton_self single)
  · next master wid sx sy sw _ rest hs =>
    have hfirst := within_tall h (hs ▸ List.mem_cons_of_mem master List.mem_cons_self)
    have hy : sy = area.rectY := tall_slave h hs
    rcases List.mem_cons.mp he with rfl | he
    · exact within_tall h (hs ▸ List.mem_cons_self)
    · have hcolumn : Within ⟨sx, sy, sw, area.rectHeight⟩ area :=
        ⟨hfirst.horizontal, hy ▸ Fits.refl h.vertical.pos⟩
      exact (within_weightedRects hcolumn.self he).trans hcolumn

/-- Transposing keeps what lies within. -/
theorem within_transpose {r area : Rect} (h : Within r area) :
    Within (transpose r) (transpose area) := ⟨h.vertical, h.horizontal⟩

/-- Every layout stays inside its area. -/
theorem within_layoutRects {p : Policy} {l : LayoutState} {area : Rect} (h : Within area area)
    {stack : Stack WindowId} {e : WindowId × Rect} (he : e ∈ layoutRects p l area stack) :
    Within e.2 area := by
  unfold layoutRects at he
  cases hk : l.layoutKind with
  | full => rw [hk] at he; rw [List.mem_singleton.mp he]; exact h
  | tabbed => rw [hk] at he; rw [List.mem_singleton.mp he]; exact h
  | stacking => rw [hk] at he; rw [List.mem_singleton.mp he]; exact h
  | columns => rw [hk] at he; exact within_weightedRects h he
  | rows => rw [hk] at he; exact within_weightedRects h he
  | tall => rw [hk] at he; exact within_tallWeighted h he
  | mirror =>
      rw [hk] at he
      obtain ⟨e', he', rfl⟩ := List.mem_map.mp he
      exact within_transpose (within_tallWeighted (within_transpose h) he')

/-! ## Screens -/

/-- The work area lies within the output. -/
theorem within_screenArea (p : Policy) {rect : Rect} (h : Normal rect) (output : Option OutputId) :
    Within (screenArea p rect output) rect := by
  unfold screenArea
  split
  · exact within_clipArea h.range.self _
  · exact h.range.self

/-- What a screen shows: its focus over the whole output, or windows in its area. -/
theorem screenRects_cases {p : Policy} {s : OutputScreen} {wid : WindowId} {v : Shown}
    (h : (wid, v) ∈ screenRects p s) :
    ∃ rect, screenOutput p s = some rect ∧ v.2.1 = s.screen
      ∧ ((v.2.2.2 = true ∧ v.1 = rect)
        ∨ (v.2.2.2 = false ∧ (Normal rect → Within v.1 (screenArea p rect s.screen)))) := by
  obtain ⟨rect, stack, hr, -, ⟨-, rfl⟩ | ⟨r, rfl, hplaced⟩⟩ := mem_screenRects h
  · exact ⟨rect, hr, rfl, Or.inl ⟨rfl, rfl⟩⟩
  · refine ⟨rect, hr, rfl, Or.inr ⟨rfl, fun hn => ?_⟩⟩
    have harea := within_screenArea p hn s.screen
    rcases hplaced with htile | hfloat
    · unfold tiledRects at htile
      split at htile
      · contradiction
      · exact within_layoutRects harea.self htile
    · obtain ⟨w, -, heq⟩ := List.mem_map.mp hfloat
      obtain ⟨rfl, rfl⟩ := Prod.mk.inj heq
      exact within_pointerFloatRect p w (hn.within harea)

/-! ## Outputs -/

/-- Every output has been normalised. -/
def OutputsNormal (p : Policy) : Prop :=
  ∀ (oid : OutputId) (r : Rect), p.outputs[oid]? = some r → Normal r

/-- What an event places is normalised. -/
theorem normal_places {ev : Event} {oid : OutputId} {known : Option Rect} {r : Rect}
    (h : ∀ r, known = some r → Normal r) (hr : ev.places oid known = some r) : Normal r := by
  cases ev with
  | outputUpsert oid' rect =>
      simp only [Event.places] at hr
      split at hr
      · exact Option.some.inj hr ▸ normal_positive rect
      · exact h r hr
  | outputRemoved oid' =>
      simp only [Event.places] at hr
      split at hr
      · contradiction
      · exact h r hr
  | _ => exact h r hr

/-- Outputs always have normal rectangles. -/
theorem outputsNormal_of_reachable {cfg : Config} {p : Policy} (h : Reachable cfg p) :
    OutputsNormal p := by
  induction h with
  | initial hcfg => exact fun oid r hr => by simp [initialPolicy] at hr
  | event ev h ih =>
      intro oid r hr
      rw [outputs_step h] at hr
      exact normal_places (ih oid) hr
  | reload _ _ _ ih => exact ih

/-! ## Placements -/

/-- The focus of a screen with a live output is shown. -/
theorem exists_shown_focus {p : Policy} {s : OutputScreen} {rect : Rect} {stack : Stack WindowId}
    (hr : screenOutput p s = some rect) (hs : s.workspace.stack = some stack) :
    ∃ v, (stack.focus, v) ∈ screenRects p s := by
  by_cases hf : (metadataFor p stack.focus).windowFullscreen
  · exact ⟨_, screenRects_fullscreen hr hs hf ▸ List.mem_singleton_self _⟩
  · rw [screenRects_tiled hr hs hf]
    have hmem : stack.focus ∈ (tiledRects p s (screenArea p rect s.screen) stack
        ++ floatRects p (screenArea p rect s.screen) stack).map Prod.fst := by
      rw [List.map_append, fst_tiledRects, fst_floatRects, List.mem_append]
      by_cases hfloat : isFloat p stack.focus
      · exact Or.inr (List.mem_filter.mpr ⟨stack.focus_mem_integrate, hfloat⟩)
      · refine Or.inl ?_
        have hkeep : stack.filter (fun wid => !isFloat p wid)
            = some ⟨stack.focus, stack.up.filter fun wid => !isFloat p wid,
              stack.down.filter fun wid => !isFloat p wid⟩ :=
          Stack.filter_of_focus (by simpa using hfloat)
        rw [tileWindows, hkeep]
        simp only [shownTiles]
        split
        · exact List.mem_singleton_self _
        · exact Stack.focus_mem_integrate _
    obtain ⟨e, he, heq⟩ := List.mem_map.mp hmem
    exact ⟨_, List.mem_map.mpr ⟨e, he, by rw [heq]⟩⟩

/-- The focused window is visible. -/
theorem visible_of_focused {tags : List WorkspaceId} {p : Policy} (hc : Consistent tags p)
    {wid : WindowId} (h : focusedWindow p = some wid) : wid ∈ visibleWindows p := by
  unfold focusedWindow at h
  split at h
  · contradiction
  · next hcond =>
    rw [not_or] at hcond
    obtain ⟨stack, hstack, rfl⟩ := peek_eq_some.mp h
    obtain ⟨oid, hid, hrect⟩ :=
      hc.screens.live (by simpa using hcond.2) _ p.windowSet.current_mem_screens
    have hout : screenOutput p p.windowSet.current = some p.windowSet.current.screenDetail := by
      rw [screenOutput, hid, Option.bind_some, hrect]
    obtain ⟨v, hv⟩ := exists_shown_focus hout hstack
    exact (mem_visibleWindows hc.wellFormed).mpr ⟨v,
      (getElem?_rectangles hc.wellFormed).mpr ⟨_, p.windowSet.current_mem_screens, hv⟩⟩

/-- The area of a screen is the work area of its output, if it has one. -/
theorem screenOutput_of_area {p : Policy} {sc : OutputScreen} {area : Rect}
    (h : (sc.screen.bind fun oid => areaFor oid p) = some area) :
    ∃ rect, screenOutput p sc = some rect ∧ screenArea p rect sc.screen = area := by
  obtain ⟨oid, hid, harea⟩ := Option.bind_eq_some_iff.mp h
  obtain ⟨rect, hrect, hclip⟩ := Option.map_eq_some_iff.mp harea
  refine ⟨rect, ?_, ?_⟩
  · rw [screenOutput, hid, Option.bind_some, hrect]
  · rw [← hclip, screenArea, hid, Option.bind_some]

/-- A screen with an output has its work area. -/
theorem area_of_screenOutput {p : Policy} {sc : OutputScreen} {rect : Rect}
    (h : screenOutput p sc = some rect) :
    (sc.screen.bind fun oid => areaFor oid p) = some (screenArea p rect sc.screen) := by
  obtain ⟨oid, hid, hrect⟩ := Option.bind_eq_some_iff.mp h
  rw [screenArea, hid, Option.bind_some, Option.bind_some, areaFor, hrect, Option.map_some]

/-- Where a visible placement lies. -/
theorem placement_spec {p : Policy} (hs : p.windowSet.WellFormed) (hn : OutputsNormal p)
    {q : Placement} (hq : q ∈ renderPolicy p) (hvis : q.placementVisible = true) :
    ∃ oid output area, q.placementOutput = some oid ∧ p.outputs[oid]? = some output
      ∧ areaFor oid p = some area ∧ Normal output ∧ Within area output
      ∧ (q.placementFullscreen = true → q.placementRect = output)
      ∧ (q.placementFullscreen = false → Within q.placementRect area) := by
  obtain ⟨wid, -, rfl⟩ := List.mem_map.mp hq
  rw [placementVisible_placement] at hvis
  obtain ⟨v, hv⟩ := Option.isSome_iff_exists.mp hvis
  obtain ⟨sc, -, hmem⟩ := (getElem?_rectangles hs).mp hv
  obtain ⟨rect, hrect, hout, hcases⟩ := screenRects_cases hmem
  obtain ⟨oid, hid, hlookup⟩ := Option.bind_eq_some_iff.mp hrect
  have hnormal := hn oid rect hlookup
  have harea : areaFor oid p = some (screenArea p rect sc.screen) := by
    rw [← area_of_screenOutput hrect, hid, Option.bind_some]
  rw [placement_of_some hv]
  refine ⟨oid, rect, _, hout.trans hid, hlookup, harea, hnormal,
    within_screenArea p hnormal sc.screen, ?_, ?_⟩
  · intro hfull
    rcases hcases with ⟨-, heq⟩ | ⟨hno, -⟩
    · exact heq
    · exact absurd (hfull.symm.trans hno) (by simp)
  · intro hno
    rcases hcases with ⟨hfull, -⟩ | ⟨-, hw⟩
    · exact absurd (hfull.symm.trans hno) (by simp)
    · exact hw hnormal

/-- The focused window is placed and visible. -/
theorem placed_of_focused {tags : List WorkspaceId} {p : Policy} (hc : Consistent tags p)
    {wid : WindowId} (h : focusedWindow p = some wid) :
    ∃ q ∈ renderPolicy p, q.placementWindow = wid ∧ q.placementVisible = true := by
  obtain ⟨q, hq, rfl⟩ := List.mem_map.mp (visible_of_focused hc h)
  exact ⟨q, (List.mem_filter.mp hq).1, rfl, (List.mem_filter.mp hq).2⟩

/-- What is visible lies in its output, and in the work area unless it is fullscreen. -/
theorem within_of_visible {p : Policy} (hs : p.windowSet.WellFormed) (hn : OutputsNormal p)
    {q : Placement} (hq : q ∈ renderPolicy p) (hvis : q.placementVisible = true) :
    ∃ oid output area, q.placementOutput = some oid ∧ p.outputs[oid]? = some output
      ∧ areaFor oid p = some area ∧ Within q.placementRect output
      ∧ (q.placementFullscreen = true → q.placementRect = output)
      ∧ (q.placementFullscreen = false → Within q.placementRect area) := by
  obtain ⟨oid, output, area, hout, hlookup, harea, hnormal, hin, hfull, htile⟩ :=
    placement_spec hs hn hq hvis
  refine ⟨oid, output, area, hout, hlookup, harea, ?_, hfull, htile⟩
  cases hfs : q.placementFullscreen with
  | true => rw [hfull hfs]; exact hnormal.range.self
  | false => exact (htile hfs).trans hin

/-- The numbers of a placement fit the C ABI. -/
theorem bounded_placementRect {p : Policy} (hs : p.windowSet.WellFormed) (hn : OutputsNormal p)
    {q : Placement} (hq : q ∈ renderPolicy p) :
    bounded q.placementRect.rectX = q.placementRect.rectX
      ∧ bounded q.placementRect.rectY = q.placementRect.rectY
      ∧ bounded q.placementRect.rectWidth = q.placementRect.rectWidth
      ∧ bounded q.placementRect.rectHeight = q.placementRect.rectHeight := by
  cases hvis : q.placementVisible with
  | true =>
      obtain ⟨oid, output, area, -, -, -, hnormal, hin, hfull, htile⟩ :=
        placement_spec hs hn hq hvis
      cases hfs : q.placementFullscreen with
      | true => rw [hfull hfs]; exact hnormal.bounded
      | false => exact (hnormal.within ((htile hfs).trans hin)).bounded
  | false =>
      obtain ⟨wid, -, rfl⟩ := List.mem_map.mp hq
      unfold placement at hvis ⊢
      split at hvis
      · contradiction
      · exact ⟨rfl, rfl, rfl, rfl⟩

/-- Flagged is the focused window and no other. -/
theorem placementFocused_iff {tags : List WorkspaceId} {p : Policy} (hc : Consistent tags p)
    {q : Placement} (hq : q ∈ renderPolicy p) :
    q.placementFocused = true ↔ focusedWindow p = some q.placementWindow := by
  obtain ⟨wid, hmem, rfl⟩ := List.mem_map.mp hq
  rw [placementWindow_placement]
  cases hv : (rectangles p)[wid]? with
  | some v =>
      rw [placement_of_some hv, shownPlacement, decide_eq_true_eq, eq_comm]
  | none =>
      rw [placement, hv]
      simp only [Bool.false_eq_true, false_iff]
      intro hwid
      obtain ⟨v, hv'⟩ := (mem_visibleWindows hc.wellFormed).mp (visible_of_focused hc hwid)
      rw [hv] at hv'
      contradiction

/-- **Placement**: every managed window is placed once; what is visible lies in its
output, and in the work area unless it is fullscreen; all numbers fit the C ABI; the
focused window alone is flagged, and it is visible. -/
theorem renderPolicy_sound {cfg : Config} {p : Policy} (h : Reachable cfg p) :
    ((renderPolicy p).map Placement.placementWindow).Nodup
      ∧ (∀ wid : WindowId,
        wid ∈ (renderPolicy p).map Placement.placementWindow ↔ wid ∈ p.windowMetadata)
      ∧ (∀ q ∈ renderPolicy p, q.placementVisible = true →
        ∃ oid output area, q.placementOutput = some oid ∧ p.outputs[oid]? = some output
          ∧ areaFor oid p = some area ∧ Within q.placementRect output
          ∧ (q.placementFullscreen = true → q.placementRect = output)
          ∧ (q.placementFullscreen = false → Within q.placementRect area))
      ∧ (∀ q ∈ renderPolicy p, bounded q.placementRect.rectX = q.placementRect.rectX
          ∧ bounded q.placementRect.rectY = q.placementRect.rectY
          ∧ bounded q.placementRect.rectWidth = q.placementRect.rectWidth
          ∧ bounded q.placementRect.rectHeight = q.placementRect.rectHeight)
      ∧ (∀ q ∈ renderPolicy p,
        q.placementFocused = true ↔ focusedWindow p = some q.placementWindow)
      ∧ ∀ wid, focusedWindow p = some wid →
        ∃ q ∈ renderPolicy p, q.placementWindow = wid ∧ q.placementVisible = true := by
  have hm := managed_of_reachable h
  have hs := hm.wellFormed
  have hn := outputsNormal_of_reachable h
  refine ⟨map_placementWindow p ▸ nodup_allWindows _, fun wid => ?_,
    fun q hq hvis => within_of_visible hs hn hq hvis,
    fun q hq => bounded_placementRect hs hn hq,
    fun q hq => placementFocused_iff hm.toConsistent hq,
    fun wid hwid => placed_of_focused hm.toConsistent hwid⟩
  rw [map_placementWindow, mem_allWindows, hm.metadata]

/-- Two windows, one of which floats. -/
theorem renderPolicy_sound_default :
    let p := runEvents defaultConfig [.outputUpsert 1 ⟨-2147483648, 0, 2147483647, 600⟩,
      .windowAdded 7, .windowAdded 8] (initialPolicy defaultConfig)
    ((renderPolicy p).map Placement.placementWindow).Nodup :=
  (renderPolicy_sound (reachable_runEvents validateConfig_defaultConfig
    [.outputUpsert 1 ⟨-2147483648, 0, 2147483647, 600⟩, .windowAdded 7, .windowAdded 8])).1

end XmonadWayland
