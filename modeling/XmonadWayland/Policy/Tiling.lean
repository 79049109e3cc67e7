import XmonadWayland.Policy.Geometry
import XmonadWayland.Base.Slices
import Mathlib.Data.Int.ConditionallyCompleteOrder
import Mathlib.Order.CompletePartialOrder
import Mathlib.Order.Interval.Set.Disjoint

/-!
# XmonadWayland.Policy.Tiling

The split layouts as sets of pixels.  The edges of `splitEdges` run from 0 to the
whole extent and never decrease, so every pixel lies between two neighbouring edges
and no layout leaves a gap, even with more windows than pixels.
-/

namespace XmonadWayland

open StackSet

/-! ## Pixels -/

/-- The pixels of `size` columns or rows from `start`. -/
def span (start size : Int) : Set Int := Set.Ico start (start + size)

/-- The pixels of a rectangle. -/
def Rect.pixels (r : Rect) : Set (Int × Int) :=
  span r.rectX r.rectWidth ×ˢ span r.rectY r.rectHeight

/-- The pixels of a span. -/
theorem mem_span {start size x : Int} : x ∈ span start size ↔ start ≤ x ∧ x < start + size :=
  Set.mem_Ico

/-- A span with a size has a pixel. -/
theorem span_nonempty {start size : Int} (h : 1 ≤ size) : (span start size).Nonempty :=
  ⟨start, mem_span.mpr (by omega)⟩

/-- A span that fits is part of the whole. -/
theorem span_subset {start size origin extent : Int} (h : Fits start size origin extent) :
    span start size ⊆ span origin extent := by
  intro x hx
  obtain ⟨h1, h2, h3⟩ := h
  rw [mem_span] at hx ⊢
  omega

/-- A span that is moved. -/
theorem mem_span_add {start size origin x : Int} :
    x ∈ span (origin + start) size ↔ x - origin ∈ span start size := by
  rw [mem_span, mem_span]
  omega

/-- The pixels of a rectangle. -/
theorem mem_pixels {r : Rect} {q : Int × Int} : q ∈ r.pixels ↔
    q.1 ∈ span r.rectX r.rectWidth ∧ q.2 ∈ span r.rectY r.rectHeight := Set.mem_prod

/-- A rectangle within an area covers nothing outside. -/
theorem pixels_subset {r area : Rect} (h : Within r area) : r.pixels ⊆ area.pixels :=
  Set.prod_mono (span_subset h.horizontal) (span_subset h.vertical)

/-- Transposing swaps the coordinates. -/
theorem mem_pixels_transpose {r : Rect} {q : Int × Int} :
    q ∈ (transpose r).pixels ↔ q.swap ∈ r.pixels := by
  rw [mem_pixels, mem_pixels, and_comm]
  exact Iff.rfl

/-- The pixels of all placed rectangles. -/
def covered (placed : List (WindowId × Rect)) : Set (Int × Int) := { q | ∃ e ∈ placed, q ∈ e.2.pixels }

/-- What is covered is covered by someone. -/
theorem mem_covered {placed : List (WindowId × Rect)} {q : Int × Int} :
    q ∈ covered placed ↔ ∃ e ∈ placed, q ∈ e.2.pixels := Iff.rfl

/-! ## Edges -/

/-- The weights the layouts use: none is below a millionth. -/
def shares (weight : WindowId → ℚ) (windows : List WindowId) : List ℚ :=
  windows.map fun wid => max (1 / 1000000) (weight wid)

/-- Shares are positive. -/
theorem shares_pos {weight : WindowId → ℚ} {windows : List WindowId} :
    ∀ w ∈ shares weight windows, 0 < w := by
  intro w hw
  obtain ⟨wid, -, rfl⟩ := List.mem_map.mp hw
  exact lt_max_of_lt_left (by norm_num)

theorem sum_pos {weights : List ℚ} (h : ∀ w ∈ weights, 0 < w) (hne : weights ≠ []) :
    0 < weights.sum := List.sum_pos weights h hne

/-- The first edge is the start. -/
theorem head?_splitEdges (available : Int) (weights : List ℚ) :
    (splitEdges available weights).head? = some 0 := by
  cases weights <;> simp [splitEdges, prefixSums]

/-- The last edge is the end. -/
theorem getLast?_splitEdges (available : Int) {weights : List ℚ} (h : ∀ w ∈ weights, 0 < w)
    (hne : weights ≠ []) : (splitEdges available weights).getLast? = some available := by
  have hsum := sum_pos h hne
  rw [splitEdges, prefixSums, List.getLast?_map, getLast?_scanl_add, Option.map_some,
    div_self hsum.ne', one_mul, Int.floor_intCast]

/-- Edges are in order. -/
theorem pairwise_splitEdges {available : Int} (ha : 0 ≤ available) {weights : List ℚ}
    (h : ∀ w ∈ weights, 0 < w) : (splitEdges available weights).Pairwise (· ≤ ·) := by
  have hnonneg : ∀ w ∈ weights, 0 ≤ w := fun w hw => (h w hw).le
  have hsum : 0 ≤ weights.sum := List.sum_nonneg hnonneg
  have hscale : (0 : ℚ) ≤ available := by exact_mod_cast ha
  refine (pairwise_scanl_add hnonneg 0).map _ fun e e' hle => ?_
  exact Int.floor_mono (mul_le_mul_of_nonneg_right (div_le_div_of_nonneg_right hle hsum) hscale)

/-- The slots between neighbouring edges. -/
theorem snd_weightedSlots (weight : WindowId → ℚ) (available : Int) (windows : List WindowId) :
    (weightedSlots weight available windows).map Prod.snd
      = (neighbours (splitEdges available (shares weight windows))).map
        fun e => slot available e.1 e.2 := by
  have hlen := length_splitEdges available (shares weight windows)
  have hshares : (shares weight windows).length = windows.length := List.length_map _
  refine List.map_snd_zip ?_
  rw [List.length_map, ← neighbours, length_neighbours]
  simp only [shares, List.length_map] at hlen ⊢
  omega

/-! ## Slots -/

/-- The slot of two edges holds the pixels between them. -/
theorem mem_slot_of_between {available first last x : Int} (hlo : first ≤ x) (hhi : x < last)
    (hx : x < available) : x ∈ span (slot available first last).1 (slot available first last).2 := by
  rw [mem_span]
  simp only [slot]
  omega

/-- The slots leave no gap. -/
theorem exists_slot (weight : WindowId → ℚ) {available : Int} {windows : List WindowId}
    (hne : windows ≠ []) {x : Int} (hx : x ∈ span 0 available) :
    ∃ e ∈ weightedSlots weight available windows, x ∈ span e.2.1 e.2.2 := by
  rw [mem_span, zero_add] at hx
  have hshares : shares weight windows ≠ [] := by simpa [shares] using hne
  obtain ⟨e, he, hlo, hhi⟩ := exists_neighbours_between (head?_splitEdges available _)
    (getLast?_splitEdges available shares_pos hshares) hx.1 hx.2
  have hslot : slot available e.1 e.2 ∈ (weightedSlots weight available windows).map Prod.snd := by
    rw [snd_weightedSlots]
    exact List.mem_map_of_mem he
  obtain ⟨e', he', heq⟩ := List.mem_map.mp hslot
  exact ⟨e', he', heq ▸ mem_slot_of_between hlo hhi hx.2⟩

/-! ## No gap -/

/-- Weighted tiles cover the area. -/
theorem covered_weightedRects (axis : Axis) (weight : WindowId → ℚ) {area : Rect}
    {windows : List WindowId} (hne : windows ≠ []) :
    area.pixels ⊆ covered (weightedRects axis weight area windows) := by
  obtain ⟨x, y, w, h⟩ := area
  intro q hq
  obtain ⟨hx, hy⟩ := mem_pixels.mp hq
  simp only [mem_covered, weightedRects, List.mem_map]
  cases axis with
  | width =>
      have hcol : q.1 - x ∈ span 0 w := by rwa [← mem_span_add, add_zero]
      obtain ⟨e, he, hmem⟩ := exists_slot weight hne hcol
      refine ⟨_, ⟨e, he, rfl⟩, mem_pixels.mpr ⟨mem_span_add.mpr hmem, hy⟩⟩
  | height =>
      have hrow : q.2 - y ∈ span 0 h := by rwa [← mem_span_add, add_zero]
      obtain ⟨e, he, hmem⟩ := exists_slot weight hne hrow
      refine ⟨_, ⟨e, he, rfl⟩, mem_pixels.mpr ⟨hx, mem_span_add.mpr hmem⟩⟩

/-- Where the master ends. -/
def masterCut (ratio : ℚ) (w : Int) : Int :=
  if w ≤ 1 then 1 else max 1 (min (w - 1) ⌊(w : ℚ) * ratio⌋)

/-- The column of the slaves. -/
def slaveArea (ratio : ℚ) (area : Rect) : Rect :=
  if area.rectWidth ≤ 1 then { area with rectWidth := 1 }
  else { area with
    rectX := area.rectX + masterCut ratio area.rectWidth
    rectWidth := area.rectWidth - masterCut ratio area.rectWidth }

/-- With two windows or more `tall` is a master and slaves in their column. -/
theorem tall_cons_cons (ratio : ℚ) {area : Rect} (h : 1 ≤ area.rectHeight)
    (master first : WindowId) (slaves : List WindowId) :
    ∃ r rest, tall ratio area (master :: first :: slaves)
        = (master, { area with rectWidth := masterCut ratio area.rectWidth }) :: (first, r) :: rest
      ∧ rest.map Prod.fst = slaves ∧ r.rectX = (slaveArea ratio area).rectX
      ∧ r.rectY = area.rectY ∧ r.rectWidth = (slaveArea ratio area).rectWidth := by
  obtain ⟨x, y, w, hgt⟩ := area
  have hstart : min (hgt - 1) 0 = 0 := min_eq_right (by simpa using h)
  refine ⟨_, _, rfl, ?_, ?_, ?_, ?_⟩
  · rw [List.map_map]
    exact List.zipIdx_map_fst _ _
  · simp only [slaveArea, masterCut]
    split <;> rfl
  · simp only [Nat.cast_zero, zero_mul, Int.zero_ediv, hstart, add_zero]
  · simp only [slaveArea, masterCut]
    split <;> rfl

/-- The same with the slaves split by their weights. -/
theorem tallWeighted_cons_cons (p : Policy) (ratio : ℚ) (axis : Axis) {area : Rect}
    (h : 1 ≤ area.rectHeight) (master first : WindowId) (slaves : List WindowId) :
    tallWeighted p ratio axis area (master :: first :: slaves)
      = (master, { area with rectWidth := masterCut ratio area.rectWidth })
        :: weightedRects .height (weightOf p (if axis = .width then .height else .width))
          (slaveArea ratio area) (first :: slaves) := by
  obtain ⟨⟨sx, sy, sw, sh⟩, rest, htall, hfst, hx, hy, hw⟩ :=
    tall_cons_cons ratio h master first slaves
  have harea : (⟨sx, sy, sw, area.rectHeight⟩ : Rect) = slaveArea ratio area := by
    simp only at hx hy hw
    rw [hx, hy, hw, slaveArea]
    split <;> rfl
  simp only [tallWeighted, htall, List.map_cons, hfst, harea]

/-- The master and the column of the slaves leave no gap. -/
theorem pixels_tall (ratio : ℚ) {area : Rect} {q : Int × Int} (hq : q ∈ area.pixels) :
    q ∈ Rect.pixels { area with rectWidth := masterCut ratio area.rectWidth }
      ∨ q ∈ (slaveArea ratio area).pixels := by
  obtain ⟨x, y, w, hgt⟩ := area
  obtain ⟨hx, hy⟩ := mem_pixels.mp hq
  simp only [mem_pixels, slaveArea, mem_span] at hx hy ⊢
  split
  · next hw =>
    refine Or.inl ⟨?_, hy⟩
    simp only [masterCut, if_pos hw]
    omega
  · rcases lt_or_ge q.1 (x + masterCut ratio w) with hlt | hge
    · exact Or.inl ⟨⟨hx.1, hlt⟩, hy⟩
    · refine Or.inr ⟨⟨hge, ?_⟩, hy⟩
      simp only
      omega

/-- Master and slaves cover the area. -/
theorem covered_tallWeighted (p : Policy) (ratio : ℚ) (axis : Axis) {area : Rect}
    (h : 1 ≤ area.rectHeight) {windows : List WindowId} (hne : windows ≠ []) :
    area.pixels ⊆ covered (tallWeighted p ratio axis area windows) := by
  intro q hq
  rcases windows with _ | ⟨master, _ | ⟨first, slaves⟩⟩
  · exact absurd rfl hne
  · exact ⟨_, List.mem_singleton_self _, hq⟩
  · rw [tallWeighted_cons_cons p ratio axis h]
    rcases pixels_tall ratio hq with hmaster | hslave
    · exact ⟨_, List.mem_cons_self, hmaster⟩
    · obtain ⟨e, he, hmem⟩ := covered_weightedRects .height
        (weightOf p (if axis = .width then .height else .width)) (List.cons_ne_nil first slaves) hslave
      exact ⟨e, List.mem_cons_of_mem _ he, hmem⟩

/-- The layouts that split their area among all tiles. -/
def Layout.splits (kind : Layout) : Bool := kind ∈ [.columns, .rows, .tall, .mirror]

/-- So do the tiles of every layout that splits. -/
theorem covered_layoutRects (p : Policy) {l : LayoutState} (hk : l.layoutKind.splits) {area : Rect}
    (h : Within area area) (stack : Stack WindowId) :
    area.pixels ⊆ covered (layoutRects p l area stack) := by
  have hne : stack.integrate ≠ [] := List.ne_nil_of_mem stack.focus_mem_integrate
  unfold layoutRects
  cases hkind : l.layoutKind with
  | columns => exact covered_weightedRects _ _ hne
  | rows => exact covered_weightedRects _ _ hne
  | tall => exact covered_tallWeighted _ _ _ h.vertical.pos hne
  | mirror =>
      intro q hq
      have hcover := covered_tallWeighted p l.masterRatio .height
        (show 1 ≤ (transpose area).rectHeight from h.horizontal.pos) hne
      have hswap : q.swap ∈ (transpose area).pixels := mem_pixels_transpose.mpr (by simpa using hq)
      obtain ⟨e, he, hmem⟩ := hcover hswap
      exact ⟨_, List.mem_map_of_mem he, mem_pixels_transpose.mpr hmem⟩
  | _ => simp [hkind, Layout.splits] at hk

/-- **No gap**: on any area that is not empty, with any weights and any ratio, a split
layout places every window of the stack once, in stack order; each rectangle lies in the
area and is not empty, and together they are the whole area. -/
theorem layoutRects_tile (p : Policy) (l : LayoutState) (hk : l.layoutKind.splits) (area : Rect)
    (hw : 1 ≤ area.rectWidth) (hh : 1 ≤ area.rectHeight) (stack : Stack WindowId) :
    (layoutRects p l area stack).map Prod.fst = stack.integrate
      ∧ (∀ e ∈ layoutRects p l area stack,
        1 ≤ e.2.rectWidth ∧ 1 ≤ e.2.rectHeight ∧ Within e.2 area)
      ∧ covered (layoutRects p l area stack) = area.pixels := by
  have h : Within area area := Within.refl hw hh
  have hwithin : ∀ e ∈ layoutRects p l area stack, Within e.2 area := fun e he =>
    within_layoutRects h he
  refine ⟨?_, fun e he => ?_, ?_⟩
  · rw [fst_layoutRects, shownTiles, if_neg]
    cases hkind : l.layoutKind <;> simp [hkind, Layout.splits] at hk ⊢
  · have hin := hwithin e he
    exact ⟨hin.horizontal.pos, hin.vertical.pos, hin⟩
  · refine Set.Subset.antisymm ?_ (covered_layoutRects p hk h stack)
    rintro q ⟨e, he, hq⟩
    exact pixels_subset (hwithin e he) hq

/-- Three tiles on two pixels. -/
theorem layoutRects_tile_mirror :
    (layoutRects (initialPolicy defaultConfig) ⟨.mirror, 1 / 2⟩ ⟨-13, 21, 2, 1⟩
      ⟨30, [20], [10]⟩).map Prod.fst = [20, 30, 10] :=
  (layoutRects_tile (initialPolicy defaultConfig) ⟨.mirror, 1 / 2⟩ rfl ⟨-13, 21, 2, 1⟩ (by decide)
    (by decide) ⟨30, [20], [10]⟩).1

end XmonadWayland
