import XmonadWayland.Policy.Overlap
import XmonadWayland.Policy.Shown

/-!
# XmonadWayland.Policy.Stacked

A split layout as a master that the weights do not move and tiles stacked along one
axis.  Where the weights are the sizes in pixels, or the displayed sizes fill the area,
the tiles have exactly these sizes and follow one another.
-/

namespace XmonadWayland

open StackSet

/-! ## Slots of known sizes -/

/-- Between edges that increase, the slot is what lies between them. -/
theorem slot_of_lt {available : Int} {e : Int × Int} (hlt : e.1 < e.2) (hle : e.2 ≤ available) :
    slot available e.1 e.2 = (e.1, e.2 - e.1) := by
  simp only [slot, Prod.mk.injEq]
  omega

/-- Increasing edges give slots without a gap. -/
theorem slots_of_increasing {available : Int} {edges : List Int} (h : Edges available edges)
    (hlt : ∀ e ∈ neighbours edges, e.1 < e.2) :
    (neighbours edges).map (fun e => slot available e.1 e.2) = slotsFrom 0 (gaps edges) := by
  rw [← map_neighbours_eq_slotsFrom h.first]
  exact List.map_congr_left fun e he => slot_of_lt (hlt e he) (h.bounds he).2.2

/-- Slots that fill the area together are the gaps between the edges. -/
theorem increasing_of_sum {available : Int} {edges : List Int} (h : Edges available edges)
    (hsum : ((neighbours edges).map fun e => (slot available e.1 e.2).2).sum = available) :
    ∀ e ∈ neighbours edges, e.1 < e.2 := by
  have hpos := h.pos
  by_contra hflat
  obtain ⟨e, he, hempty⟩ : ∃ e ∈ neighbours edges, ¬e.1 < e.2 := by simpa using hflat
  have hless : ((neighbours edges).map fun e => e.2 - e.1).sum
      < ((neighbours edges).map fun e => (slot available e.1 e.2).2).sum := by
    refine List.sum_lt_sum _ _ (fun e' he' => ?_) ⟨e, he, ?_⟩
    · have hb := h.bounds he'
      simp only [slot]
      omega
    · have hb := h.bounds he
      simp only [slot]
      omega
  have hgaps := sum_gaps h.first h.last
  rw [gaps] at hgaps
  omega

section Slots

variable {weight : WindowId → ℚ} {available : Int} {windows : List WindowId}

/-- Weights that are sizes in pixels and fill the area give these sizes. -/
theorem weightedSlots_of_sizes {size : WindowId → Int} (hne : windows ≠ [])
    (hweight : ∀ i ∈ windows, weight i = size i) (hpos : ∀ i ∈ windows, 1 ≤ size i)
    (hsum : (windows.map size).sum = available) :
    weightedSlots weight available windows = slotsOf size 0 windows := by
  have hshares : shares weight windows = (windows.map size).map fun n : Int => (n : ℚ) := by
    rw [shares, List.map_map]
    refine List.map_congr_left fun i hi => ?_
    have hone : (1 : ℚ) ≤ size i := by exact_mod_cast hpos i hi
    rw [hweight i hi, max_eq_right (by linarith)]
    rfl
  have htotal : (shares weight windows).sum = available := by
    rw [hshares, ← hsum]
    exact (map_list_sum (Int.castAddHom ℚ) _).symm
  have hpos' : 1 ≤ available := by
    obtain ⟨i, rest, rfl⟩ := List.exists_cons_of_ne_nil hne
    have hrest : 0 ≤ (rest.map size).sum := List.sum_nonneg fun n hn => by
      obtain ⟨j, hj, rfl⟩ := List.mem_map.mp hn
      exact zero_le_one.trans (hpos j (List.mem_cons_of_mem i hj))
    have hi := hpos i List.mem_cons_self
    rw [List.map_cons, List.sum_cons] at hsum
    omega
  have hscale : (available : ℚ) ≠ 0 := by
    have : (1 : ℚ) ≤ available := by exact_mod_cast hpos'
    linarith
  have hedges : splitEdges available (shares weight windows)
      = (windows.map size).scanl (· + ·) 0 := by
    rw [splitEdges, prefixSums, htotal, hshares]
    have hcast := scanl_cast (windows.map size) 0
    rw [Int.cast_zero] at hcast
    rw [hcast, List.map_map]
    refine (List.map_congr_left fun n _ => ?_).trans (List.map_id _)
    simp [div_mul_cancel₀ _ hscale]
  have hgaps : gaps (splitEdges available (shares weight windows)) = windows.map size := by
    rw [hedges, gaps_scanl]
  have hbounds : Edges available (splitEdges available (shares weight windows)) :=
    edges_splitEdges hpos' shares_pos (by simpa [shares] using hne)
  have hslots := slots_of_increasing hbounds fun e he => by
    have hgap : e.2 - e.1 ∈ windows.map size := hgaps ▸ List.mem_map_of_mem he
    obtain ⟨i, hi, hsize⟩ := List.mem_map.mp hgap
    have hone := hpos i hi
    omega
  rw [hgaps] at hslots
  rw [slotsOf_eq_zip, ← hslots]
  rfl

/-- Displayed extents that fill the area: the tiles follow one another. -/
theorem weightedSlots_of_sum {size : WindowId → Int} (h : 1 ≤ available) (hne : windows ≠ [])
    (hsize : (weightedSlots weight available windows).map (fun e => e.2.2) = windows.map size)
    (hsum : (windows.map size).sum = available) :
    weightedSlots weight available windows = slotsOf size 0 windows := by
  have hedges : Edges available (splitEdges available (shares weight windows)) :=
    edges_splitEdges h shares_pos (by simpa [shares] using hne)
  have hsnd := snd_weightedSlots weight available windows
  have hextents : (weightedSlots weight available windows).map (fun e => e.2.2)
      = (neighbours (splitEdges available (shares weight windows))).map
        fun e => (slot available e.1 e.2).2 := by
    have hmap := congrArg (List.map Prod.snd) hsnd
    rwa [List.map_map, List.map_map] at hmap
  rw [hsize] at hextents
  have hlt := increasing_of_sum hedges (hextents ▸ hsum)
  have hgaps : windows.map size = gaps (splitEdges available (shares weight windows)) := by
    rw [hextents, gaps]
    exact List.map_congr_left fun e he => by
      rw [slot_of_lt (hlt e he) (hedges.bounds he).2.2]
  rw [slotsOf_eq_zip, hgaps, ← slots_of_increasing hedges hlt]
  rfl

end Slots

/-! ## The stacked tiles of a layout -/

/-- The rectangle of a slot, along an axis of the area. -/
def placeAlong (axis : Axis) (base : Rect) (place : Int × Int) : Rect :=
  match axis with
  | .width => { base with rectX := base.rectX + place.1, rectWidth := place.2 }
  | .height => { base with rectY := base.rectY + place.1, rectHeight := place.2 }

/-- A rectangle placed along an axis has the slot's size. -/
@[simp] theorem along_placeAlong (axis : Axis) (base : Rect) (place : Int × Int) :
    (placeAlong axis base place).along axis = place.2 := by cases axis <;> rfl

/-- Weighted tiles are placed along the axis, slot by slot. -/
theorem weightedRects_eq (axis : Axis) (weight : WindowId → ℚ) (base : Rect)
    (windows : List WindowId) : weightedRects axis weight base windows
      = (weightedSlots weight (base.along axis) windows).map
        fun e => (e.1, placeAlong axis base e.2) := by
  cases axis <;> rfl

/-- Only the weights of the windows matter. -/
theorem weightedSlots_congr {weight weight' : WindowId → ℚ} {windows : List WindowId}
    (h : ∀ i ∈ windows, weight' i = weight i) (available : Int) :
    weightedSlots weight' available windows = weightedSlots weight available windows := by
  have hshares : shares weight' windows = shares weight windows :=
    List.map_congr_left fun i hi => by rw [h i hi]
  have hslots : ∀ weight : WindowId → ℚ, weightedSlots weight available windows
      = windows.zip ((neighbours (splitEdges available (shares weight windows))).map
        fun e => slot available e.1 e.2) := fun _ => rfl
  rw [hslots, hslots, hshares]

/-- The area of the stacked tiles. -/
def stackArea (l : LayoutState) (area : Rect) : Rect :=
  match l.layoutKind with
  | .tall => slaveArea l.masterRatio area
  | .mirror => transpose (slaveArea l.masterRatio (transpose area))
  | _ => area

/-- The rectangle of the master, where the layout has one. -/
def masterRects (l : LayoutState) (area : Rect) (windows : List WindowId) : List (WindowId × Rect) :=
  match l.layoutKind with
  | .tall => (windows.take 1).map fun master =>
    (master, { area with rectWidth := masterCut l.masterRatio area.rectWidth })
  | .mirror => (windows.take 1).map fun master =>
    (master, { area with rectHeight := masterCut l.masterRatio area.rectHeight })
  | _ => []

/-- The stack has the area's extent along its axis. -/
theorem along_stackArea (l : LayoutState) (area : Rect) :
    (stackArea l area).along l.layoutKind.stackingAxis = area.along l.layoutKind.stackingAxis := by
  unfold stackArea
  cases hkind : l.layoutKind with
  | tall =>
      simp only [slaveArea, Layout.stackingAxis, Rect.along]
      split <;> rfl
  | mirror =>
      by_cases hsmall : area.rectHeight ≤ 1 <;>
        simp [slaveArea, Layout.stackingAxis, Rect.along, transpose, hsmall]
  | _ => rfl

/-- Rows are columns, transposed. -/
theorem weightedRects_transpose (weight : WindowId → ℚ) (base : Rect) (windows : List WindowId) :
    (weightedRects .height weight base windows).map (fun e => (e.1, transpose e.2))
      = weightedRects .width weight (transpose base) windows := by
  rw [weightedRects_eq, weightedRects_eq, List.map_map]
  rfl

/-- A split layout is its master and the stacked tiles. -/
theorem layoutRects_split (p : Policy) {l : LayoutState} (hk : l.layoutKind.splits) {area : Rect}
    (h : Within area area) (tiles : Stack WindowId)
    (hmany : l.layoutKind.stacked tiles.integrate ≠ []) :
    layoutRects p l area tiles = masterRects l area tiles.integrate
      ++ weightedRects l.layoutKind.stackingAxis (weightOf p l.layoutKind.stackingAxis)
        (stackArea l area) (l.layoutKind.stacked tiles.integrate) := by
  unfold layoutRects masterRects stackArea
  cases hkind : l.layoutKind with
  | columns => rfl
  | rows => rfl
  | tall =>
      simp only [hkind, Layout.stacked, true_or, if_true] at hmany ⊢
      rcases hw : tiles.integrate with _ | ⟨master, _ | ⟨first, slaves⟩⟩
      · simp [hw] at hmany
      · simp [hw] at hmany
      · rw [tallWeighted_cons_cons p _ _ h.vertical.pos]
        rfl
  | mirror =>
      simp only [hkind, Layout.stacked, or_true, if_true] at hmany ⊢
      rcases hw : tiles.integrate with _ | ⟨master, _ | ⟨first, slaves⟩⟩
      · simp [hw] at hmany
      · simp [hw] at hmany
      · rw [tallWeighted_cons_cons p _ _ (show 1 ≤ (transpose area).rectHeight from h.horizontal.pos),
          List.map_cons]
        exact congrArg _ (weightedRects_transpose _ _ _)
  | _ => simp [hkind, Layout.splits] at hk

end XmonadWayland
