import XmonadWayland.Policy.Tiling

/-!
# XmonadWayland.Policy.Overlap

When the tiles of a split layout overlap.  A share of the weights that holds no pixel
boundary rounds to nothing; its slot is widened to one pixel, which belongs to another
slot too.  If every share holds a pixel boundary, no two tiles share a pixel.
-/

namespace XmonadWayland

open StackSet

/-! ## Shares -/

/-- A pixel boundary lies in every share of the weights, its right end included. -/
def SharesHoldEdges (available : Int) (weights : List ℚ) : Prop :=
  ∀ i < weights.length, ∃ k : Int, (weights.take i).sum * available < k * weights.sum
    ∧ k * weights.sum ≤ (weights.take (i + 1)).sum * available

theorem getElem?_splitEdges (available : Int) (weights : List ℚ) {i : Nat}
    (h : i ≤ weights.length) : (splitEdges available weights)[i]?
      = some ⌊(weights.take i).sum / weights.sum * available⌋ := by
  rw [splitEdges, prefixSums, List.getElem?_map, getElem?_scanl_add weights h, Option.map_some]

/-- Two values round to different pixels iff a pixel boundary separates them. -/
theorem floor_lt_floor_iff {u v : ℚ} : ⌊u⌋ < ⌊v⌋ ↔ ∃ k : Int, u < k ∧ k ≤ v := by
  constructor
  · exact fun h => ⟨⌊v⌋, Int.floor_lt.mp h, Int.floor_le v⟩
  · rintro ⟨k, hu, hv⟩
    exact (Int.floor_lt.mpr hu).trans_le (Int.le_floor.mpr hv)

/-- Every share holds a boundary iff no two edges coincide. -/
theorem sharesHoldEdges_iff {available : Int} {weights : List ℚ} (h : ∀ w ∈ weights, 0 < w)
    (hne : weights ≠ []) : SharesHoldEdges available weights
      ↔ ∀ e ∈ neighbours (splitEdges available weights), e.1 < e.2 := by
  have hsum := sum_pos h hne
  have hstep : ∀ i < weights.length, (∃ k : Int, (weights.take i).sum * available < k * weights.sum
      ∧ k * weights.sum ≤ (weights.take (i + 1)).sum * available)
        ↔ ⌊(weights.take i).sum / weights.sum * available⌋
          < ⌊(weights.take (i + 1)).sum / weights.sum * available⌋ := by
    intro i hi
    rw [floor_lt_floor_iff]
    refine exists_congr fun k => ?_
    rw [div_mul_eq_mul_div, div_mul_eq_mul_div, div_lt_iff₀ hsum, le_div_iff₀ hsum]
  constructor
  · intro hshares e he
    obtain ⟨i, hi⟩ := List.mem_iff_getElem?.mp he
    obtain ⟨h1, h2⟩ := (getElem?_neighbours _ i e.1 e.2).mp hi
    have hlt : i < weights.length := by
      have hlen := (List.getElem?_eq_some_iff.mp h2).1
      rw [length_splitEdges] at hlen
      omega
    rw [getElem?_splitEdges available weights hlt.le, Option.some.injEq] at h1
    rw [getElem?_splitEdges available weights hlt, Option.some.injEq] at h2
    rw [← h1, ← h2]
    exact (hstep i hlt).mp (hshares i hlt)
  · intro hedges i hi
    refine (hstep i hi).mpr (hedges (_, _) (List.mem_iff_getElem?.mpr ⟨i, ?_⟩))
    exact (getElem?_neighbours _ i _ _).mpr
      ⟨getElem?_splitEdges available weights hi.le, getElem?_splitEdges available weights hi⟩

/-! ## Slots -/

/-- The pixels of the slot between two edges. -/
def slotSpan (available : Int) (e : Int × Int) : Set Int :=
  span (slot available e.1 e.2).1 (slot available e.1 e.2).2

/-- Edges from 0 to the whole extent that never decrease. -/
structure Edges (available : Int) (edges : List Int) : Prop where
  pos : 1 ≤ available
  sorted : edges.Pairwise (· ≤ ·)
  first : edges.head? = some 0
  last : edges.getLast? = some available

/-- The edges of a split. -/
theorem edges_splitEdges {available : Int} (h : 1 ≤ available) {weights : List ℚ}
    (hpos : ∀ w ∈ weights, 0 < w) (hne : weights ≠ []) :
    Edges available (splitEdges available weights) where
  pos := h
  sorted := pairwise_splitEdges (by omega) hpos
  first := head?_splitEdges available weights
  last := getLast?_splitEdges available hpos hne

namespace Edges

variable {available : Int} {edges : List Int}

/-- Edges lie in order within the extent. -/
theorem bounds (h : Edges available edges) {e : Int × Int} (he : e ∈ neighbours edges) :
    0 ≤ e.1 ∧ e.1 ≤ e.2 ∧ e.2 ≤ available :=
  ⟨first_le_of_mem h.sorted h.first (mem_of_mem_neighbours he).1, le_of_mem_neighbours h.sorted he,
    le_last_of_mem h.sorted h.last (mem_of_mem_neighbours he).2⟩

/-- A slot that rounds to nothing shares its one pixel with another slot. -/
theorem exists_overlap (h : Edges available edges) {e : Int × Int} (he : e ∈ neighbours edges)
    (hempty : ¬e.1 < e.2) :
    ∃ e' ∈ neighbours edges, e ≠ e' ∧ ¬Disjoint (slotSpan available e) (slotSpan available e') := by
  have hpos := h.pos
  have hb := h.bounds he
  -- The pixel of the widened slot: its edge, or the last one.
  have hx : 0 ≤ min (available - 1) e.1 ∧ min (available - 1) e.1 < available := by omega
  obtain ⟨e', he', hlo, hhi⟩ := exists_neighbours_between h.first h.last hx.1 hx.2
  have hmem : min (available - 1) e.1 ∈ slotSpan available e := by
    rw [slotSpan, mem_span]
    simp only [slot]
    omega
  refine ⟨e', he', fun heq => ?_, Set.not_disjoint_iff.mpr ⟨_, hmem, ?_⟩⟩
  · subst heq
    omega
  · exact mem_slot_of_between hlo hhi hx.2

/-- Slots with a pixel of their own end before the next one starts. -/
theorem disjoint_of_lt (h : Edges available edges) {e e' : Int × Int} (he' : e' ∈ neighbours edges)
    (hlt : e.1 < e.2) (hlt' : e'.1 < e'.2) (hle : e.2 ≤ e'.1) :
    Disjoint (slotSpan available e) (slotSpan available e') := by
  have hb := h.bounds he'
  refine Set.disjoint_left.mpr fun x hx hx' => ?_
  rw [slotSpan, mem_span] at hx hx'
  simp only [slot] at hx hx'
  omega

/-- The slots are disjoint iff every pair of neighbouring edges increases. -/
theorem pairwise_disjoint_iff (h : Edges available edges) :
    ((neighbours edges).Pairwise fun e e' =>
      Disjoint (slotSpan available e) (slotSpan available e'))
        ↔ ∀ e ∈ neighbours edges, e.1 < e.2 := by
  constructor
  · intro hdisjoint e he
    by_contra hempty
    obtain ⟨e', he', hne, hover⟩ := h.exists_overlap he hempty
    have : Std.Symm fun e e' : Int × Int =>
        Disjoint (slotSpan available e) (slotSpan available e') := ⟨fun _ _ hd => hd.symm⟩
    exact hover (hdisjoint.forall he he' hne)
  · intro hlt
    exact (pairwise_neighbours h.sorted).imp_of_mem fun he he' hle =>
      h.disjoint_of_lt he' (hlt _ he) (hlt _ he') hle

end Edges

/-! ## Placed rectangles -/

/-- No two of the placed rectangles share a pixel. -/
def Apart (placed : List (WindowId × Rect)) : Prop :=
  placed.Pairwise fun a b => Disjoint a.2.pixels b.2.pixels

/-- The extent of a rectangle along an axis. -/
def Rect.along (r : Rect) : Axis → Int
  | .width => r.rectWidth
  | .height => r.rectHeight

/-- Rectangles are disjoint where their spans are, along one of the axes. -/
theorem disjoint_pixels {r r' : Rect} : Disjoint r.pixels r'.pixels
    ↔ Disjoint (span r.rectX r.rectWidth) (span r'.rectX r'.rectWidth)
      ∨ Disjoint (span r.rectY r.rectHeight) (span r'.rectY r'.rectHeight) := Set.disjoint_prod

/-- Transposing keeps rectangles apart. -/
theorem disjoint_transpose {r r' : Rect} :
    Disjoint (transpose r).pixels (transpose r').pixels ↔ Disjoint r.pixels r'.pixels := by
  rw [disjoint_pixels, disjoint_pixels, or_comm]
  exact Iff.rfl

/-- Moving both spans keeps them apart. -/
theorem disjoint_span_add {start size start' size' origin : Int} :
    Disjoint (span (origin + start) size) (span (origin + start') size')
      ↔ Disjoint (span start size) (span start' size') := by
  simp only [Set.disjoint_left]
  constructor
  · intro h x hx hx'
    refine h (a := x + origin) ?_ ?_ <;> rw [mem_span_add, add_sub_cancel_right] <;> assumption
  · exact fun h x hx hx' => h (mem_span_add.mp hx) (mem_span_add.mp hx')

/-- A span with a pixel meets itself. -/
theorem not_disjoint_self {start size : Int} (h : 1 ≤ size) :
    ¬Disjoint (span start size) (span start size) := by
  rw [disjoint_self]
  exact (span_nonempty h).ne_empty

/-- Weighted rectangles are apart iff every share holds a pixel boundary. -/
theorem apart_weightedRects_iff (axis : Axis) (weight : WindowId → ℚ) {area : Rect}
    (h : Within area area) (windows : List WindowId) :
    Apart (weightedRects axis weight area windows)
      ↔ SharesHoldEdges (area.along axis) (shares weight windows) := by
  by_cases hne : windows = []
  · subst hne
    refine iff_of_true ?_ fun i hi => absurd hi (Nat.not_lt_zero i)
    simp [Apart, weightedRects, weightedSlots]
  · have hw := h.horizontal.pos
    have hh := h.vertical.pos
    have hpos : 1 ≤ area.along axis := by cases axis <;> assumption
    have hshares : shares weight windows ≠ [] := by simpa [shares] using hne
    have hrects : Apart (weightedRects axis weight area windows)
        ↔ ((weightedSlots weight (area.along axis) windows).map Prod.snd).Pairwise
          fun s s' => Disjoint (span s.1 s.2) (span s'.1 s'.2) := by
      rw [List.pairwise_map]
      cases axis with
      | width =>
          simp only [Apart, weightedRects, List.pairwise_map, disjoint_pixels, disjoint_span_add,
            not_disjoint_self hh, or_false, if_true]
          exact Iff.rfl
      | height =>
          simp only [Apart, weightedRects, List.pairwise_map, disjoint_pixels, disjoint_span_add,
            not_disjoint_self hw, false_or, reduceCtorEq, if_false]
          exact Iff.rfl
    rw [hrects, snd_weightedSlots, List.pairwise_map, sharesHoldEdges_iff shares_pos hshares]
    exact (edges_splitEdges hpos shares_pos hshares).pairwise_disjoint_iff

/-- With two columns or more the master and the slaves are next to each other. -/
theorem disjoint_master_slaves (ratio : ℚ) {area : Rect} (h : 2 ≤ area.rectWidth) :
    Disjoint (Rect.pixels { area with rectWidth := masterCut ratio area.rectWidth })
        (slaveArea ratio area).pixels
      ∧ (slaveArea ratio area).rectHeight = area.rectHeight
      ∧ 1 ≤ (slaveArea ratio area).rectWidth := by
  obtain ⟨x, y, w, hgt⟩ := area
  have hw : ¬w ≤ 1 := by
    simp only at h
    omega
  simp only [slaveArea, if_neg hw, true_and]
  refine ⟨disjoint_pixels.mpr (Or.inl (Set.disjoint_left.mpr fun c hc hc' => ?_)), ?_⟩
  · rw [mem_span] at hc hc'
    simp only at hc hc'
    omega
  · simp only [masterCut, if_neg hw]
    omega

/-- The slaves decide whether tall keeps its tiles apart. -/
theorem apart_tallWeighted_iff (p : Policy) (ratio : ℚ) (axis : Axis) {area : Rect}
    (hw : 2 ≤ area.rectWidth) (hh : 1 ≤ area.rectHeight) (windows : List WindowId) :
    Apart (tallWeighted p ratio axis area windows) ↔ SharesHoldEdges area.rectHeight
      (shares (weightOf p (if axis = .width then .height else .width)) windows.tail) := by
  rcases windows with _ | ⟨master, _ | ⟨first, slaves⟩⟩
  · exact iff_of_true List.Pairwise.nil fun i hi => absurd hi (Nat.not_lt_zero i)
  · exact iff_of_true (List.pairwise_singleton _ _) fun i hi => absurd hi (Nat.not_lt_zero i)
  · obtain ⟨hdisjoint, hheight, hwidth⟩ := disjoint_master_slaves ratio hw
    have hcolumn : Within (slaveArea ratio area) (slaveArea ratio area) :=
      Within.refl hwidth (hheight ▸ hh)
    have hslaves := apart_weightedRects_iff .height
      (weightOf p (if axis = .width then .height else .width)) hcolumn (first :: slaves)
    rw [Rect.along, hheight] at hslaves
    rw [tallWeighted_cons_cons p ratio axis hh, Apart, List.pairwise_cons, List.tail_cons]
    refine (and_iff_right fun e he => ?_).trans hslaves
    exact hdisjoint.mono_right (pixels_subset (within_weightedRects hcolumn he))

/-! ## Layouts -/

/-- The axis along which a split layout stacks tiles. -/
def Layout.stackingAxis : Layout → Axis
  | .columns => .width
  | .mirror => .width
  | _ => .height

/-- The tiles it stacks: all of them, or the slaves. -/
def Layout.stacked (kind : Layout) (tiles : List WindowId) : List WindowId :=
  if kind = .tall ∨ kind = .mirror then tiles.tail else tiles

/-- The stacked tiles decide whether a layout keeps its tiles apart. -/
theorem apart_layoutRects_iff (p : Policy) {l : LayoutState} (hk : l.layoutKind.splits)
    {area : Rect} (hw : 2 ≤ area.rectWidth) (hh : 2 ≤ area.rectHeight) (stack : Stack WindowId) :
    Apart (layoutRects p l area stack)
      ↔ SharesHoldEdges (area.along l.layoutKind.stackingAxis)
        (shares (weightOf p l.layoutKind.stackingAxis)
          (l.layoutKind.stacked stack.integrate)) := by
  have h : Within area area := Within.refl (by omega) (by omega)
  unfold layoutRects
  cases hkind : l.layoutKind with
  | columns => exact apart_weightedRects_iff .width _ h _
  | rows => exact apart_weightedRects_iff .height _ h _
  | tall => exact apart_tallWeighted_iff p l.masterRatio .width hw (by omega) _
  | mirror =>
      have hiff := apart_tallWeighted_iff p l.masterRatio .height
        (show 2 ≤ (transpose area).rectWidth from hh)
        (show 1 ≤ (transpose area).rectHeight from h.horizontal.pos) stack.integrate
      simp only [Apart, List.pairwise_map, disjoint_transpose] at hiff ⊢
      exact hiff
  | _ => simp [hkind, Layout.splits] at hk

/-! ## Displayed workspaces -/

/-- The tiled windows of a screen's workspace. -/
def tilesOf (p : Policy) (s : OutputScreen) : List WindowId :=
  (Stack.integrate' s.workspace.stack).filter fun wid => !isFloat p wid

/-- A displayed workspace with a split layout and room for its tiles: two pixels each
way, and a pixel along the stacking axis for every tile there. -/
structure RoomyScreen (p : Policy) (s : OutputScreen) (area : Rect) : Prop where
  mem : s ∈ p.windowSet.screens
  work : (s.screen.bind fun oid => areaFor oid p) = some area
  focus : ∀ stack, s.workspace.stack = some stack → (metadataFor p stack.focus).windowFullscreen = false
  splits : s.workspace.layout.layoutKind.splits = true
  width : 2 ≤ area.rectWidth
  height : 2 ≤ area.rectHeight
  room : ((s.workspace.layout.layoutKind.stacked (tilesOf p s)).length : Int)
    ≤ area.along s.workspace.layout.layoutKind.stackingAxis

/-- The rectangles that `renderPolicy` gives to the tiles share no pixel. -/
def TilesApart (p : Policy) (s : OutputScreen) : Prop :=
  ∀ q ∈ renderPolicy p, ∀ q' ∈ renderPolicy p, q.placementWindow ∈ tilesOf p s →
    q'.placementWindow ∈ tilesOf p s → q.placementWindow ≠ q'.placementWindow →
    Disjoint q.placementRect.pixels q'.placementRect.pixels

/-- Every share of the stacked tiles holds a pixel boundary. -/
def TilesHoldEdges (p : Policy) (s : OutputScreen) (area : Rect) : Prop :=
  SharesHoldEdges (area.along s.workspace.layout.layoutKind.stackingAxis)
    (shares (weightOf p s.workspace.layout.layoutKind.stackingAxis)
      (s.workspace.layout.layoutKind.stacked (tilesOf p s)))

/-- What a screen says about its tiles is what `renderPolicy` gives them. -/
theorem placementRect_of_shown {p : Policy} (hs : p.windowSet.WellFormed) {s : OutputScreen}
    (hmem : s ∈ p.windowSet.screens) {wid : WindowId} {v : Shown} (hv : (wid, v) ∈ screenRects p s) :
    shownPlacement p wid v ∈ renderPolicy p
      ∧ ∀ q ∈ renderPolicy p, q.placementWindow = wid → q.placementRect = v.1 := by
  have hlookup : (rectangles p)[wid]? = some v := (getElem?_rectangles hs).mpr ⟨s, hmem, hv⟩
  constructor
  · rw [← placement_of_some hlookup]
    exact List.mem_map_of_mem (mem_allWindows.mpr (mem_windows_of_rectangles hs hlookup))
  · rintro q hq rfl
    obtain ⟨wid, -, rfl⟩ := List.mem_map.mp hq
    rw [placementWindow_placement] at hlookup
    rw [placement_of_some hlookup]
    rfl

/-- What the layout places is what is displayed. -/
theorem tilesApart_iff_apart {p : Policy} (hs : p.windowSet.WellFormed) {s : OutputScreen}
    (hmem : s ∈ p.windowSet.screens) {placed : List (WindowId × Rect)}
    (hfst : placed.map Prod.fst = tilesOf p s)
    (hshown : ∀ e ∈ placed, (e.1, (e.2, s.screen, isFloat p e.1, false)) ∈ screenRects p s) :
    TilesApart p s ↔ Apart placed := by
  have hnd : (placed.map Prod.fst).Nodup := by
    rw [hfst]
    exact (hs.stack_nodup (mem_workspaces_of_mem_screens hmem)).filter _
  have hrect := fun e he => placementRect_of_shown hs hmem (hshown e he)
  constructor
  · intro hapart
    refine hnd.of_map.pairwise_of_forall_ne fun a ha b hb hne => ?_
    have htile : ∀ e ∈ placed, e.1 ∈ tilesOf p s := fun e he => hfst ▸ List.mem_map_of_mem he
    exact hapart _ (hrect a ha).1 _ (hrect b hb).1 (htile a ha) (htile b hb) fun heq =>
      hne (List.inj_on_of_nodup_map hnd ha hb heq)
  · intro hapart q hq q' hq' htile htile' hne
    rw [← hfst] at htile htile'
    obtain ⟨a, ha, hwa⟩ := List.mem_map.mp htile
    obtain ⟨b, hb, hwb⟩ := List.mem_map.mp htile'
    have : Std.Symm fun a b : WindowId × Rect => Disjoint a.2.pixels b.2.pixels :=
      ⟨fun _ _ hd => hd.symm⟩
    rw [(hrect a ha).2 q hq hwa.symm, (hrect b hb).2 q' hq' hwb.symm]
    exact hapart.forall ha hb fun heq => hne (by rw [← hwa, ← hwb, heq])

/-- **Overlapping tiles**: with room for all of them, the tiles of a displayed workspace
are apart iff every share of the stacked tiles holds a pixel boundary. -/
theorem tilesApart_iff {cfg : Config} {p : Policy} (h : Reachable cfg p) {s : OutputScreen}
    {area : Rect} (hroom : RoomyScreen p s area) : TilesApart p s ↔ TilesHoldEdges p s area := by
  have hs := (managed_of_reachable h).wellFormed
  obtain ⟨rect, hout, hscreen⟩ := screenOutput_of_area hroom.work
  have hnone : tilesOf p s = [] → (TilesApart p s ↔ TilesHoldEdges p s area) := fun htiles => by
    refine iff_of_true (fun q _ q' _ hq => ?_) fun i hi => ?_
    · rw [htiles] at hq
      exact absurd hq List.not_mem_nil
    · rw [htiles, Layout.stacked] at hi
      simp [shares] at hi
  cases hstack : s.workspace.stack with
  | none => exact hnone (by rw [tilesOf, hstack]; rfl)
  | some stack =>
      have hfull : ¬(metadataFor p stack.focus).windowFullscreen := by
        simp [hroom.focus stack hstack]
      have htiles := Stack.integrate'_filter (fun wid => !isFloat p wid) stack
      cases hfilter : stack.filter fun wid => !isFloat p wid with
      | none =>
          rw [hfilter] at htiles
          exact hnone (by rw [tilesOf, hstack, Stack.integrate', ← htiles]; rfl)
      | some tiles =>
          have hall : tilesOf p s = tiles.integrate := by
            rw [tilesOf, hstack, Stack.integrate', ← htiles, hfilter]
            rfl
          have hplaced : tiledRects p s area stack
              = layoutRects p s.workspace.layout area tiles := by
            simp only [tiledRects, hfilter]
          have htile := layoutRects_tile p s.workspace.layout hroom.splits area
            (le_trans (by decide) hroom.width) (le_trans (by decide) hroom.height) tiles
          rw [TilesHoldEdges, hall,
            ← apart_layoutRects_iff p hroom.splits hroom.width hroom.height tiles]
          refine tilesApart_iff_apart hs hroom.mem (hall ▸ htile.1) fun e he => ?_
          rw [screenRects_tiled hout hstack hfull, hscreen, hplaced]
          exact List.mem_map.mpr ⟨e, List.mem_append_left _ he, rfl⟩

/-- Two columns of a size, written as pixel counts by a resize, and a third window. -/
def crowdedColumns : Policy :=
  runEvents defaultConfig [.outputUpsert 1 ⟨0, 0, 800, 600⟩, .windowAdded 1, .windowAdded 2,
    .actionRequested (.setLayout .columns), .actionRequested (.resize .width 10), .windowAdded 3]
    (initialPolicy defaultConfig)

theorem roomy_crowdedColumns :
    RoomyScreen crowdedColumns crowdedColumns.windowSet.current ⟨0, 0, 800, 600⟩ where
  mem := current_mem_screens _
  work := by decide +kernel
  focus := by
    have hstack : crowdedColumns.windowSet.current.workspace.stack = some ⟨3, [], [2, 1]⟩ := by
      decide +kernel
    intro stack heq
    rw [hstack, Option.some.injEq] at heq
    rw [← heq]
    decide +kernel
  splits := by decide +kernel
  width := by decide
  height := by decide
  room := by decide +kernel

/-- The share of the third window, 1 of 801, lies within one of the 800 pixels. -/
theorem tilesApart_iff_crowdedColumns :
    ¬TilesApart crowdedColumns crowdedColumns.windowSet.current := by
  have hshares : shares (weightOf crowdedColumns .width) [3, 2, 1] = [1, 410, 390] := by
    decide +kernel
  have htiles : tilesOf crowdedColumns crowdedColumns.windowSet.current = [3, 2, 1] := by
    decide +kernel
  have hkind : crowdedColumns.windowSet.current.workspace.layout.layoutKind = .columns := by
    decide +kernel
  have hreach : Reachable defaultConfig crowdedColumns :=
    reachable_runEvents validateConfig_defaultConfig _
  refine mt (tilesApart_iff hreach roomy_crowdedColumns).mp fun hedges => ?_
  rw [TilesHoldEdges, hkind, htiles] at hedges
  change SharesHoldEdges 800 (shares (weightOf crowdedColumns .width) [3, 2, 1]) at hedges
  rw [hshares] at hedges
  obtain ⟨k, hpos, hle⟩ := hedges 0 (by decide)
  norm_num at hpos hle
  have hk : (k : ℚ) < 1 := by linarith
  have hk' : k < 1 := by exact_mod_cast hk
  omega

/-- Its share rounds to nothing, and its one pixel is the second window's too. -/
theorem crowdedColumns_overlap :
    RoomyScreen crowdedColumns crowdedColumns.windowSet.current ⟨0, 0, 800, 600⟩
      ∧ ¬TilesApart crowdedColumns crowdedColumns.windowSet.current := by
  refine ⟨roomy_crowdedColumns, fun hapart => ?_⟩
  have hfirst : (⟨3, ⟨0, 0, 1, 600⟩, true, true, some 1, false, false⟩ : Placement)
      ∈ renderPolicy crowdedColumns := by decide +kernel
  have hsecond : (⟨2, ⟨0, 0, 410, 600⟩, true, false, some 1, false, false⟩ : Placement)
      ∈ renderPolicy crowdedColumns := by decide +kernel
  have htiles : tilesOf crowdedColumns crowdedColumns.windowSet.current = [3, 2, 1] := by
    decide +kernel
  have hdisjoint := hapart _ hfirst _ hsecond (by rw [htiles]; decide) (by rw [htiles]; decide)
    (by decide)
  refine Set.not_disjoint_iff.mpr ⟨(0, 0), ?_, ?_⟩ hdisjoint <;> simp [mem_pixels, mem_span]

end XmonadWayland
