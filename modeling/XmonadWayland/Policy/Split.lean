import XmonadWayland.Policy.Resize

/-!
# XmonadWayland.Policy.Split

Resizing the master from the keyboard.  The ratio changes by the exact fraction of the
work area, so its share changes by the amount; the master's extent is the share rounded
down, but at least one pixel.
-/

namespace XmonadWayland

open StackSet

/-! ## The cut -/

/-- Inside the bounds of a ratio the master has its share, but at least one pixel. -/
theorem masterCut_eq {available : Int} (h : 1 ≤ available) {ratio : ℚ} (hhi : ratio < 1) :
    masterCut ratio available = max 1 ⌊(available : ℚ) * ratio⌋ := by
  have hpos : (0 : ℚ) < available := by exact_mod_cast lt_of_lt_of_le zero_lt_one h
  have hless : ⌊(available : ℚ) * ratio⌋ < available :=
    Int.floor_lt.mpr (mul_lt_of_lt_one_right hpos hhi)
  unfold masterCut
  split <;> omega

/-- The cut moves by the whole amount iff no share is below one pixel. -/
theorem masterCut_moves_iff {available : Int} (h : 1 ≤ available) {ratio : ℚ} {delta : Int}
    (hlo : 0 < ratio) (hhi : ratio < 1) (hlo' : 0 < ratio + delta / available)
    (hhi' : ratio + delta / available < 1) :
    masterCut (ratio + delta / available) available = masterCut ratio available + delta
      ↔ delta = 0 ∨ 1 ≤ available * ratio ∧ 1 ≤ available * (ratio + delta / available) := by
  have hpos : (0 : ℚ) < available := by exact_mod_cast lt_of_lt_of_le zero_lt_one h
  have hshare : (available : ℚ) * (ratio + delta / available) = available * ratio + delta := by
    rw [mul_add, mul_div_cancel₀ _ hpos.ne']
  have hnonneg : 0 ≤ ⌊(available : ℚ) * ratio⌋ := Int.floor_nonneg.mpr (mul_pos hpos hlo).le
  have hnonneg' : 0 ≤ ⌊(available : ℚ) * ratio⌋ + delta := by
    rw [← Int.floor_add_intCast, ← hshare]
    exact Int.floor_nonneg.mpr (mul_pos hpos hlo').le
  have hone : (1 : ℚ) ≤ available * ratio ↔ 1 ≤ ⌊(available : ℚ) * ratio⌋ := by
    rw [Int.le_floor, Int.cast_one]
  have hone' : (1 : ℚ) ≤ available * ratio + delta ↔ 1 ≤ ⌊(available : ℚ) * ratio⌋ + delta := by
    rw [← Int.floor_add_intCast, Int.le_floor, Int.cast_one]
  rw [masterCut_eq h hhi, masterCut_eq h hhi', hshare, Int.floor_add_intCast, hone, hone']
  omega

/-! ## The master -/

/-- The axis along which master and slaves divide the area. -/
def splitAxis (p : Policy) : Axis := (stackingAxis p).across

/-- The focused window is a tile of a layout with a master and at least one slave. -/
structure MasterSplit (p : Policy) (w master : WindowId) (area : Rect) : Prop where
  peek : p.windowSet.peek = some w
  tiled : isFloat p w = false
  fullscreen : (metadataFor p w).windowFullscreen = false
  work : currentArea p = some area
  split : p.windowSet.current.workspace.layout.layoutKind ∈ [Layout.tall, Layout.mirror]
  tiles : ∃ first slaves, currentTiles p = master :: first :: slaves

namespace MasterSplit

variable {p q : Policy} {w master : WindowId} {area : Rect}

/-- A split master stands beside a stack. -/
theorem stacking (h : MasterSplit p w master area) (hs : p.windowSet.WellFormed)
    (hn : OutputsNormal p) : ∃ stack, Stacking p area stack := by
  obtain ⟨stack, hstack, hfocus⟩ := peek_eq_some.mp h.peek
  obtain ⟨first, slaves, htiles⟩ := h.tiles
  have hkind := h.split
  refine ⟨stack, hs, h.work, normal_currentArea hn h.work, hstack, hfocus ▸ h.fullscreen, ?_, ?_⟩
  · revert hkind
    cases p.windowSet.current.workspace.layout.layoutKind <;> decide
  · rw [stackGroup, htiles, Layout.stacked, if_pos (by simpa using hkind)]
    exact List.cons_ne_nil first slaves

/-- The master is displayed as wide, or as high, as the cut. -/
theorem extentOf_master (h : MasterSplit p w master area) (hs : p.windowSet.WellFormed)
    (hn : OutputsNormal p) : extentOf p (splitAxis p) master
      = masterCut p.windowSet.current.workspace.layout.masterRatio (area.along (splitAxis p)) := by
  obtain ⟨stack, hstacking⟩ := h.stacking hs hn
  obtain ⟨first, slaves, htiles⟩ := h.tiles
  have hrects := hstacking.tiledRects_eq
  have hmaster : ∀ r, (master, r) ∈ masterRects p.windowSet.current.workspace.layout area
      (currentTiles p) → windowRect master p = some r := fun r hr =>
    windowRect_tile hs h.work hstacking.shown hstacking.fullscreen
      (hrects ▸ List.mem_append_left _ hr)
  have hkind := h.split
  rw [List.mem_cons, List.mem_singleton] at hkind
  rcases hkind with hkind | hkind
  · have hrect := hmaster { area with
      rectWidth := masterCut p.windowSet.current.workspace.layout.masterRatio area.rectWidth } (by
        simp [masterRects, hkind, htiles])
    rw [extentOf_eq hrect]
    simp [splitAxis, stackingAxis, hkind, Layout.stackingAxis, Axis.across, Rect.along]
  · have hrect := hmaster { area with
      rectHeight := masterCut p.windowSet.current.workspace.layout.masterRatio area.rectHeight } (by
        simp [masterRects, hkind, htiles])
    rw [extentOf_eq hrect]
    simp [splitAxis, stackingAxis, hkind, Layout.stackingAxis, Axis.across, Rect.along]

/-- The same window over the same tiles, with another ratio. -/
theorem relaid (h : MasterSplit p w master area) {ratio : ℚ}
    (hcurrent : q.windowSet.current = { p.windowSet.current with workspace :=
      { p.windowSet.current.workspace with layout :=
        { p.windowSet.current.workspace.layout with masterRatio := ratio } } })
    (hfloat : ∀ wid, isFloat q wid = isFloat p wid)
    (hfull : (metadataFor q w).windowFullscreen = (metadataFor p w).windowFullscreen)
    (harea : ∀ oid, areaFor oid q = areaFor oid p) : MasterSplit q w master area where
  peek := by
    obtain ⟨stack, hstack, hfocus⟩ := peek_eq_some.mp h.peek
    refine peek_eq_some.mpr ⟨stack, ?_, hfocus⟩
    rw [hcurrent]
    exact hstack
  tiled := (hfloat w).trans h.tiled
  fullscreen := hfull.trans h.fullscreen
  work := by
    have hwork := h.work
    rw [currentArea, focusedOutput] at hwork ⊢
    rw [hcurrent, funext harea]
    exact hwork
  split := by
    rw [hcurrent]
    exact h.split
  tiles := by
    obtain ⟨first, slaves, htiles⟩ := h.tiles
    refine ⟨first, slaves, ?_⟩
    rw [← htiles, currentTiles, currentTiles, hcurrent, funext hfloat]

/-- The resize of the split is `splitMaster`. -/
theorem resizeWindow_eq (h : MasterSplit p w master area) (amount : Int) :
    resizeWindow (splitAxis p) amount p = splitMaster w amount p master (area.along (splitAxis p)) := by
  obtain ⟨first, slaves, htiles⟩ := h.tiles
  have hfloat : (metadataFor p w).windowFloating = false := h.tiled
  have hkind := h.split
  rw [List.mem_cons, List.mem_singleton] at hkind
  simp only [resizeWindow, h.peek, h.work, h.fullscreen, hfloat, Bool.false_eq_true, if_false]
  rcases hkind with hkind | hkind <;>
    simp only [resizeTile, hkind, htiles, splitAxis, stackingAxis, Layout.stackingAxis, Axis.across,
      Rect.along]

end MasterSplit

/-- Within the bounds of the ratio the master's extent changes by the whole amount iff no
share is below one pixel; a resize of a slave changes it the other way. -/
def MovesSplit (cfg : Config) (p : Policy) (w master : WindowId) (area : Rect) (amount : Int) : Prop :=
  let axis := splitAxis p
  let ratio := p.windowSet.current.workspace.layout.masterRatio
  let delta := if w = master then amount else -amount
  let ratio' := ratio + delta / area.along axis
  1 / 10 < ratio → ratio < 9 / 10 → 1 / 10 < ratio' → ratio' < 9 / 10 →
    let p' := step cfg p (.actionRequested (.resize axis amount))
    (extentOf p' axis master = extentOf p axis master + delta
      ↔ amount = 0 ∨ 1 ≤ area.along axis * ratio ∧ 1 ≤ area.along axis * ratio')

/-- Inside the bounds the resize only adds its share to the ratio. -/
theorem MasterSplit.step (cfg : Config) {p : Policy} (hopen : Open p) {w master : WindowId}
    {area : Rect} (hsplit : MasterSplit p w master area) (amount delta : Int)
    (hdelta : delta = if w = master then amount else -amount) (ratio : ℚ)
    (hratio : p.windowSet.current.workspace.layout.masterRatio
      + delta / area.along (splitAxis p) = ratio)
    (hlo : 1 / 10 < ratio) (hhi : ratio < 9 / 10) :
    let p' := step cfg p (.actionRequested (.resize (splitAxis p) amount))
    p'.windowSet.current = { p.windowSet.current with workspace :=
        { p.windowSet.current.workspace with layout :=
          { p.windowSet.current.workspace.layout with masterRatio := ratio } } }
      ∧ MasterSplit p' w master area := by
  intro p'
  let q := preparePointerAction p (.resize (splitAxis p) amount)
  have hprep : PointerFrame p q := frame_preparePointerAction (.resize (splitAxis p) amount) p
  have hq : MasterSplit q w master area := hsplit.relaid (by rw [hprep.windowSet])
    hprep.isFloat (hprep.fullscreen w) hprep.areaFor
  let next := splitMaster w amount q master (area.along (splitAxis p))
  have hnext : (handleAction cfg (.resize (splitAxis p) amount) q).1 = next := by
    have haxis : splitAxis p = splitAxis q := by
      simp only [splitAxis, stackingAxis, hprep.windowSet]
    simp only [next, haxis]
    exact hq.resizeWindow_eq amount
  have hfin := frame_finish q next
  have hp' : p' = validatePointerState (settleAnchors q next) := by
    rw [← hnext]
    exact step_action cfg (.resize (splitAxis p) amount) hopen
  have hcurrent : p'.windowSet.current = { p.windowSet.current with workspace :=
      { p.windowSet.current.workspace with layout :=
        { p.windowSet.current.workspace.layout with masterRatio := ratio } } } := by
    have hshare : (amount / area.along (splitAxis p) * if w = master then 1 else -1 : ℚ)
        = delta / area.along (splitAxis p) := by
      rw [hdelta]
      split <;> push_cast <;> ring
    have hclamp : clampRatio ratio = ratio := by
      rw [clampRatio, min_eq_right hhi.le, max_eq_right hlo.le]
    rw [hp', hfin.windowSet]
    simp only [next, splitMaster, current_changeLayout, hprep.windowSet, hshare, hratio, hclamp]
  refine ⟨hcurrent, hsplit.relaid hcurrent (fun wid => ?_) ?_ fun oid => ?_⟩
  · rw [hp', hfin.isFloat]
    exact hprep.isFloat wid
  · rw [hp', hfin.fullscreen]
    exact hprep.fullscreen w
  · rw [hp', hfin.areaFor]
    exact hprep.areaFor oid

/-- Resizing the master moves the split. -/
theorem movesSplit {cfg : Config} {p : Policy} (h : Reachable cfg p) (hopen : Open p)
    {w master : WindowId} {area : Rect} (hsplit : MasterSplit p w master area) (amount : Int) :
    MovesSplit cfg p w master area amount := by
  unfold MovesSplit
  intro axis ratio delta ratio' hlo hhi hlo' hhi' p'
  have hs := (managed_of_reachable h).wellFormed
  have hn := outputsNormal_of_reachable h
  obtain ⟨hcurrent, hsplit'⟩ := hsplit.step cfg hopen amount delta rfl ratio' rfl hlo' hhi'
  have h' := h.event (.actionRequested (.resize axis amount))
  have hafter := hsplit'.extentOf_master (managed_of_reachable h').wellFormed
    (outputsNormal_of_reachable h')
  have haxis : splitAxis p' = axis := by
    simp only [axis, splitAxis, stackingAxis]
    rw [hcurrent]
  rw [haxis, hcurrent] at hafter
  rw [hafter, hsplit.extentOf_master hs hn]
  obtain ⟨stack, hstacking⟩ := hsplit.stacking hs hn
  have hpos : 1 ≤ area.along axis := by
    have hw := hstacking.normal.range.horizontal.pos
    have hh := hstacking.normal.range.vertical.pos
    cases axis <;> assumption
  have hzero : delta = 0 ↔ amount = 0 := by
    simp only [delta]
    split <;> omega
  rw [← hzero]
  exact masterCut_moves_iff hpos (by linarith) (by linarith) (by linarith) (by linarith)

/-- **Keyboard resize of a tile**: along the stacking axis, where the displayed extents fill
the work area, it is an exact exchange between two neighbours that the opposite resize
undoes; along the split axis the master's extent changes by the whole amount iff no share
is below one pixel. -/
theorem keyboard_resize {cfg : Config} {p : Policy} (h : Reachable cfg p) (hopen : Open p)
    (w : WindowId) (area : Rect) (amount : Int) :
    (FullStack p w area → ExchangesPixels cfg p w amount)
      ∧ ∀ master, MasterSplit p w master area → MovesSplit cfg p w master area amount :=
  ⟨fun hfull => exchangesPixels h hopen hfull amount,
    fun _ hsplit => movesSplit h hopen hsplit amount⟩

/-- Two columns. -/
def twoColumns : Policy :=
  runEvents defaultConfig [.outputUpsert 1 ⟨0, 0, 800, 600⟩, .windowAdded 10, .windowAdded 20,
    .actionRequested (.setLayout .columns)] (initialPolicy defaultConfig)

/-- Two columns. -/
theorem keyboard_resize_columns : ExchangesPixels defaultConfig twoColumns 20 10 :=
  (keyboard_resize (reachable_runEvents validateConfig_defaultConfig _)
    ⟨by decide +kernel, by decide +kernel⟩ 20 ⟨0, 0, 800, 600⟩ 10).1
    ⟨by decide +kernel, by decide +kernel, by decide +kernel, by decide +kernel, by decide +kernel,
      by decide +kernel, by decide +kernel⟩

/-- A master that was made narrow, on an output that then became narrow too. -/
def narrowMaster : Policy :=
  runEvents defaultConfig [.outputUpsert 1 ⟨0, 0, 200, 100⟩, .windowAdded 10, .windowAdded 20,
    .actionRequested (.resize .width (-79)), .outputUpsert 1 ⟨0, 0, 9, 100⟩]
    (initialPolicy defaultConfig)

/-- Its share is less than a pixel: three pixels more make it wider by two. -/
theorem narrowMaster_loses_pixel :
    Reachable defaultConfig narrowMaster ∧ Open narrowMaster
      ∧ MasterSplit narrowMaster 20 20 ⟨0, 0, 9, 100⟩
      ∧ narrowMaster.windowSet.current.workspace.layout.masterRatio = 21 / 200
      ∧ (1 / 10 : ℚ) < 21 / 200 + 3 / 9 ∧ (21 / 200 + 3 / 9 : ℚ) < 9 / 10
      ∧ extentOf narrowMaster .width 20 = 1
      ∧ extentOf (step defaultConfig narrowMaster (.actionRequested (.resize .width 3))) .width 20
        = 3 :=
  ⟨reachable_runEvents validateConfig_defaultConfig _, ⟨by decide +kernel, by decide +kernel⟩,
    ⟨by decide +kernel, by decide +kernel, by decide +kernel, by decide +kernel, by decide +kernel,
      ⟨10, [], by decide +kernel⟩⟩,
    by decide +kernel, by norm_num, by norm_num, by decide +kernel, by decide +kernel⟩

end XmonadWayland
