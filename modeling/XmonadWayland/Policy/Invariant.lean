import XmonadWayland.Policy.Frame
import XmonadWayland.Policy.Rebuild
import Mathlib.Logic.Equiv.Basic

/-!
# XmonadWayland.Policy.Invariant

The consistency of the policy state, and that every event keeps it.  Most events
neither add nor remove a window or an output: they keep windows, tags and screens up
to order and metadata up to its values (`Kept`).  The four lifecycle events are
treated one by one.
-/

namespace XmonadWayland

open StackSet

/-! ## Master ratios -/

/-- The bounds `clampRatio` enforces. -/
def RatioBounded (l : LayoutState) : Prop := 1 / 10 ≤ l.masterRatio ∧ l.masterRatio ≤ 9 / 10

def RatiosBounded (s : WindowSet) : Prop := ∀ w ∈ s.workspaces, RatioBounded w.layout

/-- A clamped ratio is bounded. -/
theorem clampRatio_bounded (ratio : ℚ) : 1 / 10 ≤ clampRatio ratio ∧ clampRatio ratio ≤ 9 / 10 :=
  ⟨le_max_left _ _, max_le (by norm_num) (min_le_left _ _)⟩

/-- The same tags, screens and windows, and ratios that stay bounded. -/
structure Relaid (s s' : WindowSet) : Prop where
  tags : s'.tags.Perm s.tags
  frames : (s'.screens.map frame).Perm (s.screens.map frame)
  windows : s'.windows.Perm s.windows
  ratios : RatiosBounded s → RatiosBounded s'

theorem Relaid.refl (s : WindowSet) : Relaid s s :=
  ⟨List.Perm.refl _, List.Perm.refl _, List.Perm.refl _, id⟩

theorem Relaid.trans {s s' s'' : WindowSet} (h : Relaid s s') (h' : Relaid s' s'') :
    Relaid s s'' :=
  ⟨h'.tags.trans h.tags, h'.frames.trans h.frames, h'.windows.trans h.windows,
    fun hr => h'.ratios (h.ratios hr)⟩

/-- A new layout keeps the set well formed. -/
theorem Relaid.wellFormed {s s' : WindowSet} (h : Relaid s s') (hs : s.WellFormed) :
    s'.WellFormed where
  tags_nodup := h.tags.nodup_iff.mpr hs.tags_nodup
  screens_nodup := by
    have hf := h.frames.map Prod.fst
    rw [List.map_map, List.map_map] at hf
    exact hf.nodup_iff.mpr hs.screens_nodup
  windows_nodup := h.windows.nodup_iff.mpr hs.windows_nodup

/-- Rearranging keeps every workspace's layout. -/
theorem relaid_of_rearranged {s s' : WindowSet} (h : Rearranged s s') : Relaid s s' where
  tags := h.tags_perm
  frames := h.frames
  windows := h.windows
  ratios hr w hw := by
    obtain ⟨w', hw', heq⟩ := List.mem_map.mp (h.labels.mem_iff.mp (List.mem_map_of_mem hw))
    simp only [label, Prod.mk.injEq] at heq
    exact heq.2 ▸ hr w' hw'

theorem current_changeLayout (f : LayoutState → LayoutState) (s : WindowSet) :
    (changeLayout f s).current = { s.current with workspace :=
      { s.current.workspace with layout := f s.current.workspace.layout } } := by
  simp [changeLayout, mapWorkspace, currentTag]

/-- Changing the layout changes nothing else. -/
theorem relaid_changeLayout {f : LayoutState → LayoutState} {s : WindowSet}
    (hf : RatioBounded s.current.workspace.layout → ∀ l, RatioBounded l → RatioBounded (f l)) :
    Relaid s (changeLayout f s) where
  tags := by
    rw [changeLayout, tags_mapWorkspace]
    intro w
    split <;> rfl
  frames := by
    rw [changeLayout, screens_mapWorkspace, List.map_map]
    exact List.Perm.refl _
  windows := by
    rw [changeLayout, windows_mapWorkspace]
    refine List.Perm.of_eq (List.flatMap_congr fun w _ => ?_)
    split <;> rfl
  ratios hr w hw := by
    rw [changeLayout, workspaces_mapWorkspace] at hw
    obtain ⟨w', hw', rfl⟩ := List.mem_map.mp hw
    split
    · exact hf (hr _ s.current_mem_workspaces) _ (hr w' hw')
    · exact hr w' hw'

/-! ## Consistency -/

/-- Windows, workspaces, metadata and screens fit together. -/
structure Consistent (tags : List WorkspaceId) (p : Policy) : Prop where
  wellFormed : p.windowSet.WellFormed
  tags_perm : p.windowSet.tags.Perm tags
  zero_not_mem : 0 ∉ p.windowSet.windows
  metadata : ∀ wid : WindowId, wid ∈ p.windowMetadata ↔ wid ∈ p.windowSet.windows
  sizes : ∀ wid : WindowId, wid ∈ p.pointerActualSizes → wid ∈ p.windowSet.windows
  screens : ScreensMatch p.outputs p.windowSet
  ratios : RatiosBounded p.windowSet

/-- `p'` has the windows, the tags and the outputs of `p`; sizes it adds are positive
and of managed windows. -/
structure SameWindows (p p' : Policy) : Prop where
  windowSet : Relaid p.windowSet p'.windowSet
  outputs : p'.outputs = p.outputs
  metadata : ∀ wid : WindowId, wid ∈ p'.windowMetadata ↔ wid ∈ p.windowMetadata
  sizes : ∀ (wid : WindowId) (size : Int × Int), p'.pointerActualSizes[wid]? = some size →
    p.pointerActualSizes[wid]? = some size
      ∨ wid ∈ p.windowSet.windows ∧ 1 ≤ size.1 ∧ 1 ≤ size.2

/-- The lock is as it was as well, and no pointer operation is new. -/
structure Kept (p p' : Policy) : Prop extends SameWindows p p' where
  sessionLocked : p'.sessionLocked = p.sessionLocked
  operation : p'.pointerOperation = p.pointerOperation ∨ p'.pointerOperation = none

theorem SameWindows.trans {p p' p'' : Policy} (h : SameWindows p p') (h' : SameWindows p' p'') :
    SameWindows p p'' where
  windowSet := h.windowSet.trans h'.windowSet
  outputs := h'.outputs.trans h.outputs
  metadata wid := (h'.metadata wid).trans (h.metadata wid)
  sizes wid size hz := (h'.sizes wid size hz).elim (h.sizes wid size)
    fun hm => Or.inr ⟨h.windowSet.windows.mem_iff.mp hm.1, hm.2⟩

namespace Kept

variable {p p' p'' : Policy}

/-- Only window set, metadata values and mode differ. -/
theorem mk' (hws : Relaid p.windowSet p'.windowSet) (ho : p'.outputs = p.outputs)
    (hm : ∀ wid : WindowId, wid ∈ p'.windowMetadata ↔ wid ∈ p.windowMetadata)
    (hz : p'.pointerActualSizes = p.pointerActualSizes)
    (hl : p'.sessionLocked = p.sessionLocked) (hop : p'.pointerOperation = p.pointerOperation) :
    Kept p p' :=
  ⟨⟨hws, ho, hm, fun _ _ hs => Or.inl (hz ▸ hs)⟩, hl, Or.inl hop⟩

theorem refl (p : Policy) : Kept p p :=
  mk' (Relaid.refl _) rfl (fun _ => Iff.rfl) rfl rfl rfl

theorem trans (h : Kept p p') (h' : Kept p' p'') : Kept p p'' :=
  ⟨h.toSameWindows.trans h'.toSameWindows, h'.sessionLocked.trans h.sessionLocked,
    h'.operation.elim (fun e => e ▸ h.operation) Or.inr⟩

/-- Only the window set changes. -/
theorem of_relaid {ws : WindowSet} (h : Relaid p.windowSet ws) :
    Kept p { p with windowSet := ws } := mk' h rfl (fun _ => Iff.rfl) rfl rfl rfl

/-- Only the binding mode changes. -/
theorem of_mode (mode : BindingMode) (p : Policy) : Kept p { p with activeMode := mode } :=
  mk' (Relaid.refl _) rfl (fun _ => Iff.rfl) rfl rfl rfl

/-- A rearrangement keeps what is managed. -/
theorem of_rearranged {ws : WindowSet} (h : Rearranged p.windowSet ws) :
    Kept p { p with windowSet := ws } := of_relaid (relaid_of_rearranged h)

/-- So does pointer bookkeeping. -/
theorem of_frame (h : PointerFrame p p') : Kept p p' where
  windowSet := h.windowSet ▸ Relaid.refl _
  outputs := h.outputs
  metadata _ := h.mem_metadata
  sizes _ _ hs := Or.inl (h.actualSizes ▸ hs)
  sessionLocked := h.sessionLocked
  operation := h.operation

theorem alterMetadata (wid : WindowId) (f : WindowMetadata → WindowMetadata) (p : Policy) :
    Kept p (alterMetadata wid f p) :=
  mk' (Relaid.refl _) rfl (fun _ => Std.ExtTreeMap.mem_modify) rfl rfl rfl

theorem foldr {f : WindowId → Policy → Policy} (hf : ∀ wid q, Kept q (f wid q))
    (l : List WindowId) (p : Policy) : Kept p (l.foldr f p) := by
  induction l with
  | nil => exact refl p
  | cons wid l ih => exact ih.trans (hf wid _)

end Kept

/-- The same windows are as consistent. -/
theorem Consistent.sameWindows {tags : List WorkspaceId} {p p' : Policy}
    (hc : Consistent tags p) (h : SameWindows p p') : Consistent tags p' where
  wellFormed := h.windowSet.wellFormed hc.wellFormed
  tags_perm := h.windowSet.tags.trans hc.tags_perm
  zero_not_mem hm := hc.zero_not_mem (h.windowSet.windows.mem_iff.mp hm)
  metadata wid := (h.metadata wid).trans
    ((hc.metadata wid).trans h.windowSet.windows.mem_iff.symm)
  sizes wid hw := by
    obtain ⟨size, hsize⟩ := mem_map_iff.mp hw
    refine h.windowSet.windows.mem_iff.mpr ?_
    rcases h.sizes wid size hsize with hold | hnew
    · exact hc.sizes wid (mem_map_iff.mpr ⟨size, hold⟩)
    · exact hnew.1
  screens := by
    rw [h.outputs]
    have hlen := h.windowSet.tags.length_eq
    rw [StackSet.tags, StackSet.tags, List.length_map, List.length_map] at hlen
    exact hc.screens.of_perm h.windowSet.frames hlen
  ratios := h.windowSet.ratios hc.ratios

/-- Pointer bookkeeping keeps a policy consistent. -/
theorem Consistent.frame {tags : List WorkspaceId} {p p' : Policy} (hc : Consistent tags p)
    (h : PointerFrame p p') : Consistent tags p' :=
  hc.sameWindows (Kept.of_frame h).toSameWindows

/-! ## Actions -/

theorem kept_modifyFocused (f : WindowMetadata → WindowMetadata) (p : Policy) :
    Kept p (modifyFocused f p) := by
  unfold modifyFocused
  split
  · exact Kept.refl p
  · exact Kept.alterMetadata _ f p

/-- Shifting a family keeps its windows. -/
theorem kept_shiftFamily {p : Policy} (hs : p.windowSet.WellFormed) (wid : WindowId)
    (tag : WorkspaceId) : Kept p (shiftFamily wid tag p) :=
  Kept.of_rearranged (foldr_shiftWin_spec hs tag _).2

/-- Focusing the other mode keeps the windows. -/
theorem kept_focusOtherMode {p : Policy} (hs : p.windowSet.WellFormed) :
    Kept p (focusOtherMode p) := by
  unfold focusOtherMode
  split
  · exact Kept.refl p
  · split
    · exact Kept.of_rearranged (rearranged_focusWindow hs _)
    · exact Kept.refl p

/-- So does focusing in a direction. -/
theorem kept_focusDirection {p : Policy} (hs : p.windowSet.WellFormed) (direction : Direction) :
    Kept p (focusDirection direction p) := by
  unfold focusDirection
  split
  · exact Kept.of_rearranged (rearranged_focusWindow hs _)
  · exact Kept.of_rearranged (rearranged_view hs _)
  · exact Kept.refl p

/-- Transferring a family keeps the windows. -/
theorem kept_transferFamily {p : Policy} (hs : p.windowSet.WellFormed) (wid : WindowId)
    (tag : WorkspaceId) : Kept p (transferFamily wid tag p) := by
  have hm := kept_shiftFamily hs wid tag
  have hs' := hm.windowSet.wellFormed hs
  have hv := rearranged_view hs' tag
  exact hm.trans (Kept.of_rearranged (hv.trans (rearranged_focusWindow (hv.wellFormed hs') wid)))

/-- Renaming in a stack renames in its list. -/
theorem integrate_exchange (a b : WindowId) (st : Stack WindowId) :
    (exchange a b st).integrate = st.integrate.map (Equiv.swap a b) := by
  have hswap : (fun i => if i = a then b else if i = b then a else i) = Equiv.swap a b := by
    funext i
    rw [Equiv.swap_apply_def]
  obtain ⟨f, u, d⟩ := st
  simp only [exchange, Stack.integrate, List.map_append, List.map_reverse, List.map_cons, hswap,
    Equiv.swap_apply_def]

/-- Exchanging two windows of a stack permutes it. -/
theorem integrate_exchange_perm {a b : WindowId} {st : Stack WindowId} (ha : a ∈ st.integrate)
    (hb : b ∈ st.integrate) (hnd : st.integrate.Nodup) :
    (exchange a b st).integrate.Perm st.integrate := by
  rw [integrate_exchange]
  refine (List.perm_ext_iff_of_nodup (hnd.map (Equiv.swap a b).injective) hnd).mpr fun x => ?_
  have hmem : ∀ y ∈ st.integrate, Equiv.swap a b y ∈ st.integrate := by
    intro y hy
    rw [Equiv.swap_apply_def]
    split
    · exact hb
    · split
      · exact ha
      · exact hy
  constructor
  · intro hx
    obtain ⟨y, hy, rfl⟩ := List.mem_map.mp hx
    exact hmem y hy
  · intro hx
    exact List.mem_map.mpr ⟨Equiv.swap a b x, hmem x hx, Equiv.swap_apply_self a b x⟩

/-- So does moving in a direction. -/
theorem kept_moveDirection {p : Policy} (hs : p.windowSet.WellFormed) (direction : Direction) :
    Kept p (moveDirection direction p) := by
  unfold moveDirection
  split
  · exact Kept.refl p
  · next wid hpeek =>
    split
    · exact Kept.refl p
    · split
      · split
        · exact Kept.refl p
        · exact Kept.of_frame (frame_setFloatRect _ _ p)
      · split
        · next other _ =>
          split
          · next htag =>
            -- Both windows are on the current workspace.
            obtain ⟨st, hst, rfl⟩ := peek_eq_some.mp hpeek
            have hcur := p.windowSet.current_mem_workspaces
            have hfocus : st.focus ∈ Stack.integrate' p.windowSet.current.workspace.stack := by
              rw [hst]
              exact st.focus_mem_integrate
            rw [hs.findTag_eq hcur hfocus] at htag
            obtain ⟨w, hw, hwtag, hother⟩ := exists_of_findTag htag
            rw [hs.workspace_eq hw hcur hwtag, hst] at hother
            have hnd := hs.stack_nodup hcur
            rw [hst] at hnd
            have hswap : Rearranged p.windowSet
                (p.windowSet.modify' (exchange st.focus other)) :=
              rearranged_modify' fun st' hst' => by
                rw [hst, Option.some.injEq] at hst'
                subst hst'
                exact integrate_exchange_perm st.focus_mem_integrate hother hnd
            exact Kept.of_rearranged
              (hswap.trans (rearranged_focusWindow (hswap.wellFormed hs) _))
          · split
            · exact kept_transferFamily hs _ _
            · exact Kept.refl p
        · exact kept_transferFamily hs _ _
        · exact Kept.refl p

/-- Exchanging weights keeps the windows. -/
theorem kept_exchangeWeights (axis : Axis) (amount : Int) (p : Policy) (wid : WindowId)
    (area : Rect) (group : List WindowId) :
    Kept p (exchangeWeights axis amount p wid area group) := by
  unfold exchangeWeights
  extract_lets available
  split
  · split
    · split
      · exact Kept.foldr (fun i q => Kept.alterMetadata i _ q) group p
      · exact Kept.refl p
    · exact Kept.refl p
  · exact Kept.refl p

/-- So does splitting the master. -/
theorem kept_splitMaster (wid : WindowId) (amount : Int) (p : Policy) (master : WindowId)
    (available : Int) : Kept p (splitMaster wid amount p master available) :=
  Kept.of_relaid (relaid_changeLayout fun _ _ _ => clampRatio_bounded _)

/-- So does resizing a tile. -/
theorem kept_resizeTile (axis : Axis) (amount : Int) (p : Policy) (wid : WindowId)
    (area : Rect) : Kept p (resizeTile axis amount p wid area) := by
  unfold resizeTile
  split
  · exact kept_exchangeWeights _ _ _ _ _ _
  · exact kept_exchangeWeights _ _ _ _ _ _
  · exact kept_splitMaster _ _ _ _ _
  · exact kept_splitMaster _ _ _ _ _
  · split
    · exact kept_exchangeWeights _ _ _ _ _ _
    · exact Kept.refl p
  · split
    · exact kept_exchangeWeights _ _ _ _ _ _
    · exact Kept.refl p
  · exact Kept.refl p

/-- So does resizing a window. -/
theorem kept_resizeWindow (axis : Axis) (amount : Int) (p : Policy) :
    Kept p (resizeWindow axis amount p) := by
  unfold resizeWindow
  split
  · split
    · exact Kept.refl p
    · split
      · exact Kept.alterMetadata _ _ p
      · exact kept_resizeTile _ _ _ _ _
  · exact Kept.refl p

/-- Focusing an output moves no window. -/
theorem rearranged_focusOutput {s : WindowSet} (hs : s.WellFormed) (direction : Int) :
    Rearranged s (focusOutput direction s) := by
  unfold focusOutput
  simp only
  split
  · split
    · exact rearranged_view hs _
    · exact Rearranged.refl s
  · exact Rearranged.refl s

/-- A swap moves windows within the current workspace. -/
theorem rearranged_swapToWindow (wid : WindowId) (s : WindowSet) :
    Rearranged s (swapToWindow wid s) := by
  unfold swapToWindow
  split
  · next focused rest hindex =>
    split
    · split
      · next idx hidx =>
        refine rearranged_modify' fun st hst => ?_
        rw [index_eq, hst, Stack.integrate'] at hindex
        obtain ⟨hlt, hget, -⟩ := List.idxOf?_eq_some_iff.mp hidx
        have hsplit : rest = rest.take idx ++ wid :: rest.drop (idx + 1) := by
          rw [← hget, List.getElem_cons_drop, List.take_append_drop]
        have hperm := (Stack.mk wid (rest.take idx) (focused :: rest.drop (idx + 1))).integrate_perm
        refine hperm.trans ?_
        rw [hindex]
        have hmove : (wid :: (rest.take idx ++ focused :: rest.drop (idx + 1))).Perm
            (wid :: focused :: (rest.take idx ++ rest.drop (idx + 1))) :=
          List.perm_middle.cons wid
        have hback : (wid :: focused :: (rest.take idx ++ rest.drop (idx + 1))).Perm
            (focused :: (rest.take idx ++ wid :: rest.drop (idx + 1))) :=
          (List.Perm.swap _ _ _).trans (List.perm_middle.symm.cons focused)
        exact (hmove.trans hback).trans (List.Perm.of_eq (congrArg _ hsplit.symm))
      · exact Rearranged.refl s
    · exact Rearranged.refl s
  · exact Rearranged.refl s

/-- Showing the letters keeps the windows. -/
theorem kept_startPicker (p : Policy) : Kept p (startPicker p).1 := by
  unfold startPicker
  split
  · exact Kept.refl p
  · exact Kept.of_mode _ p

theorem kept_cancelPicker (p : Policy) : Kept p (cancelPicker p).1 := Kept.of_mode _ p

/-- So does choosing one. -/
theorem kept_finishPicker (index : Int) (p : Policy) : Kept p (finishPicker index p).1 := by
  unfold finishPicker
  split
  · exact (Kept.of_rearranged (rearranged_swapToWindow _ _)).trans (Kept.of_mode _ _)
  · exact kept_cancelPicker p

/-- A resized ratio is bounded. -/
theorem ratioBounded_resizeRatio (cfg : Config) (direction : ℚ → ℚ) (l : LayoutState) :
    RatioBounded (resizeRatio cfg direction l) := clampRatio_bounded _

/-- Every action keeps the windows. -/
theorem kept_handleAction (cfg : Config) (action : Action) {p : Policy}
    (hs : p.windowSet.WellFormed) : Kept p (handleAction cfg action p).1 := by
  have hlayout : ∀ f : Layout → Layout,
      Kept p { p with
        windowSet := changeLayout (fun l => { l with layoutKind := f l.layoutKind }) p.windowSet } :=
    fun f => Kept.of_relaid (relaid_changeLayout fun _ _ h => h)
  have hratio : ∀ direction : ℚ → ℚ,
      Kept p { p with windowSet := changeLayout (resizeRatio cfg direction) p.windowSet } :=
    fun direction => Kept.of_relaid
      (relaid_changeLayout fun _ l _ => ratioBounded_resizeRatio cfg direction l)
  cases action with
  | focusNext => exact Kept.of_rearranged (rearranged_focusDown _)
  | focusPrevious => exact Kept.of_rearranged (rearranged_focusUp _)
  | swapMaster => exact Kept.of_rearranged (rearranged_swapMaster _)
  | swapNext => exact Kept.of_rearranged (rearranged_swapDown _)
  | swapPrevious => exact Kept.of_rearranged (rearranged_swapUp _)
  | view tag => exact Kept.of_rearranged (rearranged_view hs tag)
  | shift tag =>
      simp only [handleAction]
      split
      · exact Kept.refl p
      · exact kept_shiftFamily hs _ tag
  | focusNextOutput => exact Kept.of_rearranged (rearranged_focusOutput hs 1)
  | focusPreviousOutput => exact Kept.of_rearranged (rearranged_focusOutput hs (-1))
  | toggleFloat => exact kept_modifyFocused _ p
  | sink => exact kept_modifyFocused _ p
  | toggleFullscreen => exact kept_modifyFocused _ p
  | focusModeToggle => exact kept_focusOtherMode hs
  | focusDirection direction => exact kept_focusDirection hs direction
  | moveDirection direction => exact kept_moveDirection hs direction
  | resize axis amount => exact kept_resizeWindow axis amount p
  | setLayout kind => exact hlayout fun _ => kind
  | toggleSplit => exact hlayout _
  | cycleSwayLayout => exact hlayout _
  | nextLayout => exact hlayout _
  | shrink => exact hratio _
  | expand => exact hratio _
  | swapToWindow wid => exact Kept.of_rearranged (rearranged_swapToWindow wid _)
  | pick => exact kept_startPicker p
  | pickCandidate index => exact kept_finishPicker index p
  | pickCancel => exact kept_cancelPicker p
  | enterMode mode => exact Kept.of_mode mode p
  | close => exact Kept.refl p
  | terminal => exact Kept.refl p
  | launcher => exact Kept.refl p
  | stop => exact Kept.refl p
  | runCommand command => exact Kept.refl p
  | reload => exact Kept.refl p
  | confirmExit command => exact Kept.refl p
  | restart => exact Kept.refl p

/-- So does every request for one. -/
theorem kept_requestAction (cfg : Config) (action : Action) {p : Policy}
    (hs : p.windowSet.WellFormed) : Kept p (requestAction cfg action p).1 := by
  unfold requestAction
  split
  · exact Kept.refl p
  · split
    · exact kept_startPicker p
    · exact kept_finishPicker _ p
    · exact kept_cancelPicker p
    · split
      · exact Kept.refl p
      · exact kept_handleAction cfg action hs

/-! ## Events -/

/-- A placement is of its window. -/
theorem placementWindow_placement (p : Policy) (rects : Map WindowId Shown) (wid : WindowId) :
    (placement p rects wid).placementWindow = wid := by
  unfold placement
  split <;> rfl

/-- Placed are the windows of the stack set, one after the other. -/
theorem map_placementWindow (p : Policy) :
    (renderPolicy p).map Placement.placementWindow = p.windowSet.allWindows := by
  rw [renderPolicy, List.map_map]
  refine (List.map_congr_left fun wid _ => ?_).trans (List.map_id _)
  exact placementWindow_placement p _ wid

/-- Only windows are placed. -/
theorem mem_windows_of_windowPlacement {p : Policy} {wid : WindowId} {q : Placement}
    (h : windowPlacement wid p = some q) : wid ∈ p.windowSet.windows := by
  have hq := List.mem_of_head? h
  rw [List.mem_filter, decide_eq_true_eq, renderPolicy] at hq
  obtain ⟨hmem, hwid, -⟩ := hq
  obtain ⟨wid', hmem', rfl⟩ := List.mem_map.mp hmem
  rw [placementWindow_placement] at hwid
  exact hwid ▸ mem_allWindows.mp hmem'

/-- Starting an operation keeps the windows. -/
theorem sameWindows_startPointer {p : Policy} (hs : p.windowSet.WellFormed) (sid : SeatId)
    (wid : WindowId) (edges : Nat) (x y : Int) :
    SameWindows p (startPointer sid wid edges x y p) := by
  have hself := (Kept.refl p).toSameWindows
  unfold startPointer
  split
  · exact hself
  · split
    · next initial _ _ _ =>
      split
      · have hm := frame_materializeAnchor wid p
        have hk := (Kept.of_frame (hm.trans (frame_setFloatRect wid initial _))).toSameWindows
        refine hk.trans ⟨?_, rfl, fun _ => Iff.rfl, fun _ _ => Or.inl⟩
        exact relaid_of_rearranged (rearranged_focusWindow (hk.windowSet.wellFormed hs) wid)
      · exact hself
    · exact hself

theorem kept_recordText (wid : WindowId) (f : WindowMetadata → WindowMetadata) (p : Policy) :
    Kept p (recordText wid f p) := by
  unfold recordText
  split
  · exact Kept.alterMetadata wid f p
  · exact Kept.refl p

/-- Setting a parent keeps the windows. -/
theorem kept_setParent {p : Policy} (hs : p.windowSet.WellFormed) (wid : WindowId)
    (parent : Option WindowId) : Kept p (setParent wid parent p) := by
  unfold setParent
  split
  · exact Kept.refl p
  · have hk := Kept.alterMetadata wid (fun m => { m with
      windowParent := parent.filter fun i => p.windowSet.member i
      windowFloating := (parent.filter fun i => p.windowSet.member i).isSome }) p
    simp only
    split
    · exact hk.trans (kept_shiftFamily (hk.windowSet.wellFormed hs) wid _)
    · exact hk

/-- Events about the life of a window or an output. -/
def Event.isLifecycle : Event → Bool
  | .outputUpsert _ _ => true
  | .outputRemoved _ => true
  | .windowAdded _ => true
  | .windowRemoved _ => true
  | _ => false

/-- Events that neither lock nor unlock the session nor start a pointer operation. -/
def Event.isPassive : Event → Bool
  | .locked => false
  | .unlocked => false
  | .pointerStarted _ _ _ _ _ => false
  | _ => true

/-- Passive events that are not about a life keep windows, outputs and lock. -/
theorem kept_handleOrdinaryEvent (cfg : Config) {ev : Event} {p : Policy}
    (hs : p.windowSet.WellFormed) (hev : ev.isLifecycle = false) (hpassive : ev.isPassive) :
    Kept p (handleOrdinaryEvent cfg ev p).1 := by
  cases ev with
  | pointerMoved sid dx dy => exact Kept.of_frame (frame_movePointer sid dx dy p)
  | pointerReleased sid => exact Kept.of_frame (frame_endPointer sid p)
  | pointerCancelled sid => exact Kept.of_frame (frame_endPointer sid p)
  | windowActualSize wid width height =>
      simp only [handleOrdinaryEvent]
      split
      · next h =>
        refine ⟨⟨Relaid.refl _, rfl, fun _ => Iff.rfl, fun wid' size hz => ?_⟩, rfl, Or.inl rfl⟩
        simp only [getElem?_map_insert] at hz
        split at hz
        · next hwid =>
          have hpos : ∀ size : Int, 1 ≤ abiExtent size := fun _ => le_max_left _ _
          rw [← Option.some.inj hz]
          exact Or.inr ⟨hwid ▸ member_iff.mp h.1, hpos _, hpos _⟩
        · exact Or.inl hz
      · exact Kept.refl p
  | outputWorkArea oid rect => exact Kept.mk' (Relaid.refl _) rfl (fun _ => Iff.rfl) rfl rfl rfl
  | windowParent wid parent => exact kept_setParent hs wid parent
  | windowSizeHints wid a b c d => exact Kept.alterMetadata wid _ p
  | windowFullscreen wid enabled =>
      simp only [handleOrdinaryEvent]
      have hk := Kept.alterMetadata wid (fun m => { m with windowFullscreen := enabled }) p
      split
      · exact hk.trans (Kept.of_rearranged (rearranged_focusWindow hs wid))
      · exact hk
  | windowAppId wid text => exact kept_recordText wid _ p
  | windowTitle wid text => exact kept_recordText wid _ p
  | focusRequested wid =>
      simp only [handleOrdinaryEvent]
      split
      · exact Kept.of_rearranged (rearranged_focusWindow hs wid)
      · exact Kept.refl p
  | actionRequested action => exact kept_requestAction cfg action hs
  | outputUpsert oid rect => contradiction
  | outputRemoved oid => contradiction
  | windowAdded wid => contradiction
  | windowRemoved wid => contradiction
  | locked => contradiction
  | unlocked => contradiction
  | pointerStarted sid wid edges x y => contradiction

/-- Every event that is not about a life keeps windows and outputs. -/
theorem sameWindows_handleOrdinaryEvent (cfg : Config) {ev : Event} {p : Policy}
    (hs : p.windowSet.WellFormed) (hev : ev.isLifecycle = false) :
    SameWindows p (handleOrdinaryEvent cfg ev p).1 := by
  by_cases hpassive : ev.isPassive
  · exact (kept_handleOrdinaryEvent cfg hs hev hpassive).toSameWindows
  · have hself := (Kept.refl p).toSameWindows
    cases ev with
    | locked => exact ⟨hself.windowSet, rfl, hself.metadata, hself.sizes⟩
    | unlocked => exact ⟨hself.windowSet, rfl, hself.metadata, hself.sizes⟩
    | pointerStarted sid wid edges x y =>
        simp only [handleOrdinaryEvent]
        split
        · exact (kept_cancelPicker p).toSameWindows
        · exact sameWindows_startPointer hs sid wid edges x y
    | _ => contradiction

/-- New outputs keep a policy consistent. -/
theorem consistent_reconcile {tags : List WorkspaceId} {p : Policy} (hc : Consistent tags p)
    (newOutputs : Map OutputId Rect) : Consistent tags (reconcile newOutputs p) := by
  have hw := workspaces_rebuild_perm newOutputs p.windowSet
  have hwin : (rebuild newOutputs p.windowSet).windows.Perm p.windowSet.windows := hw.flatMap_right _
  exact {
    wellFormed := wellFormed_rebuild hc.wellFormed newOutputs
    tags_perm := (hw.map _).trans hc.tags_perm
    zero_not_mem := fun hm => hc.zero_not_mem (hwin.mem_iff.mp hm)
    metadata := fun wid => (hc.metadata wid).trans hwin.mem_iff.symm
    sizes := fun wid hm => hwin.mem_iff.mpr (hc.sizes wid hm)
    screens := screensMatch_rebuild hc.wellFormed newOutputs
    ratios := fun w hm => hc.ratios w (hw.mem_iff.mp hm) }

/-- Screens match the outputs while the display is the same. -/
theorem screensMatch_of_display {outputs : Map OutputId Rect} {s s' : WindowSet}
    (h : ScreensMatch outputs s) (hd : SameDisplay s s') : ScreensMatch outputs s' :=
  h.of_perm (hd.frames_perm) (by
    have hl := hd.labels_perm.length_eq
    rwa [List.length_map, List.length_map] at hl)

/-- A change of windows that leaves the display alone. -/
theorem Consistent.of_display {tags : List WorkspaceId} {p p' : Policy} (hc : Consistent tags p)
    (hd : SameDisplay p.windowSet p'.windowSet) (ho : p'.outputs = p.outputs)
    (hnd : p'.windowSet.windows.Nodup) (hzero : 0 ∉ p'.windowSet.windows)
    (hm : ∀ wid : WindowId, wid ∈ p'.windowMetadata ↔ wid ∈ p'.windowSet.windows)
    (hz : ∀ wid : WindowId, wid ∈ p'.pointerActualSizes → wid ∈ p'.windowSet.windows) :
    Consistent tags p' where
  wellFormed := hd.wellFormed hc.wellFormed hnd
  tags_perm := by
    rw [tags_eq]
    exact (hd.labels_perm.map Prod.fst).trans (tags_eq p.windowSet ▸ hc.tags_perm)
  zero_not_mem := hzero
  metadata := hm
  sizes := hz
  screens := ho ▸ screensMatch_of_display hc.screens hd
  ratios w hw := by
    obtain ⟨w', hw', heq⟩ := List.mem_map.mp (hd.labels_perm.mem_iff.mp (List.mem_map_of_mem hw))
    simp only [label, Prod.mk.injEq] at heq
    exact heq.2 ▸ hc.ratios w' hw'

/-- A new window keeps a policy consistent. -/
theorem consistent_windowAdded {tags : List WorkspaceId} {p : Policy} (hc : Consistent tags p)
    {wid : WindowId} (hzero : wid ≠ 0) (hnew : wid ∉ p.windowSet.windows) :
    Consistent tags { p with
      windowSet := p.windowSet.insertUp wid
      windowMetadata := p.windowMetadata.insert wid defaultMetadata } := by
  have hw := windows_insertUp_perm hnew
  have hmem : ∀ wid' : WindowId, wid' ∈ (p.windowSet.insertUp wid).windows ↔
      wid' = wid ∨ wid' ∈ p.windowSet.windows := fun wid' => by
    rw [hw.mem_iff, List.mem_cons]
  refine hc.of_display (SameDisplay.of_bare (bare_insertUp wid _)) rfl ?_ ?_ ?_ ?_
  · exact hw.nodup_iff.mpr (List.nodup_cons.mpr ⟨hnew, hc.wellFormed.windows_nodup⟩)
  · exact fun hm => ((hmem 0).mp hm).elim (fun e => hzero e.symm) hc.zero_not_mem
  · intro wid'
    rw [hmem, ← hc.metadata, Std.ExtTreeMap.mem_insert, Std.LawfulEqOrd.compare_eq_iff_eq]
    exact or_congr eq_comm Iff.rfl
  · exact fun wid' hm => (hmem wid').mpr (Or.inr (hc.sizes wid' hm))

/-- So does the end of a window. -/
theorem consistent_windowRemoved {tags : List WorkspaceId} {p : Policy} (hc : Consistent tags p)
    (wid : WindowId) :
    Consistent tags { p with
      windowSet := p.windowSet.delete wid
      pointerActualSizes := p.pointerActualSizes.erase wid
      windowMetadata := (p.windowMetadata.erase wid).map fun _ m => orphan wid m } := by
  have hw := windows_delete wid p.windowSet
  have hmem : ∀ wid' : WindowId, wid' ∈ (p.windowSet.delete wid).windows ↔
      wid' ≠ wid ∧ wid' ∈ p.windowSet.windows := fun wid' => by
    rw [hw, List.mem_filter, decide_eq_true_eq, and_comm]
  have herase : ∀ wid' : WindowId, compare wid wid' ≠ Ordering.eq ↔ wid' ≠ wid := fun wid' => by
    rw [ne_eq, Std.LawfulEqOrd.compare_eq_iff_eq, eq_comm]
  refine hc.of_display (sameDisplay_delete wid _) rfl ?_ ?_ ?_ ?_
  · rw [hw]
    exact hc.wellFormed.windows_nodup.filter _
  · exact fun hm => hc.zero_not_mem ((hmem 0).mp hm).2
  · intro wid'
    rw [hmem, ← hc.metadata, Std.ExtTreeMap.mem_map, Std.ExtTreeMap.mem_erase, herase]
  · intro wid' hm
    rw [Std.ExtTreeMap.mem_erase, herase] at hm
    exact (hmem wid').mpr ⟨hm.1, hc.sizes wid' hm.2⟩

/-- Every event keeps the policy consistent. -/
theorem consistent_handleOrdinaryEvent (cfg : Config) (ev : Event) {tags : List WorkspaceId}
    {p : Policy} (hc : Consistent tags p) : Consistent tags (handleOrdinaryEvent cfg ev p).1 := by
  by_cases hev : ev.isLifecycle
  · cases ev with
    | outputUpsert oid rect => exact consistent_reconcile hc _
    | outputRemoved oid =>
        have hk : Consistent tags { p with workAreas := p.workAreas.erase oid } :=
          hc.sameWindows ⟨Relaid.refl _, rfl, fun _ => Iff.rfl, fun _ _ => Or.inl⟩
        exact consistent_reconcile hk _
    | windowAdded wid =>
        simp only [handleOrdinaryEvent]
        split
        · exact hc
        · next h =>
          rw [not_or, member_iff] at h
          exact consistent_windowAdded hc h.1 h.2
    | windowRemoved wid => exact consistent_windowRemoved hc wid
    | _ => contradiction
  · exact hc.sameWindows (sameWindows_handleOrdinaryEvent cfg hc.wellFormed (by simpa using hev))

/-- Every event keeps a policy consistent. -/
theorem consistent_step (cfg : Config) (ev : Event) {tags : List WorkspaceId} {p : Policy}
    (hc : Consistent tags p) : Consistent tags (step cfg p ev) := by
  have hprep := hc.frame (frame_preparePointerEvent ev p)
  have hnext := consistent_handleOrdinaryEvent cfg ev hprep
  exact hnext.frame (frame_finish _ _)

/-- An anchor that survives validation belongs to a managed window. -/
theorem mem_windows_of_anchor_validate {p : Policy} {wid : WindowId}
    (h : wid ∈ (validatePointerState p).pointerAnchors) : wid ∈ p.windowSet.windows := by
  obtain ⟨a, ha⟩ := mem_map_iff.mp h
  simp only [validatePointerState, getElem?_map_filter] at ha
  rw [Option.filter_eq_some_iff] at ha
  have hvalid := ha.2
  unfold anchorValid at hvalid
  split at hvalid
  · next hq => exact mem_windows_of_windowPlacement hq
  · contradiction

/-! ## Runs -/

/-- What every reachable policy satisfies. -/
structure Managed (tags : List WorkspaceId) (p : Policy) : Prop extends Consistent tags p where
  anchors : ∀ wid : WindowId, wid ∈ p.pointerAnchors → wid ∈ p.windowSet.windows

/-- Every event keeps what is managed in order. -/
theorem managed_step (cfg : Config) (ev : Event) {tags : List WorkspaceId} {p : Policy}
    (hm : Managed tags p) : Managed tags (step cfg p ev) where
  toConsistent := consistent_step cfg ev hm.toConsistent
  anchors _ h := by
    have hw := mem_windows_of_anchor_validate h
    exact (frame_validatePointerState _).windowSet ▸ hw

/-- What an accepted configuration promises about its workspaces. -/
theorem workspaceIds_of_validateConfig {cfg : Config} (h : validateConfig cfg = .ok ()) :
    cfg.workspaceIds ≠ [] ∧ cfg.workspaceIds.Nodup := by
  unfold validateConfig at h
  simp only at h
  split at h
  · contradiction
  · next hids =>
    rw [not_or, not_or, not_not] at hids
    exact ⟨hids.1, hids.2.2 ▸ nodup_eraseDups _⟩

theorem windowSet_initialPolicy {cfg : Config} {first : WorkspaceId} {rest : List WorkspaceId}
    (hids : cfg.workspaceIds = first :: rest) (hnd : cfg.workspaceIds.Nodup) :
    (initialPolicy cfg).windowSet = ⟨⟨initialWorkspace cfg first, none, ⟨0, 0, 1, 1⟩⟩, [],
      rest.map (initialWorkspace cfg), []⟩ := by
  have he := eraseDups_of_nodup hnd
  rw [hids] at he
  simp only [initialPolicy, hids, he]

/-- An accepted configuration starts in order. -/
theorem managed_initialPolicy {cfg : Config} (h : validateConfig cfg = .ok ()) :
    Managed cfg.workspaceIds (initialPolicy cfg) := by
  obtain ⟨hne, hnd⟩ := workspaceIds_of_validateConfig h
  obtain ⟨first, rest, hids⟩ := List.exists_cons_of_ne_nil hne
  have hp := windowSet_initialPolicy hids hnd
  have hwork : (initialPolicy cfg).windowSet.workspaces
      = (first :: rest).map (initialWorkspace cfg) := by
    rw [hp]
    rfl
  have htags : (initialPolicy cfg).windowSet.tags = cfg.workspaceIds := by
    rw [tags, hwork, List.map_map, hids]
    exact List.map_id _
  have hwin : (initialPolicy cfg).windowSet.windows = [] := by
    rw [windows, hwork]
    simp [initialWorkspace, Stack.integrate', List.flatMap_map]
  have hscreens : (initialPolicy cfg).windowSet.screens.map Screen.screen = [none] := by
    rw [hp]
    rfl
  have hempty : (initialPolicy cfg).outputs.isEmpty := Std.ExtTreeMap.isEmpty_empty
  exact {
    wellFormed := ⟨htags ▸ hnd, hscreens ▸ List.nodup_singleton _, hwin ▸ List.nodup_nil⟩
    tags_perm := List.Perm.of_eq htags
    zero_not_mem := by rw [hwin]; exact List.not_mem_nil
    metadata := fun wid => by
      rw [hwin]
      exact iff_of_false Std.ExtTreeMap.not_mem_empty List.not_mem_nil
    sizes := fun wid hw => absurd hw Std.ExtTreeMap.not_mem_empty
    screens := ⟨fun _ => hscreens, fun hne => absurd hempty hne, fun hne => absurd hempty hne⟩
    ratios := fun w hw => by
      rw [hwork] at hw
      obtain ⟨i, -, rfl⟩ := List.mem_map.mp hw
      exact clampRatio_bounded _
    anchors := fun wid hw => absurd hw Std.ExtTreeMap.not_mem_empty }

/-- Reachable policies are in order. -/
theorem managed_of_reachable {cfg : Config} {p : Policy} (h : Reachable cfg p) :
    Managed cfg.workspaceIds p := by
  induction h with
  | initial hcfg => exact managed_initialPolicy hcfg
  | event ev _ ih => exact managed_step _ ev ih
  | reload _ _ hids ih => rw [hids]; exact ih

/-- **Consistency of every run**: whatever is reported and requested, tags, windows,
metadata, screens, outputs and ratios fit together. -/
theorem consistent_runEvents (cfg : Config) (hcfg : validateConfig cfg = .ok ())
    (evs : List Event) :
    let p := runEvents cfg evs (initialPolicy cfg)
    p.windowSet.tags.Perm cfg.workspaceIds
      ∧ p.windowSet.windows.Nodup ∧ 0 ∉ p.windowSet.windows
      ∧ (∀ wid : WindowId, wid ∈ p.windowMetadata ↔ wid ∈ p.windowSet.windows)
      ∧ (∀ wid : WindowId, wid ∈ p.pointerActualSizes → wid ∈ p.windowSet.windows)
      ∧ (∀ wid : WindowId, wid ∈ p.pointerAnchors → wid ∈ p.windowSet.windows)
      ∧ (p.outputs = ∅ → p.windowSet.screens.map Screen.screen = [none])
      ∧ (p.outputs ≠ ∅ →
        p.windowSet.screens.length = min p.outputs.size p.windowSet.workspaces.length
          ∧ (p.windowSet.screens.map Screen.screen).Nodup
          ∧ ∀ sc ∈ p.windowSet.screens, ∃ oid,
            sc.screen = some oid ∧ p.outputs[oid]? = some sc.screenDetail)
      ∧ ∀ w ∈ p.windowSet.workspaces, 1 / 10 ≤ w.layout.masterRatio ∧ w.layout.masterRatio ≤ 9 / 10 := by
  intro p
  have hm : Managed cfg.workspaceIds p := managed_of_reachable (reachable_runEvents hcfg evs)
  refine ⟨hm.tags_perm, hm.wellFormed.windows_nodup, hm.zero_not_mem, hm.metadata, hm.sizes,
    hm.anchors, ?_, ?_, hm.ratios⟩
  · intro he
    exact hm.screens.virtual (Std.ExtTreeMap.isEmpty_iff.mpr he)
  · intro hne
    have hout : ¬p.outputs.isEmpty := fun he => hne (Std.ExtTreeMap.isEmpty_iff.mp he)
    exact ⟨hm.screens.count hout, hm.wellFormed.screens_nodup, hm.screens.live hout⟩

/-- A window on one output. -/
theorem consistent_runEvents_default :
    let p := runEvents defaultConfig [.outputUpsert 3 ⟨0, 0, 800, 600⟩, .windowAdded 7,
      .actionRequested (.shift 2)] (initialPolicy defaultConfig)
    p.windowSet.windows.Nodup ∧ 0 ∉ p.windowSet.windows := by
  have h := consistent_runEvents defaultConfig validateConfig_defaultConfig
    [.outputUpsert 3 ⟨0, 0, 800, 600⟩, .windowAdded 7, .actionRequested (.shift 2)]
  exact ⟨h.2.1, h.2.2.1⟩

end XmonadWayland
