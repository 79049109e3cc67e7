import XmonadWayland.Policy.Client
import XmonadWayland.Policy.Refocus

/-!
# XmonadWayland.Policy.Focusing

Focusing never rearranges.  Whichever way the focus is moved, by an action, a click, a
pointer operation or a window that goes fullscreen, the window set turns the current stack,
focuses a displayed window or views a workspace.  None of these changes the order of the
windows of any workspace or a layout, and only viewing a hidden workspace changes what an
output displays (`FocusStep`).
-/

namespace XmonadWayland

open StackSet

/-- Actions that move the focus. -/
def Action.isFocus : Action → Bool
  | .focusNext => true
  | .focusPrevious => true
  | .focusDirection _ => true
  | .focusModeToggle => true
  | .focusNextOutput => true
  | .focusPreviousOutput => true
  | .view _ => true
  | _ => false

/-- Events that move the focus. -/
def Event.isFocus : Event → Bool
  | .actionRequested action => action.isFocus
  | .focusRequested _ => true
  | .pointerStarted _ _ _ _ _ => true
  | .windowFullscreen _ _ => true
  | _ => false

/-! ## Moving the focus -/

/-- Turning the current stack. -/
theorem sameOrders_turn {f : Stack WindowId → Stack WindowId}
    (hf : ∀ st, (f st).integrate = st.integrate) (s : WindowSet) :
    SameOrders s (s.modify' f) where
  shown := (SameDisplay.of_bare (bare_modify' f s)).shown_perm
  labels := (SameDisplay.of_bare (bare_modify' f s)).labels_perm
  orders tag := by
    rw [StackSet.orderOf, stackOf_modify']
    split
    · next htag =>
      rw [htag, StackSet.orderOf, stackOf_currentTag]
      cases s.current.workspace.stack with
      | none => rfl
      | some st => exact hf st
    · rfl

/-- Focusing a visible window. -/
theorem sameOrders_visible {p : Policy} (hs : p.windowSet.WellFormed) {wid : WindowId}
    (h : wid ∈ visibleWindows p) : SameOrders p.windowSet (p.windowSet.focusWindow wid) := by
  obtain ⟨sc, hsc, hwid⟩ := exists_screen_of_visible hs h
  exact sameOrders_focusWindow hs hsc hwid

/-- Starting an operation keeps all orders. -/
theorem sameOrders_startPointer {p : Policy} (hs : p.windowSet.WellFormed) (sid : SeatId)
    (wid : WindowId) (edges : Nat) (x y : Int) :
    SameOrders p.windowSet (startPointer sid wid edges x y p).windowSet := by
  rcases windowSet_startPointer hs sid wid edges x y with hsame | ⟨hvis, hfocus⟩
  · rw [hsame]
    exact SameOrders.refl _
  · rw [hfocus]
    exact sameOrders_visible hs hvis

/-- The window of the other mode is on the current workspace. -/
theorem sameOrders_focusOtherMode {p : Policy} (hs : p.windowSet.WellFormed) :
    SameOrders p.windowSet (focusOtherMode p).windowSet := by
  unfold focusOtherMode
  cases hstack : p.windowSet.current.workspace.stack with
  | none => exact SameOrders.refl _
  | some stack =>
      simp only
      cases hfound : (stack.up ++ stack.down).filter
          fun wid => isFloat p wid ≠ isFloat p stack.focus with
      | nil => exact SameOrders.refl _
      | cons wid rest =>
          have hmem : wid ∈ stack.up ++ stack.down :=
            (List.mem_filter.mp (hfound ▸ List.mem_cons_self)).1
          refine sameOrders_focusWindow hs p.windowSet.current_mem_screens ?_
          rw [hstack, Stack.integrate', Stack.mem_integrate]
          exact Or.inr (List.mem_append.mp hmem)

/-- The next output is displayed. -/
theorem sameOrders_focusOutput {s : WindowSet} (hs : s.WellFormed) (direction : Int) :
    SameOrders s (focusOutput direction s) := by
  unfold focusOutput
  simp only
  split
  · split
    · next sc hsc =>
      have hmem := (List.perm_insertionSort _ _).mem_iff.mp (List.mem_of_getElem? hsc)
      exact sameOrders_view hs (List.mem_filter.mp hmem).1
    · exact SameOrders.refl s
  · exact SameOrders.refl s

/-! ## One step -/

/-- What an event that moves the focus can do. -/
inductive FocusStep (s : WindowSet) (ev : Event) : WindowSet → Prop
  | displayed {s' : WindowSet} : SameOrders s s' → FocusStep s ev s'
  | unhide (w : WindowWorkspace) : w ∈ s.hidden → ev = .actionRequested (.view w.tag) →
      FocusStep s ev (s.view w.tag)

theorem FocusStep.refl (s : WindowSet) (ev : Event) : FocusStep s ev s :=
  .displayed (SameOrders.refl s)

/-- A tag is displayed, hidden or unknown. -/
theorem focusStep_view {s : WindowSet} (hs : s.WellFormed) (tag : WorkspaceId) :
    FocusStep s (.actionRequested (.view tag)) (s.view tag) := by
  by_cases hscreen : ∃ sc ∈ s.screens, sc.workspace.tag = tag
  · obtain ⟨sc, hsc, rfl⟩ := hscreen
    exact .displayed (sameOrders_view hs hsc)
  · by_cases hhidden : ∃ w ∈ s.hidden, w.tag = tag
    · obtain ⟨w, hw, rfl⟩ := hhidden
      exact .unhide w hw rfl
    · have hstep := viewStep hs tag
      generalize StackSet.view tag s = s' at hstep ⊢
      cases hstep with
      | same => exact .refl s _
      | raise x rest htag hne hperm =>
          exact absurd ⟨x, List.mem_cons_of_mem _ (hperm.mem_iff.mpr List.mem_cons_self), htag⟩ hscreen
      | unhide x rest htag hne hvis hperm =>
          exact absurd ⟨x, hperm.mem_iff.mpr List.mem_cons_self, htag⟩ hhidden

/-- A focus action moves the focus only. -/
theorem focusStep_handleAction (cfg : Config) {action : Action} {p : Policy}
    (hs : p.windowSet.WellFormed) (haction : action.isFocus) :
    FocusStep p.windowSet (.actionRequested action) (handleAction cfg action p).1.windowSet := by
  cases action with
  | focusNext => exact .displayed (sameOrders_turn Stack.integrate_focusDown' _)
  | focusPrevious => exact .displayed (sameOrders_turn Stack.integrate_focusUp' _)
  | focusDirection direction => exact .displayed (refocused_focusDirection hs direction).orders
  | focusModeToggle => exact .displayed (sameOrders_focusOtherMode hs)
  | focusNextOutput => exact .displayed (sameOrders_focusOutput hs 1)
  | focusPreviousOutput => exact .displayed (sameOrders_focusOutput hs (-1))
  | view tag => exact focusStep_view hs tag
  | _ => contradiction

/-- So does every focus event. -/
theorem focusStep_handleOrdinaryEvent (cfg : Config) {ev : Event} {p : Policy}
    (hs : p.windowSet.WellFormed) (hev : ev.isFocus) :
    FocusStep p.windowSet ev (handleOrdinaryEvent cfg ev p).1.windowSet := by
  cases ev with
  | actionRequested action =>
      simp only [handleOrdinaryEvent, requestAction]
      split
      · exact .refl _ _
      · split
        -- the picker's own actions do not move the focus
        · contradiction
        · contradiction
        · contradiction
        · split
          · exact .refl _ _
          · exact focusStep_handleAction cfg hs hev
  | focusRequested wid =>
      simp only [handleOrdinaryEvent]
      split
      · next h => exact .displayed (sameOrders_visible hs h.2)
      · exact .refl _ _
  | pointerStarted sid wid edges x y =>
      simp only [handleOrdinaryEvent]
      split
      · exact .refl _ _
      · exact .displayed (sameOrders_startPointer hs sid wid edges x y)
  | windowFullscreen wid enabled =>
      simp only [handleOrdinaryEvent]
      split
      · next h => exact .displayed (sameOrders_visible hs h.2.2)
      · exact .refl _ _
  | _ => contradiction

/-- **Focusing never rearranges**: every workspace keeps the order of its windows and its
layout, and every output displays what it did unless a hidden workspace is viewed. -/
theorem focusing_keeps_orders {cfg : Config} {p : Policy} (h : Reachable cfg p) {ev : Event}
    (hev : ev.isFocus) :
    let p' := step cfg p ev
    (∀ tag, orderOf tag p'.windowSet = orderOf tag p.windowSet)
      ∧ (p'.windowSet.workspaces.map label).Perm (p.windowSet.workspaces.map label)
      ∧ ((∀ w ∈ p.windowSet.hidden, ev ≠ .actionRequested (.view w.tag)) →
        (p'.windowSet.screens.map shown).Perm (p.windowSet.screens.map shown)) := by
  intro p'
  have hs := (managed_of_reachable h).wellFormed
  have hprep := frame_preparePointerEvent ev p
  have hset : p'.windowSet
      = (handleOrdinaryEvent cfg ev (preparePointerEvent ev p)).1.windowSet :=
    (frame_finish _ _).windowSet
  have hstep := focusStep_handleOrdinaryEvent cfg (hprep.windowSet ▸ hs) hev
  rw [hprep.windowSet, ← hset] at hstep
  generalize p'.windowSet = s' at hstep ⊢
  cases hstep with
  | displayed hsame => exact ⟨hsame.orders, hsame.labels, fun _ => hsame.shown⟩
  | unhide w hw hview =>
      refine ⟨fun tag => ?_, (rearranged_view hs _).labels, fun hnot => absurd hview (hnot w hw)⟩
      rw [StackSet.orderOf, StackSet.orderOf, stackOf_view hs]

/-- Three windows on one workspace, the focus moved past the last one. -/
theorem focusing_keeps_orders_wraps :
    let p := runEvents defaultConfig [.outputUpsert 1 ⟨0, 0, 800, 600⟩, .windowAdded 1,
      .windowAdded 2, .windowAdded 3] (initialPolicy defaultConfig)
    let p' := step defaultConfig p (.actionRequested .focusPrevious)
    p.windowSet.peek = some 3 ∧ p'.windowSet.peek = some 1
      ∧ orderOf 1 p'.windowSet = [3, 2, 1] := by
  intro p p'
  have horder : orderOf 1 p.windowSet = [3, 2, 1] := by decide +kernel
  have hreach : Reachable defaultConfig p := reachable_runEvents validateConfig_defaultConfig _
  have hkept := (focusing_keeps_orders hreach
    (rfl : (Event.actionRequested .focusPrevious).isFocus = true)).1
  exact ⟨by decide +kernel, by decide +kernel, (hkept 1).trans horder⟩

end XmonadWayland
