import XmonadWayland.Policy.Mode

/-!
# XmonadWayland.Policy.Click

Clicks while the picker is open.  A click that starts a pointer operation cancels the
picker.  A plain click reaches the policy as `focusRequested`, whose handler does not look
at the mode: it moves the focus at most, and the picker stays open.
-/

namespace XmonadWayland

open StackSet

/-- The ways a click on a window arrives: as a plain click, or as the start of a pointer
operation. -/
inductive Click (w : WindowId) : Event → Prop
  | plain : Click w (.focusRequested w)
  | grab (sid : SeatId) (edges : Nat) (x y : Int) : Click w (.pointerStarted sid w edges x y)

/-- Every workspace with its layout and the order of its windows. -/
def orders (s : WindowSet) : List (WorkspaceId × LayoutState × List WindowId) :=
  s.workspaces.map fun ws => (ws.tag, ws.layout, Stack.integrate' ws.stack)

/-- The event ends the picker: the overlay is hidden, and no order and no layout changes. -/
structure CancelsPicker (cfg : Config) (p : Policy) (ev : Event) : Prop where
  mode : (handleEvent cfg ev p).1.activeMode = .normalMode
  effects : (handleEvent cfg ev p).2 = [.hidePicker]
  orders : (orders (handleEvent cfg ev p).1.windowSet).Perm (orders p.windowSet)

/-- A pointer start leaves the windows alone while the picker is open. -/
theorem cancelsPicker_pointerStarted (cfg : Config) {p : Policy} (hmode : p.activeMode = .pickerMode)
    (sid : SeatId) (w : WindowId) (edges : Nat) (x y : Int) :
    CancelsPicker cfg p (.pointerStarted sid w edges x y) := by
  have hnext : handleOrdinaryEvent cfg (.pointerStarted sid w edges x y) p = cancelPicker p := by
    rw [handleOrdinaryEvent, if_pos hmode]
  have hfin := frame_finish p (cancelPicker p).1
  have hevent : handleEvent cfg (.pointerStarted sid w edges x y) p
      = (validatePointerState (settleAnchors p (cancelPicker p).1), [.hidePicker]) := by
    simp only [handleEvent, preparePointerEvent, hnext]
    rfl
  refine ⟨?_, by rw [hevent], ?_⟩
  · rw [hevent]
    exact hfin.activeMode
  · rw [hevent, hfin.windowSet]
    exact List.Perm.refl _

/-- A plain click has no effect and keeps the mode. -/
theorem focusRequested_keeps_mode (cfg : Config) (p : Policy) (w : WindowId) :
    (handleEvent cfg (.focusRequested w) p).1.activeMode = p.activeMode
      ∧ (handleEvent cfg (.focusRequested w) p).2 = [] := by
  have hprep := frame_preparePointerEvent (.focusRequested w) p
  have hnext : ∀ q : Policy, (handleOrdinaryEvent cfg (.focusRequested w) q).1.activeMode
      = q.activeMode ∧ (handleOrdinaryEvent cfg (.focusRequested w) q).2 = [] := by
    intro q
    simp only [handleOrdinaryEvent]
    split <;> exact ⟨rfl, rfl⟩
  have hfin := frame_finish (preparePointerEvent (.focusRequested w) p)
    (handleOrdinaryEvent cfg (.focusRequested w) (preparePointerEvent (.focusRequested w) p)).1
  exact ⟨hfin.activeMode.trans ((hnext _).1.trans hprep.activeMode), (hnext _).2⟩

/-- **Clicks in the picker**: a click on a window, visible or not, cancels the picker iff it
starts a pointer operation. -/
theorem click_cancels_iff (cfg : Config) {p : Policy} (hmode : p.activeMode = .pickerMode)
    {w : WindowId} {ev : Event} (hclick : Click w ev) : CancelsPicker cfg p ev
      ↔ ∃ sid edges x y, ev = .pointerStarted sid w edges x y := by
  cases hclick with
  | plain =>
      refine iff_of_false (fun hcancel => ?_) fun ⟨sid, edges, x, y, heq⟩ => Event.noConfusion heq
      have heffects := hcancel.effects
      rw [(focusRequested_keeps_mode cfg p w).2] at heffects
      exact List.cons_ne_nil _ _ heffects.symm
  | grab sid edges x y =>
      exact iff_of_true (cancelsPicker_pointerStarted cfg hmode sid w edges x y)
        ⟨sid, edges, x, y, rfl⟩

/-- The picker is open over three windows. -/
def pickingPolicy : Policy :=
  runEvents defaultConfig [.outputUpsert 1 ⟨0, 0, 800, 600⟩, .windowAdded 10, .windowAdded 20,
    .windowAdded 30, .actionRequested .pick] (initialPolicy defaultConfig)

/-- A press that moves window 20 cancels. -/
theorem click_cancels_iff_picking :
    CancelsPicker defaultConfig pickingPolicy (.pointerStarted 1 20 0 500 100) :=
  (click_cancels_iff defaultConfig (by decide +kernel) (.grab 1 0 500 100)).mpr
    ⟨1, 0, 500, 100, rfl⟩

/-- A plain click on a visible window moves the focus there and leaves the picker open. -/
theorem plain_click_keeps_picker :
    20 ∈ visibleWindows pickingPolicy ∧ pickingPolicy.activeMode = .pickerMode
      ∧ (handleEvent defaultConfig (.focusRequested 20) pickingPolicy).1.activeMode = .pickerMode
      ∧ (handleEvent defaultConfig (.focusRequested 20) pickingPolicy).2 = []
      ∧ (handleEvent defaultConfig (.focusRequested 20) pickingPolicy).1.windowSet.peek = some 20
      ∧ ¬CancelsPicker defaultConfig pickingPolicy (.focusRequested 20) := by
  have hmode : (handleEvent defaultConfig (.focusRequested 20) pickingPolicy).1.activeMode
      = .pickerMode := by decide +kernel
  refine ⟨by decide +kernel, by decide +kernel, hmode, by decide +kernel, by decide +kernel, ?_⟩
  intro hcancel
  have hnormal := hcancel.mode
  rw [hmode] at hnormal
  exact BindingMode.noConfusion hnormal

end XmonadWayland
