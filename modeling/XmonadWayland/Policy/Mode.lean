import XmonadWayland.Policy.Grab

/-!
# XmonadWayland.Policy.Mode

The picker mode and the overlay of its letters.  An event emits at most one picker
effect, and the mode it leaves is the picker mode exactly when that effect shows the
overlay (`PickerStep`); so over a whole run the last picker effect tells the mode.  The
configuration may still enter the picker mode without an overlay, by an explicit
`enterMode`.  An action that the picker swallows has been prepared by then: where it
places the focused window, its anchor turns into a float rectangle.
-/

namespace XmonadWayland

/-! ## Picker effects -/

def Effect.isPicker : Effect → Bool
  | .showPicker _ => true
  | .hidePicker => true
  | _ => false

/-- What an event does to the mode and to the overlay. -/
inductive PickerStep (ev : Event) (mode mode' : BindingMode) (effects : List Effect) : Prop
  | kept : (mode' = .pickerMode ↔ mode = .pickerMode) → (∀ e ∈ effects, e.isPicker = false) →
      PickerStep ev mode mode' effects
  | shown (candidates : List (Char × Rect)) : ev = .actionRequested .pick → mode' = .pickerMode →
      effects = [.showPicker candidates] → PickerStep ev mode mode' effects
  | hidden : mode' ≠ .pickerMode → effects = [.hidePicker] → PickerStep ev mode mode' effects

/-- Nothing happens. -/
theorem PickerStep.same {ev : Event} {mode mode' : BindingMode} (h : mode' = mode) :
    PickerStep ev mode mode' [] :=
  .kept (h ▸ Iff.rfl) nofun

/-- A run to a policy, with its events and the effects they had, oldest first. -/
inductive Traced : Config → Policy → List Event → List Effect → Prop
  | initial {cfg : Config} : validateConfig cfg = .ok () → Traced cfg (initialPolicy cfg) [] []
  | event {cfg : Config} {p : Policy} {evs : List Event} {effects : List Effect} (ev : Event) :
      Traced cfg p evs effects →
      Traced cfg (step cfg p ev) (evs ++ [ev]) (effects ++ (handleEvent cfg ev p).2)
  | reload {cfg cfg' : Config} {p : Policy} {evs : List Event} {effects : List Effect} :
      Traced cfg p evs effects → validateConfig cfg' = .ok () →
      cfg'.workspaceIds = cfg.workspaceIds → Traced cfg' p evs effects

/-- Such a run reaches a reachable policy. -/
theorem Traced.reachable {cfg : Config} {p : Policy} {evs : List Event} {effects : List Effect}
    (h : Traced cfg p evs effects) : Reachable cfg p := by
  induction h with
  | initial hcfg => exact .initial hcfg
  | event ev _ ih => exact ih.event ev
  | reload _ hcfg hids ih => exact ih.reload hcfg hids

/-- A session that is not locked, with the picker closed: every action is handled. -/
structure Open (p : Policy) : Prop where
  unlocked : p.sessionLocked = false
  mode : p.activeMode ≠ .pickerMode

/-- Pointer bookkeeping leaves a session open. -/
theorem Open.frame {p p' : Policy} (h : Open p) (hframe : PointerFrame p p') : Open p' :=
  ⟨hframe.sessionLocked.trans h.unlocked, hframe.activeMode ▸ h.mode⟩

/-- In an open session every action is handled. -/
theorem requestAction_of_open (cfg : Config) (action : Action) {p : Policy} (h : Open p) :
    requestAction cfg action p = handleAction cfg action p := by
  unfold requestAction
  rw [if_neg (by simp [h.unlocked])]
  cases action <;> first
    | rfl
    | exact if_neg h.mode

/-- An action prepares the pointer, is handled, and finishes. -/
theorem step_action (cfg : Config) (action : Action) {p : Policy} (h : Open p) :
    step cfg p (.actionRequested action) = validatePointerState (settleAnchors
      (preparePointerAction p action) (handleAction cfg action (preparePointerAction p action)).1) := by
  have hq := h.frame (frame_preparePointerAction action p)
  simp only [step, handleEvent, preparePointerEvent, handleOrdinaryEvent,
    requestAction_of_open cfg action hq]

/-- What an action does to the windows is what its handler does. -/
theorem windowSet_step_action (cfg : Config) (action : Action) {p : Policy} (h : Open p) :
    (step cfg p (.actionRequested action)).windowSet
      = (handleAction cfg action (preparePointerAction p action)).1.windowSet := by
  rw [step_action cfg action h]
  exact (frame_finish _ _).windowSet

/-- An action other than those that change the mode leaves the session open. -/
theorem Open.step (cfg : Config) {action : Action} (haction : action.isModal = false) {p : Policy}
    (h : Open p) : Open (step cfg p (.actionRequested action)) := by
  have hq := h.frame (frame_preparePointerAction action p)
  obtain ⟨ws, md, hnext⟩ := steady_handleAction cfg haction (preparePointerAction p action)
  have hopen : Open { preparePointerAction p action with windowSet := ws, windowMetadata := md } :=
    ⟨hq.unlocked, hq.mode⟩
  rw [step_action cfg action h, hnext]
  exact hopen.frame (frame_finish _ _)

/-! ## Actions while the picker is open -/

/-- The actions of the picker itself. -/
def Action.isPicker : Action → Bool
  | .pick => true
  | .pickCandidate _ => true
  | .pickCancel => true
  | _ => false

end XmonadWayland
