import XmonadWayland.Policy.Visible

/-!
# XmonadWayland.Policy.Client

A client can neither switch nor reveal a workspace.  Whatever window events arrive,
each output displays the workspace it did.  The current screen changes only on a
request about a window that was visible, to the screen that shows it; moving a
transient family looks at other workspaces on the way but always comes back.
-/

namespace XmonadWayland

open StackSet

/-- Events a client causes. -/
def Event.isClient : Event → Bool
  | .windowAdded _ => true
  | .windowRemoved _ => true
  | .windowParent _ _ => true
  | .windowSizeHints _ _ _ _ _ => true
  | .windowFullscreen _ _ => true
  | .windowAppId _ _ => true
  | .windowTitle _ _ => true
  | .windowActualSize _ _ _ => true
  | .focusRequested _ => true
  | .pointerStarted _ _ _ _ _ => true
  | .pointerMoved _ _ _ => true
  | .pointerReleased _ => true
  | .pointerCancelled _ => true
  | _ => false

/-- The window an event may ask to focus. -/
def Event.requestsFocus : Event → Option WindowId
  | .focusRequested wid => some wid
  | .pointerStarted _ wid _ _ _ => some wid
  | .windowFullscreen wid _ => some wid
  | _ => none

/-- A visible window is on a screen. -/
theorem exists_screen_of_visible {p : Policy} (hs : p.windowSet.WellFormed) {wid : WindowId}
    (h : wid ∈ visibleWindows p) :
    ∃ sc ∈ p.windowSet.screens, wid ∈ Stack.integrate' sc.workspace.stack := by
  obtain ⟨v, hv⟩ := (mem_visibleWindows hs).mp h
  obtain ⟨sc, hsc, hmem⟩ := (getElem?_rectangles hs).mp hv
  exact ⟨sc, hsc, mem_stack_of_screenRects hmem⟩

/-- What a client event may do to the display. -/
inductive ClientStep (p : Policy) (focus : Option WindowId) : WindowSet → Prop
  | same (s : WindowSet) : SameDisplay p.windowSet s → ClientStep p focus s
  | raise (wid : WindowId) : focus = some wid → wid ∈ visibleWindows p →
      ClientStep p focus (p.windowSet.focusWindow wid)

theorem ClientStep.refl (p : Policy) (focus : Option WindowId) :
    ClientStep p focus p.windowSet := .same _ (SameDisplay.refl _)

/-- Starting an operation focuses the window, if it was visible, or changes nothing. -/
theorem windowSet_startPointer {p : Policy} (hs : p.windowSet.WellFormed) (sid : SeatId)
    (wid : WindowId) (edges : Nat) (x y : Int) :
    (startPointer sid wid edges x y p).windowSet = p.windowSet
      ∨ wid ∈ visibleWindows p
        ∧ (startPointer sid wid edges x y p).windowSet = p.windowSet.focusWindow wid := by
  unfold startPointer
  split
  · exact Or.inl rfl
  · split
    · next hq _ _ =>
      split
      · have hvis : wid ∈ visibleWindows p := by
          rw [windowPlacement_eq hs] at hq
          obtain ⟨v, hv, -⟩ := Option.map_eq_some_iff.mp hq
          exact (mem_visibleWindows hs).mpr ⟨v, hv⟩
        have hframe := frame_materializeAnchor wid p
        exact Or.inr ⟨hvis, congrArg (StackSet.focusWindow wid) hframe.windowSet⟩
      · exact Or.inl rfl
    · exact Or.inl rfl

/-- Starting an operation is what a client may do. -/
theorem clientStep_startPointer {p : Policy} (hs : p.windowSet.WellFormed) (sid : SeatId)
    (wid : WindowId) (edges : Nat) (x y : Int) :
    ClientStep p (some wid) (startPointer sid wid edges x y p).windowSet := by
  rcases windowSet_startPointer hs sid wid edges x y with hsame | ⟨hvis, hfocus⟩
  · rw [hsame]
    exact .refl p _
  · rw [hfocus]
    exact .raise wid rfl hvis

/-- The handler's part of a client event. -/
theorem clientStep_handleOrdinaryEvent (cfg : Config) {ev : Event} {p : Policy}
    (hs : p.windowSet.WellFormed) (hev : ev.isClient) :
    ClientStep p ev.requestsFocus (handleOrdinaryEvent cfg ev p).1.windowSet := by
  cases ev with
  | windowAdded wid =>
      simp only [handleOrdinaryEvent]
      split
      · exact .refl p _
      · exact .same _ (SameDisplay.of_bare (bare_insertUp wid _))
  | windowRemoved wid => exact .same _ (sameDisplay_delete wid _)
  | windowParent wid parent =>
      simp only [handleOrdinaryEvent, setParent]
      split
      · exact .refl p _
      · split
        · exact .same _ (foldr_shiftWin_spec hs _ _).1
        · exact .refl p _
  | windowFullscreen wid enabled =>
      simp only [handleOrdinaryEvent]
      split
      · next h => exact .raise wid rfl h.2.2
      · exact .refl p _
  | focusRequested wid =>
      simp only [handleOrdinaryEvent]
      split
      · next h => exact .raise wid rfl h.2
      · exact .refl p _
  | pointerStarted sid wid edges x y =>
      simp only [handleOrdinaryEvent]
      split
      · exact .refl p _
      · exact clientStep_startPointer hs sid wid edges x y
  | pointerMoved sid dx dy =>
      exact (frame_movePointer sid dx dy p).windowSet ▸ .refl p _
  | pointerReleased sid => exact (frame_endPointer sid p).windowSet ▸ .refl p _
  | pointerCancelled sid => exact (frame_endPointer sid p).windowSet ▸ .refl p _
  | windowSizeHints wid a b c d => exact .refl p _
  | windowActualSize wid width height =>
      simp only [handleOrdinaryEvent]
      split <;> exact .refl p _
  | windowAppId wid text =>
      simp only [handleOrdinaryEvent, recordText]
      split <;> exact .refl p _
  | windowTitle wid text =>
      simp only [handleOrdinaryEvent, recordText]
      split <;> exact .refl p _
  | _ => contradiction

/-- **Clients switch no workspace**: every output displays what it did, and the
current screen changes only to the one showing a visible window the event is about. -/
theorem client_keeps_display {cfg : Config} {p : Policy} (h : Reachable cfg p) {ev : Event}
    (hev : ev.isClient) :
    let p' := step cfg p ev
    (p'.windowSet.screens.map shown).Perm (p.windowSet.screens.map shown)
      ∧ (shown p'.windowSet.current = shown p.windowSet.current
        ∨ ∃ wid, ev.requestsFocus = some wid ∧ wid ∈ visibleWindows p
          ∧ ∃ sc ∈ p.windowSet.screens, wid ∈ Stack.integrate' sc.workspace.stack
            ∧ shown p'.windowSet.current = shown sc) := by
  intro p'
  have hs := (managed_of_reachable h).wellFormed
  have hprep := frame_preparePointerEvent ev p
  have hfin := frame_finish (preparePointerEvent ev p)
    (handleOrdinaryEvent cfg ev (preparePointerEvent ev p)).1
  have hstep := clientStep_handleOrdinaryEvent cfg (hprep.windowSet ▸ hs) hev
  have hp' : p'.windowSet
      = (handleOrdinaryEvent cfg ev (preparePointerEvent ev p)).1.windowSet := hfin.windowSet
  rw [hp']
  generalize (handleOrdinaryEvent cfg ev (preparePointerEvent ev p)).1.windowSet = s at hstep ⊢
  cases hstep with
  | same _ hsame =>
      rw [hprep.windowSet] at hsame
      exact ⟨hsame.shown_perm, Or.inl hsame.current⟩
  | raise wid hfocus hvis =>
      have hvisible := (visibleWindows_frame hs hprep).mp hvis
      obtain ⟨sc, hsc, hmem⟩ := exists_screen_of_visible hs hvisible
      rw [hprep.windowSet]
      obtain ⟨hshown, hcur⟩ := shown_focusWindow hs hsc hmem
      exact ⟨hshown, Or.inr ⟨wid, hfocus, hvisible, sc, hsc, hmem, hcur⟩⟩

/-- A client's request leaves the display alone. -/
theorem client_keeps_display_default :
    let p := runEvents defaultConfig [.outputUpsert 1 ⟨0, 0, 800, 600⟩, .windowAdded 7,
      .actionRequested (.shift 4), .windowAdded 8] (initialPolicy defaultConfig)
    ((step defaultConfig p (.windowParent 8 (some 7))).windowSet.screens.map shown).Perm
      (p.windowSet.screens.map shown) :=
  (client_keeps_display (reachable_runEvents validateConfig_defaultConfig
    [.outputUpsert 1 ⟨0, 0, 800, 600⟩, .windowAdded 7, .actionRequested (.shift 4),
      .windowAdded 8]) (rfl : (Event.windowParent 8 (some 7)).isClient = true)).1

end XmonadWayland
