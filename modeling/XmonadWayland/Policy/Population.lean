import XmonadWayland.Policy.Invariant

/-!
# XmonadWayland.Policy.Population

Which windows and outputs a policy has after an event.  Windows come and go with their
own two events, outputs with theirs; everything else leaves both populations alone.
-/

namespace XmonadWayland

open StackSet

/-- Whether a window is managed after an event. -/
def Event.manages (wid : WindowId) (managed : Prop) : Event → Prop
  | .windowAdded wid' => managed ∨ wid' = wid ∧ wid ≠ 0
  | .windowRemoved wid' => managed ∧ wid' ≠ wid
  | _ => managed

/-- The rectangle of an output after an event. -/
def Event.places (oid : OutputId) (known : Option Rect) : Event → Option Rect
  | .outputUpsert oid' rect => if oid' = oid then some (positive rect) else known
  | .outputRemoved oid' => if oid' = oid then none else known
  | _ => known

/-- Events that neither add nor remove the window. -/
theorem manages_of_ne {ev : Event} {wid : WindowId} (hadd : ev ≠ .windowAdded wid)
    (hremove : ev ≠ .windowRemoved wid) (managed : Prop) : ev.manages wid managed ↔ managed := by
  cases ev with
  | windowAdded wid' => exact or_iff_left fun h => hadd (by rw [h.1])
  | windowRemoved wid' => exact and_iff_left fun h => hremove (by rw [h])
  | _ => exact Iff.rfl

/-- Events that neither place nor remove the output. -/
theorem places_of_ne {ev : Event} {oid : OutputId} (hplace : ∀ rect, ev ≠ .outputUpsert oid rect)
    (hremove : ev ≠ .outputRemoved oid) (known : Option Rect) : ev.places oid known = known := by
  cases ev with
  | outputUpsert oid' rect => exact if_neg fun h => hplace rect (by rw [h])
  | outputRemoved oid' => exact if_neg fun h => hremove (by rw [h])
  | _ => rfl

/-- New outputs neither add nor lose a window. -/
theorem mem_windows_reconcile (newOutputs : Map OutputId Rect) (p : Policy) (wid : WindowId) :
    wid ∈ (reconcile newOutputs p).windowSet.windows ↔ wid ∈ p.windowSet.windows :=
  ((workspaces_rebuild_perm newOutputs p.windowSet).flatMap_right _).mem_iff

/-- The windows the handler of an event leaves. -/
theorem mem_windows_handleOrdinaryEvent (cfg : Config) {ev : Event} {p : Policy}
    (hs : p.windowSet.WellFormed) (wid : WindowId) :
    wid ∈ (handleOrdinaryEvent cfg ev p).1.windowSet.windows
      ↔ ev.manages wid (wid ∈ p.windowSet.windows) := by
  by_cases hev : ev.isLifecycle
  · cases ev with
    | outputUpsert oid rect => exact mem_windows_reconcile _ p wid
    | outputRemoved oid => exact mem_windows_reconcile _ _ wid
    | windowAdded wid' =>
        simp only [handleOrdinaryEvent, Event.manages]
        split
        · next h =>
          refine ⟨Or.inl, fun hm => hm.elim id fun hnew => ?_⟩
          rcases h with hzero | hmem
          · exact absurd (hnew.1.symm.trans hzero) hnew.2
          · exact hnew.1 ▸ member_iff.mp hmem
        · next h =>
          rw [not_or, member_iff] at h
          rw [(windows_insertUp_perm h.2).mem_iff, List.mem_cons, or_comm]
          refine or_congr Iff.rfl ⟨fun heq => ⟨heq.symm, heq ▸ h.1⟩, fun heq => heq.1.symm⟩
    | windowRemoved wid' =>
        change wid ∈ (p.windowSet.delete wid').windows ↔ _
        rw [windows_delete, List.mem_filter, decide_eq_true_eq, Event.manages]
        exact and_congr Iff.rfl ne_comm
    | _ => contradiction
  · have hsame := sameWindows_handleOrdinaryEvent cfg hs (Bool.eq_false_iff.mpr hev)
    rw [manages_of_ne (fun h => hev (by rw [h]; rfl)) fun h => hev (by rw [h]; rfl)]
    exact hsame.windowSet.windows.mem_iff

/-- Outputs come and go by their own events only. -/
theorem outputs_of_handleOrdinaryEvent (cfg : Config) {ev : Event} {p : Policy}
    (hs : p.windowSet.WellFormed) (oid : OutputId) :
    (handleOrdinaryEvent cfg ev p).1.outputs[oid]? = ev.places oid p.outputs[oid]? := by
  by_cases hev : ev.isLifecycle
  · cases ev with
    | outputUpsert oid' rect => exact getElem?_map_insert p.outputs oid' oid (positive rect)
    | outputRemoved oid' => exact getElem?_map_erase p.outputs oid' oid
    | windowAdded wid =>
        simp only [handleOrdinaryEvent]
        split <;> rfl
    | windowRemoved wid => rfl
    | _ => contradiction
  · have hsame := sameWindows_handleOrdinaryEvent cfg hs (Bool.eq_false_iff.mpr hev)
    rw [places_of_ne (fun rect h => hev (by rw [h]; rfl)) fun h => hev (by rw [h]; rfl),
      hsame.outputs]

/-- Bookkeeping before and after the handler touches neither population. -/
theorem populations_step {cfg : Config} {p : Policy} (h : Reachable cfg p) (ev : Event) :
    ∃ p' : Policy, p'.windowSet = p.windowSet ∧ p'.outputs = p.outputs ∧ p'.windowSet.WellFormed
      ∧ (step cfg p ev).windowSet = (handleOrdinaryEvent cfg ev p').1.windowSet
      ∧ (step cfg p ev).outputs = (handleOrdinaryEvent cfg ev p').1.outputs := by
  have hprep := frame_preparePointerEvent ev p
  have hc := (managed_of_reachable h).toConsistent.frame hprep
  have hfinish := frame_finish (preparePointerEvent ev p)
    (handleOrdinaryEvent cfg ev (preparePointerEvent ev p)).1
  exact ⟨_, hprep.windowSet, hprep.outputs, hc.wellFormed, hfinish.windowSet, hfinish.outputs⟩

/-- The windows after an event. -/
theorem mem_windows_step {cfg : Config} {p : Policy} (h : Reachable cfg p) (ev : Event)
    (wid : WindowId) : wid ∈ (step cfg p ev).windowSet.windows
      ↔ ev.manages wid (wid ∈ p.windowSet.windows) := by
  obtain ⟨p', hws, -, hwell, hstep, -⟩ := populations_step h ev
  rw [hstep, mem_windows_handleOrdinaryEvent cfg hwell, hws]

/-- The outputs after an event. -/
theorem outputs_step {cfg : Config} {p : Policy} (h : Reachable cfg p) (ev : Event)
    (oid : OutputId) : (step cfg p ev).outputs[oid]? = ev.places oid p.outputs[oid]? := by
  obtain ⟨p', -, hout, hwell, -, hstep⟩ := populations_step h ev
  rw [hstep, outputs_of_handleOrdinaryEvent cfg hwell, hout]

end XmonadWayland
