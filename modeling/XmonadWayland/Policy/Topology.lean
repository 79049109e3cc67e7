import XmonadWayland.Policy.Redelivery

/-!
# XmonadWayland.Policy.Topology

Topology that repeats what is known.  Every screen of a reachable policy carries the
rectangle of its output (`ScreensMatch`), the virtual screen the one it was created with
(`Virtual`), and a hidden workspace and a free output never coexist.  Rebuilding the
screens for the outputs that are already there is therefore the identity, and so is an
event that reports a known rectangle, work area or window.
-/

namespace XmonadWayland

open StackSet

/-! ## The virtual screen -/

/-- Without outputs there is one screen, with a rectangle of one pixel. -/
def Virtual (p : Policy) : Prop :=
  p.outputs.isEmpty → p.windowSet.screens.map frame = [(none, ⟨0, 0, 1, 1⟩)]

/-- Only where the screens are matters. -/
theorem Virtual.of_perm {p p' : Policy} (h : Virtual p)
    (hf : (p'.windowSet.screens.map frame).Perm (p.windowSet.screens.map frame))
    (ho : p'.outputs = p.outputs) : Virtual p' := by
  intro he
  rw [h (ho ▸ he)] at hf
  exact List.perm_singleton.mp hf

theorem virtual_rebuild {newOutputs : Map OutputId Rect} (s : WindowSet)
    (he : newOutputs.isEmpty) :
    (rebuild newOutputs s).screens.map frame = [(none, ⟨0, 0, 1, 1⟩)] := by
  rw [rebuild, if_pos he]
  rfl

/-- The handler keeps the screens without outputs virtual. -/
theorem virtual_handleOrdinaryEvent (cfg : Config) (ev : Event) {p : Policy}
    (hs : p.windowSet.WellFormed) (h : Virtual p) : Virtual (handleOrdinaryEvent cfg ev p).1 := by
  by_cases hev : ev.isLifecycle
  · cases ev with
    | outputUpsert oid rect => exact fun he => virtual_rebuild _ he
    | outputRemoved oid => exact fun he => virtual_rebuild _ he
    | windowAdded wid =>
        simp only [handleOrdinaryEvent]
        split
        · exact h
        · exact h.of_perm (SameDisplay.of_bare (bare_insertUp wid p.windowSet)).frames_perm rfl
    | windowRemoved wid => exact h.of_perm (sameDisplay_delete wid p.windowSet).frames_perm rfl
    | _ => contradiction
  · have hsame := sameWindows_handleOrdinaryEvent cfg hs (by simpa using hev : ev.isLifecycle = false)
    exact h.of_perm hsame.windowSet.frames hsame.outputs

/-- Pointer bookkeeping keeps them virtual. -/
theorem Virtual.frame {p p' : Policy} (h : Virtual p) (hf : PointerFrame p p') : Virtual p' :=
  h.of_perm (hf.windowSet ▸ List.Perm.refl _) hf.outputs

/-- Without outputs the screens are always virtual. -/
theorem virtual_of_reachable {cfg : Config} {p : Policy} (h : Reachable cfg p) : Virtual p := by
  induction h with
  | initial hcfg =>
      obtain ⟨hne, hnd⟩ := workspaceIds_of_validateConfig hcfg
      obtain ⟨first, rest, hids⟩ := List.exists_cons_of_ne_nil hne
      intro _
      rw [windowSet_initialPolicy hids hnd]
      rfl
  | @event cfg p ev h ih =>
      have hprep := frame_preparePointerEvent ev p
      have hs := ((managed_of_reachable h).toConsistent.frame hprep).wellFormed
      exact (virtual_handleOrdinaryEvent cfg ev hs (ih.frame hprep)).frame (frame_finish _ _)
  | reload _ _ _ ih => exact ih

/-! ## Rebuilding for the same outputs -/

/-- A screen with the rectangle of its output is not refreshed. -/
theorem refresh_self {outputs : Map OutputId Rect} {sc : OutputScreen} {oid : OutputId}
    (hid : sc.screen = some oid) (hrect : outputs[oid]? = some sc.screenDetail) :
    refresh outputs sc = sc := by
  obtain ⟨ws, i, r⟩ := sc
  subst hid
  simp only [refresh, Option.bind_some, hrect]

/-- A screen on an output there is alive. -/
theorem alive_of_live {outputs : Map OutputId Rect} {sc : OutputScreen} {oid : OutputId}
    (hid : sc.screen = some oid) (hrect : outputs[oid]? = some sc.screenDetail) :
    alive outputs sc = true := by
  simp only [alive, hid]
  exact Std.ExtTreeMap.mem_iff_contains.mp (mem_map_iff.mpr ⟨_, hrect⟩)

/-- A free output and a hidden workspace never coexist. -/
theorem assignOutputs_spare {outputs : Map OutputId Rect} {s : WindowSet} (hs : s.WellFormed)
    (hm : ScreensMatch outputs s) (he : ¬outputs.isEmpty)
    (halive : ∀ sc ∈ s.screens, alive outputs sc = true) :
    assignOutputs (freeOutputs outputs s.screens) s.hidden = [] := by
  have hfree := length_freeOutputs hs.screens_nodup halive
  have hcount := hm.count he
  rw [workspaces_eq, List.length_append, List.length_map] at hcount
  refine List.eq_nil_of_length_eq_zero ?_
  rw [length_assignOutputs]
  omega

/-- The screens of the virtual display are rebuilt as they are. -/
theorem rebuild_virtual {outputs : Map OutputId Rect} {s : WindowSet} (he : outputs.isEmpty)
    (hv : s.screens.map frame = [(none, ⟨0, 0, 1, 1⟩)]) : rebuild outputs s = s := by
  obtain ⟨⟨ws, i, r⟩, visible, hidden, floating⟩ := s
  simp only [screens, List.map_cons, List.cons.injEq, List.map_eq_nil_iff, frame,
    Prod.mk.injEq] at hv
  obtain ⟨⟨rfl, rfl⟩, rfl⟩ := hv
  rw [rebuild, if_pos he]
  rfl

/-- The screens of live outputs are rebuilt as they are. -/
theorem rebuild_live {outputs : Map OutputId Rect} {s : WindowSet} (hs : s.WellFormed)
    (hm : ScreensMatch outputs s) (he : ¬outputs.isEmpty) : rebuild outputs s = s := by
  have halive : ∀ sc ∈ s.screens, alive outputs sc = true := fun sc hsc => by
    obtain ⟨oid, hid, hrect⟩ := hm.live he sc hsc
    exact alive_of_live hid hrect
  have hrefresh : ∀ sc ∈ s.screens, refresh outputs sc = sc := fun sc hsc => by
    obtain ⟨oid, hid, hrect⟩ := hm.live he sc hsc
    exact refresh_self hid hrect
  have hret : s.screens.filter (alive outputs) = s.current :: s.visible :=
    List.filter_eq_self.mpr halive
  have hgone : s.screens.filter (fun sc => !alive outputs sc) = [] :=
    List.filter_eq_nil_iff.mpr fun sc hsc => by simp [halive sc hsc]
  have hspare := assignOutputs_spare hs hm he halive
  have hvisible : s.visible.map (refresh outputs) = s.visible :=
    (List.map_congr_left fun sc hsc => hrefresh sc (List.mem_cons_of_mem _ hsc)).trans
      (List.map_id' s.visible)
  have hrebuilt := rebuilt_rebuild outputs s
  generalize rebuild outputs s = s' at hrebuilt ⊢
  cases hrebuilt with
  | virtual hempty => exact absurd hempty he
  | fresh oid rect rest hl hnone =>
      rw [hnone] at hret
      contradiction
  | surviving cur vis free pool hsome hfree hpool =>
      rw [hret] at hsome
      obtain ⟨rfl, rfl⟩ := List.cons.inj hsome
      have hpool' : pool = s.hidden := by rw [hpool, hgone, List.map_nil, List.append_nil]
      have hspare' : assignOutputs free pool = [] := by rw [hfree, hpool']; exact hspare
      rw [hspare', hrefresh _ s.current_mem_screens, hvisible, hpool']
      simp

/-- Rebuilding a reachable policy for the outputs it has changes nothing. -/
theorem reconcile_self {cfg : Config} {p : Policy} (h : Reachable cfg p) :
    reconcile p.outputs p = p := by
  have hc := (managed_of_reachable h).toConsistent
  have hset : rebuild p.outputs p.windowSet = p.windowSet := by
    by_cases he : p.outputs.isEmpty
    · exact rebuild_virtual he (virtual_of_reachable h he)
    · exact rebuild_live hc.wellFormed hc.screens he
  rw [reconcile, hset]

/-! ## Known topology -/

/-- Topology that is known already. -/
inductive Republishes (p : Policy) : Event → Prop
  | output {oid : OutputId} {rect : Rect} :
      p.outputs[oid]? = some (positive rect) → Republishes p (.outputUpsert oid rect)
  | workArea {oid : OutputId} {rect : Rect} :
      p.workAreas[oid]? = some rect → Republishes p (.outputWorkArea oid rect)
  | window {wid : WindowId} :
      wid = 0 ∨ p.windowSet.member wid = true → Republishes p (.windowAdded wid)

/-- **Republished topology is a no-op**: an output with its rectangle, a work area, a
managed window or the null id changes nothing at all, and rebuilding the screens for the
outputs there are is the identity. -/
theorem republished_topology {cfg : Config} {p : Policy} (h : Reachable cfg p) :
    (∀ ev, Republishes p ev → handleEvent cfg ev p = (p, [])) ∧ reconcile p.outputs p = p := by
  have hself := reconcile_self h
  refine ⟨fun ev hev => ?_, hself⟩
  have hset := settled_of_reachable h
  cases hev with
  | @output oid rect hrect =>
      refine handleEvent_self cfg hset (if_neg fun hne => hne hrect) ?_
      simp only [handleOrdinaryEvent, map_insert_self hrect, hself]
  | @workArea oid rect hrect =>
      refine handleEvent_self cfg hset (if_neg fun hne => hne hrect) ?_
      simp only [handleOrdinaryEvent, map_insert_self hrect]
  | @window wid hwid =>
      refine handleEvent_self cfg hset (if_neg fun hne => ?_) (if_pos hwid)
      exact hwid.elim hne.2 hne.1

/-- Two outputs, a panel and a window, all reported again. -/
theorem republished_topology_panel :
    let p := runEvents defaultConfig [.outputUpsert 1 ⟨0, 0, 800, 600⟩,
      .outputUpsert 2 ⟨800, 0, 800, 600⟩, .outputWorkArea 2 ⟨800, 20, 800, 580⟩, .windowAdded 7]
      (initialPolicy defaultConfig)
    handleEvent defaultConfig (.outputUpsert 2 ⟨800, 0, 800, 600⟩) p = (p, [])
      ∧ handleEvent defaultConfig (.outputWorkArea 2 ⟨800, 20, 800, 580⟩) p = (p, [])
      ∧ handleEvent defaultConfig (.windowAdded 7) p = (p, [])
      ∧ reconcile p.outputs p = p := by
  intro p
  have hreach : Reachable defaultConfig p := reachable_runEvents validateConfig_defaultConfig _
  obtain ⟨hrepublished, hself⟩ := republished_topology hreach
  exact ⟨hrepublished _ (.output (by decide +kernel)),
    hrepublished _ (.workArea (by decide +kernel)),
    hrepublished _ (.window (by decide +kernel)), hself⟩

end XmonadWayland
