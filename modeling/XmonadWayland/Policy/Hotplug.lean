import XmonadWayland.Policy.Invariant

/-!
# XmonadWayland.Policy.Hotplug

Outputs come and go without disturbing the workspaces.  Workspaces keep layout and
stack, a surviving output keeps what it displays, and the current workspace only
changes when its output goes while another displaying output stays.  With fewer
workspaces than outputs a remaining output may display nothing: the current
workspace then moves to it.
-/

namespace XmonadWayland

open StackSet

/-- An output appears, changes or disappears. -/
def Event.isHotplug : Event → Bool
  | .outputUpsert _ _ => true
  | .outputRemoved _ => true
  | _ => false

/-- Hotplug rebuilds the window set for the outputs it leaves. -/
theorem windowSet_step_hotplug (cfg : Config) (p : Policy) {ev : Event} (hev : ev.isHotplug) :
    (step cfg p ev).windowSet = rebuild (step cfg p ev).outputs p.windowSet := by
  have hprep := frame_preparePointerEvent ev p
  have hfin := frame_finish (preparePointerEvent ev p)
    (handleOrdinaryEvent cfg ev (preparePointerEvent ev p)).1
  have hout : (step cfg p ev).outputs
      = (handleOrdinaryEvent cfg ev (preparePointerEvent ev p)).1.outputs := hfin.outputs
  have hws : (step cfg p ev).windowSet
      = (handleOrdinaryEvent cfg ev (preparePointerEvent ev p)).1.windowSet := hfin.windowSet
  rw [hout, hws, ← hprep.windowSet]
  cases ev with
  | outputUpsert oid rect => rfl
  | outputRemoved oid => rfl
  | _ => contradiction

/-- A screen is alive while its output is there. -/
theorem alive_iff {newOutputs : Map OutputId Rect} {s : OutputScreen} :
    alive newOutputs s = true ↔ ∃ oid, s.screen = some oid ∧ oid ∈ newOutputs := by
  unfold alive
  cases s.screen with
  | none => simp
  | some oid => simp

/-- Surviving screens keep their outputs and workspaces, the first becomes current. -/
theorem screens_rebuild_of_alive {newOutputs : Map OutputId Rect} {old : WindowSet}
    {sc : OutputScreen} (hsc : sc ∈ old.screens) (ha : alive newOutputs sc) :
    ∃ cur vis assigned, old.screens.filter (alive newOutputs) = cur :: vis
      ∧ (rebuild newOutputs old).current = refresh newOutputs cur
      ∧ (rebuild newOutputs old).visible = vis.map (refresh newOutputs) ++ assigned := by
  have hmem : sc ∈ old.screens.filter (alive newOutputs) := List.mem_filter.mpr ⟨hsc, ha⟩
  have h := rebuilt_rebuild newOutputs old
  generalize rebuild newOutputs old = s at h ⊢
  cases h with
  | virtual he =>
      obtain ⟨oid, -, hin⟩ := alive_iff.mp ha
      rw [Std.ExtTreeMap.isEmpty_iff.mp he] at hin
      exact absurd hin Std.ExtTreeMap.not_mem_empty
  | fresh oid rect rest hl hnone =>
      rw [hnone] at hmem
      contradiction
  | surviving cur vis free pool hsome hfree hpool => exact ⟨cur, vis, _, hsome, rfl, rfl⟩

/-- A surviving screen still displays its workspace. -/
theorem exists_screen_rebuild {newOutputs : Map OutputId Rect} {old : WindowSet}
    {sc : OutputScreen} (hsc : sc ∈ old.screens) (ha : alive newOutputs sc) :
    ∃ sc' ∈ (rebuild newOutputs old).screens,
      sc'.screen = sc.screen ∧ sc'.workspace = sc.workspace := by
  have hmem : sc ∈ old.screens.filter (alive newOutputs) := List.mem_filter.mpr ⟨hsc, ha⟩
  obtain ⟨cur, vis, assigned, hsome, hcurrent, hvisible⟩ := screens_rebuild_of_alive hsc ha
  rw [hsome] at hmem
  refine ⟨refresh newOutputs sc, ?_, screen_refresh _ _, workspace_refresh _ _⟩
  rw [screens, hcurrent, hvisible]
  rcases List.mem_cons.mp hmem with rfl | hvis
  · exact List.mem_cons_self
  · exact List.mem_cons_of_mem _ (List.mem_append_left _ (List.mem_map_of_mem hvis))

/-- The current workspace stays while its output survives. -/
theorem currentTag_rebuild_of_alive {newOutputs : Map OutputId Rect} {old : WindowSet}
    (ha : alive newOutputs old.current) : (rebuild newOutputs old).currentTag = old.currentTag := by
  have h := rebuilt_rebuild newOutputs old
  generalize rebuild newOutputs old = s at h ⊢
  cases h with
  | virtual he => rfl
  | fresh oid rect rest hl hnone => rfl
  | surviving cur vis free pool hsome hfree hpool =>
      rw [screens, List.filter_cons_of_pos ha, List.cons.injEq] at hsome
      rw [currentTag, workspace_refresh, ← hsome.1]
      rfl

/-- It stays as well when no displayed output survives. -/
theorem currentTag_rebuild_of_none {newOutputs : Map OutputId Rect} {old : WindowSet}
    (hnone : ∀ sc ∈ old.screens, alive newOutputs sc = false) :
    (rebuild newOutputs old).currentTag = old.currentTag := by
  have h := rebuilt_rebuild newOutputs old
  generalize rebuild newOutputs old = s at h ⊢
  cases h with
  | virtual he => rfl
  | fresh oid rect rest hl hret => rfl
  | surviving cur vis free pool hsome hfree hpool =>
      have hcur : cur ∈ old.screens.filter (alive newOutputs) := hsome ▸ List.mem_cons_self
      obtain ⟨hmem, ha⟩ := List.mem_filter.mp hcur
      rw [hnone cur hmem] at ha
      contradiction

/-- It is then shown on an output, if one is left. -/
theorem screen_rebuild_of_none {newOutputs : Map OutputId Rect} {old : WindowSet}
    (hnone : ∀ sc ∈ old.screens, alive newOutputs sc = false) (houtputs : newOutputs ≠ ∅) :
    ∃ oid ∈ newOutputs, (rebuild newOutputs old).current.screen = some oid := by
  have h := rebuilt_rebuild newOutputs old
  generalize rebuild newOutputs old = s at h ⊢
  cases h with
  | virtual he => exact absurd (Std.ExtTreeMap.isEmpty_iff.mp he) houtputs
  | fresh oid rect rest hl hret =>
      have hfirst : (oid, rect) ∈ newOutputs.toList := hl ▸ List.mem_cons_self
      have hget := Std.ExtTreeMap.mem_toList_iff_getElem?_eq_some.mp hfirst
      exact ⟨oid, Std.ExtTreeMap.mem_iff_isSome_getElem?.mpr (hget ▸ rfl), rfl⟩
  | surviving cur vis free pool hsome hfree hpool =>
      have hcur : cur ∈ old.screens.filter (alive newOutputs) := hsome ▸ List.mem_cons_self
      obtain ⟨hmem, ha⟩ := List.mem_filter.mp hcur
      rw [hnone cur hmem] at ha
      contradiction

/-- Otherwise a surviving output's workspace becomes current. -/
theorem exists_current_rebuild {newOutputs : Map OutputId Rect} {old : WindowSet}
    (hsome : ∃ sc ∈ old.screens, alive newOutputs sc = true) :
    ∃ sc ∈ old.screens, alive newOutputs sc = true
      ∧ sc.workspace.tag = (rebuild newOutputs old).currentTag := by
  obtain ⟨sc, hsc, ha⟩ := hsome
  obtain ⟨cur, vis, assigned, hret, hcurrent, -⟩ := screens_rebuild_of_alive hsc ha
  have hcur : cur ∈ old.screens.filter (alive newOutputs) := hret ▸ List.mem_cons_self
  obtain ⟨hcurmem, hcura⟩ := List.mem_filter.mp hcur
  exact ⟨cur, hcurmem, hcura, by rw [currentTag, hcurrent, workspace_refresh]⟩

/-- Without outputs no screen is on one. -/
theorem alive_of_no_output {tags : List WorkspaceId} {p : Policy} (hc : Consistent tags p)
    (he : p.outputs = ∅) {newOutputs : Map OutputId Rect} :
    ∀ sc ∈ p.windowSet.screens, alive newOutputs sc = false := by
  intro sc hsc
  have hv := hc.screens.virtual (Std.ExtTreeMap.isEmpty_iff.mpr he)
  have hid : sc.screen ∈ p.windowSet.screens.map Screen.screen := List.mem_map_of_mem hsc
  rw [hv, List.mem_singleton] at hid
  rw [alive, hid]

/-- **Hotplug stability**: workspaces keep layout and stack, surviving outputs keep
their workspace, and so does the session unless its output goes while another
displaying one stays. -/
theorem hotplug_stability {cfg : Config} {p : Policy} (h : Reachable cfg p) {ev : Event}
    (hev : ev.isHotplug) :
    let p' := step cfg p ev
    p'.windowSet.workspaces.Perm p.windowSet.workspaces
      ∧ (∀ oid ∈ p'.outputs, ∀ sc ∈ p.windowSet.screens, sc.screen = some oid →
        ∃ sc' ∈ p'.windowSet.screens, sc'.screen = some oid
          ∧ sc'.workspace.tag = sc.workspace.tag)
      ∧ ((∃ oid ∈ p'.outputs, p.windowSet.current.screen = some oid)
          ∨ p.outputs = ∅ ∨ p'.outputs = ∅ →
        p'.windowSet.currentTag = p.windowSet.currentTag)
      ∧ ((∃ oid ∈ p'.outputs, ∃ sc ∈ p.windowSet.screens, sc.screen = some oid) →
        ∃ oid ∈ p'.outputs, ∃ sc ∈ p.windowSet.screens, sc.screen = some oid
          ∧ sc.workspace.tag = p'.windowSet.currentTag)
      ∧ ((¬∃ oid ∈ p'.outputs, ∃ sc ∈ p.windowSet.screens, sc.screen = some oid) →
        p'.windowSet.currentTag = p.windowSet.currentTag
          ∧ (p'.outputs ≠ ∅ → ∃ oid ∈ p'.outputs, p'.windowSet.current.screen = some oid)) := by
  intro p'
  have hc := (managed_of_reachable h).toConsistent
  have hws : p'.windowSet = rebuild p'.outputs p.windowSet := windowSet_step_hotplug cfg p hev
  have hsurvive : (∃ oid ∈ p'.outputs, ∃ sc ∈ p.windowSet.screens, sc.screen = some oid) ↔
      ∃ sc ∈ p.windowSet.screens, alive p'.outputs sc = true := by
    constructor
    · rintro ⟨oid, hin, sc, hsc, hid⟩
      exact ⟨sc, hsc, alive_iff.mpr ⟨oid, hid, hin⟩⟩
    · rintro ⟨sc, hsc, ha⟩
      obtain ⟨oid, hid, hin⟩ := alive_iff.mp ha
      exact ⟨oid, hin, sc, hsc, hid⟩
  rw [hws]
  refine ⟨workspaces_rebuild_perm _ _, ?_, ?_, ?_, ?_⟩
  · intro oid hin sc hsc hid
    obtain ⟨sc', hsc', hid', htag⟩ := exists_screen_rebuild hsc (alive_iff.mpr ⟨oid, hid, hin⟩)
    exact ⟨sc', hsc', hid'.trans hid, congrArg Workspace.tag htag⟩
  · rintro (⟨oid, hin, hid⟩ | hbefore | hafter)
    · exact currentTag_rebuild_of_alive (alive_iff.mpr ⟨oid, hid, hin⟩)
    · exact currentTag_rebuild_of_none (alive_of_no_output hc hbefore)
    · refine currentTag_rebuild_of_none fun sc _ => ?_
      rw [hafter, alive]
      cases sc.screen <;> rfl
  · intro hsome
    obtain ⟨sc, hsc, ha, htag⟩ := exists_current_rebuild (hsurvive.mp hsome)
    obtain ⟨oid, hid, hin⟩ := alive_iff.mp ha
    exact ⟨oid, hin, sc, hsc, hid, htag⟩
  · intro hnone
    have hdead : ∀ sc ∈ p.windowSet.screens, alive p'.outputs sc = false := by
      intro sc hsc
      rw [Bool.eq_false_iff]
      exact fun ha => hnone (hsurvive.mpr ⟨sc, hsc, ha⟩)
    exact ⟨currentTag_rebuild_of_none hdead, screen_rebuild_of_none hdead⟩

/-- The first of two outputs goes. -/
theorem hotplug_stability_default :
    let p := runEvents defaultConfig [.outputUpsert 1 ⟨0, 0, 800, 600⟩,
      .outputUpsert 2 ⟨800, 0, 800, 600⟩] (initialPolicy defaultConfig)
    (step defaultConfig p (.outputRemoved 1)).windowSet.workspaces.Perm p.windowSet.workspaces :=
  (hotplug_stability (reachable_runEvents validateConfig_defaultConfig
    [.outputUpsert 1 ⟨0, 0, 800, 600⟩, .outputUpsert 2 ⟨800, 0, 800, 600⟩])
    (rfl : (Event.outputRemoved 1).isHotplug = true)).1

/-- A single workspace, displayed on the first of two outputs, moves to the second
when the first goes: no surviving output was displaying it. -/
theorem hotplug_undisplayed_output :
    let cfg := { defaultConfig with workspaceIds := [1], keyBindings := [] }
    let p := runEvents cfg [.outputUpsert 1 ⟨0, 0, 800, 600⟩, .outputUpsert 2 ⟨800, 0, 800, 600⟩]
      (initialPolicy cfg)
    let p' := step cfg p (.outputRemoved 1)
    validateConfig cfg = .ok () ∧ p.windowSet.current.screen = some 1
      ∧ 1 ∉ p'.outputs ∧ p'.outputs.isEmpty = false
      ∧ ¬∃ sc ∈ p.windowSet.screens, alive p'.outputs sc = true
        ∧ sc.workspace.tag = p'.windowSet.currentTag := by
  decide +kernel

end XmonadWayland
