import XmonadWayland.Policy.Actions
import XmonadWayland.StackSet.Moves
import XmonadWayland.Base.Maps

/-!
# XmonadWayland.Policy.Rebuild

`reconcile` rebuilds the window set for a new set of outputs.  It works in one of
three ways (`Rebuilt`): a virtual screen when no output is left, all outputs fresh
when none of the displayed ones survives, and otherwise the surviving screens first
with the remaining outputs behind them.  In each, no workspace is lost or duplicated
and the screens match the outputs (`ScreensMatch`).
-/

namespace XmonadWayland

open StackSet

/-! ## Screens and outputs -/

/-- The screens are the outputs, as far as there are workspaces to show. -/
structure ScreensMatch (outputs : Map OutputId Rect) (s : WindowSet) : Prop where
  virtual : outputs.isEmpty → s.screens.map Screen.screen = [none]
  count : ¬outputs.isEmpty → s.screens.length = min outputs.size s.workspaces.length
  live : ¬outputs.isEmpty → ∀ sc ∈ s.screens, ∃ oid,
    sc.screen = some oid ∧ outputs[oid]? = some sc.screenDetail

/-- Only where the screens are and how many workspaces there are matters. -/
theorem ScreensMatch.of_perm {outputs : Map OutputId Rect} {s s' : WindowSet}
    (h : ScreensMatch outputs s) (hf : (s'.screens.map frame).Perm (s.screens.map frame))
    (hw : s'.workspaces.length = s.workspaces.length) : ScreensMatch outputs s' where
  virtual he := by
    have hperm := hf.map Prod.fst
    simp only [List.map_map] at hperm
    exact List.perm_singleton.mp (h.virtual he ▸ hperm)
  count he := by
    have hlen := hf.length_eq
    rw [List.length_map, List.length_map] at hlen
    rw [hlen, h.count he, hw]
  live he sc hsc := by
    obtain ⟨sc', hsc', heq⟩ := List.mem_map.mp (hf.mem_iff.mp (List.mem_map_of_mem hsc))
    obtain ⟨oid, hid, hrect⟩ := h.live he sc' hsc'
    simp only [frame, Prod.mk.injEq] at heq
    exact ⟨oid, heq.1 ▸ hid, heq.2 ▸ hrect⟩

/-! ## Assigning outputs to workspaces -/

/-- Workspaces are assigned in order. -/
theorem workspaces_assignOutputs (available : List (OutputId × Rect))
    (pool : List WindowWorkspace) :
    (assignOutputs available pool).map Screen.workspace = pool.take available.length := by
  induction available generalizing pool with
  | nil => rfl
  | cons entry available ih =>
      cases pool with
      | nil => rfl
      | cons w pool => simp [assignOutputs, ← ih]

/-- So are outputs. -/
theorem frames_assignOutputs (available : List (OutputId × Rect)) (pool : List WindowWorkspace) :
    (assignOutputs available pool).map frame
      = (available.take pool.length).map fun entry => (some entry.1, entry.2) := by
  induction available generalizing pool with
  | nil => simp [assignOutputs]
  | cons entry available ih =>
      cases pool with
      | nil => rfl
      | cons w pool => simp [assignOutputs, ← ih, frame]

/-- As many as there are of both. -/
theorem length_assignOutputs (available : List (OutputId × Rect)) (pool : List WindowWorkspace) :
    (assignOutputs available pool).length = min available.length pool.length := by
  rw [assignOutputs, List.length_zipWith]

/-- The assigned workspaces followed by the rest of the pool are the pool. -/
theorem assignOutputs_append (available : List (OutputId × Rect)) (pool : List WindowWorkspace) :
    (assignOutputs available pool).map Screen.workspace
      ++ pool.drop (assignOutputs available pool).length = pool := by
  rw [workspaces_assignOutputs, length_assignOutputs]
  rcases Nat.le_total available.length pool.length with h | h
  · rw [Nat.min_eq_left h, List.take_append_drop]
  · rw [Nat.min_eq_right h, List.take_of_length_le h, List.drop_length, List.append_nil]

/-! ## The three regimes -/

/-- Outputs no surviving screen uses, by ascending id. -/
def freeOutputs (newOutputs : Map OutputId Rect) (retained : List OutputScreen) :
    List (OutputId × Rect) :=
  newOutputs.toList.filter fun entry => entry.1 ∉ retained.filterMap Screen.screen

/-- What `rebuild` can produce. -/
inductive Rebuilt (newOutputs : Map OutputId Rect) (old : WindowSet) : WindowSet → Prop
  | virtual : newOutputs.isEmpty → Rebuilt newOutputs old
      ⟨⟨old.current.workspace, none, ⟨0, 0, 1, 1⟩⟩, [],
        old.visible.map Screen.workspace ++ old.hidden, old.floating⟩
  | fresh (oid : OutputId) (rect : Rect) (rest : List (OutputId × Rect)) :
      newOutputs.toList = (oid, rect) :: rest →
      old.screens.filter (alive newOutputs) = [] →
      Rebuilt newOutputs old ⟨⟨old.current.workspace, some oid, rect⟩,
        assignOutputs rest (old.visible.map Screen.workspace ++ old.hidden),
        (old.visible.map Screen.workspace ++ old.hidden).drop
          (assignOutputs rest (old.visible.map Screen.workspace ++ old.hidden)).length,
        old.floating⟩
  | surviving (cur : OutputScreen) (vis : List OutputScreen)
      (free : List (OutputId × Rect)) (pool : List WindowWorkspace) :
      old.screens.filter (alive newOutputs) = cur :: vis →
      free = freeOutputs newOutputs (cur :: vis) →
      pool = old.hidden
        ++ (old.screens.filter fun s => !alive newOutputs s).map Screen.workspace →
      Rebuilt newOutputs old ⟨refresh newOutputs cur,
        vis.map (refresh newOutputs) ++ assignOutputs free pool,
        pool.drop (assignOutputs free pool).length, old.floating⟩

theorem isEmpty_of_toList_nil {m : Map OutputId Rect} (h : m.toList = []) : m.isEmpty := by
  rw [← Std.ExtTreeMap.isEmpty_toList, h]
  rfl

/-- `rebuild` works in one of the three ways. -/
theorem rebuilt_rebuild (newOutputs : Map OutputId Rect) (old : WindowSet) :
    Rebuilt newOutputs old (rebuild newOutputs old) := by
  unfold rebuild
  split
  · next he => exact .virtual he
  · next he =>
    cases hret : old.screens.filter (alive newOutputs) with
    | nil =>
        cases hl : newOutputs.toList with
        | nil => exact absurd (isEmpty_of_toList_nil hl) he
        | cons entry rest => exact .fresh entry.1 entry.2 rest hl hret
    | cons cur vis => exact .surviving cur vis _ _ hret rfl rfl

theorem workspace_refresh (newOutputs : Map OutputId Rect) (s : OutputScreen) :
    (refresh newOutputs s).workspace = s.workspace := by
  unfold refresh
  split <;> rfl

theorem screen_refresh (newOutputs : Map OutputId Rect) (s : OutputScreen) :
    (refresh newOutputs s).screen = s.screen := by
  unfold refresh
  split <;> rfl

/-- A surviving screen carries its output's new rectangle. -/
theorem exists_of_alive {newOutputs : Map OutputId Rect} {s : OutputScreen}
    (h : alive newOutputs s) : ∃ oid, (refresh newOutputs s).screen = some oid
      ∧ newOutputs[oid]? = some (refresh newOutputs s).screenDetail := by
  unfold alive at h
  cases hid : s.screen with
  | none => simp [hid] at h
  | some oid =>
      simp only [hid] at h
      obtain ⟨r, hr⟩ := mem_map_iff.mp (Std.ExtTreeMap.mem_iff_contains.mpr h)
      exact ⟨oid, by rw [screen_refresh, hid], by simp [refresh, hid, hr]⟩

/-! ## No workspace is lost -/

/-- Rebuilding keeps the workspaces, each with its layout and its stack. -/
theorem workspaces_rebuild_perm (newOutputs : Map OutputId Rect) (old : WindowSet) :
    (rebuild newOutputs old).workspaces.Perm old.workspaces := by
  have h := rebuilt_rebuild newOutputs old
  generalize rebuild newOutputs old = s at h ⊢
  cases h with
  | virtual he => exact List.Perm.refl _
  | fresh oid rect rest hl hnone =>
      rw [workspaces_eq, screens, List.map_cons, List.cons_append, assignOutputs_append]
      exact List.Perm.refl _
  | surviving cur vis free pool hsome hfree hpool =>
      have hall : ((cur :: vis).map Screen.workspace ++ pool).Perm old.workspaces := by
        have hsplit := List.filter_append_perm (alive newOutputs) old.screens
        rw [hsome] at hsplit
        have hmap := hsplit.map Screen.workspace
        rw [List.map_append] at hmap
        rw [hpool, workspaces_eq]
        refine (List.perm_append_comm.append_left _).trans ?_
        rw [← List.append_assoc]
        exact hmap.append_right _
      refine List.Perm.trans (List.Perm.of_eq ?_) hall
      simp only [workspaces_eq, screens, List.map_cons, List.map_append, List.map_map,
        List.cons_append, List.append_assoc, assignOutputs_append, Function.comp_def,
        workspace_refresh]

/-! ## The screens match the outputs -/

theorem nodup_toList_keys (m : Map OutputId Rect) : (m.toList.map Prod.fst).Nodup := by
  rw [Std.ExtTreeMap.map_fst_toList_eq_keys]
  exact m.nodup_keys

theorem screens_assignOutputs (available : List (OutputId × Rect)) (pool : List WindowWorkspace) :
    (assignOutputs available pool).map Screen.screen
      = (available.take pool.length).map fun entry => some entry.1 := by
  have h := congrArg (List.map Prod.fst) (frames_assignOutputs available pool)
  rwa [List.map_map, List.map_map] at h

/-- Assigned screens are on outputs of the list, with their rectangles. -/
theorem exists_of_mem_assignOutputs {available : List (OutputId × Rect)}
    {pool : List WindowWorkspace} {sc : OutputScreen} (h : sc ∈ assignOutputs available pool) :
    ∃ oid, sc.screen = some oid ∧ (oid, sc.screenDetail) ∈ available := by
  have hf : frame sc ∈ (available.take pool.length).map fun entry => (some entry.1, entry.2) :=
    frames_assignOutputs available pool ▸ List.mem_map_of_mem h
  obtain ⟨⟨oid, r⟩, hmem, heq⟩ := List.mem_map.mp hf
  simp only [frame, Prod.mk.injEq] at heq
  exact ⟨oid, heq.1.symm, heq.2 ▸ List.mem_of_mem_take hmem⟩

/-- No output is assigned twice. -/
theorem nodup_assigned {available : List (OutputId × Rect)} (pool : List WindowWorkspace)
    (h : (available.map Prod.fst).Nodup) :
    ((assignOutputs available pool).map Screen.screen).Nodup := by
  rw [screens_assignOutputs]
  have htake : ((available.take pool.length).map Prod.fst).Nodup :=
    h.sublist ((List.take_sublist _ _).map _)
  have hsome := htake.map (Option.some_injective _)
  rwa [List.map_map] at hsome

/-- The retained screens, each once. -/
theorem retained_nodup {old : WindowSet} (hs : old.WellFormed) (newOutputs : Map OutputId Rect) :
    ((old.screens.filter (alive newOutputs)).map Screen.screen).Nodup :=
  hs.screens_nodup.sublist (List.filter_sublist.map _)

theorem map_screen_refresh (newOutputs : Map OutputId Rect) (l : List OutputScreen) :
    (l.map (refresh newOutputs)).map Screen.screen = l.map Screen.screen := by
  rw [List.map_map]
  exact List.map_congr_left fun s _ => screen_refresh newOutputs s

/-- No output is free twice. -/
theorem freeOutputs_nodup (newOutputs : Map OutputId Rect) (retained : List OutputScreen) :
    ((freeOutputs newOutputs retained).map Prod.fst).Nodup :=
  (nodup_toList_keys newOutputs).sublist (List.filter_sublist.map _)

/-- No output has two screens. -/
theorem screens_rebuild_nodup {old : WindowSet} (hs : old.WellFormed)
    (newOutputs : Map OutputId Rect) :
    ((rebuild newOutputs old).screens.map Screen.screen).Nodup := by
  have h := rebuilt_rebuild newOutputs old
  generalize rebuild newOutputs old = s at h ⊢
  cases h with
  | virtual he => simp [screens]
  | fresh oid rect rest hl hnone =>
      have hkeys := nodup_toList_keys newOutputs
      rw [hl, List.map_cons, List.nodup_cons] at hkeys
      simp only [screens, List.map_cons, List.nodup_cons]
      refine ⟨fun hmem => ?_, nodup_assigned _ hkeys.2⟩
      obtain ⟨sc, hsc, heq⟩ := List.mem_map.mp hmem
      obtain ⟨oid', hid, hrest⟩ := exists_of_mem_assignOutputs hsc
      have hoid : oid' = oid := by simpa [hid] using heq
      exact hkeys.1 (List.mem_map.mpr ⟨_, hrest, hoid⟩)
  | surviving cur vis free pool hsome hfree hpool =>
      have hret := retained_nodup hs newOutputs
      rw [hsome] at hret
      have hlist : (screens (⟨refresh newOutputs cur, vis.map (refresh newOutputs)
            ++ assignOutputs free pool, pool.drop (assignOutputs free pool).length,
            old.floating⟩ : WindowSet)).map Screen.screen
          = (cur :: vis).map Screen.screen
            ++ (assignOutputs free pool).map Screen.screen := by
        rw [screens, List.map_cons, List.map_append, map_screen_refresh, screen_refresh]
        rfl
      rw [hlist, List.nodup_append]
      refine ⟨hret, nodup_assigned pool (hfree ▸ freeOutputs_nodup newOutputs _), ?_⟩
      intro i hi j hj heq
      obtain ⟨sc, hsc, rfl⟩ := List.mem_map.mp hi
      obtain ⟨sc', hsc', rfl⟩ := List.mem_map.mp hj
      obtain ⟨oid, hid, hfreemem⟩ := exists_of_mem_assignOutputs hsc'
      rw [hfree, freeOutputs, List.mem_filter] at hfreemem
      have hnot : oid ∉ (cur :: vis).filterMap Screen.screen := by simpa using hfreemem.2
      exact hnot (List.mem_filterMap.mpr ⟨sc, hsc, by rw [heq, hid]⟩)

/-- The outputs no surviving screen uses are the others. -/
theorem length_freeOutputs {newOutputs : Map OutputId Rect} {retained : List OutputScreen}
    (hnd : (retained.map Screen.screen).Nodup) (halive : ∀ s ∈ retained, alive newOutputs s) :
    (freeOutputs newOutputs retained).length + retained.length = newOutputs.size := by
  have hids : (retained.filterMap Screen.screen).map some = retained.map Screen.screen := by
    rw [List.map_filterMap]
    have hsome : ∀ s ∈ retained, (Screen.screen s).map some = some (Screen.screen s) := by
      intro s hs
      obtain ⟨oid, hid, -⟩ := exists_of_alive (halive s hs)
      rw [screen_refresh] at hid
      rw [hid]
      rfl
    rw [List.filterMap_congr hsome, List.filterMap_eq_map']
  have hassigned : (retained.filterMap Screen.screen).Nodup := by
    rw [← hids] at hnd
    exact List.Nodup.of_map _ hnd
  have hused : (newOutputs.toList.filter fun entry =>
      entry.1 ∈ retained.filterMap Screen.screen).length = retained.length := by
    have hperm : ((newOutputs.toList.filter fun entry =>
        entry.1 ∈ retained.filterMap Screen.screen).map Prod.fst).Perm
          (retained.filterMap Screen.screen) := by
      refine (List.perm_ext_iff_of_nodup
        ((nodup_toList_keys newOutputs).sublist (List.filter_sublist.map _)) hassigned).mpr ?_
      intro oid
      simp only [List.mem_map, List.mem_filter, decide_eq_true_eq]
      constructor
      · rintro ⟨entry, ⟨-, hin⟩, rfl⟩
        exact hin
      · intro hin
        obtain ⟨s, hs, hid⟩ := List.mem_filterMap.mp hin
        obtain ⟨oid', hid', hr⟩ := exists_of_alive (halive s hs)
        rw [screen_refresh, hid, Option.some.injEq] at hid'
        exact ⟨(oid, _), ⟨Std.ExtTreeMap.mem_toList_iff_getElem?_eq_some.mpr (hid' ▸ hr), hin⟩, rfl⟩
    have hlen := hperm.length_eq
    have hlen' := congrArg List.length hids
    rw [List.length_map] at hlen
    rw [List.length_map, List.length_map] at hlen'
    rw [hlen, hlen']
  have hsplit := (List.filter_append_perm (fun entry : OutputId × Rect =>
    decide (entry.1 ∈ retained.filterMap Screen.screen)) newOutputs.toList).length_eq
  rw [List.length_append, hused, Std.ExtTreeMap.length_toList] at hsplit
  have hfree : (freeOutputs newOutputs retained).length
      = (newOutputs.toList.filter fun entry =>
          !decide (entry.1 ∈ retained.filterMap Screen.screen)).length := by
    simp only [freeOutputs, decide_not]
  omega

/-- Rebuilt screens match the outputs. -/
theorem screensMatch_rebuild {old : WindowSet} (hs : old.WellFormed)
    (newOutputs : Map OutputId Rect) : ScreensMatch newOutputs (rebuild newOutputs old) := by
  have hlen := (workspaces_rebuild_perm newOutputs old).length_eq
  have h := rebuilt_rebuild newOutputs old
  generalize rebuild newOutputs old = s at h hlen ⊢
  cases h with
  | virtual he => exact ⟨fun _ => rfl, fun hne => absurd he hne, fun hne => absurd he hne⟩
  | fresh oid rect rest hl hnone =>
      have hne : ¬newOutputs.isEmpty := by
        rw [← Std.ExtTreeMap.isEmpty_toList, hl]
        simp
      have hlookup : ∀ entry ∈ (oid, rect) :: rest, newOutputs[entry.1]? = some entry.2 :=
        fun entry hmem => Std.ExtTreeMap.mem_toList_iff_getElem?_eq_some.mp (hl ▸ hmem)
      refine ⟨fun he => absurd he hne, fun _ => ?_, fun _ sc hsc => ?_⟩
      · rw [hlen, ← Std.ExtTreeMap.length_toList, hl]
        simp only [screens, List.length_cons, length_assignOutputs, workspaces, List.length_append,
          List.length_map, List.cons_append]
        omega
      · rcases List.mem_cons.mp hsc with rfl | hsc
        · exact ⟨oid, rfl, hlookup _ List.mem_cons_self⟩
        · obtain ⟨oid', hid, hmem⟩ := exists_of_mem_assignOutputs hsc
          exact ⟨oid', hid, hlookup _ (List.mem_cons_of_mem _ hmem)⟩
  | surviving cur vis free pool hsome hfree hpool =>
      have halive : ∀ s ∈ cur :: vis, alive newOutputs s := fun s hmem =>
        (List.mem_filter.mp (hsome ▸ hmem)).2
      have hnd := retained_nodup hs newOutputs
      rw [hsome] at hnd
      have hcount := length_freeOutputs hnd halive
      have hsplit := (List.filter_append_perm (alive newOutputs) old.screens).length_eq
      rw [List.length_append, hsome] at hsplit
      have hne : ¬newOutputs.isEmpty := by
        obtain ⟨oid, -, hr⟩ := exists_of_alive (halive cur List.mem_cons_self)
        intro he
        rw [Std.ExtTreeMap.isEmpty_iff.mp he] at hr
        simp at hr
      refine ⟨fun he => absurd he hne, fun _ => ?_, fun _ sc hsc => ?_⟩
      · rw [hlen, workspaces_eq]
        simp only [screens, List.length_cons, List.length_append, List.length_map,
          length_assignOutputs, hfree, hpool] at hcount hsplit ⊢
        omega
      · simp only [screens, List.mem_cons, List.mem_append, List.mem_map] at hsc
        rcases hsc with rfl | ⟨s, hmem, rfl⟩ | hsc
        · exact exists_of_alive (halive cur List.mem_cons_self)
        · exact exists_of_alive (halive s (List.mem_cons_of_mem _ hmem))
        · obtain ⟨oid, hid, hmem⟩ := exists_of_mem_assignOutputs hsc
          rw [hfree, freeOutputs, List.mem_filter] at hmem
          exact ⟨oid, hid, Std.ExtTreeMap.mem_toList_iff_getElem?_eq_some.mp hmem.1⟩

/-- Rebuilding keeps the set well formed. -/
theorem wellFormed_rebuild {old : WindowSet} (hs : old.WellFormed)
    (newOutputs : Map OutputId Rect) : (rebuild newOutputs old).WellFormed where
  tags_nodup := ((workspaces_rebuild_perm newOutputs old).map _).nodup_iff.mpr hs.tags_nodup
  screens_nodup := screens_rebuild_nodup hs newOutputs
  windows_nodup :=
    ((workspaces_rebuild_perm newOutputs old).flatMap_right _).nodup_iff.mpr hs.windows_nodup

end XmonadWayland
